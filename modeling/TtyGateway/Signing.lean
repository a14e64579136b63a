import TtyGateway.Moves
import Mathlib.Data.List.Nodup

namespace TtyGateway

open Transition

/-- A call of `sign`, with what becomes of the write of its request. -/
structure SignCall where
  publicKey : Bytes
  data : Bytes
  write : Except String Unit

/-- `next_id`, what the signer has sent (with the outcome of each write), and what the client stream
still brings, the errors of `recv` included. -/
structure ControlSigner where
  nextId : UInt64
  sends : List (ServerFrame × Except String Unit)
  unread : List Recv

def ControlSigner.new (unread : List Recv) : ControlSigner := ⟨1, [], unread⟩

/-- What `sign` makes of a frame while it waits for `id`: a result, or another round. -/
def signVerdict (id : UInt64) : Recv → Option (Except String Bytes)
  | .error e => some (.error e)
  | .ok (.signResponse rid signature) => if rid = id then some (.ok signature) else none
  | .ok .ping => none
  | .ok other => some (.error ("unexpected frame during signing: " ++ other.debug))

/-- The loop of `sign`: its result, if it comes to one, and what it leaves unread. -/
def awaitSignature (id : UInt64) : List Recv → Option (Except String Bytes) × List Recv
  | [] => (none, [])
  | r :: unread =>
    match signVerdict id r with
    | some result => (some result, unread)
    | none => awaitSignature id unread

def ControlSigner.sign (x : ControlSigner) (call : SignCall) :
    Option (Except String Bytes) × ControlSigner :=
  let id := x.nextId
  let x := { x with
    nextId := id + 1
    sends := x.sends ++ [(.signRequest id call.publicKey call.data, call.write)] }
  match call.write with
  | .error e => (some (.error e), x)
  | .ok () => ((awaitSignature id x.unread).1, { x with unread := (awaitSignature id x.unread).2 })

def ControlSigner.after (x : ControlSigner) : List SignCall → Option ControlSigner
  | [] => some x
  | call :: calls => if (x.sign call).1.isSome then (x.sign call).2.after calls else none

/-- A `Ping`, or the answer to another challenge. -/
def Skips (id : UInt64) (r : Recv) : Prop :=
  r = .ok .ping ∨ ∃ rid signature, rid ≠ id ∧ r = .ok (.signResponse rid signature)

def requestId : ServerFrame → Option UInt64
  | .signRequest id _ _ => some id
  | _ => none

section Await

variable {id : UInt64} {r : Recv} {frames rest : List Recv} {signature : Bytes}
  {result : Except String Bytes}

theorem signVerdict_eq_none : signVerdict id r = none ↔ Skips id r := by
  rcases r with e | frame
  · simp [signVerdict, Skips]
  · cases frame <;> simp [signVerdict, Skips]

theorem signVerdict_eq_ok : signVerdict id r = some (.ok signature) ↔
    r = .ok (.signResponse id signature) := by
  rcases r with e | frame
  · simp [signVerdict]
  · cases frame with
    | signResponse rid answer =>
      simp only [signVerdict]
      split
      next he => simp [he]
      next hne => simp [hne]
    | _ => simp [signVerdict]

theorem awaitSignature_skip {skipped : List Recv} (h : ∀ f ∈ skipped, Skips id f) :
    awaitSignature id (skipped ++ rest) = awaitSignature id rest := by
  induction skipped with
  | nil => rfl
  | cons f skipped ih =>
    have hf := signVerdict_eq_none.mpr (h f (by simp))
    rw [List.cons_append, awaitSignature, hf]
    exact ih fun g hg => h g (by simp [hg])

/-- `sign` returns at the first frame that it does not pass over. -/
theorem awaitSignature_eq_some : awaitSignature id frames = (some result, rest) ↔
    ∃ skipped r, frames = skipped ++ r :: rest ∧ (∀ f ∈ skipped, Skips id f) ∧
      signVerdict id r = some result := by
  constructor
  · intro h
    induction frames with
    | nil => simp [awaitSignature] at h
    | cons f frames ih =>
      rw [awaitSignature] at h
      split at h
      next found hf =>
        cases h
        exact ⟨[], f, rfl, by simp, hf⟩
      next hf =>
        obtain ⟨skipped, r, rfl, hskip, hr⟩ := ih h
        refine ⟨f :: skipped, r, rfl, ?_, hr⟩
        intro g hg
        rcases List.mem_cons.mp hg with rfl | hg
        · exact signVerdict_eq_none.mp hf
        · exact hskip g hg
  · rintro ⟨skipped, r, rfl, hskip, hr⟩
    rw [awaitSignature_skip hskip, awaitSignature, hr]

end Await

section Calls

variable {x y : ControlSigner} {call : SignCall} {calls earlier : List SignCall}

@[simp] theorem ControlSigner.sign_nextId : (x.sign call).2.nextId = x.nextId + 1 := by
  unfold ControlSigner.sign
  split <;> rfl

@[simp] theorem ControlSigner.sign_sends : (x.sign call).2.sends =
    x.sends ++ [(.signRequest x.nextId call.publicKey call.data, call.write)] := by
  unfold ControlSigner.sign
  split <;> rfl

theorem ControlSigner.sign_unwritten {e : String} (h : call.write = .error e) :
    (x.sign call).1 = some (.error e) ∧ (x.sign call).2.unread = x.unread := by
  simp [ControlSigner.sign, h]

theorem ControlSigner.sign_written (h : call.write = .ok ()) {result : Option (Except String Bytes)}
    {rest : List Recv} : (x.sign call).1 = result ∧ (x.sign call).2.unread = rest ↔
      awaitSignature x.nextId x.unread = (result, rest) := by
  simp [ControlSigner.sign, h, Prod.ext_iff]

def signRequests (first : UInt64) (calls : List SignCall) :
    List (ServerFrame × Except String Unit) :=
  calls.mapIdx fun k call =>
    (.signRequest (first + UInt64.ofNat k) call.publicKey call.data, call.write)

theorem ControlSigner.after_sends (h : x.after calls = some y) :
    y.nextId = x.nextId + UInt64.ofNat calls.length ∧
      y.sends = x.sends ++ signRequests x.nextId calls := by
  induction calls generalizing x with
  | nil =>
    cases h
    simp [signRequests]
  | cons call calls ih =>
    rw [ControlSigner.after] at h
    split at h
    next =>
      obtain ⟨hid, hsends⟩ := ih h
      have hnext : ∀ k : ℕ, x.nextId + 1 + UInt64.ofNat k = x.nextId + UInt64.ofNat (k + 1) := by
        intro k
        rw [UInt64.ofNat_add, UInt64.add_comm (UInt64.ofNat k), ← UInt64.add_assoc]
        rfl
      rw [hid, hsends, ControlSigner.sign_nextId, ControlSigner.sign_sends]
      refine ⟨by rw [hnext, List.length_cons], ?_⟩
      simp only [signRequests, List.mapIdx_cons, hnext]
      simp
    next => cases h

def sentIds (sends : List (ServerFrame × Except String Unit)) : List UInt64 :=
  sends.filterMap fun sent => requestId sent.1

theorem sentIds_signRequests {first : UInt64} : sentIds (signRequests first calls) =
    (List.range calls.length).map fun k => first + UInt64.ofNat k := by
  induction calls using List.reverseRecOn with
  | nil => rfl
  | append_singleton calls call ih =>
    rw [sentIds] at ih
    simp [sentIds, signRequests, List.mapIdx_append, List.range_succ, requestId] at ih ⊢
    exact ih

/-- Ids do not repeat before the counter does. -/
theorem nodup_sentIds {first : UInt64} :
    (sentIds (signRequests first calls)).Nodup ↔ calls.length ≤ 2 ^ 64 := by
  have hinj : ∀ i j : ℕ, first + UInt64.ofNat i = first + UInt64.ofNat j ↔
      i % 2 ^ 64 = j % 2 ^ 64 := by
    intro i j
    rw [UInt64.add_right_inj, ← UInt64.toNat_inj, UInt64.toNat_ofNat', UInt64.toNat_ofNat']
  rw [sentIds_signRequests]
  constructor
  · intro h
    by_contra hlt
    have hzero : (0 : ℕ) = 2 ^ 64 := by
      apply List.inj_on_of_nodup_map h (by simp; omega) (by simp; omega)
      exact (hinj 0 (2 ^ 64)).mpr (by simp)
    simp at hzero
  · intro hle
    refine List.Nodup.map_on (fun i hi j hj he => ?_) List.nodup_range
    have hmod := (hinj i j).mp he
    rw [List.mem_range] at hi hj
    rwa [Nat.mod_eq_of_lt (by omega), Nat.mod_eq_of_lt (by omega)] at hmod

end Calls

/-- The call after `earlier` sends the request with the next id, returns the answer to it that comes
after nothing but pings and other answers, and fails at anything else. -/
theorem signatures_matched {unread : List Recv} {earlier : List SignCall} {x : ControlSigner}
    (h : (ControlSigner.new unread).after earlier = some x) (call : SignCall) :
    let id := UInt64.ofNat (earlier.length + 1)
    (x.sign call).2.sends = signRequests 1 (earlier ++ [call]) ∧
    (∀ e, call.write = .error e →
      (x.sign call).1 = some (.error e) ∧ (x.sign call).2.unread = x.unread) ∧
    (call.write = .ok () → ∀ rest,
      (∀ signature, (x.sign call).1 = some (.ok signature) ∧ (x.sign call).2.unread = rest ↔
        ∃ skipped, x.unread = skipped ++ .ok (.signResponse id signature) :: rest ∧
          ∀ f ∈ skipped, Skips id f) ∧
      ((∃ e, (x.sign call).1 = some (.error e)) ∧ (x.sign call).2.unread = rest ↔
        ∃ skipped r, x.unread = skipped ++ r :: rest ∧ (∀ f ∈ skipped, Skips id f) ∧
          ¬Skips id r ∧ ∀ signature, r ≠ .ok (.signResponse id signature))) ∧
    ((sentIds (x.sign call).2.sends).Nodup ↔ earlier.length < 2 ^ 64) := by
  intro id
  obtain ⟨hid, hsends⟩ := ControlSigner.after_sends h
  have hnext : x.nextId = id := by
    rw [hid, UInt64.add_comm]
    exact (UInt64.ofNat_add _ _).symm
  have hrequests : (x.sign call).2.sends = signRequests 1 (earlier ++ [call]) := by
    rw [ControlSigner.sign_sends, hid, hsends]
    simp [signRequests, ControlSigner.new, List.mapIdx_append]
  refine ⟨hrequests, fun e => ControlSigner.sign_unwritten, fun hwrite rest => ⟨?_, ?_⟩, ?_⟩
  · intro signature
    rw [ControlSigner.sign_written hwrite, hnext, awaitSignature_eq_some]
    constructor
    · rintro ⟨skipped, r, hunread, hskip, hr⟩
      exact ⟨skipped, signVerdict_eq_ok.mp hr ▸ hunread, hskip⟩
    · rintro ⟨skipped, hunread, hskip⟩
      exact ⟨skipped, _, hunread, hskip, signVerdict_eq_ok.mpr rfl⟩
  · have hfails : ∀ r, (∃ e, signVerdict id r = some (.error e)) ↔
        ¬Skips id r ∧ ∀ signature, r ≠ .ok (.signResponse id signature) := by
      intro r
      rw [← signVerdict_eq_none]
      simp only [ne_eq, ← signVerdict_eq_ok]
      rcases signVerdict id r with _ | (e | signature) <;> simp
    constructor
    · rintro ⟨⟨e, he⟩, hrest⟩
      have hawait := (ControlSigner.sign_written hwrite).mp ⟨he, hrest⟩
      rw [hnext] at hawait
      obtain ⟨skipped, r, hunread, hskip, hr⟩ := awaitSignature_eq_some.mp hawait
      exact ⟨skipped, r, hunread, hskip, (hfails r).mp ⟨e, hr⟩⟩
    · rintro ⟨skipped, r, hunread, hskip, hr⟩
      obtain ⟨e, he⟩ := (hfails r).mpr hr
      have hawait : awaitSignature x.nextId x.unread = (some (.error e), rest) := by
        rw [hnext]
        exact awaitSignature_eq_some.mpr ⟨skipped, r, hunread, hskip, he⟩
      obtain ⟨hresult, hrest⟩ := (ControlSigner.sign_written hwrite).mpr hawait
      exact ⟨⟨e, hresult⟩, hrest⟩
  · rw [hrequests, nodup_sentIds, List.length_append, List.length_singleton]
    exact Nat.succ_le_iff

/-- An early answer to the second challenge, a stale one to the first, and a ping in between. -/
theorem signatures_matched_stale : ∃ x, (ControlSigner.new
      [.ok (.signResponse 2 [7]), .ok (.signResponse 1 [8]), .ok .ping, .ok (.signResponse 1 [9]),
        .ok (.signResponse 2 [10])]).after [⟨[1], [2], .ok ()⟩] = some x ∧
    (x.sign ⟨[1], [3], .ok ()⟩).1 = some (.ok [10]) := by
  have hafter : (ControlSigner.new [.ok (.signResponse 2 [7]), .ok (.signResponse 1 [8]), .ok .ping,
      .ok (.signResponse 1 [9]), .ok (.signResponse 2 [10])]).after [⟨[1], [2], .ok ()⟩] =
        some ⟨2, [(.signRequest 1 [1] [2], .ok ())],
          [.ok .ping, .ok (.signResponse 1 [9]), .ok (.signResponse 2 [10])]⟩ := rfl
  obtain ⟨-, -, hread, -⟩ := signatures_matched hafter ⟨[1], [3], .ok ()⟩
  refine ⟨_, hafter, (((hread rfl []).1 [10]).mpr ⟨[.ok .ping, .ok (.signResponse 1 [9])], rfl, ?_⟩).1⟩
  intro f hf
  simp only [List.mem_cons, List.not_mem_nil, or_false] at hf
  rcases hf with rfl | rfl
  · exact Or.inl rfl
  · exact Or.inr ⟨1, [9], by decide, rfl⟩

section Steps

variable {s : State} {c : ConnId} {id : UInt64} {r : Recv} {skipped : List Recv}
  {result : Except String Bytes}

def Pc.signed : Except String Bytes → Pc
  | .ok _ => .login
  | .error e => .reject (signFailed e)

theorem signRecv_skip (hpc : (s.conns c).pc = .signWait id) (h : Skips id r) :
    step s (.signRecv c r) = some s := by
  rcases h with rfl | ⟨rid, signature, hne, rfl⟩
  · simp [step, State.signRecv, hpc]
  · simp [step, State.signRecv, hpc, hne]

theorem signRecv_verdict (hpc : (s.conns c).pc = .signWait id) (h : signVerdict id r = some result) :
    step s (.signRecv c r) = some (s.setConn c { s.conns c with pc := Pc.signed result }) := by
  rcases r with e | frame
  · cases h
    simp [step, State.signRecv, hpc, Pc.signed]
  · cases frame with
    | ping => cases h
    | signResponse rid signature =>
      simp only [signVerdict] at h
      split at h
      next he =>
        cases h
        simp [step, State.signRecv, hpc, Pc.signed, he]
      next => cases h
    | _ =>
      cases h
      simp [step, State.signRecv, hpc, Pc.signed]

theorem exec_signRecv (hpc : (s.conns c).pc = .signWait id) (hskip : ∀ f ∈ skipped, Skips id f)
    (h : signVerdict id r = some result) :
    exec step s ((skipped ++ [r]).map (.signRecv c)) =
      some (s.setConn c { s.conns c with pc := Pc.signed result }) := by
  induction skipped with
  | nil => simp [exec, signRecv_verdict hpc h]
  | cons f skipped ih =>
    rw [List.cons_append, List.map_cons, exec, signRecv_skip hpc (hskip f (by simp))]
    exact ih fun g hg => hskip g (by simp [hg])

/-- The steps the handler takes in a call of `sign` are those of the signer: its request goes out,
and as many frames are read, to the same result. -/
theorem sign_steps {x y : ControlSigner} {call : SignCall} (hpc : (s.conns c).pc = .login)
    (hauth : (s.conns c).auth.any AuthIntent.delegated = true)
    (hid : (s.conns c).nextId = x.nextId) (h : x.sign call = (some result, y)) :
    ∃ consumed s', x.unread = consumed ++ y.unread ∧
      exec step s (.signAsked c call.publicKey call.data :: .signSent c call.write ::
        consumed.map (.signRecv c)) = some s' ∧
      (s'.conns c).pc = Pc.signed result ∧ (s'.conns c).nextId = y.nextId ∧
      (s'.conns c).auth = (s.conns c).auth := by
  have hresult : (x.sign call).1 = some result := by rw [h]
  have hunread : (x.sign call).2.unread = y.unread := by rw [h]
  have hnext : (s.conns c).nextId + 1 = y.nextId := by
    rw [hid, ← ControlSigner.sign_nextId, h]
  have hasked : step s (.signAsked c call.publicKey call.data) = some (s.setConn c
      { s.conns c with
        pc := .signSend x.nextId call.publicKey call.data, nextId := y.nextId }) := by
    simp only [step, State.signAsked, hpc, hauth, and_self, if_true]
    rw [← hnext, hid]
  cases hwrite : call.write with
  | error e =>
    obtain ⟨hfailed, hleft⟩ := ControlSigner.sign_unwritten (x := x) hwrite
    obtain rfl := Option.some.inj (hfailed.symm.trans hresult)
    refine ⟨[], ?_⟩
    rw [← hunread, hleft, List.map_nil, exec, hasked, Option.bind_some, exec]
    simp [exec, step, State.signSent, Pc.signed]
  | ok =>
    have hawait := ControlSigner.sign_written hwrite |>.mp ⟨hresult, hunread⟩
    obtain ⟨skipped, r, hread, hskip, hr⟩ := awaitSignature_eq_some.mp hawait
    refine ⟨skipped ++ [r], ?_⟩
    rw [hread, exec, hasked, Option.bind_some, exec]
    simp only [step, State.signSent, State.setConn_conns_self, Option.bind_some]
    rw [exec_signRecv (by simp) hskip hr]
    simp

end Steps

end TtyGateway
