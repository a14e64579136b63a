import TtyGateway.Metering

namespace TtyGateway

open Transition

/-- The input that the receive loop of connection `c` takes from its client in this step. -/
def Label.typed (c : ConnId) : Label → List SshInput
  | .recv d (.ok (.data bytes)) => if d = c then [.data bytes] else []
  | .recv d (.ok (.resize cols rows)) =>
    if d = c then [.resize cols.toUInt32 rows.toUInt32] else []
  | _ => []

def Pc.input : Pc → List SshInput
  | .forward input => [input]
  | _ => []

/-- What of `c`'s input `send_input` is called with in this step. -/
def State.handing (s : State) (c : ConnId) : Label → List SshInput
  | .forward d => if d = c then (s.conns c).pc.input else []
  | _ => []

/-- What `send_input` answers connection `c`: it fails once the actor has dropped the channel. -/
def State.sendInput (s : State) (c : ConnId) : Option Bool :=
  (s.conns c).session.bind fun session => (s.sessions session.id).map Session.actor

/-- The input of connection `c` on which `send_input` returns `answer` in this step. -/
def State.answered (c : ConnId) (answer : Bool) (s : State) : Label → List SshInput
  | .forward d => if d = c ∧ s.sendInput c = some answer then (s.conns c).pc.input else []
  | _ => []

def inputBytes (inputs : List SshInput) : Nat := (inputs.map SshInput.size).sum

def answeredBytes (c : ConnId) (answer : Bool) (init : State) (ls : List Label) : Nat :=
  inputBytes (emitted step (State.answered c answer) init ls)

/-- In the run `ls` from `init` bytes of connection `c` come to `send_input` when the actor of their
session has dropped the channel. -/
def TypedAfterEnd (init : State) (c : ConnId) (ls : List Label) : Prop :=
  ∃ before after s bytes session ses, ls = before ++ .forward c :: after ∧
    exec step init before = some s ∧ (s.conns c).pc = .forward (.data bytes) ∧ bytes ≠ [] ∧
    (s.conns c).session = some session ∧ s.sessions session.id = some ses ∧ ses.actor = false

section Typed

variable {s s' : State} {c : ConnId} {l : Label}

theorem typed_live (hs : step s l = some s') (h : l.typed c ≠ []) : (s.conns c).pc = .live := by
  unfold Label.typed at h
  split at h
  case h_3 => exact absurd rfl h
  all_goals
    split at h
    · rename_i hd
      subst hd
      exact (Option.ite_none_right_eq_some.mp hs).1
    · exact absurd rfl h

theorem Label.typed_of_ne (h : l.conn ≠ some c) : l.typed c = [] := by
  unfold Label.typed
  split
  case h_3 => rfl
  all_goals exact if_neg fun hd => h (congrArg some hd)

theorem step_typed (hs : step s l = some s') (c : ConnId) :
    (s.conns c).pc.input ++ l.typed c = s.handing c l ++ (s'.conns c).pc.input := by
  have m := step_move hs
  by_cases hl : l.conn = some c
  · cases m with
    | forwarded hpc | unforwarded hpc =>
      cases hl
      simp [Label.typed, State.handing, hpc, Pc.input]
    | accept hpc | helloLost hpc | hello hpc | helloRefused _ hpc | authorized hpc | denied hpc
    | resumed hpc | unresumed hpc | openLost hpc | openTarget hpc | openRefused _ hpc
    | loginFailed hpc | signAsked hpc | signSent hpc | signUnsent hpc | signed hpc
    | signRefused _ hpc | loggedIn hpc | slotTaken hpc | slotDenied hpc | rejectSent hpc
    | rejectUnsent hpc | helloSent hpc | helloUnsent hpc | statusSent hpc | statusUnsent hpc
    | recvData hpc | recvResize hpc | recvPing hpc | recvClose hpc | recvLost hpc | ponged hpc
    | unponged hpc | abort hpc | report hpc | reported hpc | ended hpc | kept hpc | closeCall hpc
    | closeReturned hpc | leave hpc =>
      cases hl
      simp [Label.typed, State.handing, hpc, Pc.input]
    | @recvIgnored d frame hpc =>
      cases hl
      obtain ⟨-, hdata, hresize⟩ := recv_ignored hpc hs
      cases frame with
      | data bytes => exact absurd rfl (hdata bytes)
      | resize cols rows => exact absurd rfl (hresize cols rows)
      | _ => simp [Label.typed, State.handing]
    | signIgnored => simp [Label.typed, State.handing]
    | actorOutput | actorInput | actorEnd | actorNone | ingest | ingestEnd | tick => cases hl
    | _ =>
      cases hl
      simp [Label.typed, State.handing]
  · have hhanding : s.handing c l = [] := by
      unfold State.handing
      split
      · exact if_neg fun hd => hl (congrArg some hd)
      · rfl
    rw [Label.typed_of_ne hl, hhanding, m.conns_of_ne hl]
    simp

theorem step_bytesIn (hs : step s l = some s') (c : ConnId) : (s'.conns c).meter.bytesIn =
    (s.conns c).meter.bytesIn + inputBytes (l.typed c) := by
  have m := step_move hs
  by_cases hl : l.conn = some c
  · cases m with
    | recvData hpc =>
      cases hl
      simp [UsageMeter.addIn, Label.typed, inputBytes, SshInput.size]
    | recvResize hpc =>
      cases hl
      simp [Label.typed, inputBytes, SshInput.size]
    | @recvIgnored d frame hpc =>
      cases hl
      obtain ⟨-, hdata, -⟩ := recv_ignored hpc hs
      cases frame with
      | data bytes => exact absurd rfl (hdata bytes)
      | _ => simp [Label.typed, inputBytes, SshInput.size]
    | signIgnored => rfl
    | actorOutput | actorInput | actorEnd | actorNone | ingest | ingestEnd | tick => cases hl
    | _ =>
      cases hl
      simp [UsageMeter.addOut, Label.typed, inputBytes]
  · rw [Label.typed_of_ne hl, m.conns_of_ne hl]
    rfl

theorem answered_handing (hs : step s l = some s') :
    s.answered c true l ++ s.answered c false l = s.handing c l := by
  unfold State.answered State.handing
  split
  next d =>
    by_cases hd : d = c
    · subst hd
      cases step_move hs with
      | forwarded hpc hsession hi ha | unforwarded hpc hsession hi ha =>
        simp [State.sendInput, hsession, hi, ha]
    · simp [hd]
  next => rfl

end Typed

section Intake

variable {init s s' : State} {c : ConnId} {l : Label} {ls : List Label} {answer : Bool}

theorem inputBytes_append (xs ys : List SshInput) :
    inputBytes (xs ++ ys) = inputBytes xs + inputBytes ys := by
  simp [inputBytes]

theorem inputBytes_eq_zero {inputs : List SshInput} :
    inputBytes inputs = 0 ↔ ∀ input ∈ inputs, input.size = 0 := by
  simp [inputBytes, List.sum_eq_zero_iff_forall_eq_nat]

theorem State.sendInput_eq_false : s.sendInput c = some false ↔ ∃ session ses,
    (s.conns c).session = some session ∧ s.sessions session.id = some ses ∧ ses.actor = false := by
  simp [State.sendInput, Option.bind_eq_some_iff]

theorem answeredBytes_concat (run : exec step init ls = some s) :
    answeredBytes c answer init (ls ++ [l]) =
      answeredBytes c answer init ls + inputBytes (s.answered c answer l) := by
  rw [answeredBytes, emitted_concat run, inputBytes_append]
  rfl

theorem answeredBytes_refused_eq_zero :
    answeredBytes c false init ls = 0 ↔ ¬TypedAfterEnd init c ls := by
  rw [answeredBytes, inputBytes_eq_zero]
  constructor
  · rintro h ⟨before, after, s, bytes, session, ses, rfl, run, hpc, hne, hended⟩
    have hrefused := State.sendInput_eq_false.mpr ⟨session, ses, hended⟩
    have hmem : SshInput.data bytes ∈ s.answered c false (.forward c) := by
      simp [State.answered, hrefused, hpc, Pc.input]
    have hzero := h _ (mem_emitted.mpr ⟨before, _, after, s, rfl, run, hmem⟩)
    exact hne (List.length_eq_zero_iff.mp hzero)
  · intro h input hin
    obtain ⟨before, l, after, s, rfl, run, hmem⟩ := mem_emitted.mp hin
    by_contra hsize
    cases l with
    | forward d =>
      simp only [State.answered] at hmem
      split at hmem
      next hd =>
        obtain ⟨rfl, hrefused⟩ := hd
        obtain ⟨session, ses, hended⟩ := State.sendInput_eq_false.mp hrefused
        cases hpc : (s.conns d).pc <;> simp only [hpc, Pc.input, List.not_mem_nil] at hmem
        obtain rfl := List.mem_singleton.mp hmem
        cases input with
        | data bytes =>
          refine h ⟨before, after, s, bytes, session, ses, rfl, run, hpc, ?_, hended⟩
          rintro rfl
          exact hsize rfl
        | resize cols rows => exact hsize rfl
      next => cases hmem
    | _ => cases hmem

/-- The meter counts what `send_input` was called with, and what it is about to be. -/
theorem exec_intake {maxScrollback : Nat} (run : exec step (.init maxScrollback) ls = some s) :
    (s.conns c).meter.bytesIn = answeredBytes c true (.init maxScrollback) ls +
      answeredBytes c false (.init maxScrollback) ls + inputBytes (s.conns c).pc.input := by
  have trace : exec step (.init maxScrollback) ls = some s ∧ (s.conns c).meter.bytesIn =
      answeredBytes c true (.init maxScrollback) ls +
        answeredBytes c false (.init maxScrollback) ls + inputBytes (s.conns c).pc.input := by
    refine exec_trace (P := fun ls s => exec step (.init maxScrollback) ls = some s ∧
      (s.conns c).meter.bytesIn = answeredBytes c true (.init maxScrollback) ls +
        answeredBytes c false (.init maxScrollback) ls + inputBytes (s.conns c).pc.input)
      ⟨rfl, rfl⟩ ?_ run
    rintro ms t l t' ⟨ht, h⟩ hs
    refine ⟨exec_concat ht hs, ?_⟩
    have hbytes := step_bytesIn hs c
    have htyped := congrArg inputBytes (step_typed hs c)
    have hhanding := congrArg inputBytes (answered_handing (c := c) hs)
    rw [inputBytes_append, inputBytes_append] at htyped
    rw [inputBytes_append] at hhanding
    rw [answeredBytes_concat ht, answeredBytes_concat ht]
    omega
  exact trace.2

end Intake

/-- A connection is billed for what `send_input` took and for what it refused alike, and so for what
it took exactly when the session never ended before bytes of the client came to it. -/
theorem input_billed {maxScrollback : Nat} {ls : List Label} {s s' : State} {c : ConnId}
    (run : exec step (.init maxScrollback) ls = some s) (hs : step s (.report c) = some s') :
    ∃ account id bytesIn bytesOut,
      s'.calls = s.calls ++ [.reportUsage account id bytesIn bytesOut] ∧
      (bytesIn = answeredBytes c true (.init maxScrollback) ls ↔
        ¬TypedAfterEnd (.init maxScrollback) c ls) := by
  cases step_move hs with
  | report hpc hsession =>
    refine ⟨_, _, _, _, rfl, ?_⟩
    rw [exec_intake run, hpc, ← answeredBytes_refused_eq_zero]
    simp [Pc.input, inputBytes]

/-- The session ends after all that the client typed. -/
theorem input_billed_before_end : ∃ ls s s', exec step (.init defaultScrollbackBytes) ls = some s ∧
    step s (.report 0) = some s' ∧ ∃ account id bytesIn bytesOut,
      s'.calls = s.calls ++ [.reportUsage account id bytesIn bytesOut] ∧
      bytesIn = answeredBytes 0 true (.init defaultScrollbackBytes) ls := by
  obtain ⟨s, run, hp⟩ : ∃ s, exec step (.init defaultScrollbackBytes)
      (opening 0 none .unlimited 5 [1] ++ [.recv 0 (.ok (.data [108, 115])), .forward 0,
        .actorEnd 5, .recv 0 (.ok .close), .abort 0]) = some s ∧
      (step s (.report 0)).isSome = true := exists_exec (by decide +kernel)
  obtain ⟨s', hs⟩ := Option.isSome_iff_exists.mp hp
  obtain ⟨account, id, bytesIn, bytesOut, hcalls, hiff⟩ := input_billed run hs
  refine ⟨_, s, s', run, hs, account, id, bytesIn, bytesOut, hcalls, hiff.mpr ?_⟩
  rw [← answeredBytes_refused_eq_zero]
  decide +kernel

/-- The session ends while the handler has a byte of the client in its hands. -/
theorem input_billed_unforwarded : ∃ ls s s', exec step (.init defaultScrollbackBytes) ls = some s ∧
    step s (.report 0) = some s' ∧ s'.calls = s.calls ++ [.reportUsage none 5 1 0] ∧
    answeredBytes 0 true (.init defaultScrollbackBytes) ls = 0 := by
  obtain ⟨s, run, hp⟩ : ∃ s, exec step (.init defaultScrollbackBytes)
      (opening 0 none .unlimited 5 [1] ++ [.recv 0 (.ok (.data [104])), .actorEnd 5, .forward 0,
        .recv 0 (.ok .close), .abort 0]) = some s ∧
      (step s (.report 0)).any (fun s' => s'.calls = s.calls ++ [.reportUsage none 5 1 0]) = true :=
    exists_exec (by decide +kernel)
  obtain ⟨s', hs, hcalls⟩ := (Option.any_eq_true _ _).mp hp
  exact ⟨_, s, s', run, hs, of_decide_eq_true hcalls, by decide +kernel⟩

end TtyGateway
