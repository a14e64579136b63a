import TtyGateway.Login

namespace TtyGateway

open Transition Interaction

/-- A client's login: what its `Open` asks for and what is left of the program. `asked` is history,
the calls made and what they came to. -/
structure LoginTask (Secret Public : Type) where
  target : TargetSpec
  auth : AuthIntent
  cols : UInt16
  rows : UInt16
  left : Program (SshCall Secret Public) SshAnswer (Except String Unit)
  asked : List (SshCall Secret Public × SshAnswer)

structure Dialing (Secret Public : Type) where
  gateway : State
  tasks : ConnId → Option (LoginTask Secret Public)

inductive DialLabel
  | gateway (l : Label)
  | answered (c : ConnId) (r : SshAnswer)

section Step

variable {Secret Public : Type} (keys : SshKeys Secret Public)

def Dialing.init (maxScrollback : Nat) : Dialing Secret Public :=
  ⟨.init maxScrollback, fun _ => none⟩

def LoginTask.start (target : TargetSpec) (auth : AuthIntent) (cols rows : UInt16) :
    LoginTask Secret Public :=
  ⟨target, auth, cols, rows, (openForAuth keys target auth cols rows).run, []⟩

def LoginTask.answer (x : LoginTask Secret Public) (r : SshAnswer) :
    Option (LoginTask Secret Public) :=
  match x.left with
  | .call k next => some { x with left := next r, asked := x.asked ++ [(k, r)] }
  | .done _ => none

/-- russh is authenticating with this key, as the signer's text of it. -/
def LoginTask.offers (x : LoginTask Secret Public) (publicKey : Bytes) : Bool :=
  match x.left with
  | .call (.authenticatePublickeyWith _ key) _ =>
    match keys.toOpenssh key with
    | .ok openssh => publicKey = openssh.toUTF8.data.toList
    | .error _ => false
  | _ => false

/-- A step of the handler at `pc`, for its login: the login is over or not as the step says, and a
signature that fails is what the authentication fails with. -/
def LoginTask.follow (x : LoginTask Secret Public) (pc : Pc) :
    Label → Option (LoginTask Secret Public)
  | .loginFailed _ e =>
    match x.left with
    | .done (.error e') => if e' = e then some x else none
    | _ => none
  | .loggedIn _ _ _ =>
    match x.left with
    | .done (.ok ()) => some x
    | _ => none
  | .signAsked _ publicKey _ => if x.offers keys publicKey then some x else none
  | .signSent _ (.error e) => x.answer (.error (SignerError.remote e).toString)
  | .signRecv _ r =>
    match pc with
    | .signWait id =>
      match signVerdict id r with
      | some (.error e) => x.answer (.error (SignerError.remote e).toString)
      | _ => some x
    | _ => some x
  | _ => some x

def Dialing.setTask (s : Dialing Secret Public) (g : State) (c : ConnId)
    (x : LoginTask Secret Public) : Dialing Secret Public :=
  ⟨g, Function.update s.tasks c (some x)⟩

def Dialing.track (s : Dialing Secret Public) (g : State) (c : ConnId) (l : Label) :
    Option (Dialing Secret Public) :=
  match s.tasks c with
  | some x => (x.follow keys (s.gateway.conns c).pc l).map (s.setTask g c)
  | none => some { s with gateway := g }

def Dialing.run (s : Dialing Secret Public) (l : Label) : Option (Dialing Secret Public) := do
  let g ← step s.gateway l
  match l, l.conn with
  | .recvOpen c (.ok (.openTarget target auth cols rows)), _ =>
    some (s.setTask g c (.start keys target auth cols rows))
  | l, some c => s.track keys g c l
  | _, none => some { s with gateway := g }

/-- A call of russh returns. While a signature is asked for, it waits. -/
def Dialing.answered (s : Dialing Secret Public) (c : ConnId) (r : SshAnswer) :
    Option (Dialing Secret Public) := do
  let x ← s.tasks c
  let x ← x.answer r
  if (s.gateway.conns c).pc = .login then some (s.setTask s.gateway c x) else none

def dialStep (s : Dialing Secret Public) : DialLabel → Option (Dialing Secret Public)
  | .gateway l => s.run keys l
  | .answered c r => s.answered c r

end Step

section Program

variable {Secret Public : Type} {keys : SshKeys Secret Public} {x y : LoginTask Secret Public}

theorem openForAuth_refused {auth : AuthIntent} {e : String} (target : TargetSpec)
    (cols rows : UInt16) (h : auth.refused = some e) :
    (openForAuth keys target auth cols rows).run = .done (.error e) := by
  cases auth with
  | delegatedKey publicKey =>
    simp only [AuthIntent.refused] at h
    split at h
    next => cases h
    next hv =>
      cases h
      have hnone : String.fromUTF8? ⟨publicKey.toArray⟩ = none :=
        dif_neg (mt ByteArray.validateUTF8_eq_true_iff.mpr hv)
      simp only [openForAuth, hnone]
      rfl
  | gatewayKey keyId =>
    cases h
    rfl
  | _ => cases h

theorem loginStages_delegated {target : TargetSpec} {auth : AuthIntent} {cols rows : UInt16}
    {attempt : SshStage Secret Public} {user : String} {key : Public}
    (h : attempt ∈ (loginStages keys target auth cols rows).2)
    (hcall : attempt.call = .authenticatePublickeyWith user key) (e : String) :
    attempt.error (.error e) = some ("delegated auth: " ++ e) := by
  unfold loginStages at h
  cases auth with
  | password secret =>
    simp only [finishStages, List.mem_cons, List.not_mem_nil, or_false] at h
    rcases h with rfl | rfl | rfl | rfl | rfl <;> cases hcall
  | privateKey pem passphrase =>
    dsimp only at h
    split at h
    · simp only [finishStages, List.mem_cons, List.not_mem_nil, or_false] at h
      rcases h with rfl | rfl | rfl | rfl | rfl <;> cases hcall
    · obtain rfl := List.mem_singleton.mp h
      cases hcall
  | delegatedKey publicKey =>
    dsimp only at h
    split at h
    · split at h
      · simp only [finishStages, List.mem_cons, List.not_mem_nil, or_false] at h
        rcases h with rfl | rfl | rfl | rfl | rfl
        case inr.inl => rfl
        all_goals cases hcall
      · obtain rfl := List.mem_singleton.mp h
        cases hcall
    · simp at h
  | gatewayKey keyId => simp at h

theorem delegated_error {target : TargetSpec} {auth : AuthIntent} {cols rows : UInt16}
    {history : List (SshCall Secret Public × SshAnswer)} {user : String} {key : Public}
    {next : SshAnswer → Program (SshCall Secret Public) SshAnswer (Except String Unit)}
    (h : (openForAuth keys target auth cols rows).run.After history
      (.call (.authenticatePublickeyWith user key) next)) (e : String) :
    next (.error e) = .done (.error ("delegated auth: " ++ e)) := by
  rw [openForAuth_eq_chain] at h
  have hprogress := h.progress
  generalize hleft : Program.call (SshCall.authenticatePublickeyWith user key) next = left
    at hprogress
  cases hprogress with
  | failed => cases hleft
  | @passed front later _ hstages hpassed =>
    obtain ⟨attempt, later, rfl, hcall, hnext⟩ := chain_eq_call hleft.symm
    have hmem : attempt ∈ (loginStages keys target auth cols rows).2 := by simp [hstages]
    rw [hnext, loginStages_delegated hmem hcall.symm e]

end Program

structure LoginTask.Agrees {Secret Public : Type} (keys : SshKeys Secret Public)
    (x : LoginTask Secret Public) (conn : Conn) (fs : List ServerFrame) : Prop where
  after : (openForAuth keys x.target x.auth x.cols x.rows).run.After x.asked x.left
  opened : conn.pc.unopened = false
  fresh : conn.resumed = false
  signing : conn.pc.signing = true → ∃ user key next,
    x.left = .call (.authenticatePublickeyWith user key) next
  reached : conn.session ≠ none → x.left = .done (.ok ())
  said : ∀ m, conn.pc = .reject m ∨ .error m ∈ fs → conn.session ≠ none ∨
    ∃ e, x.left = .done (.error e) ∧ m = "connect failed: " ++ e

/-- The handler is in `open_for_auth`, or has just come out of it with a session. -/
def Pc.dialing : Pc → Bool
  | .login | .signSend _ _ _ | .signWait _ | .sessionOpen => true
  | _ => false

/-- A client without a login has no session, or resumed one. -/
structure Conn.Undialed (x : Conn) : Prop where
  pc : x.pc.dialing = false
  resumed : x.session ≠ none → x.resumed = true

section Steps

variable {Secret Public : Type} {keys : SshKeys Secret Public} {x y : LoginTask Secret Public}
  {s s' : State} {l : Label} {c : ConnId} {conn conn' : Conn} {fs fs' : List ServerFrame}

theorem Conn.Spoke.no_error (h : conn.Spoke fs) (hpc : conn.pc.asking = true) (message : String) :
    .error message ∉ fs := by
  intro hm
  obtain ⟨k, hk⟩ := List.mem_iff_getElem?.mp hm
  obtain ⟨publicKey, data, he⟩ := (h.of_asking hpc).2.1 k _ hk
  cases he

theorem LoginTask.Agrees.same (h : x.Agrees keys conn fs) (resumed : conn'.resumed = conn.resumed)
    (session : conn'.session = conn.session) (opened : conn'.pc.unopened = false)
    (signing : conn'.pc.signing = true → conn.pc.signing = true)
    (said : ∀ m, conn'.pc = .reject m ∨ .error m ∈ fs' → conn.pc = .reject m ∨ .error m ∈ fs) :
    x.Agrees keys conn' fs' := by
  refine ⟨h.after, opened, resumed.trans h.fresh, fun hs => h.signing (signing hs),
    fun hs => h.reached (session ▸ hs), fun m hm => ?_⟩
  rw [session]
  exact h.said m (said m hm)

theorem LoginTask.answer_after
    {program : Program (SshCall Secret Public) SshAnswer (Except String Unit)} {r : SshAnswer}
    (h : program.After x.asked x.left) (hy : x.answer r = some y) :
    program.After y.asked y.left ∧ y.target = x.target ∧ y.auth = x.auth ∧ y.cols = x.cols ∧
      y.rows = x.rows := by
  unfold LoginTask.answer at hy
  split at hy
  next k next hleft =>
    cases hy
    rw [hleft] at h
    exact ⟨h.answer r, rfl, rfl, rfl, rfl⟩
  next => cases hy

theorem signFailed_prefix : "connect failed: delegated auth: remote signer: " =
    "connect failed: " ++ ("delegated auth: " ++ "remote signer: ") := by
  decide +kernel

theorem signFailed_eq (e : String) : signFailed e =
    "connect failed: " ++ ("delegated auth: " ++ (SignerError.remote e).toString) := by
  have h : signFailed e =
      ("connect failed: " ++ ("delegated auth: " ++ "remote signer: ")) ++ e := by
    unfold signFailed
    exact congrArg (· ++ e) signFailed_prefix
  calc signFailed e
      = "connect failed: " ++ ("delegated auth: " ++ "remote signer: " ++ e) :=
        h.trans String.append_assoc
    _ = "connect failed: " ++ ("delegated auth: " ++ ("remote signer: " ++ e)) :=
        congrArg ("connect failed: " ++ ·) String.append_assoc

/-- A signature that fails ends the login, and the client is told so. -/
theorem LoginTask.Agrees.unsigned {e : String} (h : x.Agrees keys conn fs)
    (hsigning : conn.pc.signing = true) (hsession : conn.session = none)
    (hy : x.answer (.error (SignerError.remote e).toString) = some y)
    (silent : ∀ m, .error m ∉ fs) :
    y.Agrees keys { conn with pc := .reject (signFailed e) } fs := by
  obtain ⟨user, key, next, hleft⟩ := h.signing hsigning
  obtain ⟨hafter, ht, ha, hc, hr⟩ := LoginTask.answer_after h.after hy
  have hend : y.left = .done (.error ("delegated auth: " ++ (SignerError.remote e).toString)) := by
    have hnext := delegated_error (hleft ▸ h.after) (SignerError.remote e).toString
    simp only [LoginTask.answer, hleft, Option.some.injEq] at hy
    rw [← hy]
    exact hnext
  refine ⟨by rw [ht, ha, hc, hr]; exact hafter, rfl, h.fresh, by simp [Pc.signing],
    fun hs => absurd hsession hs, fun m hm => Or.inr ⟨_, hend, ?_⟩⟩
  have hm : m = signFailed e := by simpa [silent, eq_comm] using hm
  rw [hm, signFailed_eq]

theorem LoginTask.Agrees.signRecv {r : Recv} (h : x.Agrees keys (s.conns c) (s.frames c))
    (hs : step s (.signRecv c r) = some s') (hsession : (s.conns c).session = none)
    (hy : x.follow keys (s.conns c).pc (.signRecv c r) = some y)
    (silent : ∀ m, .error m ∉ s.frames c) : y.Agrees keys (s'.conns c) (s'.frames c) := by
  obtain ⟨id, hpc⟩ := signRecv_pc hs
  simp only [LoginTask.follow, hpc] at hy
  cases hverdict : signVerdict id r with
  | none =>
    rw [signRecv_skip hpc (signVerdict_eq_none.mp hverdict)] at hs
    simp only [hverdict, Option.some.injEq] at hy
    obtain rfl := Option.some.inj hs
    exact hy ▸ h
  | some result =>
    rw [signRecv_verdict hpc hverdict] at hs
    obtain rfl := Option.some.inj hs
    simp only [State.setConn_conns_self, State.frames_setConn]
    cases result with
    | error e =>
      simp only [hverdict] at hy
      exact h.unsigned (by simp [hpc, Pc.signing]) hsession hy silent
    | ok signature =>
      simp only [hverdict, Option.some.injEq] at hy
      subst hy
      exact h.same rfl rfl rfl (by simp [Pc.signed, Pc.signing]) (by simp [Pc.signed, silent])

theorem Move.agrees (m : Move s l s') (hs : step s l = some s') (sound : s.Sound)
    (spoke : (s.conns c).Spoke (s.frames c)) (hl : l.conn = some c)
    (h : x.Agrees keys (s.conns c) (s.frames c)) (hy : x.follow keys (s.conns c).pc l = some y) :
    y.Agrees keys (s'.conns c) (s'.frames c) := by
  have silent := spoke.no_error
  have unheld : (s.conns c).pc.stage = .early → (s.conns c).session = none := fun hstage =>
    Option.map_eq_none_iff.mp ((sound.owned.ok c).early hstage)
  have opened := h.opened
  cases m with
  | @accept d hpc | @helloLost d _ hpc | @hello d _ _ _ hpc | @helloRefused d _ _ hpc
  | @authorized d _ hpc | @denied d _ hpc | @resumed d _ _ hpc | @unresumed d hpc
  | @openLost d _ hpc | @openTarget d _ _ _ _ hpc | @openRefused d _ _ hpc =>
    cases hl
    simp [hpc, Pc.unopened] at opened
  | actorOutput | actorInput | actorEnd | actorNone | ingest | ingestEnd | tick => cases hl
  | @loginFailed d e hpc =>
    cases hl
    simp only [LoginTask.follow] at hy
    split at hy
    next e' hleft =>
      obtain ⟨rfl, hx⟩ := Option.ite_none_right_eq_some.mp hy
      cases hx
      simp only [State.setConn_conns_self, State.frames_setConn]
      refine ⟨h.after, rfl, h.fresh, by simp [Pc.signing], h.reached, fun m hm => ?_⟩
      have hm : m = "connect failed: " ++ e' := by
        simpa [silent (by simp [hpc, Pc.asking]), eq_comm] using hm
      exact Or.inr ⟨e', hleft, hm⟩
    next => cases hy
  | @loggedIn d id token hpc =>
    cases hl
    simp only [LoginTask.follow] at hy
    split at hy
    next hleft =>
      cases hy
      simp only [State.setConn_conns_self]
      exact ⟨h.after, rfl, rfl, by simp [Pc.signing], fun _ => hleft, fun _ _ => by simp⟩
    next => cases hy
  | @signAsked d publicKey data hpc =>
    cases hl
    simp only [LoginTask.follow, Option.ite_none_right_eq_some] at hy
    obtain ⟨hoffers, hx⟩ := hy
    cases hx
    simp only [State.setConn_conns_self, State.frames_setConn]
    refine ⟨h.after, rfl, h.fresh, fun _ => ?_, h.reached, by
      simp [silent (by simp [hpc, Pc.asking])]⟩
    unfold LoginTask.offers at hoffers
    split at hoffers
    next user key next hleft => exact ⟨user, key, next, hleft⟩
    next => cases hoffers
  | @signUnsent d id publicKey data e hpc =>
    cases hl
    simp only [State.setConn_conns_self, State.frames_setConn]
    exact h.unsigned (by simp [hpc, Pc.signing]) (unheld (by simp [hpc, Pc.stage])) hy
      (silent (by simp [hpc, Pc.asking]))
  | @signed d id signature hpc | @signRefused d id r _ hpc =>
    cases hl
    exact h.signRecv hs (unheld (by simp [hpc, Pc.stage])) hy (silent (by simp [hpc, Pc.asking]))
  | @signIgnored d r =>
    cases hl
    obtain ⟨id, hpc⟩ := signRecv_pc hs
    exact h.signRecv hs (unheld (by simp [hpc, Pc.stage])) hy (silent (by simp [hpc, Pc.asking]))
  | @slotDenied d session denied hpc hsession =>
    cases hl
    cases hy
    simp only [State.setConn_conns_self]
    refine ⟨h.after, rfl, h.fresh, by simp [Pc.signing], h.reached, fun _ _ => Or.inl ?_⟩
    simp [hsession]
  | @rejectSent d message hpc =>
    cases hl
    cases hy
    simp only [State.setConn_conns_self, State.frames_setConn, State.frames_put_self]
    refine h.same rfl rfl rfl (by simp [Pc.signing]) fun m hm => ?_
    rcases List.mem_append.mp (hm.resolve_left (by simp)) with hm | hm
    · exact Or.inr hm
    · cases List.mem_singleton.mp hm
      exact Or.inl hpc
  | @signSent d _ _ _ hpc | @helloSent d _ hpc | @statusSent d hpc =>
    cases hl
    cases hy
    simp only [State.setConn_conns_self, State.frames_setConn, State.frames_put_self]
    refine h.same rfl rfl rfl (by simp [hpc, Pc.signing]) fun m hm => Or.inr ?_
    simpa using hm
  | @slotTaken d | @rejectUnsent d | @helloUnsent d | @statusUnsent d | @recvData d | @recvResize d
  | @recvPing d | @recvClose d | @recvLost d | @forwarded d | @unforwarded d | @ponged d
  | @unponged d | @abort d | @report d | @reported d | @ended d | @kept d | @closeCall d
  | @closeReturned d | @leave d =>
    cases hl
    cases hy
    simp only [State.setConn_conns_self]
    exact h.same rfl rfl rfl (by simp [Pc.signing]) fun m hm => Or.inr (hm.resolve_left (by simp))
  | @written d frame time hpc =>
    cases hl
    cases hy
    simp only [State.setConn_conns_self, State.frames_setConn, State.frames_put_self]
    refine h.same rfl rfl h.opened (fun hs => hs) fun m hm => ?_
    rcases (sound.framed c).writing frame time hpc with rfl | ⟨bytes, rfl⟩ <;> simpa using hm
  | @closedWritten d hpc =>
    cases hl
    cases hy
    simp only [State.setConn_conns_self, State.frames_setConn, State.frames_put_self]
    exact h.same rfl rfl h.opened (fun hs => hs) (by simp)
  | recvIgnored =>
    cases hy
    exact h
  | _ =>
    cases hl
    cases hy
    simp only [State.setConn_conns_self]
    exact h.same rfl rfl h.opened (fun hs => hs) (fun m hm => hm)

theorem Move.undialed (m : Move s l s') (hl : l.conn = some c) (h : (s.conns c).Undialed)
    (hopen : ∀ target auth cols rows, l ≠ .recvOpen c (.ok (.openTarget target auth cols rows))) :
    (s'.conns c).Undialed := by
  have hdialing := h.pc
  cases m with
  | @openTarget d target auth cols rows =>
    cases hl
    exact absurd rfl (hopen target auth cols rows)
  | @loginFailed d _ hpc | @signAsked d _ _ hpc | @signSent d _ _ _ hpc | @signUnsent d _ _ _ _ hpc
  | @signed d _ _ hpc | @signRefused d _ _ _ hpc | @loggedIn d _ _ hpc | @slotTaken d _ hpc
  | @slotDenied d _ _ hpc =>
    cases hl
    rw [hpc] at hdialing
    cases hdialing
  | @resumed d =>
    cases hl
    simp only [State.setConn_conns_self]
    exact ⟨rfl, fun _ => rfl⟩
  | signIgnored | recvIgnored => exact h
  | actorOutput | actorInput | actorEnd | actorNone | ingest | ingestEnd | tick => cases hl
  | @senderStart d hpc | @chunk d _ _ _ _ hpc | @finished d _ _ _ hpc | @parked d _ _ _ hpc
  | @oob d _ _ hpc | @oobClosed d hpc | @unlimited d _ hpc | @admitted d _ _ _ _ hpc
  | @delayed d _ _ _ _ hpc | @wake d _ _ hpc | @addOut d _ _ hpc | @unwritten d _ _ hpc
  | @closedUnwritten d hpc | @cancel d _ hpc | @written d _ _ hpc | @closedWritten d hpc =>
    cases hl
    simp only [State.setConn_conns_self]
    exact ⟨h.pc, h.resumed⟩
  | _ =>
    cases hl
    simp only [State.setConn_conns_self]
    exact ⟨rfl, h.resumed⟩

end Steps

def DialLabel.base : DialLabel → Option Label
  | .gateway l => some l
  | .answered _ _ => none

def dialed (ls : List DialLabel) : List Label := ls.filterMap DialLabel.base

/-- What one step can do to the logins, an outcome a constructor. -/
inductive DialMove {Secret Public : Type} (keys : SshKeys Secret Public)
    (s : Dialing Secret Public) : DialLabel → Dialing Secret Public → Prop
  | opened {g c target auth cols rows} :
      step s.gateway (.recvOpen c (.ok (.openTarget target auth cols rows))) = some g →
      DialMove keys s (.gateway (.recvOpen c (.ok (.openTarget target auth cols rows))))
        (s.setTask g c (.start keys target auth cols rows))
  | followed {g l c x y} : step s.gateway l = some g → l.conn = some c → s.tasks c = some x →
      x.follow keys (s.gateway.conns c).pc l = some y →
      DialMove keys s (.gateway l) (s.setTask g c y)
  | passed {g l} : step s.gateway l = some g →
      (∀ c, l.conn = some c → s.tasks c = none ∧
        ∀ target auth cols rows, l ≠ .recvOpen c (.ok (.openTarget target auth cols rows))) →
      DialMove keys s (.gateway l) { s with gateway := g }
  | answered {c r x y} : s.tasks c = some x → x.answer r = some y →
      (s.gateway.conns c).pc = .login →
      DialMove keys s (.answered c r) (s.setTask s.gateway c y)

section Runs

variable {Secret Public : Type} {keys : SshKeys Secret Public} {x y : LoginTask Secret Public}
  {s s' : Dialing Secret Public} {l : DialLabel} {ls : List DialLabel} {c : ConnId} {init : State}
  {maxScrollback : Nat}

theorem dial_move (h : dialStep keys s l = some s') : DialMove keys s l s' := by
  cases l with
  | answered c r =>
    obtain ⟨x, hx, h⟩ := Option.bind_eq_some_iff.mp h
    obtain ⟨y, hy, h⟩ := Option.bind_eq_some_iff.mp h
    obtain ⟨hpc, he⟩ := Option.ite_none_right_eq_some.mp h
    cases he
    exact .answered hx hy hpc
  | gateway l =>
    obtain ⟨g, hg, h⟩ := Option.bind_eq_some_iff.mp h
    split at h
    next c target auth cols rows _ =>
      cases h
      exact .opened hg
    next _ d hopen _ hl =>
      unfold Dialing.track at h
      split at h
      next x hx =>
        obtain ⟨y, hy, rfl⟩ := Option.map_eq_some_iff.mp h
        exact .followed hg hl hx hy
      next hx =>
        cases h
        refine .passed hg fun c' hc' => ?_
        obtain rfl := Option.some.inj (hl.symm.trans hc')
        exact ⟨hx, hopen d⟩
    next hnone =>
      cases h
      refine .passed hg fun c hc => ?_
      simp [hnone] at hc

@[simp] theorem Dialing.setTask_self (g : State) : (s.setTask g c x).tasks c = some x := by
  simp [Dialing.setTask]

theorem Dialing.setTask_of_ne {d : ConnId} (g : State) (h : d ≠ c) :
    (s.setTask g c x).tasks d = s.tasks d := by
  simp [Dialing.setTask, h]

theorem Admitted.append {gs : List Label} {clientName : String} {resume : Option ResumeToken}
    {accountToken : Option Bytes} (h : Admitted init c gs clientName resume accountToken)
    (k : Label) :
    Admitted init c (gs ++ [k]) clientName resume accountToken := by
  obtain ⟨hhead, entitlement, hcalled⟩ := h
  refine ⟨?_, entitlement, hcalled.append k⟩
  rw [received_append, List.head?_append, hhead]
  rfl

end Runs

structure Dialing.Holds {Secret Public : Type} (keys : SshKeys Secret Public)
    (s : Dialing Secret Public) (maxScrollback : Nat) (ls : List DialLabel) : Prop where
  run : exec step (.init maxScrollback) (dialed ls) = some s.gateway
  agrees : ∀ c x, s.tasks c = some x → x.Agrees keys (s.gateway.conns c) (s.gateway.frames c)
  own : ∀ c x, s.tasks c = some x →
    .gateway (.recvOpen c (.ok (.openTarget x.target x.auth x.cols x.rows))) ∈ ls
  admitted : ∀ c x, s.tasks c = some x → ∃ clientName resume accountToken,
    Admitted (.init maxScrollback) c (dialed ls) clientName resume accountToken
  undialed : ∀ c, s.tasks c = none → (s.gateway.conns c).Undialed

section Holds

variable {Secret Public : Type} {keys : SshKeys Secret Public} {x y : LoginTask Secret Public}
  {s s' : Dialing Secret Public} {l : DialLabel} {ls : List DialLabel} {c : ConnId} {g : State}
  {k : Label} {maxScrollback : Nat}

theorem dialed_append (l : DialLabel) : dialed (ls ++ [l]) = dialed ls ++ l.base.toList := by
  cases l <;> simp [dialed, DialLabel.base]

/-- A step of the handler answers a call of its login, or leaves the login as it is. -/
theorem LoginTask.follow_cases {pc : Pc} (h : x.follow keys pc k = some y) :
    y = x ∨ ∃ r, x.answer r = some y := by
  have same : some x = some y → y = x ∨ ∃ r, x.answer r = some y := fun he =>
    Or.inl (Option.some.inj he).symm
  unfold LoginTask.follow at h
  split at h
  case h_1 =>
    split at h
    · exact same (Option.ite_none_right_eq_some.mp h).2
    · cases h
  case h_2 =>
    split at h
    · exact same h
    · cases h
  case h_3 => exact same (Option.ite_none_right_eq_some.mp h).2
  case h_4 => exact Or.inr ⟨_, h⟩
  case h_5 =>
    split at h
    · split at h
      · exact Or.inr ⟨_, h⟩
      · exact same h
    · exact same h
  case h_6 => exact same h

theorem Admitted.dialed {clientName : String} {resume : Option ResumeToken}
    {accountToken : Option Bytes}
    (h : Admitted (.init maxScrollback) c (dialed ls) clientName resume accountToken)
    (l : DialLabel) :
    Admitted (.init maxScrollback) c (TtyGateway.dialed (ls ++ [l])) clientName resume
      accountToken := by
  rw [dialed_append]
  cases l with
  | gateway k => exact h.append k
  | answered d r => simpa [DialLabel.base] using h

theorem Dialing.Holds.setTask (h : s.Holds keys maxScrollback ls)
    (run : exec step (.init maxScrollback) (dialed (ls ++ [l])) = some g)
    (frame : ∀ d, d ≠ c → g.conns d = s.gateway.conns d ∧ g.frames d = s.gateway.frames d)
    (agrees : y.Agrees keys (g.conns c) (g.frames c))
    (own : .gateway (.recvOpen c (.ok (.openTarget y.target y.auth y.cols y.rows))) ∈ ls ++ [l])
    (admitted : ∃ clientName resume accountToken,
      Admitted (.init maxScrollback) c (dialed ls) clientName resume accountToken) :
    (s.setTask g c y).Holds keys maxScrollback (ls ++ [l]) := by
  refine ⟨run, fun d x hx => ?_, fun d x hx => ?_, fun d x hx => ?_, fun d hx => ?_⟩
  · by_cases hd : d = c
    · subst hd
      rw [Dialing.setTask_self] at hx
      exact Option.some.inj hx ▸ agrees
    · rw [Dialing.setTask_of_ne g hd] at hx
      have := h.agrees d x hx
      rwa [← (frame d hd).1, ← (frame d hd).2] at this
  · by_cases hd : d = c
    · subst hd
      rw [Dialing.setTask_self] at hx
      exact Option.some.inj hx ▸ own
    · rw [Dialing.setTask_of_ne g hd] at hx
      exact List.mem_append_left _ (h.own d x hx)
  · by_cases hd : d = c
    · subst hd
      obtain ⟨clientName, resume, accountToken, hadm⟩ := admitted
      exact ⟨clientName, resume, accountToken, hadm.dialed l⟩
    · rw [Dialing.setTask_of_ne g hd] at hx
      obtain ⟨clientName, resume, accountToken, hadm⟩ := h.admitted d x hx
      exact ⟨clientName, resume, accountToken, hadm.dialed l⟩
  · by_cases hd : d = c
    · subst hd
      simp at hx
    · rw [Dialing.setTask_of_ne g hd] at hx
      have := h.undialed d hx
      rwa [← (frame d hd).1] at this

theorem LoginTask.start_agrees (keys : SshKeys Secret Public) {t : State} {target : TargetSpec}
    {auth : AuthIntent} {cols rows : UInt16}
    (hs : step t (.recvOpen c (.ok (.openTarget target auth cols rows))) = some g)
    (sound : t.Sound) (spoke : (t.conns c).Spoke (t.frames c))
    (delegates : (t.conns c).Delegates (t.frames c)) :
    (LoginTask.start keys target auth cols rows).Agrees keys (g.conns c) (g.frames c) ∧
      (t.conns c).pc = .openTarget := by
  simp only [step, State.recvOpen] at hs
  split at hs
  next hpc =>
    have hearly : (t.conns c).pc.stage = .early := by simp [hpc, Pc.stage]
    have hnone : (t.conns c).session = none :=
      Option.map_eq_none_iff.mp ((sound.owned.ok c).early hearly)
    have hfresh := delegates.early hearly
    have hfs : t.frames c = [] :=
      (spoke.of_asking (by simp [hpc, Pc.asking])).2.2.1 (by simp [hpc, Pc.unopened])
    cases hrefused : auth.refused with
    | none =>
      simp only [hrefused, Option.some.injEq] at hs
      subst hs
      simp only [State.setConn_conns_self, State.frames_setConn]
      refine ⟨⟨.start, rfl, hfresh, by simp [Pc.signing], fun hs => absurd hnone hs, ?_⟩, hpc⟩
      simp [hfs]
    | some e =>
      simp only [hrefused, Option.some.injEq] at hs
      subst hs
      simp only [State.setConn_conns_self, State.frames_setConn]
      refine ⟨⟨.start, rfl, hfresh, by simp [Pc.signing], fun hs => absurd hnone hs,
        fun m hm => Or.inr ⟨e, openForAuth_refused target cols rows hrefused, ?_⟩⟩, hpc⟩
      simpa [hfs, eq_comm] using hm
  next => cases hs

theorem DialMove.holds (m : DialMove keys s l s') (h : s.Holds keys maxScrollback ls) :
    s'.Holds keys maxScrollback (ls ++ [l]) := by
  have reach := reachable_exec .init h.run
  have sound := gateway_sound reach
  obtain ⟨spoke, delegates⟩ := gateway_speaks reach
  cases m with
  | @opened g c target auth cols rows hg =>
    obtain ⟨hagrees, hpc⟩ := LoginTask.start_agrees keys hg sound (spoke c) (delegates c)
    have hadm := exec_admission h.run c
    have hauth : (s.gateway.conns c).pc.authorized = true := by simp [hpc, Pc.authorized]
    refine h.setTask (by rw [dialed_append]; exact exec_concat h.run hg) (fun d hd => ?_) hagrees
      (by simp [LoginTask.start]) ⟨_, _, _, hadm.heard (Or.inr (Or.inl hauth)),
        hadm.allowed (Or.inl hauth)⟩
    have hne : Label.conn (.recvOpen c (.ok (.openTarget target auth cols rows))) ≠ some d :=
      fun he => hd (Option.some.inj he).symm
    exact ⟨(step_move hg).conns_of_ne hne, (step_move hg).frames_of_ne hne⟩
  | @followed g k c x y hg hl hx hy =>
    refine h.setTask (by rw [dialed_append]; exact exec_concat h.run hg) (fun d hd => ?_)
      ((step_move hg).agrees hg sound (spoke c) hl (h.agrees c x hx) hy) ?_ (h.admitted c x hx)
    · have hne : k.conn ≠ some d := fun he => hd (Option.some.inj (he.symm.trans hl))
      exact ⟨(step_move hg).conns_of_ne hne, (step_move hg).frames_of_ne hne⟩
    · refine List.mem_append_left _ ?_
      rcases LoginTask.follow_cases hy with rfl | ⟨r, hr⟩
      · exact h.own c _ hx
      · obtain ⟨-, ht, ha, hc, hrows⟩ := LoginTask.answer_after (h.agrees c x hx).after hr
        rw [ht, ha, hc, hrows]
        exact h.own c x hx
  | @passed g k hg hpass =>
    have m := step_move hg
    have kept : ∀ c x, s.tasks c = some x → k.conn ≠ some c := by
      intro c x hx hk
      have hnone := (hpass c hk).1
      simp [hx] at hnone
    refine ⟨by rw [dialed_append]; exact exec_concat h.run hg, fun c x hx => ?_, fun c x hx => ?_,
      fun c x hx => ?_, fun c hx => ?_⟩
    · rw [m.conns_of_ne (kept c x hx), m.frames_of_ne (kept c x hx)]
      exact h.agrees c x hx
    · exact List.mem_append_left _ (h.own c x hx)
    · obtain ⟨clientName, resume, accountToken, hadm⟩ := h.admitted c x hx
      exact ⟨clientName, resume, accountToken, hadm.dialed _⟩
    · by_cases hk : k.conn = some c
      · exact m.undialed hk (h.undialed c hx) (hpass c hk).2
      · rw [m.conns_of_ne hk]
        exact h.undialed c hx
  | @answered c r x y hx hy hpc =>
    obtain ⟨hafter, ht, ha, hc, hr⟩ := LoginTask.answer_after (h.agrees c x hx).after hy
    refine h.setTask (by rw [dialed_append]; simpa [DialLabel.base] using h.run)
      (fun d hd => ⟨rfl, rfl⟩) ?_ ?_ (h.admitted c x hx)
    · have hagrees := h.agrees c x hx
      have hnone : (s.gateway.conns c).session = none := Option.map_eq_none_iff.mp
        ((sound.owned.ok c).early (by simp [State.life_client, Conn.client, hpc, Pc.stage]))
      have silent := (spoke c).no_error (by simp [hpc, Pc.asking])
      refine ⟨by rw [ht, ha, hc, hr]; exact hafter, hagrees.opened, hagrees.fresh,
        by simp [hpc, Pc.signing], fun hs => absurd hnone hs, ?_⟩
      simp [hpc, silent]
    · rw [ht, ha, hc, hr]
      exact List.mem_append_left _ (h.own c x hx)

theorem dialing_holds (run : exec (dialStep keys) (.init maxScrollback) ls = some s) :
    s.Holds keys maxScrollback ls := by
  refine exec_trace (P := fun ls (s : Dialing Secret Public) => s.Holds keys maxScrollback ls) ?_
    (fun _ _ _ _ h hs => (dial_move hs).holds h) run
  refine ⟨rfl, ?_, ?_, ?_, fun c _ => ⟨rfl, ?_⟩⟩ <;>
    simp [Dialing.init, State.init, Conn.init]

end Holds

section Login

variable {Secret Public : Type} (keys : SshKeys Secret Public) (x : LoginTask Secret Public)

def LoginTask.stages : List (SshStage Secret Public) :=
  (loginStages keys x.target x.auth x.cols x.rows).2

def LoginTask.outcome : Except String Unit :=
  (loginStages keys x.target x.auth x.cols x.rows).1

/-- The login has failed with `e`: its last call was answered so, or else it could not go on after
its calls. -/
def LoginTask.Failed (e : String) : Prop :=
  x.outcome keys = .error e ∧ List.Forall₂ Attempt.Passed (x.stages keys) x.asked ∨
  ∃ front attempt later before r, x.stages keys = front ++ attempt :: later ∧
    x.asked = before ++ [(attempt.call, r)] ∧ List.Forall₂ Attempt.Passed front before ∧
    attempt.error r = some e

variable {keys x} {s : Dialing Secret Public} {ls : List DialLabel} {c : ConnId} {conn : Conn}
  {fs : List ServerFrame}

theorem LoginTask.Agrees.progress (h : x.Agrees keys conn fs) :
    Progress (x.outcome keys) (x.stages keys) x.asked x.left := by
  have hafter := h.after
  rw [openForAuth_eq_chain] at hafter
  exact hafter.progress

theorem LoginTask.Agrees.failed {m : String} (h : x.Agrees keys conn fs) (hs : conn.session = none)
    (hm : .error m ∈ fs) : ∃ e, m = "connect failed: " ++ e ∧ x.Failed keys e := by
  obtain ⟨e, hleft, rfl⟩ := (h.said m (Or.inr hm)).resolve_left fun hn => hn hs
  exact ⟨e, rfl, (hleft ▸ h.progress).of_error⟩

/-- A login makes the calls of its client's `Open`, in their order and each once the one before has
passed, for a client that was authorized; a session comes of it when all of them have, and what the
client is told otherwise is what the login failed with. -/
theorem login_calls {maxScrollback : Nat}
    (run : exec (dialStep keys) (.init maxScrollback) ls = some s) (c : ConnId) :
    (∀ x, s.tasks c = some x →
      .gateway (.recvOpen c (.ok (.openTarget x.target x.auth x.cols x.rows))) ∈ ls ∧
      (∃ clientName resume accountToken,
        Admitted (.init maxScrollback) c (dialed ls) clientName resume accountToken) ∧
      Progress (x.outcome keys) (x.stages keys) x.asked x.left ∧
      ((s.gateway.conns c).session = none → ∀ m, .error m ∈ s.gateway.frames c →
        ∃ e, m = "connect failed: " ++ e ∧ x.Failed keys e)) ∧
    ((s.gateway.conns c).session ≠ none → (s.gateway.conns c).resumed = false →
      ∃ x, s.tasks c = some x ∧ x.outcome keys = .ok () ∧
        List.Forall₂ Attempt.Passed (x.stages keys) x.asked) := by
  have h := dialing_holds run
  refine ⟨fun x hx => ?_, fun hsession hfresh => ?_⟩
  · have hagrees := h.agrees c x hx
    exact ⟨h.own c x hx, h.admitted c x hx, hagrees.progress,
      fun hs m hm => hagrees.failed hs hm⟩
  · cases hx : s.tasks c with
    | none =>
      have hresumed := (h.undialed c hx).resumed hsession
      simp [hresumed] at hfresh
    | some x =>
      have hagrees := h.agrees c x hx
      exact ⟨x, rfl, (hagrees.reached hsession ▸ hagrees.progress).of_ok⟩

end Login

def plainKeys : SshKeys String String := ⟨fun pem _ => .ok pem, .ok, .ok⟩

/-- A client logs in with a key that it signs for itself, and the target then gives no terminal; a
second one logs in by password. -/
def dialing : List DialLabel :=
  [.gateway (.accept 0), .gateway (.recvHello 0 (.ok (.hello protocolVersion "client" none none))),
    .gateway (.authorized 0 (.ok .unlimited)), .gateway (.lookup 0),
    .gateway (.recvOpen 0 (.ok (.openTarget ⟨"target", 22, "user"⟩ (.delegatedKey [107]) 80 24))),
    .answered 0 (.ok true), .gateway (.signAsked 0 [107] [1]), .gateway (.signSent 0 (.ok ())),
    .gateway (.signRecv 0 (.ok (.signResponse 1 [2]))), .answered 0 (.ok true),
    .answered 0 (.ok true), .answered 0 (.error "refused"),
    .gateway (.loginFailed 0 "request pty"), .gateway (.rejectSent 0 true),
    .gateway (.accept 1), .gateway (.recvHello 1 (.ok (.hello protocolVersion "client" none none))),
    .gateway (.authorized 1 (.ok .unlimited)), .gateway (.lookup 1),
    .gateway (.recvOpen 1 (.ok (.openTarget ⟨"target", 22, "user"⟩ (.password "secret") 80 24))),
    .answered 1 (.ok true), .answered 1 (.ok true), .answered 1 (.ok true), .answered 1 (.ok true),
    .answered 1 (.ok true), .gateway (.loggedIn 1 5 [1])]

theorem dialing_run : ∃ s : Dialing String String,
    exec (dialStep plainKeys) (.init defaultScrollbackBytes) dialing = some s ∧
    (s.tasks 0).isSome = true ∧ (s.gateway.conns 0).session = none ∧
    .error "connect failed: request pty" ∈ s.gateway.frames 0 ∧
    (s.gateway.conns 1).session ≠ none ∧ (s.gateway.conns 1).resumed = false :=
  exists_exec (by decide +kernel)

theorem login_calls_dialing : ∃ s : Dialing String String,
    exec (dialStep plainKeys) (.init defaultScrollbackBytes) dialing = some s ∧
    .error "connect failed: request pty" ∈ s.gateway.frames 0 ∧
    (∃ x, s.tasks 0 = some x ∧ x.Failed plainKeys "request pty") ∧
    ∃ x, s.tasks 1 = some x ∧ List.Forall₂ Attempt.Passed (x.stages plainKeys) x.asked := by
  obtain ⟨s, run, hsome, hnone, hm, hses, hfresh⟩ := dialing_run
  obtain ⟨x, hx⟩ := Option.isSome_iff_exists.mp hsome
  obtain ⟨-, -, -, hfailed⟩ := (login_calls run 0).1 x hx
  obtain ⟨e, he, hfailed⟩ := hfailed hnone _ hm
  obtain ⟨y, hy, -, hpassed⟩ := (login_calls run 1).2 hses hfresh
  have htext : "connect failed: " ++ e = "connect failed: " ++ "request pty" :=
    he.symm.trans (by decide +kernel)
  obtain rfl := (String.append_right_inj _).mp htext
  exact ⟨s, run, hm, ⟨x, hx, hfailed⟩, y, hy, hpassed⟩

end TtyGateway
