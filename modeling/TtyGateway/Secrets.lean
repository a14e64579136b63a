import TtyGateway.Moves
import Mathlib.Tactic.Simps.Basic

namespace TtyGateway

open Transition

/-- The way to authenticate without the secrets of it; public keys and ids of keys are none. -/
def AuthIntent.masked : AuthIntent → AuthIntent
  | .password _ => .password ""
  | .privateKey _ _ => .privateKey "" none
  | auth => auth

def ClientFrame.masked : ClientFrame → ClientFrame
  | .openTarget target auth cols rows => .openTarget target auth.masked cols rows
  | frame => frame

def Recv.masked (r : Recv) : Recv := r.map ClientFrame.masked

/-- A label without the secrets of the frame in it. What comes in place of a signature stays: the
error it leads to quotes the frame. -/
def Label.masked : Label → Label
  | .recvHello c r => .recvHello c (Recv.masked r)
  | .recvOpen c r => .recvOpen c (Recv.masked r)
  | .recv c r => .recv c (Recv.masked r)
  | l => l

@[simps] def Conn.masked (x : Conn) : Conn := { x with auth := x.auth.map AuthIntent.masked }

@[simps] def State.masked (s : State) : State := { s with conns := fun c => (s.conns c).masked }

section Masked

variable (s : State) (c : ConnId) (x : Conn)

@[simp] theorem AuthIntent.masked_refused (auth : AuthIntent) :
    auth.masked.refused = auth.refused := by
  cases auth <;> rfl

@[simp] theorem AuthIntent.masked_delegated (auth : AuthIntent) :
    auth.masked.delegated = auth.delegated := by
  cases auth <;> rfl

@[simp] theorem Conn.masked_any_delegated :
    x.masked.auth.any AuthIntent.delegated = x.auth.any AuthIntent.delegated := by
  cases h : x.auth <;> simp [Conn.masked, h]

@[simp] theorem State.masked_setConn : (s.setConn c x).masked = s.masked.setConn c x.masked := by
  simp only [State.masked, State.setConn, State.mk.injEq, true_and, and_true]
  funext d
  by_cases h : d = c
  · subst h
    simp
  · simp [h]

@[simp] theorem State.masked_inputAlive (i : SessionId) :
    s.masked.inputAlive i = s.inputAlive i := rfl

end Masked

theorem some_masked {s t : State} {c : ConnId} {x y : Conn} (ht : t = s.masked)
    (hy : y = x.masked) : some (t.setConn c y) = (some (s.setConn c x)).map State.masked := by
  simp [ht, hy]

theorem step_masked (s : State) (l : Label) :
    step s.masked l.masked = (step s l).map State.masked := by
  cases l with
  | accept c =>
    simp only [step, Label.masked, State.accept, State.masked_conns, Conn.masked_pc]
    split
    · exact some_masked (s := { s with accepted := s.accepted ++ [c] })
        (x := { s.conns c with pc := .hello }) rfl rfl
    · rfl
  | recvHello c r =>
    simp only [step, Label.masked, State.recvHello, State.masked_conns, Conn.masked_pc]
    split
    · rcases r with e | frame
      · dsimp only [Recv.masked, Except.map]
        exact some_masked rfl rfl
      · cases frame <;> dsimp only [Recv.masked, Except.map, ClientFrame.masked]
        case hello => split <;> exact some_masked rfl rfl
        all_goals exact some_masked rfl rfl
    · rfl
  | authorized c answer =>
    simp only [step, Label.masked, State.authorized, State.masked_conns, Conn.masked_pc]
    split
    · cases answer <;> exact some_masked rfl rfl
    · rfl
  | lookup c =>
    simp only [step, Label.masked, State.lookup, State.masked_conns, Conn.masked_pc,
      Conn.masked_resume, State.masked_registry]
    split
    · split <;> exact some_masked rfl rfl
    · rfl
  | recvOpen c r =>
    simp only [step, Label.masked, State.recvOpen, State.masked_conns, Conn.masked_pc]
    split
    · rcases r with e | frame
      · dsimp only [Recv.masked, Except.map]
        exact some_masked rfl rfl
      · cases frame <;> dsimp only [Recv.masked, Except.map, ClientFrame.masked]
        case openTarget =>
          rw [AuthIntent.masked_refused]
          split <;> exact some_masked rfl rfl
        all_goals exact some_masked rfl rfl
    · rfl
  | signAsked c publicKey data =>
    simp only [step, Label.masked, State.signAsked, State.masked_conns, Conn.masked_pc,
      Conn.masked_any_delegated]
    split
    · exact some_masked rfl rfl
    · rfl
  | signSent c result =>
    simp only [step, Label.masked, State.signSent, State.masked_conns, Conn.masked_pc]
    split
    · cases result with
      | ok => exact some_masked rfl rfl
      | error e => exact some_masked rfl rfl
    · rfl
  | signRecv c r =>
    simp only [step, Label.masked, State.signRecv, State.masked_conns, Conn.masked_pc]
    split
    · rcases r with e | frame
      · exact some_masked rfl rfl
      · cases frame <;> dsimp only
        case signResponse =>
          split
          · exact some_masked rfl rfl
          · rfl
        case ping => rfl
        all_goals exact some_masked rfl rfl
    · rfl
  | loggedIn c id token =>
    simp only [step, Label.masked, State.loggedIn, State.masked_conns, Conn.masked_pc,
      State.masked_minted]
    split
    · exact some_masked (s := { s.setSession id (.spawn s.maxScrollback) with
          registry := s.registry.create ⟨id, token⟩, minted := s.minted ++ [⟨id, token⟩] })
        (x := { s.conns c with pc := .sessionOpen, session := some ⟨id, token⟩, resumed := false })
        rfl rfl
    · rfl
  | sessionOpened c answer =>
    simp only [step, Label.masked, State.sessionOpened, State.masked_conns, Conn.masked_session]
    cases hs : (s.conns c).session with
    | none => rfl
    | some session =>
      simp only [Option.bind_eq_bind, Option.bind_some, Conn.masked_pc]
      split
      · cases answer with
        | ok => exact some_masked rfl rfl
        | error denied =>
          exact some_masked (s := { s.call (.sessionOpen (s.conns c).accountToken session.id
              (s.conns c).clientName (.error denied)) with
              registry := s.registry.remove session.id }) (c := c)
            (x := { s.conns c with pc := .reject denied.toString, session := some session }) rfl rfl
      · rfl
  | rejectSent c ok =>
    simp only [step, Label.masked, State.rejectSent, State.masked_conns, Conn.masked_pc]
    split
    · cases ok with
      | true => exact some_masked rfl rfl
      | false => exact some_masked rfl rfl
    · rfl
  | helloSent c ok =>
    simp only [step, Label.masked, State.helloSent, State.masked_conns, Conn.masked_session]
    cases hs : (s.conns c).session with
    | none => rfl
    | some session =>
      simp only [Option.bind_eq_bind, Option.bind_some, Conn.masked_pc]
      split
      · cases ok with
        | true => exact some_masked rfl rfl
        | false => exact some_masked rfl rfl
      · rfl
  | statusSent c ok =>
    simp only [step, Label.masked, State.statusSent, State.masked_conns, Conn.masked_pc]
    split
    · cases ok with
      | true => exact some_masked rfl rfl
      | false => exact some_masked rfl rfl
    · rfl
  | recv c r =>
    simp only [step, Label.masked, State.recv, State.masked_conns, Conn.masked_pc]
    split
    · rcases r with e | frame
      · dsimp only [Recv.masked, Except.map]
        exact some_masked rfl rfl
      · cases frame <;> dsimp only [Recv.masked, Except.map, ClientFrame.masked]
        case hello | openTarget | signResponse => rfl
        all_goals exact some_masked rfl rfl
    · rfl
  | forward c =>
    simp only [step, Label.masked, State.forward, State.masked_conns, Conn.masked_session,
      State.masked_sessions]
    cases hs : (s.conns c).session with
    | none => rfl
    | some session =>
      simp only [Option.bind_eq_bind, Option.bind_some]
      cases hi : s.sessions session.id with
      | none => rfl
      | some ses =>
        simp only [Option.bind_some, Conn.masked_pc]
        split
        · split
          · split
            · exact some_masked rfl rfl
            · rfl
          · exact some_masked rfl rfl
        · rfl
  | pong c =>
    simp only [step, Label.masked, State.pong, State.masked_conns, Conn.masked_pc,
      Conn.masked_sender, Conn.masked_oob]
    split
    · split
      · split
        · exact some_masked rfl rfl
        · rfl
      · exact some_masked rfl rfl
    · rfl
  | report c =>
    simp only [step, Label.masked, State.report, State.masked_conns, Conn.masked_session]
    cases hs : (s.conns c).session with
    | none => rfl
    | some session =>
      simp only [Option.bind_eq_bind, Option.bind_some, Conn.masked_pc]
      split
      · exact some_masked rfl rfl
      · rfl
  | checkClosed c =>
    simp only [step, Label.masked, State.checkClosed, State.masked_conns, Conn.masked_session,
      State.masked_sessions]
    cases hs : (s.conns c).session with
    | none => rfl
    | some session =>
      simp only [Option.bind_eq_bind, Option.bind_some]
      cases hi : s.sessions session.id with
      | none => rfl
      | some ses =>
        simp only [Option.bind_some, Conn.masked_pc]
        split
        · split <;> exact some_masked rfl rfl
        · rfl
  | closeCall c =>
    simp only [step, Label.masked, State.closeCall, State.masked_conns, Conn.masked_session]
    cases hs : (s.conns c).session with
    | none => rfl
    | some session =>
      simp only [Option.bind_eq_bind, Option.bind_some, Conn.masked_pc]
      split
      · exact some_masked rfl rfl
      · rfl
  | closeReturned c =>
    simp only [step, Label.masked, State.closeReturned, State.masked_conns, Conn.masked_session]
    cases hs : (s.conns c).session with
    | none => rfl
    | some session =>
      simp only [Option.bind_eq_bind, Option.bind_some, Conn.masked_pc]
      split
      · exact some_masked (s := { s with registry := s.registry.remove session.id }) (c := c)
          (x := { s.conns c with pc := .leaving, session := some session }) rfl rfl
      · rfl
  | pollReader c =>
    simp only [step, Label.masked, State.pollReader, State.masked_conns, Conn.masked_session,
      State.masked_sessions]
    cases hs : (s.conns c).session with
    | none => rfl
    | some session =>
      simp only [Option.bind_eq_bind, Option.bind_some]
      cases hi : s.sessions session.id with
      | none => rfl
      | some ses =>
        simp only [Option.bind_some, Conn.masked_sender, Conn.masked_reader]
        split
        · cases hp : (s.conns c).reader.poll .exact ses.inner with
          | none => rfl
          | some found =>
            obtain ⟨p, reader⟩ := found
            cases p <;> exact some_masked rfl rfl
        · rfl
  | pollOob c =>
    simp only [step, Label.masked, State.pollOob, State.masked_conns, Conn.masked_sender,
      Conn.masked_oobOpen, Conn.masked_oob, Conn.masked_pc]
    split
    · split
      · exact some_masked rfl rfl
      · split
        · rfl
        · exact some_masked rfl rfl
    · rfl
  | throttle c =>
    simp only [step, Label.masked, State.throttle, State.masked_conns, Conn.masked_sender,
      Conn.masked_limiter]
    split
    · split
      · exact some_masked rfl rfl
      · simp only [State.masked_clock]
        split <;> exact some_masked rfl rfl
    · rfl
  | wake c =>
    simp only [step, Label.masked, State.wake, State.masked_conns, Conn.masked_sender]
    split
    · simp only [State.masked_clock]
      split
      · exact some_masked rfl rfl
      · rfl
    · rfl
  | written c ok =>
    simp only [step, Label.masked, State.written, State.masked_conns, Conn.masked_sender]
    split
    · cases ok with
      | true => exact some_masked rfl rfl
      | false => exact some_masked rfl rfl
    · cases ok with
      | true => exact some_masked rfl rfl
      | false => exact some_masked rfl rfl
    · rfl
  | actorNone i =>
    simp only [step, Label.masked, State.actorNone, State.masked_sessions]
    cases hi : s.sessions i with
    | none => rfl
    | some ses =>
      simp only [Option.bind_eq_bind, Option.bind_some]
      by_cases hn : ses.actor ∧ ses.input = [] ∧ s.inputAlive i = false
      · rw [if_pos hn, if_pos (by rwa [State.masked_inputAlive])]
        rfl
      · rw [if_neg hn, if_neg (by rwa [State.masked_inputAlive])]
        rfl
  | actorOutput i | actorEnd i | ingestEnd i =>
    simp only [step, Label.masked, State.actorOutput, State.actorEnd, State.ingestEnd,
      State.masked_sessions]
    cases hi : s.sessions i with
    | none => rfl
    | some ses =>
      simp only [Option.bind_eq_bind, Option.bind_some]
      split <;> rfl
  | actorInput i | ingest i =>
    simp only [step, Label.masked, State.actorInput, State.ingest, State.masked_sessions]
    cases hi : s.sessions i with
    | none => rfl
    | some ses =>
      simp only [Option.bind_eq_bind, Option.bind_some]
      split
      · split <;> rfl
      · rfl
  | tick elapsed =>
    simp only [step, Label.masked]
    split <;> rfl
  | loginFailed c | leave c | senderStart c | cancel c =>
    simp only [step, Label.masked, State.loginFailed, State.leave, State.senderStart,
      State.cancel, State.masked_conns, Conn.masked_pc, Conn.masked_sender, Conn.masked_aborted]
    split
    · exact some_masked rfl rfl
    · rfl
  | abort c | reported c | addOut c =>
    simp only [step, Label.masked, State.abort, State.reported, State.addOut,
      State.masked_conns, Conn.masked_pc, Conn.masked_sender]
    split
    · exact some_masked rfl rfl
    · rfl

theorem exec_masked (s : State) (ls : List Label) :
    exec step s.masked (ls.map Label.masked) = (exec step s ls).map State.masked := by
  induction ls generalizing s with
  | nil => rfl
  | cons l ls ih =>
    rw [List.map_cons, exec, step_masked, exec]
    cases step s l with
    | none => rfl
    | some t => exact ih t

/-- What a gateway does is the same whatever the passwords and private keys in the frames are: from
a run in which they are others it goes to the same frames, the same calls of the hook, the same
sessions and the same registry. -/
theorem secrets_unobserved {maxScrollback : Nat} {s : State} {ls ms : List Label}
    (run : exec step (.init maxScrollback) ls = some s)
    (same : ms.map Label.masked = ls.map Label.masked) :
    ∃ t, exec step (.init maxScrollback) ms = some t ∧ t.masked = s.masked ∧ t.wire = s.wire ∧
      t.calls = s.calls ∧ t.sessions = s.sessions ∧ t.registry = s.registry ∧
      ∀ c, (t.conns c).pc = (s.conns c).pc ∧ (t.conns c).sender = (s.conns c).sender := by
  have hrun := exec_masked (.init maxScrollback) ms
  rw [same, exec_masked, run, Option.map_some] at hrun
  obtain ⟨t, ht, he⟩ := Option.map_eq_some_iff.mp hrun.symm
  refine ⟨t, ht, he, ?_, ?_, ?_, ?_, fun c => ?_⟩
  · simpa using congrArg State.wire he
  · simpa using congrArg State.calls he
  · funext i
    simpa using congrFun (congrArg State.sessions he) i
  · simpa using congrArg State.registry he
  · have hc : (t.conns c).masked = (s.conns c).masked := congrFun (congrArg State.conns he) c
    exact ⟨by simpa using congrArg Conn.pc hc, by simpa using congrArg Conn.sender hc⟩

def passwordLogin (secret : String) : List Label :=
  [.accept 0, .recvHello 0 (.ok (.hello protocolVersion "client" none none)),
    .authorized 0 (.ok .unlimited), .lookup 0,
    .recvOpen 0 (.ok (.openTarget ⟨"target", 22, "user"⟩ (.password secret) 80 24)),
    .loggedIn 0 5 [1], .sessionOpened 0 (.ok ()), .helloSent 0 true, .statusSent 0 true]

theorem secrets_unobserved_password : ∃ s t,
    exec step (.init 8) (passwordLogin "secret") = some s ∧
    exec step (.init 8) (passwordLogin "guess") = some t ∧ t.wire = s.wire := by
  have hlogin : ∃ s, exec step (.init 8) (passwordLogin "secret") = some s ∧
      (s.conns 0).pc = .live := exists_exec (by decide +kernel)
  obtain ⟨s, hs, -⟩ := hlogin
  have same : (passwordLogin "guess").map Label.masked =
      (passwordLogin "secret").map Label.masked := rfl
  obtain ⟨t, ht, -, hwire, -⟩ := secrets_unobserved hs same
  exact ⟨s, t, hs, ht, hwire⟩

end TtyGateway
