import TtyGateway.Admission

namespace TtyGateway

open Transition

/-- The handler is suspended in a `recv` on the control stream. -/
def Pc.receiving : Pc → Bool
  | .hello | .openTarget | .signWait _ | .live => true
  | .idle | .authorize | .lookup | .login | .signSend _ _ _ | .sessionOpen | .reject _ | .greet
  | .status | .failed | .forward _ | .pong | .ending _ | .metering _ | .reporting _ | .deciding _
  | .closing | .closeWait | .leaving | .done => false

/-- The handler is opening a new session, up to the login. -/
def Pc.opening : Pc → Bool
  | .openTarget | .login | .signSend _ _ _ | .signWait _ => true
  | _ => false

/-- The client of connection `c` presented a resume token in its `Hello` and was authorized; it
waits for the reply, nothing has been sent to it, and the handler waits for a frame from it. -/
structure State.MutualWait (s : State) (c : ConnId) : Prop where
  presented : (s.conns c).resume ≠ none
  authorized : (s.conns c).pc.authorized = true
  receiving : (s.conns c).pc.receiving = true
  silent : s.frames c = []

instance (s : State) (c : ConnId) : Decidable (s.MutualWait c) :=
  decidable_of_iff ((s.conns c).resume ≠ none ∧ (s.conns c).pc.authorized = true ∧
      (s.conns c).pc.receiving = true ∧ s.frames c = [])
    ⟨fun ⟨h₁, h₂, h₃, h₄⟩ => ⟨h₁, h₂, h₃, h₄⟩, fun ⟨h₁, h₂, h₃, h₄⟩ => ⟨h₁, h₂, h₃, h₄⟩⟩

/-- When the handler of connection `c` looks up the client's resume token, there is a session for
it. -/
def ResolvesToken (c : ConnId) (s : State) (l : Label) : Prop :=
  l.looksUp = some c → (s.conns c).resume ≠ none → s.resolves c ≠ none

instance (c : ConnId) (s : State) (l : Label) : Decidable (ResolvesToken c s l) :=
  inferInstanceAs (Decidable (_ → _ → _))

theorem Move.frames_prefix {s s' : State} {l : Label} (m : Move s l s') (c : ConnId) :
    s.frames c <+: s'.frames c := by
  rcases m.wire with he | ⟨sent, he, -⟩
  · simp [State.frames, he]
  · simp [State.frames, he, List.filterMap_append]

theorem Move.greeted {s s' : State} {l : Label} (m : Move s l s') {c : ConnId}
    (h : (s.conns c).pc.past = true → s.frames c ≠ []) :
    (s'.conns c).pc.past = true → s'.frames c ≠ [] := by
  intro hp hnil
  have hold : s.frames c = [] := List.prefix_nil.mp (hnil ▸ m.frames_prefix c)
  by_cases hl : l.conn = some c
  · cases m with
    | statusSent =>
      cases hl
      simp [State.frames_setConn, State.frames_put_self] at hnil
    | signIgnored | recvIgnored => exact h hp hold
    | recvData hpc | recvResize hpc | recvPing hpc | recvClose hpc | recvLost hpc | forwarded hpc
    | unforwarded hpc | ponged hpc | unponged hpc | abort hpc | report hpc | reported hpc
    | ended hpc | kept hpc | closeCall hpc | closeReturned hpc | leave hpc =>
      cases hl
      exact h (by simp [hpc, Pc.past]) hold
    | senderStart | chunk | finished | parked | oob | oobClosed | unlimited | admitted | delayed
    | wake | addOut | written | unwritten | closedWritten | closedUnwritten | cancel =>
      cases hl
      exact h (by simpa using hp) hold
    | actorOutput | actorInput | actorEnd | actorNone | ingest | ingestEnd | tick => cases hl
    | _ =>
      cases hl
      simp [Pc.past] at hp
  · rw [m.conns_of_ne hl] at hp
    exact h hp hold

/-- A client that presented a token is made to open a session only where the token is not found. -/
theorem Move.opening {s s' : State} {l : Label} (m : Move s l s') {c : ConnId}
    (cond : ResolvesToken c s l) (h : (s.conns c).pc.opening = true → (s.conns c).resume = none) :
    (s'.conns c).pc.opening = true → (s'.conns c).resume = none := by
  by_cases hl : l.conn = some c
  · cases m with
    | @unresumed d hpc hr =>
      cases hl
      intro _
      by_contra hne
      exact cond rfl (by simpa using hne) hr
    | openTarget hpc | signAsked hpc | signSent hpc | signed hpc =>
      cases hl
      simpa using fun _ => h (by simp [hpc, Pc.opening])
    | signIgnored | recvIgnored => exact h
    | senderStart | chunk | finished | parked | oob | oobClosed | unlimited | admitted | delayed
    | wake | addOut | written | unwritten | closedWritten | closedUnwritten | cancel =>
      cases hl
      simpa using h
    | actorOutput | actorInput | actorEnd | actorNone | ingest | ingestEnd | tick => cases hl
    | _ =>
      cases hl
      simp [Pc.opening]
  · rw [m.conns_of_ne hl]
    exact h

theorem gateway_greeted {maxScrollback : Nat} {C : State → Label → Prop} {s : State}
    (h : Reach (gateway maxScrollback) C s) (c : ConnId) :
    (s.conns c).pc.past = true → s.frames c ≠ [] := by
  refine h.invariant (P := fun s => (s.conns c).pc.past = true → s.frames c ≠ []) ?_ ?_
  · simp [gateway, machine, State.init, Conn.init, Pc.past]
  · exact fun s l s' _ ih _ hs => (step_move hs).greeted ih

/-- A client that presents a token which is found is never left waiting for a gateway that waits
for it; where the token is not found, that is what the lookup leads to. -/
theorem resume_answered {maxScrollback : Nat} {s : State} {c : ConnId}
    (h : Reach (gateway maxScrollback) (ResolvesToken c) s) :
    ¬s.MutualWait c ∧ ∀ s', step s (.lookup c) = some s' → (s.conns c).resume ≠ none →
      (s'.MutualWait c ↔ s.resolves c = none) := by
  have opening : (s.conns c).pc.opening = true → (s.conns c).resume = none := by
    refine h.invariant (P := fun s => (s.conns c).pc.opening = true → (s.conns c).resume = none)
      ?_ ?_
    · simp [gateway, machine, State.init, Conn.init, Pc.opening]
    · exact fun s l s' _ ih hc hs => (step_move hs).opening hc ih
  refine ⟨?_, ?_⟩
  · intro hw
    have hauth := hw.authorized
    have hrecv := hw.receiving
    cases hpc : (s.conns c).pc with
    | openTarget | signWait => exact hw.presented (opening (by simp [hpc, Pc.opening]))
    | live => exact gateway_greeted h c (by simp [hpc, Pc.past]) hw.silent
    | hello => simp [hpc, Pc.authorized] at hauth
    | _ => simp [hpc, Pc.receiving] at hrecv
  · intro s' hs hne
    have m := step_move hs
    have hframes : s'.frames c = s.frames c := by
      cases m <;> rfl
    constructor
    · intro hw
      have hrecv := hw.receiving
      cases m with
      | resumed hpc ht hr => simp [Pc.receiving] at hrecv
      | unresumed hpc hr => exact hr
    · intro hr
      cases m with
      | @resumed d token found hpc ht hfound =>
        simp [State.resolves, ht, hfound] at hr
      | unresumed hpc hnone =>
        obtain ⟨-, -, hun, -⟩ := ((gateway_speaks h).1 c).of_asking (by simp [hpc, Pc.asking])
        refine ⟨by simpa using hne, by simp [Pc.authorized], by simp [Pc.receiving], ?_⟩
        exact hframes.trans (hun (by simp [hpc, Pc.unopened]))

theorem Move.waits_open {s s' : State} {l : Label} (m : Move s l s') {c : ConnId}
    (hpc : (s.conns c).pc = .openTarget) (hsender : (s.conns c).sender = .idle)
    (hl : ∀ r, l ≠ .recvOpen c r) :
    s'.conns c = s.conns c ∧ s'.frames c = s.frames c := by
  by_cases hc : l.conn = some c
  · cases m with
    | signIgnored | recvIgnored => exact ⟨rfl, rfl⟩
    | openLost | openTarget | openRefused =>
      cases hc
      exact absurd rfl (hl _)
    | cancel _ hs =>
      cases hc
      simp [hsender, SenderPc.atAwait] at hs
    | senderStart hs | chunk hs | finished hs | parked hs | oob hs | oobClosed hs | unlimited hs
    | admitted hs | delayed hs | wake hs | addOut hs | written hs | unwritten hs
    | closedWritten hs | closedUnwritten hs =>
      cases hc
      simp [hsender] at hs
    | actorOutput | actorInput | actorEnd | actorNone | ingest | ingestEnd | tick => cases hc
    | accept h | hello h | helloLost h | helloRefused _ h | authorized h | denied h | resumed h
    | unresumed h | loginFailed h | signAsked h | signSent h | signUnsent h | signed h
    | signRefused _ h | loggedIn h | slotTaken h | slotDenied h | rejectSent h | rejectUnsent h
    | helloSent h | helloUnsent h | statusSent h | statusUnsent h | recvData h | recvResize h
    | recvPing h | recvClose h | recvLost h | forwarded h | unforwarded h | ponged h | unponged h
    | abort h | report h | reported h | ended h | kept h | closeCall h | closeReturned h
    | leave h =>
      cases hc
      simp [hpc] at h
  · exact ⟨m.conns_of_ne hc, m.frames_of_ne hc⟩

/-- Whatever else goes on, such a wait ends only with a further frame of the client or its loss. -/
theorem mutualWait_stays {maxScrollback : Nat} {s s' : State} {c : ConnId} {ls : List Label}
    (h : Reachable (gateway maxScrollback) s) (hw : s.MutualWait c)
    (hpc : (s.conns c).pc = .openTarget) (run : exec step s ls = some s')
    (hls : ∀ r, .recvOpen c r ∉ ls) : s'.MutualWait c := by
  have hsender : (s.conns c).sender = .idle :=
    (gateway_sound h).sender_idle (Or.inl (by simp [hpc, Pc.stage]))
  have same : (∀ r, .recvOpen c r ∉ ls) → s'.conns c = s.conns c ∧ s'.frames c = s.frames c := by
    refine exec_trace (P := fun ls t => (∀ r, .recvOpen c r ∉ ls) →
      t.conns c = s.conns c ∧ t.frames c = s.frames c) (fun _ => ⟨rfl, rfl⟩) ?_ run
    intro ms t l t' ih hs hms
    obtain ⟨hconn, hframes⟩ := ih fun r hr => hms r (List.mem_append_left _ hr)
    obtain ⟨hconn', hframes'⟩ := (step_move hs).waits_open (c := c) (by rw [hconn]; exact hpc)
      (by rw [hconn]; exact hsender) fun r he => hms r (by simp [he])
    exact ⟨hconn'.trans hconn, hframes'.trans hframes⟩
  obtain ⟨hconn, hframes⟩ := same hls
  refine ⟨?_, ?_, ?_, hframes.trans hw.silent⟩
  · rw [hconn]
    exact hw.presented
  · rw [hconn]
    exact hw.authorized
  · rw [hconn]
    exact hw.receiving

/-- The session is there for the client that comes back. -/
theorem resume_answered_found : ∃ s,
    Reach (gateway defaultScrollbackBytes) (ResolvesToken 1) s ∧
    (s.conns 1).resume = some ⟨[1]⟩ ∧ (s.conns 1).pc = .live ∧ ¬s.MutualWait 1 := by
  obtain ⟨s, hs, hres, hpc⟩ := exists_reach_of_execWhere (.init defaultScrollbackBytes) step
    (ResolvesToken 1)
    (opening 0 none .unlimited 5 [1] ++ ending 0 (.error "connection lost") ++ [.leave 0] ++
      resuming 1 none .unlimited [1])
    (fun s => (s.conns 1).resume = some ⟨[1]⟩ ∧ (s.conns 1).pc = .live) (by decide +kernel)
  exact ⟨s, hs, hres, hpc, (resume_answered hs).1⟩

/-- The session was closed while its second client was away: with the token it was given, this
client waits for good. -/
theorem resume_unanswered : ∃ s, Reachable (gateway defaultScrollbackBytes) s ∧
    (s.conns 1).resume = some ⟨[1]⟩ ∧ s.MutualWait 1 ∧ ∀ ls s', exec step s ls = some s' →
      (∀ r, .recvOpen 1 r ∉ ls) → s'.MutualWait 1 := by
  obtain ⟨s, hs, ⟨hres, hw⟩, hpc⟩ := exists_reachable_of_exec (.init defaultScrollbackBytes) step
    (opening 0 none .unlimited 5 [1] ++ ending 0 (.ok .close) ++
      [.closeCall 0, .closeReturned 0, .leave 0] ++ (resuming 1 none .unlimited [1]).take 4)
    (fun s => ((s.conns 1).resume = some ⟨[1]⟩ ∧ s.MutualWait 1) ∧ (s.conns 1).pc = .openTarget)
    (by decide +kernel)
  exact ⟨s, hs, hres, hw, fun ls s' => mutualWait_stays hs hw hpc⟩

end TtyGateway
