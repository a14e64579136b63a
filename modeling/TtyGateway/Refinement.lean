import TtyGateway.WellFormed
import TtyGateway.LifecycleInvariant

namespace TtyGateway

open Transition

def Pc.stage : Pc → Stage
  | .idle | .hello | .authorize | .lookup | .openTarget | .login | .signSend _ _ _ | .signWait _ =>
    .early
  | .reject _ => .refusing
  | .sessionOpen => .holding
  | .greet | .status => .greeting
  | .live | .forward _ | .pong | .ending _ | .metering _ | .reporting _ | .deciding _ => .live
  | .closing => .closing
  | .closeWait => .reported
  | .leaving => .leaving
  | .failed | .done => .gone

def SenderPc.feed : SenderPc → Feed
  | .idle => .off
  | .writeClosed => .drained
  | .ended => .ended
  | _ => .up

def Conn.client (x : Conn) : Client where
  stage := x.pc.stage
  session := x.session.map SessionRef.id
  resumed := x.resumed
  account := x.accountToken
  feed := x.sender.feed

def HookCall.slot : HookCall → Option SlotCall
  | .sessionOpen account id _ (.ok ()) => some (.opened account id)
  | .sessionOpen account id _ (.error _) => some (.refused account id)
  | .sessionClose account id => some (.closed account id)
  | _ => none

/-- The abstract state a gateway state stands for. -/
def State.life (s : State) : Life where
  client c := (s.conns c).client
  registered := {i | s.registered i}
  ssh i := (s.sessions i).map Session.ingest
  calls := s.calls.filterMap HookCall.slot
  told := {c | ∃ m ∈ s.wire, m.conn = c ∧ m.frame = .closed}

/-- The handler that a step brings to its end, by an early return of `negotiate` or otherwise. -/
def Label.endsHandler : Label → Option ConnId
  | .recvHello c (.error _) | .recvOpen c (.error _) | .rejectSent c _ | .helloSent c false
  | .statusSent c false | .leave c => some c
  | _ => none

/-- The sender task that a step brings to its end. -/
def State.endsSender (s : State) : Label → Option ConnId
  | .written c ok => if ok = true ∧ (s.conns c).sender ≠ .writeClosed then none else some c
  | .cancel c => some c
  | _ => none

/-- What a step was, given what it is seen as. -/
def State.Explains (s : State) (l : Label) : LifeLabel → Prop
  | .create c i => ∃ token, l = .loggedIn c i token
  | .attach c i => l = .lookup c ∧ ∃ token session, (s.conns c).resume = some token ∧
      s.registry.resume token.val = some session ∧ session.id = i
  | .accept c _ => l = .sessionOpened c (.ok ())
  | .refuse c _ => ∃ denied, l = .sessionOpened c (.error denied)
  | .close c _ => l = .closeCall c
  | .fail c | .leave c => l.endsHandler = some c
  | .tell c => l = .written c true ∧ (s.conns c).sender = .writeClosed
  | .stop c => s.endsSender l = some c
  | .finish i => l = .ingestEnd i
  | _ => True

section Abstraction

variable (s : State) (c : ConnId) (x : Conn) (i : SessionId)

theorem State.life_client (d : ConnId) : s.life.client d = (s.conns d).client := rfl
theorem State.mem_life_registered : i ∈ s.life.registered ↔ s.registered i := Iff.rfl
theorem State.life_ssh : s.life.ssh i = (s.sessions i).map Session.ingest := rfl

theorem State.life_setConn : (s.setConn c x).life = s.life.setClient c x.client := by
  simp only [State.life, Life.setClient, State.setConn_conns, State.registered,
    State.setConn_registry, State.setConn_sessions, State.setConn_calls, State.setConn_wire,
    Life.mk.injEq, and_true]
  funext d
  by_cases hd : d = c
  · simp [hd]
  · simp [hd]

theorem State.life_setConn_same {x : Conn} (h : x.client = (s.conns c).client) :
    (s.setConn c x).life = s.life := by
  rw [State.life_setConn, h]
  exact Life.setClient_eq_self s.life c

theorem State.life_setSession {old ses : Session} (hi : s.sessions i = some old)
    (h : ses.ingest = old.ingest) : (s.setSession i ses).life = s.life := by
  simp only [State.life, State.registered, State.setSession_conns, State.setSession_registry,
    State.setSession_sessions, State.setSession_calls, State.setSession_wire, Life.mk.injEq,
    true_and, and_true]
  funext j
  split
  next hj => simp [hj, hi, h]
  next => rfl

theorem State.life_call {a : HookCall} {b : SlotCall} (h : a.slot = some b) :
    (s.call a).life = s.life.call b := by
  simp [State.life, Life.call, State.registered, List.filterMap_append, h]

theorem State.life_call_none {a : HookCall} (h : a.slot = none) : (s.call a).life = s.life := by
  simp [State.life, State.registered, List.filterMap_append, h]

theorem State.life_put {f : ServerFrame} (t : ℚ) (h : f ≠ .closed) :
    (s.put c t f).life = s.life := by
  have hset : ∀ d, (∃ m ∈ s.wire ++ [⟨c, t, f⟩], m.conn = d ∧ m.frame = ServerFrame.closed) ↔
      ∃ m ∈ s.wire, m.conn = d ∧ m.frame = ServerFrame.closed := by
    intro d
    simp [or_and_right, exists_or, h]
  simp only [State.life, State.registered, State.put_conns, State.put_registry,
    State.put_sessions, State.put_calls, State.put_wire, hset]

theorem State.life_put_closed (t : ℚ) : (s.put c t .closed).life = s.life.tell c := by
  simp only [State.life, Life.tell, State.registered, State.put_conns, State.put_registry,
    State.put_sessions, State.put_calls, State.put_wire, Life.mk.injEq, true_and]
  ext d
  simp [or_and_right, exists_or, or_comm, eq_comm]

theorem State.life_remove :
    ({ s with registry := s.registry.remove i } : State).life = s.life.remove i := by
  simp only [State.life, Life.remove, State.registered, Life.mk.injEq, true_and, and_true]
  ext j
  simp [Registry.mem_remove, and_comm]

theorem State.life_create (session : SessionRef) (maxBytes : Nat) :
    ({ s.setSession session.id (.spawn maxBytes) with
      registry := s.registry.create session, minted := s.minted ++ [session] } : State).life =
      s.life.spawn session.id := by
  simp only [State.life, Life.spawn, State.registered, State.setSession_conns,
    State.setSession_sessions, State.setSession_calls, State.setSession_wire, Life.mk.injEq,
    true_and, and_true]
  constructor
  · ext j
    simp [Registry.create]
  · funext j
    by_cases hj : j = session.id
    · simp [hj, Session.spawn]
    · simp [hj]

theorem State.life_finish {ses : Session} (h : ses.ingest = false) :
    (s.setSession i ses).life = s.life.finish i := by
  simp only [State.life, Life.finish, State.registered, State.setSession_conns,
    State.setSession_registry, State.setSession_sessions, State.setSession_calls,
    State.setSession_wire, Life.mk.injEq, true_and, and_true]
  funext j
  by_cases hj : j = i
  · simp [hj, h]
  · simp [hj]

end Abstraction

theorem State.life_init (maxScrollback : Nat) : (State.init maxScrollback).life = .init := by
  simp only [State.life, Life.init, State.init, State.registered, Registry.default]
  have hempty : {i : SessionId | i ∈ (∅ : Finmap fun _ : SessionId => SessionRef)} = ∅ :=
    Set.eq_empty_of_forall_notMem fun _ => Finmap.notMem_empty
  simp [Conn.init, Conn.client, Pc.stage, SenderPc.feed, Client.init, hempty]

theorem State.seen_quiet {s s' : State} {l : Label} (h : s'.life = s.life) :
    ∃ al, LifeStep s.life al s'.life ∧ s.Explains l al :=
  ⟨.quiet, h ▸ .quiet, trivial⟩

/-- Each step of the gateway is a step of the lifecycle. -/
theorem Move.seen {s s' : State} {l : Label} (m : Move s l s') (hw : s.Wf)
    (hf : ∀ c, (s.conns c).Framed) : ∃ al, LifeStep s.life al s'.life ∧ s.Explains l al := by
  have stage : ∀ c, (s.life.client c).stage = (s.conns c).pc.stage := fun _ => rfl
  have feed : ∀ c, (s.life.client c).feed = (s.conns c).sender.feed := fun _ => rfl
  have session : ∀ c {session}, (s.conns c).session = some session →
      (s.life.client c).session = some session.id := by
    intro c session hs
    simp [State.life_client, Conn.client, hs]
  cases m with
  | @accept c hpc =>
    refine State.seen_quiet (State.life_setConn_same s c ?_)
    simp [Conn.client, hpc, Pc.stage]
  | @helloLost c e hpc =>
    refine ⟨.fail c, ?_, rfl⟩
    rw [State.life_setConn]
    have hstage : (s.life.client c).stage = .early := by simp [stage, hpc, Pc.stage]
    exact .fail (Or.inl hstage)
  | @hello c clientName resume accountToken hpc =>
    refine ⟨.hello c, ?_, trivial⟩
    rw [State.life_setConn]
    have hstep : LifeStep s.life (.hello c) _ := .hello accountToken (by simp [stage, hpc, Pc.stage])
    have he : (s.conns c).client = { (s.conns c).client with stage := .early } := by
      simp [Conn.client, hpc, Pc.stage]
    rw [State.life_client, he] at hstep
    exact hstep
  | @helloRefused c frame message hpc =>
    refine ⟨.reject c, ?_, trivial⟩
    rw [State.life_setConn]
    have hstage : (s.life.client c).stage = .early := by simp [stage, hpc, Pc.stage]
    exact .reject hstage
  | @authorized c entitlement hpc =>
    apply State.seen_quiet
    rw [State.life_setConn_same, State.life_call_none _ rfl]
    simp [Conn.client, hpc, Pc.stage]
  | @denied c denied hpc =>
    refine ⟨.reject c, ?_, trivial⟩
    rw [State.life_setConn, State.life_call_none _ rfl]
    have hstage : (s.life.client c).stage = .early := by simp [stage, hpc, Pc.stage]
    exact .reject hstage
  | @resumed c token found hpc ht hr =>
    refine ⟨.attach c found.id, ?_, rfl, token, found, ht, hr, rfl⟩
    rw [State.life_setConn]
    have hstage : (s.life.client c).stage = .early := by simp [stage, hpc, Pc.stage]
    refine .attach hstage ?_
    exact Finmap.mem_of_lookup_eq_some (hw.paired.resume_eq_some.mp hr).1
  | @unresumed c hpc hr =>
    refine State.seen_quiet (State.life_setConn_same s c ?_)
    simp [Conn.client, hpc, Pc.stage]
  | @openLost c e hpc =>
    refine ⟨.fail c, ?_, rfl⟩
    rw [State.life_setConn]
    have hstage : (s.life.client c).stage = .early := by simp [stage, hpc, Pc.stage]
    exact .fail (Or.inl hstage)
  | @openTarget c target auth cols rows hpc =>
    refine State.seen_quiet (State.life_setConn_same s c ?_)
    simp [Conn.client, hpc, Pc.stage]
  | @openRefused c frame message hpc =>
    refine ⟨.reject c, ?_, trivial⟩
    rw [State.life_setConn]
    have hstage : (s.life.client c).stage = .early := by simp [stage, hpc, Pc.stage]
    exact .reject hstage
  | @loginFailed c error hpc =>
    refine ⟨.reject c, ?_, trivial⟩
    rw [State.life_setConn]
    have hstage : (s.life.client c).stage = .early := by simp [stage, hpc, Pc.stage]
    exact .reject hstage
  | @signAsked c publicKey data hpc =>
    refine State.seen_quiet (State.life_setConn_same s c ?_)
    simp [Conn.client, hpc, Pc.stage]
  | @signSent c id publicKey data hpc =>
    apply State.seen_quiet
    rw [State.life_setConn_same, State.life_put _ _ _ (by simp)]
    simp [Conn.client, hpc, Pc.stage]
  | @signUnsent c id publicKey data e hpc =>
    refine ⟨.reject c, ?_, trivial⟩
    rw [State.life_setConn]
    have hstage : (s.life.client c).stage = .early := by simp [stage, hpc, Pc.stage]
    exact .reject hstage
  | @signed c id signature hpc =>
    refine State.seen_quiet (State.life_setConn_same s c ?_)
    simp [Conn.client, hpc, Pc.stage]
  | signIgnored => exact State.seen_quiet rfl
  | @signRefused c id r message hpc =>
    refine ⟨.reject c, ?_, trivial⟩
    rw [State.life_setConn]
    have hstage : (s.life.client c).stage = .early := by simp [stage, hpc, Pc.stage]
    exact .reject hstage
  | @loggedIn c id token hpc hid htoken =>
    refine ⟨.create c id, ?_, token, rfl⟩
    have hl := State.life_create s ⟨id, token⟩ s.maxScrollback
    have hnone : s.life.ssh id = none := by
      rw [State.life_ssh, Option.map_eq_none_iff]
      by_contra hne
      exact hid ((hw.known id).mp hne)
    have hstep := LifeStep.create (by simp [stage, hpc, Pc.stage]) hnone (c := c)
    rw [← hl] at hstep
    have hset := State.life_setConn { s.setSession id (.spawn s.maxScrollback) with
      registry := s.registry.create ⟨id, token⟩, minted := s.minted ++ [⟨id, token⟩] } c
      { s.conns c with pc := .sessionOpen, session := some ⟨id, token⟩, resumed := false }
    exact hset ▸ hstep
  | @slotTaken c found hpc hs =>
    refine ⟨.accept c found.id, ?_, rfl⟩
    rw [State.life_setConn, State.life_call _ rfl]
    have hstage : (s.life.client c).stage = .holding := by simp [stage, hpc, Pc.stage]
    exact .accept hstage (session c hs)
  | @slotDenied c found denied hpc hs =>
    refine ⟨.refuse c found.id, ?_, denied, rfl⟩
    have hset := State.life_setConn
      { s.call (.sessionOpen (s.conns c).accountToken found.id (s.conns c).clientName
        (.error denied)) with registry := s.registry.remove found.id } c
      { s.conns c with pc := .reject denied.toString }
    refine hset ▸ ?_
    have hrem := State.life_remove (s.call (.sessionOpen (s.conns c).accountToken found.id
      (s.conns c).clientName (.error denied))) found.id
    refine hrem ▸ ?_
    rw [State.life_call _ rfl]
    have hstage : (s.life.client c).stage = .holding := by simp [stage, hpc, Pc.stage]
    exact .refuse hstage (session c hs)
  | @rejectSent c message hpc =>
    refine ⟨.fail c, ?_, rfl⟩
    rw [State.life_setConn, State.life_put _ _ _ (by simp)]
    have hstage : (s.life.client c).stage = .refusing := by simp [stage, hpc, Pc.stage]
    exact .fail (Or.inr (Or.inl hstage))
  | @rejectUnsent c message hpc =>
    refine ⟨.fail c, ?_, rfl⟩
    rw [State.life_setConn]
    have hstage : (s.life.client c).stage = .refusing := by simp [stage, hpc, Pc.stage]
    exact .fail (Or.inr (Or.inl hstage))
  | @helloSent c found hpc hs =>
    apply State.seen_quiet
    rw [State.life_setConn_same, State.life_put _ _ _ (by simp)]
    simp [Conn.client, hpc, Pc.stage]
  | @helloUnsent c found hpc hs =>
    refine ⟨.fail c, ?_, rfl⟩
    rw [State.life_setConn]
    have hstage : (s.life.client c).stage = .greeting := by simp [stage, hpc, Pc.stage]
    exact .fail (Or.inr (Or.inr hstage))
  | @statusSent c hpc =>
    refine ⟨.start c, ?_, trivial⟩
    rw [State.life_setConn, State.life_put _ _ _ (by simp)]
    have hstage : (s.life.client c).stage = .greeting := by simp [stage, hpc, Pc.stage]
    exact .start hstage
  | @statusUnsent c hpc =>
    refine ⟨.fail c, ?_, rfl⟩
    rw [State.life_setConn]
    have hstage : (s.life.client c).stage = .greeting := by simp [stage, hpc, Pc.stage]
    exact .fail (Or.inr (Or.inr hstage))
  | @forwarded c found ses input hpc hs hi ha =>
    apply State.seen_quiet
    rw [State.life_setConn_same]
    · exact State.life_setSession _ _ hi rfl
    · simp [Conn.client, hpc, Pc.stage]
  | recvIgnored => exact State.seen_quiet rfl
  | @recvData c _ hpc | @recvResize c _ _ hpc | @recvPing c hpc | @recvClose c hpc
  | @recvLost c _ hpc | @unforwarded c _ _ _ hpc | @ponged c hpc | @unponged c hpc
  | @abort c _ hpc | @reported c _ hpc =>
    refine State.seen_quiet (State.life_setConn_same s c ?_)
    simp [Conn.client, hpc, Pc.stage]
  | @report c found outcome hpc hs =>
    apply State.seen_quiet
    rw [State.life_setConn_same, State.life_call_none _ rfl]
    simp [Conn.client, hpc, Pc.stage]
  | @ended c found ses outcome hpc hs hi hd =>
    refine ⟨.teardown c, ?_, trivial⟩
    rw [State.life_setConn]
    have hstage : (s.life.client c).stage = .live := by simp [stage, hpc, Pc.stage]
    exact .teardown hstage
  | @kept c found ses outcome hpc hs hi hd =>
    refine ⟨.keep c found.id, ?_, trivial⟩
    have hopen : s.life.ssh found.id ≠ some false := by
      have := hw.closed _ _ hi
      rw [hd] at this
      simpa [State.life_ssh, hi] using this.symm
    rw [State.life_setConn]
    have hstage : (s.life.client c).stage = .live := by simp [stage, hpc, Pc.stage]
    exact .keep hstage (session c hs) hopen
  | @closeCall c found hpc hs =>
    refine ⟨.close c found.id, ?_, rfl⟩
    rw [State.life_setConn, State.life_call _ rfl]
    have hstage : (s.life.client c).stage = .closing := by simp [stage, hpc, Pc.stage]
    exact .close hstage (session c hs)
  | @closeReturned c found hpc hs =>
    refine ⟨.release c found.id, ?_, trivial⟩
    have hset := State.life_setConn { s with registry := s.registry.remove found.id } c
      { s.conns c with pc := .leaving }
    refine hset ▸ ?_
    have hrem := State.life_remove s found.id
    refine hrem ▸ ?_
    have hstage : (s.life.client c).stage = .reported := by simp [stage, hpc, Pc.stage]
    exact .release hstage (session c hs)
  | @leave c hpc =>
    refine ⟨.leave c, ?_, rfl⟩
    rw [State.life_setConn]
    have hstage : (s.life.client c).stage = .leaving := by simp [stage, hpc, Pc.stage]
    exact .leave hstage
  | @senderStart c hpc | @chunk c _ _ _ _ hpc | @parked c _ _ _ hpc | @oob c _ _ hpc
  | @oobClosed c hpc | @unlimited c _ hpc | @admitted c _ _ _ _ hpc | @delayed c _ _ _ _ hpc
  | @wake c _ _ hpc | @addOut c _ _ hpc =>
    refine State.seen_quiet (State.life_setConn_same s c ?_)
    simp [Conn.client, hpc, SenderPc.feed]
  | @finished c found ses reader hpc hs hi hp =>
    refine ⟨.drain c found.id, ?_, trivial⟩
    have hended : s.life.ssh found.id = some false := by
      have := hw.closed _ _ hi
      rw [SessionReader.closed_of_finished hp] at this
      simpa [State.life_ssh, hi] using this.symm
    rw [State.life_setConn]
    exact .drain (by simp [feed, hpc, SenderPc.feed]) (session c hs) hended
  | @written c frame time hpc =>
    have hne : frame ≠ .closed := by
      rcases (hf c).writing frame time hpc with rfl | ⟨bytes, rfl⟩ <;> simp
    apply State.seen_quiet
    rw [State.life_setConn_same, State.life_put _ _ _ hne]
    simp [Conn.client, hpc, SenderPc.feed]
  | @unwritten c frame time hpc =>
    refine ⟨.stop c, ?_, by simp [State.Explains, State.endsSender]⟩
    rw [State.life_setConn]
    exact .stop (by simp [feed, hpc, SenderPc.feed])
  | @closedWritten c hpc =>
    refine ⟨.tell c, ?_, rfl, hpc⟩
    rw [State.life_setConn, State.life_put_closed]
    exact .tell (by simp [feed, hpc, SenderPc.feed])
  | @closedUnwritten c hpc =>
    refine ⟨.stop c, ?_, by simp [State.Explains, State.endsSender]⟩
    rw [State.life_setConn]
    exact .stop (by simp [feed, hpc, SenderPc.feed])
  | @cancel c ha hpc =>
    refine ⟨.stop c, ?_, rfl⟩
    rw [State.life_setConn]
    refine .stop ?_
    rw [feed]
    cases hs : (s.conns c).sender <;> simp [hs, SenderPc.atAwait, SenderPc.feed] at hpc ⊢
  | actorOutput hi | actorInput hi | actorEnd hi | actorNone hi | ingest hi =>
    exact State.seen_quiet (State.life_setSession _ _ hi rfl)
  | @ingestEnd i ses hi hg ha =>
    refine ⟨.finish i, ?_, rfl⟩
    rw [State.life_finish _ _ rfl]
    exact .finish (by simp [State.life_ssh, hi, hg])
  | tick => exact State.seen_quiet rfl

/-- What holds in every state of the gateway. -/
structure State.Sound (s : State) : Prop where
  wf : s.Wf
  framed : ∀ c, (s.conns c).Framed
  owned : s.life.Owned
  billed : s.life.Billed

theorem Move.sound {s s' : State} {l : Label} (m : Move s l s') (h : s.Sound) : s'.Sound := by
  obtain ⟨al, hstep, -⟩ := m.seen h.wf h.framed
  exact ⟨m.wf h.wf, m.framed h.framed, hstep.owned h.owned, hstep.billed h.owned h.billed⟩

theorem gateway_sound {maxScrollback : Nat} {C : State → Label → Prop} {s : State}
    (h : Reach (gateway maxScrollback) C s) : s.Sound := by
  refine h.invariant (P := State.Sound) ⟨State.wf_init _, fun c => ⟨?_, ?_⟩, ?_, ?_⟩ ?_
  · simp [gateway, machine, State.init, Conn.init]
  · simp [gateway, machine, State.init, Conn.init]
  · exact State.life_init maxScrollback ▸ Life.owned_init
  · exact State.life_init maxScrollback ▸ Life.billed_init
  · exact fun s l s' _ ih _ hs => (step_move hs).sound ih

theorem SenderPc.feed_ne_off {p : SenderPc} : p.feed ≠ .off ↔ p ≠ .idle := by
  cases p <;> simp [SenderPc.feed]

theorem State.Sound.session_of_sender {s : State} (sound : s.Sound) {c : ConnId}
    (h : (s.conns c).sender ≠ .idle) : ∃ session ses, (s.conns c).session = some session ∧
      s.sessions session.id = some ses := by
  have hsome := (sound.owned.ok c).feed (SenderPc.feed_ne_off.mpr h)
  obtain ⟨i, hi⟩ := Option.ne_none_iff_exists'.mp hsome
  obtain ⟨session, hs, -⟩ := Option.map_eq_some_iff.mp hi
  obtain ⟨ses, hses⟩ := sound.wf.session_known hs
  exact ⟨session, ses, hs, hses⟩

/-- The invariant rule for what is said about the lifecycle only. -/
theorem life_invariant {maxScrollback : Nat} {C : State → Label → Prop} {Q : Life → Prop}
    (start : Q .init)
    (keep : ∀ s l al v, s.Sound → C s l → s.Explains l al → LifeStep s.life al v → Q s.life → Q v)
    {s : State} (h : Reach (gateway maxScrollback) C s) : Q s.life := by
  refine h.invariant (P := fun s => Q s.life) (State.life_init maxScrollback ▸ start) ?_
  intro s l s' hr ih hc hs
  have sound := gateway_sound hr
  obtain ⟨al, hstep, hex⟩ := (step_move hs).seen sound.wf sound.framed
  exact keep s l al s'.life sound hc hex hstep ih

/-- `session_close` has been called for session `i`. -/
def State.Closed (s : State) (i : SessionId) : Prop := ∃ account, .sessionClose account i ∈ s.calls

def HookCall.closes : HookCall → Option SessionId
  | .sessionClose _ i => some i
  | _ => none

instance (s : State) (i : SessionId) : Decidable (s.Closed i) :=
  decidable_of_iff (∃ x ∈ s.calls, x.closes = some i) <| by
    constructor
    · rintro ⟨x, hx, he⟩
      cases x with
      | sessionClose account j =>
        cases he
        exact ⟨account, hx⟩
      | _ => cases he
    · rintro ⟨account, hx⟩
      exact ⟨_, hx, rfl⟩

section Calls

theorem HookCall.slot_closed {x : HookCall} {a : Option Bytes} {i : SessionId} :
    x.slot = some (.closed a i) ↔ x = .sessionClose a i := by
  cases x with
  | sessionOpen account id clientName answer => cases answer <;> simp [HookCall.slot]
  | _ => simp [HookCall.slot]

theorem HookCall.slot_opened {x : HookCall} {a : Option Bytes} {i : SessionId} :
    x.slot = some (.opened a i) ↔ ∃ clientName, x = .sessionOpen a i clientName (.ok ()) := by
  cases x with
  | sessionOpen account id clientName answer => cases answer <;> simp [HookCall.slot]
  | _ => simp [HookCall.slot]

theorem State.mem_life_calls {s : State} {b : SlotCall} :
    b ∈ s.life.calls ↔ ∃ x ∈ s.calls, x.slot = some b := List.mem_filterMap

theorem State.closed_mem_life {s : State} {a : Option Bytes} {i : SessionId} :
    .closed a i ∈ s.life.calls ↔ .sessionClose a i ∈ s.calls := by
  simp [State.mem_life_calls, HookCall.slot_closed]

theorem State.opened_mem_life {s : State} {a : Option Bytes} {i : SessionId} :
    .opened a i ∈ s.life.calls ↔ ∃ clientName, .sessionOpen a i clientName (.ok ()) ∈ s.calls := by
  simp only [State.mem_life_calls, HookCall.slot_opened]
  exact ⟨fun ⟨_, hx, n, he⟩ => ⟨n, he ▸ hx⟩, fun ⟨n, hx⟩ => ⟨_, hx, n, rfl⟩⟩

end Calls

section Users

variable {s : State} {c : ConnId} {i : SessionId}

theorem Conn.attached_iff {x : Conn} : x.attached i = true ↔ x.client.Attached i := by
  have hpc : x.pc.returned = true ↔ x.pc.stage = .gone := by
    cases x.pc <;> simp [Pc.returned, Pc.stage]
  simp only [Conn.attached, Bool.and_eq_true, Option.any_eq_true, decide_eq_true_eq,
    Bool.not_eq_true', Client.Attached, Conn.client, Option.map_eq_some_iff, ne_eq, ← hpc,
    Bool.not_eq_true]

theorem Conn.streaming_iff {x : Conn} : x.streaming i = true ↔ x.client.Streaming i := by
  have hfeed : x.sender.alive = true ↔ x.sender.feed = .up ∨ x.sender.feed = .drained := by
    cases x.sender <;> simp [SenderPc.alive, SenderPc.feed]
  simp only [Conn.streaming, Bool.and_eq_true, Option.any_eq_true, decide_eq_true_eq,
    Client.Streaming, Conn.client, Option.map_eq_some_iff, hfeed]

theorem State.life_attached : (s.life.client c).Attached i ↔ (s.conns c).attached i = true :=
  Conn.attached_iff.symm

theorem State.life_streaming : (s.life.client c).Streaming i ↔ (s.conns c).streaming i = true :=
  Conn.streaming_iff.symm

theorem State.Wf.accepted_of_attached (h : s.Wf) (hc : (s.conns c).attached i = true) :
    c ∈ s.accepted := by
  apply h.accepted_of_session
  intro hn
  simp [Conn.attached, hn] at hc

theorem State.Wf.accepted_of_streaming (h : s.Wf) (hc : (s.conns c).streaming i = true) :
    c ∈ s.accepted := by
  apply h.accepted_of_session
  intro hn
  simp [Conn.streaming, hn] at hc

theorem State.Wf.unused (h : s.Wf)
    (hall : ∀ c ∈ s.accepted, (s.conns c).attached i = false ∧ (s.conns c).streaming i = false) :
    ∀ c, (s.conns c).attached i = false ∧ (s.conns c).streaming i = false := by
  intro c
  by_cases hc : c ∈ s.accepted
  · exact hall c hc
  · rw [h.idle c hc]
    exact ⟨rfl, rfl⟩

theorem State.Wf.life_ssh_ne_none (h : s.Wf) : s.life.ssh i ≠ none ↔ i ∈ s.minted.map SessionRef.id := by
  rw [← h.known i, State.life_ssh, ne_eq, Option.map_eq_none_iff]

theorem State.life_running : s.life.ssh i = some true ↔ (s.sessions i).any Session.ingest = true := by
  cases h : s.sessions i <;> simp [State.life_ssh, h]

end Users

end TtyGateway
