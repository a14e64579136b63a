import TtyGateway.Grammar
import TtyGateway.Account

namespace TtyGateway

open Transition

def Label.takes (c : ConnId) : Label → Option ClientFrame
  | .recvHello d (.ok frame) | .recvOpen d (.ok frame) | .signRecv d (.ok frame)
  | .recv d (.ok frame) => if d = c then some frame else none
  | _ => none

/-- What client `c` has sent and the gateway has read in a run, in order. -/
def received (c : ConnId) (ls : List Label) : List ClientFrame := ls.filterMap (Label.takes c)

/-- In the run `ls` from `init` a step `l` was taken on which the hook was called so. -/
def Called (init : State) (ls : List Label) (l : Label) (call : HookCall) : Prop :=
  ∃ before after s s', ls = before ++ l :: after ∧ exec step init before = some s ∧
    step s l = some s' ∧ s'.calls = s.calls ++ [call]

/-- The first frame of client `c` was a `Hello` of the gateway's version, and the hook authorized
exactly the name and the account token in it. -/
def Admitted (init : State) (c : ConnId) (ls : List Label) (clientName : String)
    (resume : Option ResumeToken) (accountToken : Option Bytes) : Prop :=
  (received c ls).head? = some (.hello protocolVersion clientName resume accountToken) ∧
    ∃ entitlement, Called init ls (.authorized c (.ok entitlement))
      (.authorize clientName accountToken (.ok entitlement))

section Runs

variable {init s s' : State} {c : ConnId} {ls : List Label} {l k : Label} {call : HookCall}

theorem Called.append (h : Called init ls k call) (l : Label) : Called init (ls ++ [l]) k call := by
  obtain ⟨before, after, t, t', rfl, ht, ht', hc⟩ := h
  exact ⟨before, after ++ [l], t, t', by simp, ht, ht', hc⟩

theorem Called.last (run : exec step init ls = some s) (hs : step s l = some s')
    (hc : s'.calls = s.calls ++ [call]) : Called init (ls ++ [l]) l call :=
  ⟨ls, [], s, s', rfl, run, hs, hc⟩

theorem received_append (l : Label) :
    received c (ls ++ [l]) = received c ls ++ (l.takes c).toList := by
  unfold received
  rw [List.filterMap_append]
  cases h : l.takes c <;> simp [h]

theorem Label.takes_of_ne (h : l.conn ≠ some c) : l.takes c = none := by
  unfold Label.takes
  split
  all_goals first
    | rfl
    | exact if_neg fun hd => h (congrArg some hd)

end Runs

/-- What connection `c` has been told and has said, against the run that led here. -/
structure Conn.Admission (x : Conn) (init : State) (c : ConnId) (ls : List Label)
    (fs : List ServerFrame) : Prop where
  unheard : x.pc = .idle ∨ x.pc = .hello → received c ls = []
  heard : x.pc = .authorize ∨ x.pc.authorized = true ∨ x.session ≠ none →
    (received c ls).head? = some (.hello protocolVersion x.clientName x.resume x.accountToken)
  allowed : x.pc.authorized = true ∨ x.session ≠ none →
    ∃ entitlement, Called init ls (.authorized c (.ok entitlement))
      (.authorize x.clientName x.accountToken (.ok entitlement))
  granted : ∀ session, x.session = some session → x.resumed = false →
    (x.pc = .greet ∨ ∃ version id resumed token, .hello version id resumed token ∈ fs) →
      Called init ls (.sessionOpened c (.ok ()))
        (.sessionOpen x.accountToken session.id x.clientName (.ok ()))
  presented : ∀ session, x.session = some session → x.resumed = true →
    x.resume = some ⟨session.resumeToken⟩
  named : ∀ version id resumed token, .hello version id resumed token ∈ fs →
    x.session = some ⟨id, token.val⟩ ∧ x.resumed = resumed

section Admission

variable {x y : Conn} {init : State} {c : ConnId} {ls : List Label} {fs fs' : List ServerFrame}
  {l : Label}

theorem Conn.Admission.unnamed (h : x.Admission init c ls fs) (hs : x.session = none)
    (version : UInt16) (id : SessionId) (resumed : Bool) (token : ResumeToken) :
    .hello version id resumed token ∉ fs := by
  intro hm
  have := (h.named version id resumed token hm).1
  simp [hs] at this

theorem Conn.Admission.head (h : x.Admission init c ls fs) (l : Label)
    (hx : x.pc = .authorize ∨ x.pc.authorized = true ∨ x.session ≠ none) :
    (received c (ls ++ [l])).head? =
      some (.hello protocolVersion x.clientName x.resume x.accountToken) := by
  rw [received_append, List.head?_append, h.heard hx]
  rfl

theorem Conn.Admission.same (h : x.Admission init c ls fs) (clientName : y.clientName = x.clientName)
    (account : y.accountToken = x.accountToken) (resume : y.resume = x.resume)
    (session : y.session = x.session) (resumed : y.resumed = x.resumed)
    (unheard : y.pc = .idle ∨ y.pc = .hello →
      (x.pc = .idle ∨ x.pc = .hello) ∧ l.takes c = none)
    (authorize : y.pc = .authorize → x.pc = .authorize)
    (authorized : y.pc.authorized = true → x.pc.authorized = true)
    (greet : y.pc = .greet → x.pc = .greet)
    (frames : ∀ version id resumed token, .hello version id resumed token ∈ fs' →
      .hello version id resumed token ∈ fs) : y.Admission init c (ls ++ [l]) fs' := by
  refine ⟨fun hy => ?_, fun hy => ?_, fun hy => ?_, fun found hs hr hy => ?_, fun found hs hr => ?_,
    fun version id r token hm => ?_⟩
  · obtain ⟨hx, htakes⟩ := unheard hy
    rw [received_append, h.unheard hx, htakes]
    rfl
  · rw [clientName, account, resume]
    apply h.head l
    rw [session] at hy
    exact hy.imp authorize (Or.imp_left authorized)
  · rw [clientName, account]
    rw [session] at hy
    obtain ⟨entitlement, hc⟩ := h.allowed (hy.imp_left authorized)
    exact ⟨entitlement, hc.append l⟩
  · rw [clientName, account]
    refine (h.granted found (session ▸ hs) (resumed ▸ hr) (hy.imp greet ?_)).append l
    rintro ⟨version, id, r, token, hm⟩
    exact ⟨version, id, r, token, frames _ _ _ _ hm⟩
  · rw [resume]
    exact h.presented found (session ▸ hs) (resumed ▸ hr)
  · rw [session, resumed]
    exact h.named version id r token (frames _ _ _ _ hm)

/-- A step of the negotiation before there is a session. -/
theorem Conn.Admission.fresh (h : x.Admission init c ls fs) (hx : x.session = none)
    (hy : y.session = none) (unheard : y.pc ≠ .idle ∧ y.pc ≠ .hello)
    (heard : y.pc = .authorize ∨ y.pc.authorized = true →
      (received c (ls ++ [l])).head? =
        some (.hello protocolVersion y.clientName y.resume y.accountToken))
    (allowed : y.pc.authorized = true → ∃ entitlement,
      Called init (ls ++ [l]) (.authorized c (.ok entitlement))
        (.authorize y.clientName y.accountToken (.ok entitlement))) :
    y.Admission init c (ls ++ [l]) fs := by
  refine ⟨fun hn => (hn.elim unheard.1 unheard.2).elim, fun hn => ?_, fun hn => ?_,
    fun found hs => ?_, fun found hs => ?_, fun version id r token hm => ?_⟩
  · refine heard (hn.imp_right fun hn => hn.resolve_right ?_)
    simp [hy]
  · exact allowed (hn.resolve_right (by simp [hy]))
  · simp [hy] at hs
  · simp [hy] at hs
  · exact absurd hm (h.unnamed hx _ _ _ _)

end Admission

theorem Asked.no_hello {fs : List ServerFrame} (h : Asked fs) (version : UInt16) (id : SessionId)
    (resumed : Bool) (token : ResumeToken) : .hello version id resumed token ∉ fs := by
  intro hm
  obtain ⟨k, hk⟩ := List.mem_iff_getElem?.mp hm
  obtain ⟨publicKey, data, he⟩ := h k _ hk
  cases he

theorem signRecv_pc {s s' : State} {c : ConnId} {r : Recv}
    (h : step s (.signRecv c r) = some s') : ∃ id, (s.conns c).pc = .signWait id := by
  simp only [step, State.signRecv] at h
  split at h
  next id hpc => exact ⟨id, hpc⟩
  next => cases h

theorem Move.admission {init s s' : State} {ls : List Label} {l : Label} (m : Move s l s')
    (run : exec step init ls = some s) (hs : step s l = some s') (sound : s.Sound)
    (spoke : ∀ c, (s.conns c).Spoke (s.frames c))
    (h : ∀ c, (s.conns c).Admission init c ls (s.frames c)) (c : ConnId) :
    (s'.conns c).Admission init c (ls ++ [l]) (s'.frames c) := by
  by_cases hl : l.conn = some c
  · have hc := h c
    have early : (s.conns c).pc.stage = .early → (s.conns c).session = none := fun hstage =>
      Option.map_eq_none_iff.mp ((sound.owned.ok c).early hstage)
    cases m with
    | @accept d hpc =>
      cases hl
      simp only [State.setConn_conns_self]
      refine Conn.Admission.same hc rfl rfl rfl rfl rfl ?_ (by simp) (by simp [Pc.authorized])
        (by simp) (fun _ _ _ _ hm => hm)
      exact fun _ => ⟨Or.inl hpc, rfl⟩
    | @hello d clientName resume accountToken hpc =>
      cases hl
      have hnone := early (by simp [hpc, Pc.stage])
      simp only [State.setConn_conns_self]
      refine Conn.Admission.fresh hc hnone hnone (by simp) (fun _ => ?_) (by simp [Pc.authorized])
      rw [received_append, hc.unheard (Or.inr hpc)]
      simp [Label.takes]
    | @authorized d entitlement hpc =>
      cases hl
      have hnone := early (by simp [hpc, Pc.stage])
      simp only [State.setConn_conns_self]
      refine Conn.Admission.fresh hc hnone hnone (by simp) (fun _ => ?_) (fun _ => ?_)
      · exact hc.head _ (Or.inl hpc)
      · exact ⟨entitlement, Called.last run hs (by simp)⟩
    | @helloLost d _ hpc | @helloRefused d _ _ hpc | @denied d _ hpc =>
      cases hl
      have hnone := early (by simp [hpc, Pc.stage])
      simp only [State.setConn_conns_self]
      exact Conn.Admission.fresh hc hnone hnone (by simp) (by simp [Pc.authorized])
        (by simp [Pc.authorized])
    | @resumed d token found hpc ht hr =>
      cases hl
      have hnone := early (by simp [hpc, Pc.stage])
      have hauth : (s.conns c).pc.authorized = true := by simp [hpc, Pc.authorized]
      obtain ⟨entitlement, hcall⟩ := hc.allowed (Or.inl hauth)
      simp only [State.setConn_conns_self]
      refine ⟨by simp, fun _ => ?_, fun _ => ⟨entitlement, hcall.append _⟩, by simp,
        fun session hsession _ => ?_, fun version id r tok hm => ?_⟩
      · exact hc.head _ (Or.inr (Or.inl hauth))
      · obtain rfl := Option.some.inj hsession
        rw [(sound.wf.paired.resume_eq_some.mp hr).2]
        exact ht
      · exact absurd hm (hc.unnamed hnone _ _ _ _)
    | @loggedIn d id token hpc =>
      cases hl
      have hnone := early (by simp [hpc, Pc.stage])
      have hauth : (s.conns c).pc.authorized = true := by simp [hpc, Pc.authorized]
      obtain ⟨entitlement, hcall⟩ := hc.allowed (Or.inl hauth)
      simp only [State.setConn_conns_self]
      refine ⟨by simp, fun _ => ?_, fun _ => ⟨entitlement, hcall.append _⟩,
        fun session _ _ hy => ?_, by simp, fun version id r tok hm => ?_⟩
      · exact hc.head _ (Or.inr (Or.inl hauth))
      · rcases hy with hy | ⟨version, i, r, tok, hm⟩
        · simp at hy
        · exact absurd hm (hc.unnamed hnone _ _ _ _)
      · exact absurd hm (hc.unnamed hnone _ _ _ _)
    | @slotTaken d session hpc hsession =>
      cases hl
      have hauth : (s.conns c).pc.authorized = true := by simp [hpc, Pc.authorized]
      obtain ⟨entitlement, hcall⟩ := hc.allowed (Or.inl hauth)
      have hasked := ((spoke c).of_asking (by simp [hpc, Pc.asking])).2.1
      simp only [State.setConn_conns_self]
      refine ⟨by simp, fun _ => ?_, fun _ => ⟨entitlement, hcall.append _⟩,
        fun found hfound _ _ => ?_, fun found hfound hr => hc.presented found hfound hr,
        fun version id r tok hm => ?_⟩
      · exact hc.head _ (Or.inr (Or.inl hauth))
      · obtain rfl := Option.some.inj (hsession.symm.trans hfound)
        exact Called.last run hs (by simp)
      · exact absurd hm (hasked.no_hello _ _ _ _)
    | @helloSent d session hpc hsession =>
      cases hl
      have hauth : (s.conns c).pc.authorized = true := by simp [hpc, Pc.authorized]
      obtain ⟨entitlement, hcall⟩ := hc.allowed (Or.inl hauth)
      simp only [State.setConn_conns_self, State.frames_setConn, State.frames_put_self]
      refine ⟨by simp, fun _ => ?_, fun _ => ⟨entitlement, hcall.append _⟩,
        fun found hfound hr _ => ?_, fun found hfound hr => hc.presented found hfound hr,
        fun version id r tok hm => ?_⟩
      · exact hc.head _ (Or.inr (Or.inl hauth))
      · exact (hc.granted found hfound hr (Or.inl hpc)).append _
      · rcases List.mem_append.mp hm with hm | hm
        · exact hc.named version id r tok hm
        · cases List.mem_singleton.mp hm
          exact ⟨hsession, rfl⟩
    | @unresumed d hpc | @openLost d _ hpc | @openTarget d _ _ _ _ hpc
    | @openRefused d _ _ hpc | @loginFailed d _ hpc | @signAsked d _ _ hpc
    | @signUnsent d _ _ _ _ hpc | @signed d _ _ hpc | @signRefused d _ _ _ hpc
    | @slotDenied d _ _ hpc | @rejectUnsent d _ hpc | @helloUnsent d _ hpc | @statusUnsent d hpc
    | @recvData d _ hpc | @recvResize d _ _ hpc | @recvPing d hpc | @recvClose d hpc
    | @recvLost d _ hpc | @forwarded d _ _ _ hpc | @unforwarded d _ _ _ hpc | @ponged d hpc
    | @unponged d hpc | @abort d _ hpc | @report d _ _ hpc | @reported d _ hpc
    | @ended d _ _ _ hpc | @kept d _ _ _ hpc | @closeCall d _ hpc | @closeReturned d _ hpc
    | @leave d hpc =>
      cases hl
      simp only [State.setConn_conns_self]
      exact Conn.Admission.same hc rfl rfl rfl rfl rfl (by simp) (by simp)
        (by simp [hpc, Pc.authorized]) (by simp) (fun _ _ _ _ hm => hm)
    | @signSent d _ _ _ hpc | @rejectSent d _ hpc | @statusSent d hpc =>
      cases hl
      simp only [State.setConn_conns_self, State.frames_setConn, State.frames_put_self]
      exact Conn.Admission.same hc rfl rfl rfl rfl rfl (by simp) (by simp)
        (by simp [hpc, Pc.authorized]) (by simp) (by simp)
    | @senderStart d hpc | @chunk d _ _ _ _ hpc | @finished d _ _ _ hpc | @parked d _ _ _ hpc
    | @oob d _ _ hpc | @oobClosed d hpc | @unlimited d _ hpc | @admitted d _ _ _ _ hpc
    | @delayed d _ _ _ _ hpc | @wake d _ _ hpc | @addOut d _ _ hpc | @unwritten d _ _ hpc
    | @closedUnwritten d hpc | @cancel d _ hpc =>
      cases hl
      simp only [State.setConn_conns_self]
      exact Conn.Admission.same hc rfl rfl rfl rfl rfl (fun hy => ⟨hy, rfl⟩) (fun hy => hy)
        (fun hy => hy) (fun hy => hy) (fun _ _ _ _ hm => hm)
    | @written d frame time hpc =>
      cases hl
      have hframe : ∀ version id r token, frame ≠ .hello version id r token := by
        rcases (sound.framed c).writing frame time hpc with rfl | ⟨bytes, rfl⟩ <;> simp
      simp only [State.setConn_conns_self, State.frames_setConn, State.frames_put_self]
      refine Conn.Admission.same hc rfl rfl rfl rfl rfl (fun hy => ⟨hy, rfl⟩) (fun hy => hy)
        (fun hy => hy) (fun hy => hy) fun version id r token hm => ?_
      rcases List.mem_append.mp hm with hm | hm
      · exact hm
      · exact absurd (List.mem_singleton.mp hm).symm (hframe version id r token)
    | @closedWritten d hpc =>
      cases hl
      simp only [State.setConn_conns_self, State.frames_setConn, State.frames_put_self]
      exact Conn.Admission.same hc rfl rfl rfl rfl rfl (fun hy => ⟨hy, rfl⟩) (fun hy => hy)
        (fun hy => hy) (fun hy => hy) (by simp)
    | @signIgnored d r =>
      cases hl
      obtain ⟨id, hpc⟩ := signRecv_pc hs
      exact hc.same rfl rfl rfl rfl rfl (by simp [hpc]) (fun hy => hy) (fun hy => hy)
        (fun hy => hy) (fun _ _ _ _ hm => hm)
    | @recvIgnored d frame hpc =>
      cases hl
      exact hc.same rfl rfl rfl rfl rfl (by simp [hpc]) (fun hy => hy) (fun hy => hy)
        (fun hy => hy) (fun _ _ _ _ hm => hm)
    | _ => cases hl
  · rw [m.conns_of_ne hl, m.frames_of_ne hl]
    refine (h c).same rfl rfl rfl rfl rfl (fun hy => ⟨hy, Label.takes_of_ne hl⟩) (fun hy => hy)
      (fun hy => hy) (fun hy => hy) (fun _ _ _ _ hm => hm)

theorem exec_admission {maxScrollback : Nat} {ls : List Label} {s : State}
    (run : exec step (.init maxScrollback) ls = some s) (c : ConnId) :
    (s.conns c).Admission (.init maxScrollback) c ls (s.frames c) := by
  have trace : exec step (.init maxScrollback) ls = some s ∧
      ∀ c, (s.conns c).Admission (.init maxScrollback) c ls (s.frames c) := by
    refine exec_trace (P := fun ls s => exec step (.init maxScrollback) ls = some s ∧
      ∀ c, (s.conns c).Admission (.init maxScrollback) c ls (s.frames c)) ⟨rfl, fun c => ?_⟩ ?_ run
    · refine ⟨fun _ => rfl, ?_, ?_, ?_, ?_, ?_⟩ <;>
        simp [State.init, Conn.init, State.frames, Pc.authorized]
    · rintro ms t l t' ⟨hrun, hadm⟩ hs
      have reach := reachable_exec .init hrun
      exact ⟨exec_concat hrun hs,
        (step_move hs).admission hrun hs (gateway_sound reach) (gateway_speaks reach).1 hadm⟩
  exact trace.2 c

theorem Label.takes_cases {c : ConnId} {l : Label} {frame : ClientFrame}
    (h : l.takes c = some frame) : l = .recvHello c (.ok frame) ∨ l = .recvOpen c (.ok frame) ∨
      l = .signRecv c (.ok frame) ∨ l = .recv c (.ok frame) := by
  unfold Label.takes at h
  split at h
  case h_5 => cases h
  all_goals
    obtain ⟨rfl, he⟩ := Option.ite_none_right_eq_some.mp h
    simp [Option.some.inj he]

/-- What connection `c` does for a client: it logs in to a target, looks up a token, registers a
session, forwards input, or sends output. -/
inductive Acts (c : ConnId) (s s' : State) : Label → Prop
  | login {r : Recv} : (s'.conns c).pc = .login → Acts c s s' (.recvOpen c r)
  | lookup : Acts c s s' (.lookup c)
  | register {id : SessionId} {token : Bytes} : Acts c s s' (.loggedIn c id token)
  | forward : Acts c s s' (.forward c)
  | output {l : Label} : s'.completed c ≠ s.completed c → Acts c s s' l

/-- The frames that only `negotiate` and the signer expect. -/
def ClientFrame.negotiates : ClientFrame → Bool
  | .hello _ _ _ _ | .openTarget _ _ _ _ | .signResponse _ _ => true
  | .data _ | .resize _ _ | .ping | .close => false

theorem Move.completed_cases {s s' : State} {l : Label} (m : Move s l s') (c : ConnId) :
    s'.completed c = s.completed c ∨ ∃ frame time, (s.conns c).sender = .write frame time := by
  cases m with
  | @signSent d | @rejectSent d | @helloSent d | @statusSent d | @closedWritten d =>
    exact Or.inl (State.completed_put_quiet _ rfl)
  | @written d frame time hpc =>
    by_cases hd : d = c
    · exact Or.inr ⟨frame, time, hd ▸ hpc⟩
    · refine Or.inl ((State.completed_put time frame).trans ?_)
      simp [hd]
  | _ => exact Or.inl rfl

theorem Acts.authorized {c : ConnId} {s s' : State} {l : Label} (h : Acts c s s' l)
    (hs : step s l = some s') (sound : s.Sound) :
    (s.conns c).pc.authorized = true ∨ (s.conns c).session ≠ none := by
  have m := step_move hs
  cases h with
  | login hlogin =>
    cases m with
    | openLost hpc | openTarget hpc | openRefused _ hpc => simp [hpc, Pc.authorized]
  | lookup =>
    cases m with
    | resumed hpc | unresumed hpc => simp [hpc, Pc.authorized]
  | register =>
    cases m with
    | loggedIn hpc => simp [hpc, Pc.authorized]
  | forward =>
    cases m with
    | forwarded hpc | unforwarded hpc => simp [hpc, Pc.authorized]
  | output hout =>
    obtain ⟨frame, time, hpc⟩ := (m.completed_cases c).resolve_left hout
    obtain ⟨session, ses, hsession, -⟩ := sound.session_of_sender (c := c) (by simp [hpc])
    exact Or.inr (by simp [hsession])

theorem Move.keeps_session {s s' : State} {l : Label} (m : Move s l s') (sound : s.Sound)
    {c : ConnId} {session : SessionRef} (h : (s.conns c).session = some session) :
    (s'.conns c).session = some session := by
  by_cases hl : l.conn = some c
  · have early : (s.conns c).pc.stage ≠ .early := fun hstage => by
      have hnone := Option.map_eq_none_iff.mp ((sound.owned.ok c).early hstage)
      simp [hnone] at h
    cases m with
    | resumed hpc | loggedIn hpc =>
      cases hl
      exact absurd (by simp [hpc, Pc.stage]) early
    | signIgnored | recvIgnored => exact h
    | actorOutput | actorInput | actorEnd | actorNone | ingest | ingestEnd | tick => cases hl
    | _ =>
      cases hl
      simpa using h
  · rw [m.conns_of_ne hl]
    exact h

theorem Move.sessions_of_conn {s s' : State} {l : Label} (m : Move s l s') (sound : s.Sound)
    {c : ConnId} {session : SessionRef} (h : (s.conns c).session = some session)
    (hl : l.conn = some c) {i : SessionId} (hi : s'.sessions i ≠ s.sessions i) :
    i = session.id := by
  cases m with
  | @loggedIn d id token hpc =>
    cases hl
    have hnone := Option.map_eq_none_iff.mp ((sound.owned.ok c).early
      (by simp [State.life_client, Conn.client, hpc, Pc.stage]))
    simp [hnone] at h
  | @forwarded d found ses input hpc hs =>
    cases hl
    obtain rfl := Option.some.inj (hs.symm.trans h)
    by_contra hne
    exact hi (by simp [State.setSession_sessions, hne])
  | actorOutput | actorInput | actorEnd | actorNone | ingest | ingestEnd => cases hl
  | _ => exact absurd rfl hi

/-- A connection does nothing for its client before the client is authorized, tells it only of the
session that was opened or resumed for it, and stays with that session. -/
theorem nothing_before_authorization {maxScrollback : Nat} {ls : List Label} {s : State}
    (run : exec step (.init maxScrollback) ls = some s) (c : ConnId) :
    (∀ l s', step s l = some s' → Acts c s s' l → ∃ clientName resume accountToken,
      Admitted (.init maxScrollback) c ls clientName resume accountToken) ∧
    (∀ version id resumed token, .hello version id resumed token ∈ s.frames c →
      ∃ clientName resume accountToken,
        Admitted (.init maxScrollback) c ls clientName resume accountToken ∧
        (resumed = false → Called (.init maxScrollback) ls (.sessionOpened c (.ok ()))
          (.sessionOpen accountToken id clientName (.ok ()))) ∧
        (resumed = true → resume = some token ∧ ⟨id, token.val⟩ ∈ s.minted)) ∧
    ((s.conns c).resumed = true → ∀ l s' frame, l.takes c = some frame →
      frame.negotiates = true → step s l = some s' → s' = s) ∧
    ∀ session, (s.conns c).session = some session → ∀ ks s', exec step s ks = some s' →
      (s'.conns c).session = some session ∧ ∀ l s'', l.conn = some c → step s' l = some s'' →
        ∀ i, s''.sessions i ≠ s'.sessions i → i = session.id := by
  have reach := reachable_exec .init run
  have sound := gateway_sound reach
  have adm := exec_admission run c
  have admitted : (s.conns c).pc.authorized = true ∨ (s.conns c).session ≠ none →
      Admitted (.init maxScrollback) c ls (s.conns c).clientName (s.conns c).resume
        (s.conns c).accountToken := fun h => ⟨adm.heard (Or.inr h), adm.allowed h⟩
  refine ⟨fun l s' hs hacts => ?_, fun version id resumed token hm => ?_, fun hr => ?_,
    fun session hsession ks s' hks => ?_⟩
  · exact ⟨_, _, _, admitted (hacts.authorized hs sound)⟩
  · obtain ⟨hsession, rfl⟩ := adm.named version id resumed token hm
    refine ⟨_, _, _, admitted (Or.inr (by simp [hsession])), fun hr => ?_, fun hr => ?_⟩
    · exact adm.granted _ hsession hr (Or.inr ⟨_, _, _, _, hm⟩)
    · exact ⟨adm.presented _ hsession hr, sound.wf.held c _ hsession⟩
  · intro l s' frame htakes hneg hs
    have early : (s.conns c).pc.stage ≠ .early := fun hstage => by
      have := ((gateway_speaks reach).2 c).early hstage
      simp [hr] at this
    have m := step_move hs
    rcases Label.takes_cases htakes with rfl | rfl | rfl | rfl
    · cases m with
      | hello hpc | helloRefused _ hpc => exact absurd (by simp [hpc, Pc.stage]) early
    · cases m with
      | openTarget hpc | openRefused _ hpc => exact absurd (by simp [hpc, Pc.stage]) early
    · obtain ⟨id, hpc⟩ := signRecv_pc hs
      exact absurd (by simp [hpc, Pc.stage]) early
    · cases m with
      | recvIgnored => rfl
      | recvData | recvResize | recvPing | recvClose => simp [ClientFrame.negotiates] at hneg
  · have trace : s'.Sound ∧ (s'.conns c).session = some session := by
      refine exec_keeps (P := fun s => s.Sound ∧ (s.conns c).session = some session)
        (fun t l t' ht hstep => ?_) ⟨sound, hsession⟩ hks
      exact ⟨(step_move hstep).sound ht.1, (step_move hstep).keeps_session ht.1 ht.2⟩
    refine ⟨trace.2, fun l s'' hl hs i hi => ?_⟩
    exact (step_move hs).sessions_of_conn trace.1 trace.2 hl hi

/-- One client opens a session and another resumes it. -/
theorem nothing_before_authorization_resumed : ∃ s, exec step (.init defaultScrollbackBytes)
      (opening 0 (some [7]) .unlimited 5 [1] ++ resuming 1 (some [8]) .unlimited [1]) = some s ∧
    s.frames 1 = [.hello 1 5 true ⟨[1]⟩, .status .live] ∧ ∃ clientName accountToken,
      Admitted (.init defaultScrollbackBytes) 1
        (opening 0 (some [7]) .unlimited 5 [1] ++ resuming 1 (some [8]) .unlimited [1])
        clientName (some ⟨[1]⟩) accountToken := by
  obtain ⟨s, hs, hframes⟩ : ∃ s, exec step (.init defaultScrollbackBytes)
      (opening 0 (some [7]) .unlimited 5 [1] ++ resuming 1 (some [8]) .unlimited [1]) = some s ∧
      s.frames 1 = [.hello 1 5 true ⟨[1]⟩, .status .live] := exists_exec (by decide +kernel)
  obtain ⟨-, hello, -⟩ := nothing_before_authorization hs 1
  obtain ⟨clientName, resume, accountToken, hadm, -, hres⟩ :=
    hello 1 5 true ⟨[1]⟩ (by rw [hframes]; exact List.mem_cons_self)
  obtain ⟨rfl, -⟩ := hres rfl
  exact ⟨s, hs, hframes, clientName, accountToken, hadm⟩

end TtyGateway
