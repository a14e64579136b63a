import TtyGateway.Moves

namespace TtyGateway

/-- Registry, session table and connections agree on which sessions exist. -/
structure State.Wf (s : State) : Prop where
  paired : s.registry.Paired
  listed : ∀ id session, s.registry.byId.lookup id = some session → session ∈ s.minted
  held : ∀ c session, (s.conns c).session = some session → session ∈ s.minted
  ids : (s.minted.map SessionRef.id).Nodup
  tokens : (s.minted.map SessionRef.resumeToken).Nodup
  known : ∀ i, s.sessions i ≠ none ↔ i ∈ s.minted.map SessionRef.id
  closed : ∀ i ses, s.sessions i = some ses → ses.inner.closed = !ses.ingest
  actor : ∀ i ses, s.sessions i = some ses → ses.ingest = false → ses.actor = false
  idle : ∀ c, c ∉ s.accepted → s.conns c = .init

theorem State.wf_init (maxScrollback : Nat) : (State.init maxScrollback).Wf where
  paired := Registry.paired_default
  listed := by simp [State.init, Registry.default]
  held := by simp [State.init, Conn.init]
  ids := by simp [State.init]
  tokens := by simp [State.init]
  known := by simp [State.init]
  closed := by simp [State.init]
  actor := by simp [State.init]
  idle := fun _ _ => rfl

theorem State.Wf.accepted {s : State} (h : s.Wf) {c : ConnId} (hc : s.conns c ≠ .init) :
    c ∈ s.accepted := by
  by_contra hn
  exact hc (h.idle c hn)

theorem State.Wf.accepted_of_pc {s : State} (h : s.Wf) {c : ConnId} (hc : (s.conns c).pc ≠ .idle) :
    c ∈ s.accepted :=
  h.accepted fun he => hc (by rw [he]; rfl)

theorem State.Wf.accepted_of_sender {s : State} (h : s.Wf) {c : ConnId}
    (hc : (s.conns c).sender ≠ .idle) : c ∈ s.accepted :=
  h.accepted fun he => hc (by rw [he]; rfl)

theorem State.Wf.accepted_of_session {s : State} (h : s.Wf) {c : ConnId}
    (hc : (s.conns c).session ≠ none) : c ∈ s.accepted :=
  h.accepted fun he => hc (by rw [he]; rfl)

theorem State.Wf.session_known {s : State} (h : s.Wf) {c : ConnId} {session : SessionRef}
    (hs : (s.conns c).session = some session) : ∃ ses, s.sessions session.id = some ses := by
  refine Option.ne_none_iff_exists'.mp ((h.known session.id).mpr ?_)
  exact List.mem_map_of_mem (h.held c session hs)

theorem State.Wf.ingest_of_actor {s : State} (h : s.Wf) {i : SessionId} {ses : Session}
    (hi : s.sessions i = some ses) (ha : ses.actor = true) : ses.ingest = true := by
  by_contra hno
  have hdead := h.actor i ses hi (by simpa using hno)
  simp [ha] at hdead

theorem State.Wf.resume_of_registered {s : State} (h : s.Wf) {session : SessionRef}
    (hm : session ∈ s.minted) (hreg : s.registered session.id) :
    s.registry.resume session.resumeToken = some session := by
  obtain ⟨found, hf⟩ := Finmap.mem_iff.mp hreg
  have hid := h.paired.own _ _ hf
  have he : found = session := List.inj_on_of_nodup_map h.ids (h.listed _ _ hf) hm hid
  exact h.paired.resume_eq_some.mpr ⟨he ▸ hf, rfl⟩

theorem State.Wf.setConn {s : State} (h : s.Wf) {c : ConnId} {x : Conn} (hc : c ∈ s.accepted)
    (hx : ∀ session, x.session = some session → session ∈ s.minted) : (s.setConn c x).Wf := by
  refine { h with held := fun d session hd => ?_, idle := fun d hd => ?_ }
  · rw [State.setConn_conns] at hd
    split at hd
    · exact hx session hd
    · exact h.held d session hd
  · have hne : d ≠ c := by
      rintro rfl
      exact hd hc
    rw [State.setConn_conns_of_ne _ _ _ hne]
    exact h.idle d hd

theorem State.Wf.call {s : State} (h : s.Wf) (a : HookCall) : (s.call a).Wf := { h with }

theorem State.Wf.put {s : State} (h : s.Wf) (c : ConnId) (t : ℚ) (f : ServerFrame) :
    (s.put c t f).Wf := { h with }

theorem State.Wf.setSession {s : State} (h : s.Wf) {i : SessionId} {old ses : Session}
    (hi : s.sessions i = some old) (hc : ses.inner.closed = !ses.ingest)
    (ha : ses.ingest = false → ses.actor = false) : (s.setSession i ses).Wf := by
  refine { h with known := fun j => ?_, closed := fun j found hj => ?_, actor := fun j found hj => ?_ }
  · rw [State.setSession_sessions, State.setSession_minted, ← h.known j]
    split
    next he => simp [he, hi]
    next => rfl
  · rw [State.setSession_sessions] at hj
    split at hj
    next => cases hj; exact hc
    next => exact h.closed j found hj
  · rw [State.setSession_sessions] at hj
    split at hj
    next => cases hj; exact ha
    next => exact h.actor j found hj

/-- A session's channels and buffer may change freely while its tasks keep running. -/
theorem State.Wf.touchSession {s : State} (h : s.Wf) {i : SessionId} {old ses : Session}
    (hi : s.sessions i = some old) (hc : ses.inner.closed = old.inner.closed)
    (hg : ses.ingest = old.ingest) (ha : ses.actor = true → old.actor = true) :
    (s.setSession i ses).Wf := by
  refine h.setSession hi ?_ fun hn => ?_
  · rw [hc, hg]
    exact h.closed i old hi
  · have hold := h.actor i old hi (hg ▸ hn)
    simpa [hold] using ha

theorem State.Wf.remove {s : State} (h : s.Wf) (id : SessionId) :
    { s with registry := s.registry.remove id }.Wf :=
  { h with
    paired := h.paired.remove id
    listed := fun j session hj => h.listed j session (Registry.lookup_remove hj) }

theorem State.Wf.id_not_mem {s : State} (h : s.Wf) {i : SessionId}
    (hi : i ∉ s.minted.map SessionRef.id) : i ∉ s.registry.byId := by
  intro hm
  obtain ⟨session, hs⟩ := Finmap.mem_iff.mp hm
  exact hi (List.mem_map.mpr ⟨session, h.listed i session hs, h.paired.own i session hs⟩)

theorem State.Wf.token_not_mem {s : State} (h : s.Wf) {t : Bytes}
    (ht : t ∉ s.minted.map SessionRef.resumeToken) : t ∉ s.registry.byToken := by
  intro hm
  obtain ⟨i, hi⟩ := Finmap.mem_iff.mp hm
  obtain ⟨session, hs, htok⟩ := (h.paired.token t i).mp hi
  exact ht (List.mem_map.mpr ⟨session, h.listed i session hs, htok⟩)

theorem State.Wf.create {s : State} (h : s.Wf) (session : SessionRef) (maxBytes : Nat)
    (hid : session.id ∉ s.minted.map SessionRef.id)
    (htoken : session.resumeToken ∉ s.minted.map SessionRef.resumeToken) :
    { s.setSession session.id (.spawn maxBytes) with
      registry := s.registry.create session, minted := s.minted ++ [session] }.Wf where
  paired := h.paired.create (h.id_not_mem hid) (h.token_not_mem htoken)
  listed := by
    intro j found hj
    by_cases he : j = session.id
    · subst he
      simp only [Registry.create, Finmap.lookup_insert, Option.some.injEq] at hj
      simp [hj]
    · simp only [Registry.create, Finmap.lookup_insert_of_ne _ he] at hj
      exact List.mem_append_left _ (h.listed j found hj)
  held c found hc := List.mem_append_left _ (h.held c found hc)
  ids := by
    rw [List.map_append, List.nodup_append]
    exact ⟨h.ids, List.nodup_singleton _, fun a ha b hb => by
      rintro rfl; exact hid (List.mem_singleton.mp hb ▸ ha)⟩
  tokens := by
    rw [List.map_append, List.nodup_append]
    exact ⟨h.tokens, List.nodup_singleton _, fun a ha b hb => by
      rintro rfl; exact htoken (List.mem_singleton.mp hb ▸ ha)⟩
  known j := by
    simp only [State.setSession_sessions, List.map_append, List.mem_append, ← h.known j,
      List.map_cons, List.map_nil, List.mem_singleton]
    split
    next he => simp [he]
    next he => simp [he]
  closed j ses hj := by
    simp only [State.setSession_sessions] at hj
    split at hj
    next => cases hj; rfl
    next => exact h.closed j ses hj
  actor j ses hj := by
    simp only [State.setSession_sessions] at hj
    split at hj
    next => cases hj; simp [Session.spawn]
    next => exact h.actor j ses hj
  idle := h.idle

theorem Move.wf {s s' : State} {l : Label} (m : Move s l s') (h : s.Wf) : s'.Wf := by
  cases m with
  | @accept c hpc =>
    have hw : ({ s with accepted := s.accepted ++ [c] } : State).Wf :=
      { h with idle := fun d hd => h.idle d (fun hm => hd (List.mem_append_left _ hm)) }
    exact hw.setConn (List.mem_append_right _ (List.mem_singleton.mpr rfl)) (h.held c)
  | resumed hpc ht hr =>
    apply h.setConn (h.accepted_of_pc (by simp [hpc]))
    intro session hs
    cases Option.some.inj hs
    exact h.listed _ _ (h.paired.resume_eq_some.mp hr).1
  | @loggedIn c id token hpc hid htoken =>
    have hw := h.create ⟨id, token⟩ s.maxScrollback hid htoken
    apply hw.setConn (h.accepted_of_pc (by simp [hpc]))
    intro session hs
    cases Option.some.inj hs
    exact List.mem_append_right _ (List.mem_singleton.mpr rfl)
  | @slotDenied c session denied hpc hs =>
    have hc : c ∈ s.accepted := h.accepted_of_pc (by simp [hpc])
    exact ((h.call _).remove _).setConn hc (h.held c)
  | @closeReturned c session hpc hs =>
    have hc : c ∈ s.accepted := h.accepted_of_pc (by simp [hpc])
    exact (h.remove _).setConn hc (h.held c)
  | @forwarded c session ses input hpc hses hs ha =>
    have hc : c ∈ s.accepted := h.accepted_of_pc (by simp [hpc])
    refine State.Wf.setConn ?_ hc (h.held c)
    exact h.touchSession hs rfl rfl (fun ha => ha)
  | actorOutput hs => exact h.touchSession hs rfl rfl (fun ha => ha)
  | actorInput hs => exact h.touchSession hs rfl rfl (fun ha => ha)
  | actorEnd hs ha => exact h.touchSession hs rfl rfl (fun _ => ha)
  | actorNone hs ha => exact h.touchSession hs rfl rfl (fun _ => ha)
  | ingest hs => exact h.touchSession hs (by simp) rfl (fun ha => ha)
  | ingestEnd hs hi ha => exact h.setSession hs rfl (fun _ => ha)
  | signIgnored => exact h
  | recvIgnored => exact h
  | tick => exact { h with }
  | senderStart hpc | chunk hpc | finished hpc | parked hpc | oob hpc | oobClosed hpc
  | unlimited hpc | admitted hpc | delayed hpc | wake hpc | addOut hpc | unwritten hpc
  | closedUnwritten hpc =>
    exact h.setConn (h.accepted_of_sender (by simp [hpc])) (h.held _)
  | written hpc | closedWritten hpc =>
    exact (h.put _ _ _).setConn (h.accepted_of_sender (by simp [hpc])) (h.held _)
  | cancel ha hpc =>
    refine h.setConn (h.accepted_of_sender fun he => ?_) (h.held _)
    simp [he, SenderPc.atAwait] at hpc
  | authorized hpc | denied hpc | slotTaken hpc | report hpc | closeCall hpc =>
    exact (h.call _).setConn (h.accepted_of_pc (by simp [hpc])) (h.held _)
  | signSent hpc | rejectSent hpc | helloSent hpc | statusSent hpc =>
    exact (h.put _ _ _).setConn (h.accepted_of_pc (by simp [hpc])) (h.held _)
  | _ => exact h.setConn (h.accepted_of_pc (by simp [*])) (h.held _)

/-- The only out-of-band frames are answers to pings, and the only others that go through the
loop of a sender task carry output. -/
structure Conn.Framed (x : Conn) : Prop where
  oob : ∀ f ∈ x.oob, f = .pong
  writing : ∀ f t, x.sender = .write f t → f = .pong ∨ ∃ bytes, f = .data bytes

theorem State.framed_setConn {s : State} (h : ∀ d, (s.conns d).Framed) {c : ConnId} {x : Conn}
    (hx : x.Framed) : ∀ d, ((s.setConn c x).conns d).Framed := by
  intro d
  rw [State.setConn_conns]
  split
  · exact hx
  · exact h d

theorem Move.framed {s s' : State} {l : Label} (m : Move s l s')
    (h : ∀ d, (s.conns d).Framed) : ∀ d, (s'.conns d).Framed := by
  cases m with
  | @ponged c hpc =>
    refine State.framed_setConn h ⟨fun f hf => ?_, (h c).writing⟩
    rcases List.mem_append.mp hf with hf | hf
    · exact (h c).oob f hf
    · exact List.mem_singleton.mp hf
  | @oob c frame rest hpc ho =>
    refine State.framed_setConn h ⟨fun f hf => (h c).oob f (by simp [ho, hf]), fun f t hw => ?_⟩
    cases hw
    exact Or.inl ((h c).oob frame (by simp [ho]))
  | @addOut c bytes time hpc =>
    refine State.framed_setConn h ⟨(h c).oob, fun f t hw => ?_⟩
    cases hw
    exact Or.inr ⟨bytes, rfl⟩
  | @statusSent c | @senderStart c | @chunk c | @finished c | @unlimited c | @admitted c
  | @delayed c | @wake c | @written c | @unwritten c | @closedWritten c | @closedUnwritten c
  | @cancel c =>
    exact State.framed_setConn h ⟨(h c).oob, by simp⟩
  | signIgnored | recvIgnored | actorOutput | actorInput | actorEnd | actorNone | ingest
  | ingestEnd | tick => exact h
  | _ => exact State.framed_setConn h ⟨(h _).oob, (h _).writing⟩

/-- At most one frame is completed in a step; what output it carries a sender task was writing. -/
theorem Move.wire {s s' : State} {l : Label} (m : Move s l s') :
    s'.wire = s.wire ∨ ∃ sent, s'.wire = s.wire ++ [sent] ∧
      (sent.frame.payload = [] ∨ (s.conns sent.conn).sender = .write sent.frame sent.time) := by
  cases m with
  | signSent | rejectSent | helloSent | statusSent | closedWritten =>
    exact Or.inr ⟨_, rfl, Or.inl rfl⟩
  | written hpc => exact Or.inr ⟨_, rfl, Or.inr hpc⟩
  | _ => exact Or.inl rfl

theorem State.sessions_setSession {s : State} {i j : SessionId} {old ses new : Session}
    (hj : s.sessions j = some old) (hi : s.sessions i = some ses) :
    ∃ ses', (s.setSession j new).sessions i = some ses' ∧
      (j = i ∧ old = ses ∧ ses' = new ∨ j ≠ i ∧ ses' = ses) := by
  by_cases he : j = i
  · subst j
    obtain rfl := Option.some.inj (hj.symm.trans hi)
    exact ⟨new, by simp, Or.inl ⟨rfl, rfl, rfl⟩⟩
  · exact ⟨ses, by simp [State.setSession_sessions, Ne.symm he, hi], Or.inr ⟨he, rfl⟩⟩

/-- What one step can do to session `i` while it is there. -/
inductive SessionMove (s : State) (i : SessionId) (ses : Session) : Label → Session → Prop
  | same {l} : SessionMove s i ses l ses
  | forwarded {c session input} : (s.conns c).pc = .forward input →
      (s.conns c).session = some session → session.id = i →
      SessionMove s i ses (.forward c) { ses with input := ses.input ++ [input] }
  | actorOutput {bytes} :
      SessionMove s i ses (.actorOutput i bytes) { ses with output := ses.output ++ [bytes] }
  | actorInput {input rest} : ses.input = input :: rest →
      SessionMove s i ses (.actorInput i) { ses with input := rest }
  | actorEnd : SessionMove s i ses (.actorEnd i) { ses with actor := false, input := [] }
  | actorNone : SessionMove s i ses (.actorNone i) { ses with actor := false }
  | ingest {bytes rest} : SessionMove s i ses (.ingest i)
      { ses with
        inner := ses.inner.append .exact bytes
        output := rest
        produced := ses.produced ++ bytes }
  | ingestEnd : ses.actor = false →
      SessionMove s i ses (.ingestEnd i) { ses with inner := ses.inner.close, ingest := false }

theorem Move.session {s s' : State} {l : Label} (m : Move s l s') (hw : s.Wf) {i : SessionId}
    {ses : Session} (hi : s.sessions i = some ses) :
    ∃ ses', s'.sessions i = some ses' ∧ SessionMove s i ses l ses' := by
  cases m with
  | @loggedIn c id token hpc hid =>
    have hne : i ≠ id := by
      rintro rfl
      exact hid ((hw.known i).mp (by simp [hi]))
    exact ⟨ses, by simp [State.setSession_sessions, hne, hi], .same⟩
  | forwarded hpc hs hj =>
    obtain ⟨ses', hs', ⟨he, rfl, rfl⟩ | ⟨-, rfl⟩⟩ := State.sessions_setSession hj hi
    · exact ⟨_, hs', .forwarded hpc hs he⟩
    · exact ⟨_, hs', .same⟩
  | actorOutput hj =>
    obtain ⟨ses', hs', ⟨rfl, rfl, rfl⟩ | ⟨-, rfl⟩⟩ := State.sessions_setSession hj hi
    · exact ⟨_, hs', .actorOutput⟩
    · exact ⟨_, hs', .same⟩
  | actorInput hj hin =>
    obtain ⟨ses', hs', ⟨rfl, rfl, rfl⟩ | ⟨-, rfl⟩⟩ := State.sessions_setSession hj hi
    · exact ⟨_, hs', .actorInput hin⟩
    · exact ⟨_, hs', .same⟩
  | actorEnd hj =>
    obtain ⟨ses', hs', ⟨rfl, rfl, rfl⟩ | ⟨-, rfl⟩⟩ := State.sessions_setSession hj hi
    · exact ⟨_, hs', .actorEnd⟩
    · exact ⟨_, hs', .same⟩
  | actorNone hj =>
    obtain ⟨ses', hs', ⟨rfl, rfl, rfl⟩ | ⟨-, rfl⟩⟩ := State.sessions_setSession hj hi
    · exact ⟨_, hs', .actorNone⟩
    · exact ⟨_, hs', .same⟩
  | ingest hj =>
    obtain ⟨ses', hs', ⟨rfl, rfl, rfl⟩ | ⟨-, rfl⟩⟩ := State.sessions_setSession hj hi
    · exact ⟨_, hs', .ingest⟩
    · exact ⟨_, hs', .same⟩
  | ingestEnd hj _ hdead =>
    obtain ⟨ses', hs', ⟨rfl, rfl, rfl⟩ | ⟨-, rfl⟩⟩ := State.sessions_setSession hj hi
    · exact ⟨_, hs', .ingestEnd hdead⟩
    · exact ⟨_, hs', .same⟩
  | _ => exact ⟨ses, hi, .same⟩

/-- Only a handler that forwards input adds to the input of a session. -/
theorem Move.input {s s' : State} {l : Label} (m : Move s l s') (hw : s.Wf) {i : SessionId}
    {ses : Session} (hi : s.sessions i = some ses) : ∃ ses', s'.sessions i = some ses' ∧
      (ses'.input <:+ ses.input ∨ ∃ c session input, (s.conns c).pc = .forward input ∧
        (s.conns c).session = some session ∧ session.id = i) := by
  obtain ⟨ses', hs', hmove⟩ := m.session hw hi
  refine ⟨ses', hs', ?_⟩
  cases hmove with
  | forwarded hpc hs he => exact Or.inr ⟨_, _, _, hpc, hs, he⟩
  | @actorInput input rest hin =>
    left
    rw [hin]
    exact List.suffix_cons input rest
  | actorEnd => exact Or.inl List.nil_suffix
  | same | actorOutput | actorNone | ingest | ingestEnd => exact Or.inl List.suffix_rfl

end TtyGateway
