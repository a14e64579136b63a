import TtyGateway.Admission
import TtyGateway.Slots

namespace TtyGateway

open Transition

/-- The session that a frame hands to its client, with the token to come back to it. -/
def ServerFrame.names : ServerFrame → Option SessionRef
  | .hello _ id _ token => some ⟨id, token.val⟩
  | _ => none

def State.told (s : State) (c : ConnId) (session : SessionRef) : Prop :=
  some session ∈ (s.frames c).map ServerFrame.names

instance (s : State) (c : ConnId) (session : SessionRef) : Decidable (s.told c session) :=
  inferInstanceAs (Decidable (_ ∈ _))

section Owners

variable {π : Type} {owner : ConnId → π}

/-- A connection resumes a session only if its owner was told the token of it, on some connection
of his. -/
def ResumesOwn (owner : ConnId → π) (s : State) (l : Label) : Prop :=
  ∀ session ∈ s.minted, ∀ c ∈ s.accepted, l.looksUp = some c → s.resolves c = some session →
    ∃ d ∈ s.accepted, owner d = owner c ∧ s.told d session

instance [DecidableEq π] (s : State) (l : Label) : Decidable (ResumesOwn owner s l) :=
  inferInstanceAs (Decidable (∀ session ∈ s.minted, ∀ c ∈ s.accepted, _ → _ → _))

section Steps

variable {s s' : State} {l : Label} {c d : ConnId} {i : SessionId} {session : SessionRef}

theorem State.told_iff : s.told c session ↔ ∃ version resumed,
    .hello version session.id resumed ⟨session.resumeToken⟩ ∈ s.frames c := by
  rw [State.told, List.mem_map]
  constructor
  · rintro ⟨frame, hm, he⟩
    cases frame with
    | hello version id resumed token =>
      cases Option.some.inj he
      exact ⟨version, resumed, hm⟩
    | _ => cases he
  · rintro ⟨version, resumed, hm⟩
    exact ⟨_, hm, rfl⟩

theorem Move.onSession_cases (m : Move s l s') (sound : s.Sound) (hc : s'.onSession c i) :
    s.onSession c i ∧ (s'.conns c).resumed = (s.conns c).resumed ∨
    (∃ token, l = .loggedIn c i token) ∧ s.sessions i = none ∧ (s'.conns c).resumed = false ∨
    l = .lookup c ∧ ∃ session ∈ s.minted, s.resolves c = some session ∧ session.id = i := by
  obtain ⟨al, hstep, hex⟩ := m.seen sound.wf sound.framed
  rcases hstep.session_cases sound.owned.ok (State.life_session.mpr hc) with
    ⟨hold, hr, -⟩ | ⟨rfl, hnone, hr⟩ | ⟨rfl, -, -⟩
  · exact Or.inl ⟨State.life_session.mp hold, hr⟩
  · exact Or.inr (Or.inl ⟨hex, Option.map_eq_none_iff.mp hnone, hr⟩)
  · obtain ⟨hl, token, session, ht, hs, hid⟩ := hex
    have hm := sound.wf.listed _ _ (sound.wf.paired.resume_eq_some.mp hs).1
    exact Or.inr (Or.inr ⟨hl, session, hm, by simp [State.resolves, ht, hs], hid⟩)

theorem State.Sound.session_of_onSession (sound : s.Sound) (hc : s.onSession c i) :
    s.sessions i ≠ none := by
  have hknown := sound.owned.known c i (State.life_session.mpr hc)
  rwa [State.life_ssh, ne_eq, Option.map_eq_none_iff] at hknown

/-- A connection works on no session but its own. -/
theorem Move.onSession_of_changes (m : Move s l s') (sound : s.Sound) (hl : l.conn = some c)
    (known : s.sessions i ≠ none) (hi : s'.sessions i ≠ s.sessions i) : s.onSession c i := by
  cases m with
  | @loggedIn d id token hpc hid =>
    have hne : i ≠ id := fun he => hid (he ▸ (sound.wf.known i).mp known)
    exact absurd (by simp [State.setSession_sessions, hne]) hi
  | @forwarded d session ses input hpc hs =>
    cases hl
    have he : i = session.id := by
      by_contra hne
      exact hi (by simp [State.setSession_sessions, hne])
    simp [State.onSession, hs, he]
  | actorOutput | actorInput | actorEnd | actorNone | ingest | ingestEnd => cases hl
  | _ => exact absurd rfl hi

end Steps

theorem gateway_output {maxScrollback : Nat} {C : State → Label → Prop} {s : State}
    (h : Reach (gateway maxScrollback) C s) {c : ConnId} {bytes : Bytes}
    (hm : .data bytes ∈ s.frames c) : ∃ session ses, (s.conns c).session = some session ∧
      s.sessions session.id = some ses ∧ bytes <:+: ses.produced := by
  have delivers := (gateway_delivers h).1
  have hdone : bytes ∈ s.completed c := by
    obtain ⟨sent, hsent, hframe⟩ := List.mem_filterMap.mp hm
    obtain ⟨hto, hframe⟩ := Option.ite_none_right_eq_some.mp hframe
    have hout : sent.outputTo c = some bytes := by
      simp [Sent.outputTo, hto, Option.some.inj hframe, ServerFrame.output]
    exact List.mem_filterMap.mpr ⟨sent, hsent, hout⟩
  obtain ⟨rest, he, -⟩ := delivers.accounts c
  have hyielded : bytes ∈ (s.conns c).yielded.map Prod.snd := he ▸ List.mem_append_left rest hdone
  obtain ⟨piece, hp, rfl⟩ := List.mem_map.mp hyielded
  have hstarted : (s.conns c).sender ≠ .idle := by
    intro hidle
    rw [((delivers.tracks c).unread (Or.inl hidle)).2] at hp
    exact List.not_mem_nil hp
  obtain ⟨session, ses, hs, hi⟩ := (gateway_sound h).session_of_sender hstarted
  obtain ⟨-, hpiece, -⟩ := ((delivers.tracks c).pieces session ses hs hi).segment piece hp
  refine ⟨session, ses, hs, hi, ?_⟩
  rw [hpiece]
  exact List.extract_eq_take_drop ▸ (List.take_prefix _ _).isInfix.trans (List.drop_suffix _ _).isInfix

theorem Called.mem {init s : State} {ls : List Label} {l : Label} {call : HookCall}
    (h : Called init ls l call) (run : exec step init ls = some s) : call ∈ s.calls := by
  obtain ⟨before, after, t, t', rfl, hbefore, hs, hcalls⟩ := h
  rw [exec_append hbefore, exec, hs] at run
  refine exec_keeps (P := fun s => call ∈ s.calls) ?_ ?_ run
  · exact fun _ _ _ hm hstep => (step_move hstep).calls hm
  · simp [hcalls]

/-- What a client was told is the session of its connection, and a session it was told of as new
was accepted by the control plane. -/
theorem gateway_told {maxScrollback : Nat} {C : State → Label → Prop} {s : State}
    (h : Reach (gateway maxScrollback) C s) {c : ConnId} {session : SessionRef}
    (ht : s.told c session) : (s.conns c).session = some session ∧
      ((s.conns c).resumed = false → ∃ account clientName,
        .sessionOpen account session.id clientName (.ok ()) ∈ s.calls) := by
  obtain ⟨ls, run⟩ := h.exists_exec
  have adm := exec_admission run c
  obtain ⟨version, resumed, hm⟩ := State.told_iff.mp ht
  obtain ⟨hsession, rfl⟩ := adm.named _ _ _ _ hm
  refine ⟨hsession, fun hr => ?_⟩
  exact ⟨_, _, (adm.granted _ hsession hr (Or.inr ⟨_, _, _, _, hm⟩)).mem run⟩

/-- Each session has one owner, and nobody comes back to one that was not accepted. -/
structure State.Separate (owner : ConnId → π) (s : State) : Prop where
  own : ∀ c d i, s.onSession c i → s.onSession d i → owner c = owner d
  granted : ∀ c i, s.onSession c i → (s.conns c).resumed = true → ∃ account clientName,
    .sessionOpen account i clientName (.ok ()) ∈ s.calls

theorem State.told.onSession {maxScrollback : Nat} {C : State → Label → Prop} {s : State}
    {c : ConnId} {session : SessionRef} (ht : s.told c session)
    (h : Reach (gateway maxScrollback) C s) : s.onSession c session.id := by
  simp [State.onSession, (gateway_told h ht).1]

theorem Move.separate {maxScrollback : Nat} {s s' : State} {l : Label} (m : Move s l s')
    (h : Reach (gateway maxScrollback) (ResumesOwn owner) s) (hl : ResumesOwn owner s l)
    (hs : s.Separate owner) : s'.Separate owner := by
  have sound := gateway_sound h
  -- whoever looks a session up joins one of his own
  have joins : ∀ c session, l = .lookup c → session ∈ s.minted →
      s.resolves c = some session → ∃ d, owner d = owner c ∧ s.told d session := by
    rintro c session rfl hm hr
    have hacc : c ∈ s.accepted := sound.wf.accepted fun hi => by
      simp [State.resolves, hi, Conn.init] at hr
    obtain ⟨d, -, ho, ht⟩ := hl session hm c hacc rfl hr
    exact ⟨d, ho, ht⟩
  have back : ∀ c i, s'.onSession c i → s.sessions i ≠ none →
      ∃ d, owner d = owner c ∧ s.onSession d i := by
    intro c i hc hi
    rcases m.onSession_cases sound hc with ⟨hold, -⟩ | ⟨-, hnone, -⟩ | ⟨he, session, hm, hr, rfl⟩
    · exact ⟨c, rfl, hold⟩
    · exact absurd hnone hi
    · obtain ⟨d, ho, ht⟩ := joins c session he hm hr
      exact ⟨d, ho, ht.onSession h⟩
  refine ⟨fun c d i hc hd => ?_, fun c i hc hr => ?_⟩
  · by_cases hi : s.sessions i = none
    · -- a session that is new has the connection that made it, and no other
      have made : ∀ e, s'.onSession e i → ∃ token, l = .loggedIn e i token := by
        intro e he
        rcases m.onSession_cases sound he with ⟨hold, -⟩ | ⟨hmade, -⟩ | ⟨-, session, hm, -, rfl⟩
        · exact absurd hi (sound.session_of_onSession hold)
        · exact hmade
        · exact absurd hi ((sound.wf.known _).mpr (List.mem_map_of_mem hm))
      obtain ⟨token, rfl⟩ := made c hc
      obtain ⟨token', he⟩ := made d hd
      cases he
      rfl
    · obtain ⟨c', hoc, hc'⟩ := back c i hc hi
      obtain ⟨d', hod, hd'⟩ := back d i hd hi
      rw [← hoc, ← hod]
      exact hs.own c' d' i hc' hd'
  · rcases m.onSession_cases sound hc with ⟨hold, he⟩ | ⟨-, -, he⟩ | ⟨he, session, hm, hres, rfl⟩
    · obtain ⟨account, clientName, hcall⟩ := hs.granted c i hold (he ▸ hr)
      exact ⟨account, clientName, m.calls hcall⟩
    · simp [hr] at he
    · obtain ⟨d, -, ht⟩ := joins c session he hm hres
      obtain ⟨hsession, hnew⟩ := gateway_told h ht
      have hgranted : ∃ account clientName,
          .sessionOpen account session.id clientName (.ok ()) ∈ s.calls := by
        cases hd : (s.conns d).resumed with
        | true => exact hs.granted d session.id (ht.onSession h) hd
        | false => exact hnew hd
      obtain ⟨account, clientName, hcall⟩ := hgranted
      exact ⟨account, clientName, m.calls hcall⟩

theorem gateway_separate {maxScrollback : Nat} {s : State}
    (h : Reach (gateway maxScrollback) (ResumesOwn owner) s) : s.Separate owner := by
  refine h.invariant (P := State.Separate owner) ?_ ?_
  · constructor <;> simp [gateway, machine, State.init, State.onSession, Conn.init]
  · exact fun s l s' hr ih hl hs => (step_move hs).separate hr hl ih

/-- If owners resume with tokens that they were told themselves, a session is one owner's: his are
the connections on it, to his alone its token and its output go, and from his alone its input
comes. And it is not shared before the control plane has accepted it for the account of its
opener. -/
theorem sessions_isolated {maxScrollback : Nat} {s : State}
    (h : Reach (gateway maxScrollback) (ResumesOwn owner) s) {c : ConnId} {i : SessionId}
    (hc : s.onSession c i) :
    (∀ d, s.onSession d i → owner d = owner c) ∧
    (∀ d version resumed token, .hello version i resumed token ∈ s.frames d →
      owner d = owner c) ∧
    ((s.conns c).resumed = true → ∃ e clientName, s.onSession e i ∧
      (s.conns e).resumed = false ∧
      .sessionOpen (s.conns e).accountToken i clientName (.ok ()) ∈ s.calls) ∧
    (∀ d bytes, .data bytes ∈ s.frames d → ∃ j ses, s.onSession d j ∧ s.sessions j = some ses ∧
      bytes <:+: ses.produced) ∧
    ∀ l s' d, step s l = some s' → l.conn = some d → s'.sessions i ≠ s.sessions i →
      owner d = owner c := by
  have separate := gateway_separate h
  have sound := gateway_sound h
  have own : ∀ d, s.onSession d i → owner d = owner c := fun d hd => separate.own d c i hd hc
  refine ⟨own, fun d version resumed token hm => own d ?_, fun hr => ?_,
    fun d bytes hm => ?_, fun l s' d hs hl hi => own d ?_⟩
  · have ht : s.told d ⟨i, token.val⟩ := State.told_iff.mpr ⟨_, _, hm⟩
    exact ht.onSession h
  · obtain ⟨account, clientName, hcall⟩ := separate.granted c i hc hr
    obtain ⟨e, he, hnew, rfl, -⟩ :=
      sound.billed.opened account i (State.opened_mem_life.mpr ⟨clientName, hcall⟩)
    exact ⟨e, clientName, State.life_session.mp he, hnew, hcall⟩
  · obtain ⟨session, ses, hd, hj, hout⟩ := gateway_output h hm
    exact ⟨session.id, ses, by simp [State.onSession, hd], hj, hout⟩
  · exact (step_move hs).onSession_of_changes sound hl (sound.session_of_onSession hc) hi

end Owners

/-- Two clients, the second with a session of its own, and the first back on a new connection. -/
theorem sessions_isolated_resumed : ∃ s,
    Reach (gateway defaultScrollbackBytes) (ResumesOwn fun c => decide (c = 1)) s ∧
    (s.conns 2).session = some ⟨5, [1]⟩ ∧ (s.conns 1).session = some ⟨6, [2]⟩ ∧
    ∀ d, s.onSession d 5 → decide (d = 1) = false := by
  obtain ⟨s, hs, hback, hother⟩ := exists_reach_of_execWhere (.init defaultScrollbackBytes) step
    (ResumesOwn fun c => decide (c = 1))
    (opening 0 none .unlimited 5 [1] ++ opening 1 none .unlimited 6 [2] ++
      ending 0 (.error "connection lost") ++ resuming 2 none .unlimited [1])
    (fun s => (s.conns 2).session = some ⟨5, [1]⟩ ∧ (s.conns 1).session = some ⟨6, [2]⟩)
    (by decide +kernel)
  have hon : s.onSession 2 5 := by simp [State.onSession, hback]
  exact ⟨s, hs, hback, hother, (sessions_isolated hs hon).1⟩

theorem Asked.names {fs : List ServerFrame} (h : Asked fs) :
    fs.filterMap ServerFrame.names = [] := by
  rw [List.filterMap_eq_nil_iff]
  intro f hf
  obtain ⟨k, hk⟩ := List.getElem?_of_mem hf
  obtain ⟨publicKey, data, rfl⟩ := h k f hk
  rfl

theorem Flow.names {fs : List ServerFrame} (h : Flow fs) :
    fs.filterMap ServerFrame.names = [] := by
  rw [List.filterMap_eq_nil_iff]
  intro f hf
  rcases h f hf with rfl | ⟨bytes, -, rfl⟩ <;> rfl

theorem Word.names {fs : List ServerFrame} (h : Word fs) :
    (fs.filterMap ServerFrame.names).length ≤ 1 := by
  obtain ⟨asked, reply, rfl, hasked, hreply⟩ := h
  rw [List.filterMap_append, hasked.names, List.nil_append]
  cases hreply with
  | error message => exact Nat.zero_le 1
  | live version id resumed token hflow =>
    simp [List.filterMap_cons, ServerFrame.names, hflow.names]
  | closed version id resumed token hflow =>
    simp [List.filterMap_cons, List.filterMap_append, ServerFrame.names, hflow.names]

theorem gateway_hellos {maxScrollback : Nat} {C : State → Label → Prop} {s : State}
    (h : Reach (gateway maxScrollback) C s) (c : ConnId) :
    ((s.frames c).filterMap ServerFrame.names).length ≤ 1 := by
  obtain ⟨word, hword, hbegins⟩ := ((gateway_speaks h).1 c).word
  exact ((hbegins.sublist.filterMap ServerFrame.names).length_le).trans hword.names

/-- All that clients are told of sessions agrees: an id goes with one token and a token with one
id, one connection is told of one session only, once, and as new only to the client that opened
it. -/
theorem hellos_agree {maxScrollback : Nat} {s : State} (h : Reachable (gateway maxScrollback) s)
    {c d : ConnId} {version version' : UInt16} {id id' : SessionId} {resumed resumed' : Bool}
    {token token' : ResumeToken} (hc : .hello version id resumed token ∈ s.frames c)
    (hd : .hello version' id' resumed' token' ∈ s.frames d) :
    (id = id' ↔ token = token') ∧
    (s.frames c).filterMap ServerFrame.names = [⟨id, token.val⟩] ∧
    (c = d → id = id' ∧ resumed = resumed') ∧
    (id = id' → resumed = false → resumed' = false → c = d) ∧
    ∃ e, (s.conns e).session = some ⟨id, token.val⟩ ∧ (s.conns e).resumed = false := by
  have sound := gateway_sound h
  obtain ⟨ls, run⟩ := h.exists_exec
  obtain ⟨hcs, rfl⟩ := (exec_admission run c).named _ _ _ _ hc
  obtain ⟨hds, rfl⟩ := (exec_admission run d).named _ _ _ _ hd
  have hcm := sound.wf.held c _ hcs
  have hdm := sound.wf.held d _ hds
  have hcl : (s.life.client c).session = some id := by simp [State.life_client, Conn.client, hcs]
  have hdl : (s.life.client d).session = some id' := by simp [State.life_client, Conn.client, hds]
  refine ⟨⟨?_, ?_⟩, ?_, ?_, ?_, ?_⟩
  · rintro rfl
    have he := List.inj_on_of_nodup_map sound.wf.ids hcm hdm rfl
    cases token
    cases token'
    simpa using he
  · rintro rfl
    exact congrArg SessionRef.id (List.inj_on_of_nodup_map sound.wf.tokens hcm hdm rfl)
  · have hm : ⟨id, token.val⟩ ∈ (s.frames c).filterMap ServerFrame.names :=
      List.mem_filterMap.mpr ⟨_, hc, rfl⟩
    obtain ⟨ref, href⟩ :=
      List.length_eq_one_iff.mp (le_antisymm (gateway_hellos h c) (List.length_pos_of_mem hm))
    rw [href] at hm ⊢
    rw [List.mem_singleton.mp hm]
  · rintro rfl
    have he := Option.some.inj (hcs.symm.trans hds)
    exact ⟨congrArg SessionRef.id he, rfl⟩
  · rintro rfl hcr hdr
    exact sound.owned.creator c d id hcl hdl hcr hdr
  · obtain ⟨e, he, hr⟩ := sound.owned.origin id (sound.owned.known c id hcl)
    obtain ⟨session, hs, hid⟩ := Option.map_eq_some_iff.mp he
    have hses := List.inj_on_of_nodup_map sound.wf.ids (sound.wf.held e _ hs) hcm hid
    exact ⟨e, hses ▸ hs, hr⟩

/-- A session that is told to the client that opened it, and to one that resumed it. -/
theorem hellos_agree_resumed : ∃ s, Reachable (gateway defaultScrollbackBytes) s ∧
    .hello 1 5 false ⟨[1]⟩ ∈ s.frames 0 ∧ .hello 1 5 true ⟨[1]⟩ ∈ s.frames 1 ∧
    ∃ e, (s.conns e).session = some ⟨5, [1]⟩ ∧ (s.conns e).resumed = false := by
  obtain ⟨s, hs, h0, h1⟩ := exists_reachable_of_exec (.init defaultScrollbackBytes) step
    (opening 0 none .unlimited 5 [1] ++ resuming 1 none .unlimited [1])
    (fun s => .hello 1 5 false ⟨[1]⟩ ∈ s.frames 0 ∧ .hello 1 5 true ⟨[1]⟩ ∈ s.frames 1)
    (by decide +kernel)
  exact ⟨s, hs, h0, h1, (hellos_agree hs h0 h1).2.2.2.2⟩

end TtyGateway
