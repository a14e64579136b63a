import TtyGateway.Slots

namespace TtyGateway

open Transition

/-- Whoever was sent `Closed` has a session that is off the registry. -/
def Life.Honest (v : Life) : Prop :=
  ∀ c ∈ v.told, ∀ i, (v.client c).session = some i → i ∉ v.registered

theorem LifeStep.honest {v v' : Life} {l : LifeLabel} (h : LifeStep v l v') (ho : v.Owned)
    (hb : v.Billed) (hv : v.Honest)
    (htell : ∀ c i, l = .tell c → (v.client c).session = some i → i ∉ v.registered) :
    v'.Honest := by
  intro c hc i hi
  rcases h.told_cases hc with hc | ⟨rfl, hd⟩
  · obtain ⟨-, j, hj, hended⟩ := hb.told c hc
    obtain rfl := Option.some.inj ((h.keeps_session ho.ok hj).1.symm.trans hi)
    exact h.unregistered (hv c hc j hj) (by simp [hended])
  · cases h with
    | tell =>
      apply htell c i rfl
      simpa [Life.setClient_client] using hi

def Label.writes : Label → Option ConnId
  | .written c true => some c
  | _ => none

/-- `Closed` is written only to a client whose session was taken off the registry before. -/
def TellsAfterRemoval (s : State) (l : Label) : Prop :=
  ∀ session ∈ s.minted, ∀ c ∈ s.accepted, l.writes = some c → s.onSession c session.id →
    (s.conns c).sender = .writeClosed → ¬s.registered session.id

instance (s : State) (l : Label) : Decidable (TellsAfterRemoval s l) :=
  inferInstanceAs (Decidable (∀ session ∈ s.minted, ∀ c ∈ s.accepted, _ → _ → _ → _))

theorem State.Wf.resume_eq_none {s : State} (h : s.Wf) {session : SessionRef}
    (hm : session ∈ s.minted) (hreg : ¬s.registered session.id) :
    s.registry.resume session.resumeToken = none := by
  by_contra hne
  obtain ⟨found, hf⟩ := Option.ne_none_iff_exists'.mp hne
  obtain ⟨hid, htok⟩ := h.paired.resume_eq_some.mp hf
  have heq : found = session :=
    List.inj_on_of_nodup_map h.tokens (h.listed _ _ hid) hm htok
  exact hreg (heq ▸ Finmap.mem_of_lookup_eq_some hid)

/-- A `Closed` that is written too early leaves its client with a token that is valid. -/
theorem Move.told_early {s s' : State} {l : Label} (m : Move s l s') (wf : s.Wf)
    (h : ¬TellsAfterRemoval s l) : ∃ sent ∈ s'.wire, sent.frame = .closed ∧
      ∃ session, (s'.conns sent.conn).session = some session ∧
        s'.registry.resume session.resumeToken = some session := by
  simp only [TellsAfterRemoval, not_forall, not_not] at h
  obtain ⟨session, hm, c, -, hl, hon, hclosed, hreg⟩ := h
  cases m with
  | closedWritten =>
    cases hl
    obtain ⟨found, hs, hid⟩ := (Option.any_eq_true _ _).mp hon
    obtain rfl := List.inj_on_of_nodup_map wf.ids (wf.held c found hs) hm (of_decide_eq_true hid)
    exact ⟨⟨c, s.clock, .closed⟩, by simp, rfl, found, by simpa using hs,
      wf.resume_of_registered hm hreg⟩
  | written hpc =>
    cases hl
    simp [hclosed] at hpc
  | _ => cases hl

theorem gateway_honest {maxScrollback : Nat} {s : State}
    (h : Reach (gateway maxScrollback) TellsAfterRemoval s) : s.life.Honest := by
  refine life_invariant (by simp [Life.Honest, Life.init]) ?_ h
  intro s l al v sound hc hex hstep hv
  apply hstep.honest sound.owned sound.billed hv
  intro c i hl hs
  subst hl
  obtain ⟨rfl, hpc⟩ := hex
  have hon := State.life_session.mp hs
  obtain ⟨session, hm, rfl⟩ := sound.wf.minted_of_onSession hon
  exact hc session hm c (sound.wf.accepted_of_onSession hon) rfl hon hpc

/-- After `Closed` the resume token is no longer valid. Where `Closed` is written before the session
is off the registry, it still is. -/
theorem closed_token_invalid {maxScrollback : Nat} {s : State}
    (h : Reach (gateway maxScrollback) TellsAfterRemoval s) :
    (∀ sent ∈ s.wire, sent.frame = .closed → ∃ session,
      (s.conns sent.conn).session = some session ∧
      s.registry.resume session.resumeToken = none ∧
      ∀ d s', (s.conns d).resume = some ⟨session.resumeToken⟩ → step s (.lookup d) = some s' →
        (s'.conns d).pc = .openTarget) ∧
    ∀ l s', step s l = some s' → ¬TellsAfterRemoval s l → ∃ sent ∈ s'.wire,
      sent.frame = .closed ∧ ∃ session, (s'.conns sent.conn).session = some session ∧
        s'.registry.resume session.resumeToken = some session := by
  have sound := gateway_sound h
  constructor
  · intro sent told closed
    have hc : sent.conn ∈ s.life.told := ⟨sent, told, rfl, closed⟩
    obtain ⟨-, i, hi, -⟩ := sound.billed.told _ hc
    obtain ⟨session, hs, rfl⟩ := Option.map_eq_some_iff.mp hi
    have hnone := sound.wf.resume_eq_none (sound.wf.held _ _ hs) (gateway_honest h _ hc _ hi)
    refine ⟨session, hs, hnone, fun d s' hd hstep => ?_⟩
    cases step_move hstep with
    | resumed hpc ht hr =>
      obtain rfl := Option.some.inj (hd.symm.trans ht)
      simp [hnone] at hr
    | unresumed hpc hr => simp
  · exact fun l s' hs hno => (step_move hs).told_early sound.wf hno

/-- One client closes the session; its end reaches a second one only after that. -/
theorem closed_token_invalid_after_close : ∃ s sent,
    Reach (gateway defaultScrollbackBytes) TellsAfterRemoval s ∧ sent ∈ s.wire ∧
    sent.frame = .closed ∧ ∃ session, (s.conns sent.conn).session = some session ∧
      s.registry.resume session.resumeToken = none := by
  obtain ⟨s, hs, hm⟩ :=
    exists_reach_of_execWhere (.init defaultScrollbackBytes) step TellsAfterRemoval
      (opening 0 none .unlimited 5 [1] ++ resuming 1 none .unlimited [1] ++
        ending 0 (.ok .close) ++ [.closeCall 0, .closeReturned 0, .actorEnd 5, .ingestEnd 5,
          .pollReader 1, .written 1 true])
      (fun s => ⟨1, 0, .closed⟩ ∈ s.wire) (by decide +kernel)
  obtain ⟨session, hses, hnone, -⟩ := (closed_token_invalid hs).1 _ hm rfl
  exact ⟨s, _, hs, hm, rfl, session, hses, hnone⟩

/-- The shell ends, the client is told so, and its token still resumes the session. -/
theorem closed_token_valid : ∃ s s', Reachable (gateway defaultScrollbackBytes) s ∧
    ⟨0, 0, .closed⟩ ∈ s.wire ∧ (s.conns 0).session = some ⟨5, [1]⟩ ∧
    s.registry.resume [1] = some ⟨5, [1]⟩ ∧ step s (.helloSent 1 true) = some s' ∧
    ⟨1, 0, .hello protocolVersion 5 true ⟨[1]⟩⟩ ∈ s'.wire := by
  obtain ⟨s, hs, ⟨hw, hses, hr⟩, hstep⟩ :=
    exists_reachable_of_exec (.init defaultScrollbackBytes) step
      (opening 0 none .unlimited 5 [1] ++ [.actorEnd 5, .ingestEnd 5, .pollReader 0,
        .written 0 true] ++ (resuming 1 none .unlimited [1]).take 4)
      (fun s => (⟨0, 0, .closed⟩ ∈ s.wire ∧ (s.conns 0).session = some ⟨5, [1]⟩ ∧
        s.registry.resume [1] = some ⟨5, [1]⟩) ∧
        (step s (.helloSent 1 true)).any
          (fun s' => ⟨1, 0, .hello protocolVersion 5 true ⟨[1]⟩⟩ ∈ s'.wire)) (by decide +kernel)
  obtain ⟨s', hs', hw'⟩ := (Option.any_eq_true _ _).mp hstep
  exact ⟨s, s', hs, hw, hses, hr, hs', of_decide_eq_true hw'⟩

end TtyGateway
