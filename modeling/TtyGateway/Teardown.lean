import TtyGateway.Refinement

namespace TtyGateway

open Transition

def Life.Used (v : Life) (i : SessionId) : Prop :=
  ∃ c, (v.client c).Attached i ∨ (v.client c).Streaming i

/-- The step takes from session `i` its last user. -/
def Life.Abandons (v : Life) (l : LifeLabel) (i : SessionId) : Prop :=
  ∃ c, (∀ d, d ≠ c → ¬(v.client d).Attached i ∧ ¬(v.client d).Streaming i) ∧
    ((l = .fail c ∨ l = .leave c) ∧ (v.client c).Attached i ∧ ¬(v.client c).Streaming i ∨
      (l = .tell c ∨ l = .stop c) ∧ (v.client c).Streaming i ∧ ¬(v.client c).Attached i)

def Life.Attended (v : Life) (i : SessionId) : Prop := ∃ c, (v.client c).Attached i

theorem LifeStep.attached {v v' : Life} {l : LifeLabel} (h : LifeStep v l v')
    (ok : ∀ c, (v.client c).Ok) {c : ConnId} {i : SessionId} (hc : (v.client c).Attached i) :
    (v'.client c).Attached i ∨ l = .fail c ∨ l = .leave c := by
  obtain ⟨hs, hg⟩ := hc
  have hs' := (h.keeps_session ok hs).1
  by_cases hg' : (v'.client c).stage = .gone
  · right
    cases h with
    | @fail d _ =>
      by_cases hd : c = d
      · exact Or.inl (by rw [hd])
      · exact absurd (by simpa [Life.setClient_client, hd] using hg') hg
    | @leave d _ =>
      by_cases hd : c = d
      · exact Or.inr (by rw [hd])
      · exact absurd (by simpa [Life.setClient_client, hd] using hg') hg
    | _ => grind
  · exact Or.inl ⟨hs', hg'⟩

theorem LifeStep.streaming {v v' : Life} {l : LifeLabel} (h : LifeStep v l v')
    (ok : ∀ c, (v.client c).Ok) {c : ConnId} {i : SessionId} (hc : (v.client c).Streaming i) :
    (v'.client c).Streaming i ∨ l = .tell c ∨ l = .stop c := by
  obtain ⟨hs, hf⟩ := hc
  have hs' := (h.keeps_session ok hs).1
  by_cases hf' : (v'.client c).feed = .up ∨ (v'.client c).feed = .drained
  · exact Or.inl ⟨hs', hf'⟩
  · right
    cases h with
    | @tell d _ =>
      by_cases hd : c = d
      · exact Or.inl (by rw [hd])
      · exact absurd (by simpa [Life.setClient_client, hd] using hf) hf'
    | @stop d _ =>
      by_cases hd : c = d
      · exact Or.inr (by rw [hd])
      · exact absurd (by simpa [Life.setClient_client, hd] using hf) hf'
    | _ => grind

theorem LifeStep.used {v v' : Life} {l : LifeLabel} (h : LifeStep v l v')
    (ok : ∀ c, (v.client c).Ok) {i : SessionId} (hu : v.Used i) : v'.Used i ∨ v.Abandons l i := by
  by_cases hu' : v'.Used i
  · exact Or.inl hu'
  have hattached : ∀ d, (v.client d).Attached i → l = .fail d ∨ l = .leave d := fun d hd =>
    (h.attached ok hd).resolve_left fun hd' => hu' ⟨d, Or.inl hd'⟩
  have hstreaming : ∀ d, (v.client d).Streaming i → l = .tell d ∨ l = .stop d := fun d hd =>
    (h.streaming ok hd).resolve_left fun hd' => hu' ⟨d, Or.inr hd'⟩
  right
  obtain ⟨c, hc | hc⟩ := hu
  · have hl := hattached c hc
    refine ⟨c, fun d hd => ⟨fun ha => ?_, fun hs => ?_⟩, Or.inl ⟨hl, hc, fun hs => ?_⟩⟩
    · rcases hl with rfl | rfl <;> simpa [Ne.symm hd] using hattached d ha
    · rcases hl with rfl | rfl <;> simpa using hstreaming d hs
    · rcases hl with rfl | rfl <;> simpa using hstreaming c hs
  · have hl := hstreaming c hc
    refine ⟨c, fun d hd => ⟨fun ha => ?_, fun hs => ?_⟩, Or.inr ⟨hl, hc, fun ha => ?_⟩⟩
    · rcases hl with rfl | rfl <;> simpa using hattached d ha
    · rcases hl with rfl | rfl <;> simpa [Ne.symm hd] using hstreaming d hs
    · rcases hl with rfl | rfl <;> simpa using hattached c ha

/-- A handler takes its own session off the registry, so it is there to hold it. -/
theorem LifeStep.attended_of_removes {v v' : Life} {l : LifeLabel} (h : LifeStep v l v')
    {i : SessionId} (hi : i ∈ v.registered) (hi' : i ∉ v'.registered) : v'.Attended i := by
  rcases h.removes hi hi' with ⟨c, rfl⟩ | ⟨c, rfl, -, -⟩
  · cases h with
    | refuse _ hc => exact ⟨c, by simpa [Client.Attached, Life.setClient_client] using hc⟩
  · cases h with
    | release _ hc => exact ⟨c, by simpa [Client.Attached, Life.setClient_client] using hc⟩

def Life.Held (v : Life) : Prop := ∀ i, v.ssh i = some true → i ∈ v.registered ∨ v.Used i

theorem LifeStep.held {v v' : Life} {l : LifeLabel} (h : LifeStep v l v')
    (ok : ∀ c, (v.client c).Ok) (hv : v.Held)
    (hl : ∀ i, v.Abandons l i → i ∉ v.registered → v.ssh i ≠ some true) : v'.Held := by
  intro i hi
  rcases h.ssh_cases i with he | ⟨c, rfl, -, -⟩ | ⟨-, -, he⟩
  · rw [he] at hi
    by_cases hreg : i ∈ v.registered
    · by_cases hreg' : i ∈ v'.registered
      · exact Or.inl hreg'
      · obtain ⟨c, hc⟩ := h.attended_of_removes hreg hreg'
        exact Or.inr ⟨c, Or.inl hc⟩
    · have hu := (hv i hi).resolve_left hreg
      exact Or.inr ((h.used ok hu).resolve_right fun ha => hl i ha hreg hi)
  · cases h
    exact Or.inl (by simp)
  · simp [hi] at he

/-- `l` ends the only task that still uses session `i`. -/
def State.LastUse (s : State) (l : Label) (i : SessionId) : Prop :=
  ∃ c ∈ s.accepted,
    (∀ d ∈ s.accepted, d ≠ c → (s.conns d).attached i = false ∧ (s.conns d).streaming i = false) ∧
    (l.endsHandler = some c ∧ (s.conns c).attached i = true ∧ (s.conns c).streaming i = false ∨
      s.endsSender l = some c ∧ (s.conns c).streaming i = true ∧ (s.conns c).attached i = false)

/-- Nobody lets go of an unregistered session before the target has ended it. -/
def TargetEndsFirst (s : State) (l : Label) : Prop :=
  ∀ session ∈ s.minted, s.LastUse l session.id → ¬s.registered session.id →
    (s.sessions session.id).any Session.ingest = false

instance (s : State) (l : Label) (i : SessionId) : Decidable (s.LastUse l i) :=
  inferInstanceAs (Decidable (∃ c ∈ s.accepted, _ ∧ _))

instance (s : State) (l : Label) : Decidable (TargetEndsFirst s l) :=
  inferInstanceAs (Decidable (∀ session ∈ s.minted, _ → _ → _))

theorem State.Explains.lastUse {s : State} {l : Label} {al : LifeLabel} (h : s.Explains l al)
    (hw : s.Wf) {i : SessionId} (ha : s.life.Abandons al i) : s.LastUse l i := by
  obtain ⟨c, hothers, hc⟩ := ha
  simp only [State.life_attached, State.life_streaming, Bool.not_eq_true] at hothers hc
  rcases hc with ⟨hl, ha, hs⟩ | ⟨hl, hs, ha⟩
  · refine ⟨c, hw.accepted_of_attached ha, fun d _ hd => hothers d hd, Or.inl ⟨?_, ha, hs⟩⟩
    rcases hl with rfl | rfl <;> exact h
  · refine ⟨c, hw.accepted_of_streaming hs, fun d _ hd => hothers d hd, Or.inr ⟨?_, hs, ha⟩⟩
    rcases hl with rfl | rfl
    · obtain ⟨rfl, hclosed⟩ := h
      simp [State.endsSender, hclosed]
    · exact h

section Ends

variable {s s' : State} {l : Label} {c : ConnId}

theorem Move.ends_handler (m : Move s l s') (hl : l.endsHandler = some c) :
    l.conn = some c ∧ (∃ pc, pc.returned = true ∧ s'.conns c = { s.conns c with pc }) ∧
      s'.registry = s.registry ∧ s'.sessions = s.sessions ∧ s'.calls = s.calls := by
  cases m with
  | helloLost | openLost | rejectSent | rejectUnsent | helloUnsent | statusUnsent | leave =>
    cases hl
    exact ⟨rfl, ⟨_, rfl, State.setConn_conns_self ..⟩, rfl, rfl, rfl⟩
  | recvIgnored | signIgnored => cases hl
  | _ => cases hl

theorem Move.ends_sender (m : Move s l s') (hl : s.endsSender l = some c) :
    l.conn = some c ∧ s'.conns c = { s.conns c with sender := .ended } ∧
      s'.registry = s.registry ∧ s'.sessions = s.sessions := by
  cases m with
  | unwritten | closedUnwritten | cancel =>
    cases hl
    exact ⟨rfl, State.setConn_conns_self .., rfl, rfl⟩
  | closedWritten hpc =>
    simp only [State.endsSender, hpc, ne_eq, not_true_eq_false, and_false, if_false] at hl
    cases hl
    exact ⟨rfl, State.setConn_conns_self .., rfl, rfl⟩
  | written hpc => simp [State.endsSender, hpc] at hl
  | _ => cases hl

/-- With its last use gone, a session is used no more, and nothing else has changed for it. -/
theorem Move.last_use (m : Move s l s') (wf : s.Wf) {i : SessionId} (h : s.LastUse l i) :
    (∀ c, (s'.conns c).attached i = false ∧ (s'.conns c).streaming i = false) ∧
      s'.registry = s.registry ∧ s'.sessions = s.sessions := by
  obtain ⟨c, -, hothers, hc⟩ := h
  have others : l.conn = some c → ∀ d, d ≠ c →
      (s'.conns d).attached i = false ∧ (s'.conns d).streaming i = false := by
    intro hl d hd
    rw [m.conns_of_ne (by simpa [hl] using Ne.symm hd)]
    by_cases hacc : d ∈ s.accepted
    · exact hothers d hacc hd
    · rw [wf.idle d hacc]
      exact ⟨rfl, rfl⟩
  rcases hc with ⟨hl, -, hs⟩ | ⟨hl, -, ha⟩
  · obtain ⟨hconn, ⟨pc, hpc, he⟩, hregistry, hsessions, -⟩ := m.ends_handler hl
    refine ⟨fun d => ?_, hregistry, hsessions⟩
    by_cases hd : d = c
    · rw [hd, he]
      exact ⟨by simp [Conn.attached, hpc], hs⟩
    · exact others hconn d hd
  · obtain ⟨hconn, he, hregistry, hsessions⟩ := m.ends_sender hl
    refine ⟨fun d => ?_, hregistry, hsessions⟩
    by_cases hd : d = c
    · rw [hd, he]
      exact ⟨ha, by simp [Conn.streaming, SenderPc.alive]⟩
    · exact others hconn d hd

end Ends

theorem gateway_held {maxScrollback : Nat} {s : State}
    (h : Reach (gateway maxScrollback) TargetEndsFirst s) : s.life.Held := by
  refine life_invariant (by simp [Life.Held, Life.init]) ?_ h
  intro s l al v sound hc hex hstep hv
  apply hstep.held sound.owned.ok hv
  intro i ha hreg hi
  have hnone : s.life.ssh i ≠ none := by simp [hi]
  obtain ⟨session, hs, rfl⟩ := List.mem_map.mp (sound.wf.life_ssh_ne_none.mp hnone)
  have := hc session hs (hex.lastUse sound.wf ha) hreg
  rw [State.life_running, this] at hi
  cases hi

/-- No user and no entry in the registry left: then nothing keeps the actor from seeing the end of
its input, if only the target ended every session first. Where it did not, the input stays. -/
theorem input_released {maxScrollback : Nat} {s : State}
    (h : Reach (gateway maxScrollback) TargetEndsFirst s) :
    (∀ i, ¬s.registered i →
      (∀ c, (s.conns c).attached i = false ∧ (s.conns c).streaming i = false) →
      s.inputAlive i = false) ∧
    ∀ l s', step s l = some s' → ¬TargetEndsFirst s l → ∃ i, ¬s'.registered i ∧
      (∀ c, (s'.conns c).attached i = false ∧ (s'.conns c).streaming i = false) ∧
      s'.inputAlive i = true := by
  constructor
  · intro i unregistered unused
    have hssh : (s.sessions i).any Session.ingest = false := by
      rw [← Bool.not_eq_true, ← State.life_running]
      intro hi
      rcases gateway_held h i hi with hreg | ⟨c, hc | hc⟩
      · exact unregistered hreg
      · simp [State.life_attached, unused c] at hc
      · simp [State.life_streaming, unused c] at hc
    simp [State.inputAlive, unregistered, unused, hssh]
  · intro l s' hs hno
    simp only [TargetEndsFirst, not_forall] at hno
    obtain ⟨session, -, hlast, hreg, hingest⟩ := hno
    obtain ⟨unused, hregistry, hsessions⟩ :=
      (step_move hs).last_use (gateway_sound h).wf hlast
    refine ⟨session.id, by rwa [State.registered, hregistry], unused, ?_⟩
    simp only [State.inputAlive, hsessions]
    simp [hingest]

/-- The target ends the session, then the client closes it and everyone goes. -/
theorem input_released_after_end : ∃ s, Reach (gateway defaultScrollbackBytes) TargetEndsFirst s ∧
    s.minted = [⟨5, [1]⟩] ∧ s.inputAlive 5 = false := by
  obtain ⟨s, hs, hm, hreg, hall⟩ :=
    exists_reach_of_execWhere (.init defaultScrollbackBytes) step TargetEndsFirst
      (opening 0 none .unlimited 5 [1] ++ [.actorEnd 5, .ingestEnd 5] ++
        ending 0 (.ok .close) ++ [.closeCall 0, .closeReturned 0, .leave 0])
      (fun s => s.minted = [⟨5, [1]⟩] ∧ ¬s.registered 5 ∧ ∀ c ∈ s.accepted,
        (s.conns c).attached 5 = false ∧ (s.conns c).streaming 5 = false)
      (by decide +kernel)
  exact ⟨s, hs, hm, (input_released hs).1 5 hreg ((gateway_sound hs).wf.unused hall)⟩

/-- The client closes while the target is still there: the ingest task stays, and holds the input
channel open. -/
theorem input_kept_after_close : ∃ s, Reachable (gateway defaultScrollbackBytes) s ∧
    s.minted = [⟨5, [1]⟩] ∧ ¬s.registered 5 ∧
    (∀ c, (s.conns c).attached 5 = false ∧ (s.conns c).streaming 5 = false) ∧
    s.inputAlive 5 = true := by
  obtain ⟨s, hs, ⟨hm, hreg, hin⟩, hall⟩ :=
    exists_reachable_of_exec (.init defaultScrollbackBytes) step
      (opening 0 none .unlimited 5 [1] ++ ending 0 (.ok .close) ++
        [.closeCall 0, .closeReturned 0, .leave 0])
      (fun s => (s.minted = [⟨5, [1]⟩] ∧ ¬s.registered 5 ∧ s.inputAlive 5 = true) ∧
        ∀ c ∈ s.accepted, (s.conns c).attached 5 = false ∧ (s.conns c).streaming 5 = false)
      (by decide +kernel)
  exact ⟨s, hs, hm, hreg, (gateway_sound hs).wf.unused hall, hin⟩

/-- The ingest task outlives the actor, so an actor never sees the end of its input. -/
theorem actorNone_disabled {maxScrollback : Nat} {s : State}
    (h : Reachable (gateway maxScrollback) s) (i : SessionId) : s.actorNone i = none := by
  by_contra hne
  obtain ⟨s', hs'⟩ := Option.ne_none_iff_exists'.mp hne
  obtain ⟨ses, hses, hrest⟩ := Option.bind_eq_some_iff.mp hs'
  obtain ⟨⟨hactor, -, hin⟩, -⟩ := Option.ite_none_right_eq_some.mp hrest
  have hingest : ses.ingest = false := by
    simp only [State.inputAlive, Bool.or_eq_false_iff] at hin
    simpa [hses] using hin.2
  simp [(gateway_sound h).wf.actor i ses hses hingest] at hactor

def Life.Unclosed (v : Life) (i : SessionId) : Prop :=
  i ∈ v.registered ∨ ∀ a, .closed a i ∉ v.calls

/-- Where the shell has ended, a handler is there to close the session, or it is closed. -/
def Life.Watched (v : Life) : Prop := ∀ i, v.ssh i = some false → v.Unclosed i → v.Attended i

theorem LifeStep.unclosed {v v' : Life} {l : LifeLabel} (h : LifeStep v l v') {i : SessionId}
    (hi : v.ssh i ≠ none) (hu : v'.Unclosed i) : v.Unclosed i := by
  rcases hu with hreg | hno
  · rcases h.registered_cases hreg with hreg | ⟨c, rfl⟩
    · exact Or.inl hreg
    · cases h with
      | create _ hnone => exact absurd hnone hi
  · exact Or.inr fun a ha => hno a (h.calls_mono ha)

theorem LifeStep.watched {v v' : Life} {l : LifeLabel} (h : LifeStep v l v')
    (ok : ∀ c, (v.client c).Ok) (hv : v.Watched)
    (hfinish : ∀ i, l = .finish i → v.Unclosed i → v.Attended i)
    (hleave : ∀ c i, l = .fail c ∨ l = .leave c → (v.client c).Attached i → v.ssh i = some false →
      v.Unclosed i → ∃ d, d ≠ c ∧ (v.client d).Attached i) : v'.Watched := by
  intro i hi hu'
  have hi0 : v.ssh i ≠ none := by
    rcases h.ssh_cases i with he | ⟨c, rfl, -, he⟩ | ⟨-, he, -⟩
    · simp [← he, hi]
    · simp [hi] at he
    · simp [he]
  have hu := h.unclosed hi0 hu'
  rcases h.ssh_cases i with he | ⟨c, rfl, -, he⟩ | ⟨rfl, -, -⟩
  · rw [he] at hi
    obtain ⟨c, hc⟩ := hv i hi hu
    rcases h.attached ok hc with hc' | hl
    · exact ⟨c, hc'⟩
    · obtain ⟨d, hd, hda⟩ := hleave c i hl hc hi hu
      refine ⟨d, (h.attached ok hda).resolve_right ?_⟩
      rcases hl with rfl | rfl <;> simpa using Ne.symm hd
  · simp [hi] at he
  · obtain ⟨c, hc⟩ := hfinish i rfl hu
    exact ⟨c, (h.attached ok hc).resolve_right (by simp)⟩

/-- Session `i` is still registered, or no `session_close` has been called for it. -/
def State.Unclosed (s : State) (i : SessionId) : Prop := s.registered i ∨ ¬s.Closed i

def Label.endsSsh : Label → Option SessionId
  | .ingestEnd i => some i
  | _ => none

/-- The shell of a session that is not closed ends while a handler of it is running, and from
then on the last such handler does not go before it has closed the session. -/
def KeepsWatch (s : State) (l : Label) : Prop :=
  ∀ session ∈ s.minted, s.Unclosed session.id →
    (l.endsSsh = some session.id → ∃ c ∈ s.accepted, (s.conns c).attached session.id = true) ∧
    ∀ c ∈ s.accepted, l.endsHandler = some c → (s.conns c).attached session.id = true →
      (s.sessions session.id).any (·.inner.closed) = true →
      ∃ d ∈ s.accepted, d ≠ c ∧ (s.conns d).attached session.id = true

instance (s : State) (i : SessionId) : Decidable (s.Unclosed i) :=
  inferInstanceAs (Decidable (_ ∨ _))

instance (s : State) (l : Label) : Decidable (KeepsWatch s l) :=
  inferInstanceAs (Decidable (∀ session ∈ s.minted, _ → _ ∧ _))

theorem State.life_unclosed {s : State} {i : SessionId} : s.life.Unclosed i ↔ s.Unclosed i := by
  simp only [Life.Unclosed, State.Unclosed, State.Closed, State.mem_life_registered,
    State.closed_mem_life, not_exists]

theorem State.not_unclosed {s : State} {i : SessionId} :
    ¬s.Unclosed i ↔ ¬s.registered i ∧ s.Closed i := by
  simp only [State.Unclosed, not_or, not_not]

theorem State.Wf.life_ended {s : State} (h : s.Wf) {i : SessionId} :
    s.life.ssh i = some false ↔ (s.sessions i).any (·.inner.closed) = true := by
  cases hi : s.sessions i with
  | none => simp [State.life_ssh, hi]
  | some ses => simp [State.life_ssh, hi, h.closed i ses hi]

/-- Where nobody keeps watch, a dead session is left behind that nobody attends. -/
theorem Move.unwatched {s s' : State} {l : Label} (m : Move s l s') (wf : s.Wf)
    (h : ¬KeepsWatch s l) : ∃ i, (s'.sessions i).any (·.inner.closed) = true ∧
      (∀ c, (s'.conns c).attached i = false) ∧ s'.Unclosed i := by
  simp only [KeepsWatch, not_forall] at h
  obtain ⟨session, -, hu, h⟩ := h
  have unattended : ∀ t : State, (∀ d ∈ s.accepted, (t.conns d).attached session.id = false) →
      (∀ d ∉ s.accepted, t.conns d = s.conns d) → ∀ d, (t.conns d).attached session.id = false := by
    intro t hacc hne d
    by_cases hd : d ∈ s.accepted
    · exact hacc d hd
    · rw [hne d hd, wf.idle d hd]
      rfl
  refine ⟨session.id, ?_⟩
  rcases not_and_or.mp h with h | h
  · -- the target ends while no handler is there
    obtain ⟨hl, hnone⟩ := Classical.not_imp.mp h
    have none : ∀ d ∈ s.accepted, (s.conns d).attached session.id = false := fun d hd => by
      simpa using fun ha => hnone ⟨d, hd, ha⟩
    cases m with
    | @ingestEnd i ses hi =>
      cases hl
      exact ⟨by simp [SessionInner.close], unattended _ none fun _ _ => rfl, hu⟩
    | _ => cases hl
  · -- the last handler goes
    simp only [not_forall] at h
    obtain ⟨c, hc, hl, -, hdead, hlast⟩ := h
    obtain ⟨hconn, ⟨pc, hpc, he⟩, hregistry, hsessions, hcalls⟩ := m.ends_handler hl
    refine ⟨by rwa [hsessions], unattended _ (fun d hd => ?_) (fun d hd => ?_), ?_⟩
    · by_cases hdc : d = c
      · rw [hdc, he]
        simp [Conn.attached, hpc]
      · rw [m.conns_of_ne (by simpa [hconn] using Ne.symm hdc)]
        simpa using fun ha => hlast ⟨d, hd, hdc, ha⟩
    · refine m.conns_of_ne ?_
      rintro hdc
      cases hconn.symm.trans hdc
      exact hd hc
    · simpa only [State.Unclosed, State.Closed, State.registered, hregistry, hcalls] using hu

theorem gateway_watched {maxScrollback : Nat} {s : State}
    (h : Reach (gateway maxScrollback) KeepsWatch s) : s.life.Watched := by
  refine life_invariant (by simp [Life.Watched, Life.init]) ?_ h
  intro s l al v sound hc hex hstep hv
  have minted : ∀ i, s.life.ssh i ≠ none → ∃ session ∈ s.minted, session.id = i := fun i hi =>
    List.mem_map.mp (sound.wf.life_ssh_ne_none.mp hi)
  refine hstep.watched sound.owned.ok hv (fun i hl hu => ?_) (fun c i hl ha hi hu => ?_)
  · subst hl
    have hi : s.life.ssh i ≠ none := by
      cases hstep with
      | finish hi => simp [hi]
    obtain ⟨session, hs, rfl⟩ := minted i hi
    obtain ⟨c, -, hatt⟩ := (hc session hs (State.life_unclosed.mp hu)).1 (by rw [hex]; rfl)
    exact ⟨c, State.life_attached.mpr hatt⟩
  · obtain ⟨session, hs, rfl⟩ := minted i (by simp [hi])
    have ha' := State.life_attached.mp ha
    have hends : l.endsHandler = some c := by
      rcases hl with rfl | rfl <;> exact hex
    obtain ⟨d, -, hd, hda⟩ := (hc session hs (State.life_unclosed.mp hu)).2 c
      (sound.wf.accepted_of_attached ha') hends ha' (sound.wf.life_ended.mp hi)
    exact ⟨d, hd, State.life_attached.mpr hda⟩

/-- A dead session that nobody attends is off the registry, and its slot was given back. Where
nobody keeps watch, one is left that is not. -/
theorem dead_session_closed {maxScrollback : Nat} {s : State}
    (h : Reach (gateway maxScrollback) KeepsWatch s) :
    (∀ i, (s.sessions i).any (·.inner.closed) = true → (∀ c, (s.conns c).attached i = false) →
      ¬s.registered i ∧ ∃ account, .sessionClose account i ∈ s.calls) ∧
    ∀ l s', step s l = some s' → ¬KeepsWatch s l → ∃ i,
      (s'.sessions i).any (·.inner.closed) = true ∧ (∀ c, (s'.conns c).attached i = false) ∧
      ¬(¬s'.registered i ∧ ∃ account, .sessionClose account i ∈ s'.calls) := by
  have wf := (gateway_sound h).wf
  constructor
  · intro i dead unattended
    refine State.not_unclosed.mp fun hu => ?_
    obtain ⟨c, hc⟩ := gateway_watched h i (wf.life_ended.mpr dead) (State.life_unclosed.mpr hu)
    simp [State.life_attached, unattended c] at hc
  · intro l s' hs hno
    obtain ⟨i, hdead, hnone, hu⟩ := (step_move hs).unwatched wf hno
    exact ⟨i, hdead, hnone, fun hclosed => State.not_unclosed.mpr hclosed hu⟩

/-- The target ends the session under the client, whose handler then closes it. -/
theorem dead_session_closed_by_handler : ∃ s,
    Reach (gateway defaultScrollbackBytes) KeepsWatch s ∧ s.minted = [⟨5, [1]⟩] ∧
    ¬s.registered 5 ∧ ∃ account, .sessionClose account 5 ∈ s.calls := by
  obtain ⟨s, hs, ⟨hm, hdead⟩, hall⟩ :=
    exists_reach_of_execWhere (.init defaultScrollbackBytes) step KeepsWatch
      (opening 0 none .unlimited 5 [1] ++ [.actorEnd 5, .ingestEnd 5] ++
        ending 0 (.error "connection lost") ++ [.closeCall 0, .closeReturned 0, .leave 0])
      (fun s => (s.minted = [⟨5, [1]⟩] ∧ (s.sessions 5).any (·.inner.closed) = true) ∧
        ∀ c ∈ s.accepted, (s.conns c).attached 5 = false ∧ (s.conns c).streaming 5 = false)
      (by decide +kernel)
  exact ⟨s, hs, hm, (dead_session_closed hs).1 5 hdead
    (fun c => ((gateway_sound hs).wf.unused hall c).1)⟩

/-- The client drops and the session is kept for it; then the target ends it. -/
theorem dead_session_kept : ∃ s, Reachable (gateway defaultScrollbackBytes) s ∧
    (s.sessions 5).any (·.inner.closed) = true ∧ (∀ c, (s.conns c).attached 5 = false) ∧
    s.registered 5 ∧ ∀ account, .sessionClose account 5 ∉ s.calls := by
  obtain ⟨s, hs, ⟨hdead, hreg, hcalls⟩, hall⟩ :=
    exists_reachable_of_exec (.init defaultScrollbackBytes) step
      (opening 0 none .unlimited 5 [1] ++ ending 0 (.error "connection lost") ++
        [.leave 0, .actorEnd 5, .ingestEnd 5])
      (fun s => ((s.sessions 5).any (·.inner.closed) = true ∧ s.registered 5 ∧
          ∀ x ∈ s.calls, x.slot.all (fun b => b matches .opened _ _) = true) ∧
        ∀ c ∈ s.accepted, (s.conns c).attached 5 = false ∧ (s.conns c).streaming 5 = false)
      (by decide +kernel)
  refine ⟨s, hs, hdead, fun c => ((gateway_sound hs).wf.unused hall c).1, hreg, fun a ha => ?_⟩
  simpa [HookCall.slot] using hcalls _ ha

end TtyGateway
