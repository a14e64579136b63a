import TtyGateway.Slots
import TtyGateway.RegistryLaw

namespace TtyGateway

open Transition

/-- The calls of `SessionManager` behind a registry, and the sessions they created. -/
structure State.Called (s : State) (calls : List RegistryCall) : Prop where
  registry : s.registry = Registry.after calls
  created : calls.filterMap RegistryCall.created = s.minted

theorem State.Called.apply {s s' : State} {calls : List RegistryCall} (h : s.Called calls)
    (call : RegistryCall) (registry : s'.registry = s.registry.apply call)
    (minted : s'.minted = s.minted ++ call.created.toList) : s'.Called (calls ++ [call]) := by
  refine ⟨?_, ?_⟩
  · rw [registry, h.registry]
    simp [Registry.after]
  · rw [minted, ← h.created, List.filterMap_append]
    cases call <;> rfl

/-- The registry of the gateway is the one that its calls, with fresh draws, make. -/
theorem gateway_called {maxScrollback : Nat} {s : State}
    (h : Reachable (gateway maxScrollback) s) : ∃ calls, s.Called calls ∧ FreshDraws calls := by
  have hcalled : ∃ calls, s.Called calls := by
    refine h.invariant (P := fun s : State => ∃ calls, s.Called calls) ⟨[], rfl, rfl⟩ ?_
    intro s l s' _ ⟨calls, hcalls⟩ _ hs
    cases step_move hs with
    | @loggedIn c id token =>
      exact ⟨_, hcalls.apply (.create ⟨id, token⟩) rfl rfl⟩
    | @slotDenied c session | @closeReturned c session =>
      exact ⟨_, hcalls.apply (.remove session.id) rfl (List.append_nil _).symm⟩
    | _ => exact ⟨calls, hcalls.registry, hcalls.created⟩
  obtain ⟨calls, hcalls⟩ := hcalled
  have hw := (gateway_sound h).wf
  exact ⟨calls, hcalls, hcalls.created ▸ hw.ids, hcalls.created ▸ hw.tokens⟩

/-- The two maps of the gateway are inverse to each other, a token resolves to the session that was
created with it and not removed, no removal touches another session, and `len` counts them. -/
theorem gateway_registry {maxScrollback : Nat} {s : State}
    (h : Reachable (gateway maxScrollback) s) : ∃ calls, s.Called calls ∧
    (∀ t id, s.registry.byToken.lookup t = some id ↔
      ∃ session, s.registry.byId.lookup id = some session ∧ session.resumeToken = t) ∧
    (∀ t session, s.registry.resume t = some session ↔
      session ∈ kept calls ∧ session.resumeToken = t) ∧
    (∀ id t, (∀ session, s.registry.resume t = some session → session.id ≠ id) →
      (s.registry.remove id).resume t = s.registry.resume t) ∧
    s.registry.len = (kept calls).length := by
  obtain ⟨calls, called, fresh⟩ := gateway_called h
  have held : s.registry.Holds (kept calls) := called.registry ▸ Registry.holds_after fresh
  exact ⟨calls, called, held.paired.token, fun t session => held.resume,
    fun id t other => held.resume_remove other, held.len⟩

def Life.Holds (v : Life) (i : SessionId) : Prop :=
  (∃ a, .opened a i ∈ v.calls) ∧ ∀ a, .closed a i ∉ v.calls

theorem Life.Billed.registered_of_holds {v : Life} (hb : v.Billed) (ho : v.Owned) {i : SessionId}
    (h : v.Holds i) : i ∈ v.registered := by
  obtain ⟨⟨a, hopen⟩, hclosed⟩ := h
  obtain ⟨c, hc, -⟩ := hb.opened a i hopen
  by_contra hi
  rcases hb.removed i (ho.known c i hc) hi with ⟨b, hb'⟩ | ⟨b, hb'⟩
  · exact (hb.answered b i hb').1 a hopen
  · exact hclosed b hb'

/-- While a session is registered its slot is missing only during the call of `session_open`, or
between the call of `session_close` and its return. -/
theorem Life.Billed.holds_of_registered {v : Life} (hb : v.Billed) (ho : v.Owned) {i : SessionId}
    (h : i ∈ v.registered)
    (answered : ∀ c, (v.client c).session = some i → (v.client c).stage ≠ .holding)
    (returned : ∀ c, (v.client c).session = some i → (v.client c).stage ≠ .reported) :
    v.Holds i := by
  obtain ⟨c, hc, rc⟩ := ho.origin i (ho.listed i h)
  refine ⟨⟨_, hb.granted c i hc rc (answered c hc) h⟩, fun a ha => ?_⟩
  rcases (hb.closed a i ha).2 with hi | ⟨d, hd, hs⟩
  · exact hi h
  · exact returned d hd hs

/-- `session_open` was accepted for session `i` and no `session_close` has been called for it. -/
def State.HoldsSlot (s : State) (i : SessionId) : Prop :=
  (∃ a clientName, .sessionOpen a i clientName (.ok ()) ∈ s.calls) ∧
    ∀ a, .sessionClose a i ∉ s.calls

theorem State.life_holds {s : State} {i : SessionId} : s.life.Holds i ↔ s.HoldsSlot i := by
  simp only [Life.Holds, State.HoldsSlot, State.opened_mem_life, State.closed_mem_life]

theorem State.Wf.resumes {s : State} (h : s.Wf) {i : SessionId} (hi : s.registered i) :
    ∃ session ∈ s.minted, session.id = i ∧
      s.registry.resume session.resumeToken = some session := by
  obtain ⟨session, hs⟩ := Finmap.mem_iff.mp hi
  have hm := h.listed i session hs
  obtain rfl := h.paired.own i session hs
  exact ⟨session, hm, rfl, h.resume_of_registered hm hi⟩

/-- Every slot that is held belongs to a registered session, whose token still resolves; and while
no connection is being handled, the slots held are those of the registered sessions. -/
theorem slots_follow_registry {maxScrollback : Nat} {s : State}
    (h : Reachable (gateway maxScrollback) s) :
    (∀ i, s.HoldsSlot i → s.registered i ∧ ∃ session ∈ s.minted, session.id = i ∧
      s.registry.resume session.resumeToken = some session) ∧
    ((∀ c ∈ s.accepted, (s.conns c).pc.returned = true) →
      ∀ i, s.HoldsSlot i ↔ s.registered i) := by
  have sound := gateway_sound h
  have registered : ∀ i, s.HoldsSlot i → s.registered i := fun i hi =>
    sound.billed.registered_of_holds sound.owned (State.life_holds.mpr hi)
  refine ⟨fun i hi => ⟨registered i hi, sound.wf.resumes (registered i hi)⟩, fun idle i => ?_⟩
  refine ⟨registered i, fun hi => State.life_holds.mp ?_⟩
  have returned : ∀ c, (s.life.client c).session = some i → (s.conns c).pc.returned = true :=
    fun c hc => idle c (sound.wf.accepted_of_onSession (State.life_session.mp hc))
  refine sound.billed.holds_of_registered sound.owned hi (fun c hc hs => ?_) (fun c hc hs => ?_)
  · have hpc := Pc.stage_holding.mp hs
    simpa [hpc, Pc.returned] using returned c hc
  · have hpc := Pc.stage_reported.mp hs
    simpa [hpc, Pc.returned] using returned c hc

/-- One session is kept for a resume, another was refused, a third closed. -/
theorem slots_follow_registry_idle : ∃ s, Reachable (gateway defaultScrollbackBytes) s ∧
    s.registered 5 ∧ s.minted.map SessionRef.id = [5, 6, 7] ∧
    ∀ i, s.HoldsSlot i ↔ s.registered i := by
  obtain ⟨s, hs, ⟨hreg, hminted⟩, hidle⟩ :=
    exists_reachable_of_exec (.init defaultScrollbackBytes) step
      (opening 0 none .unlimited 5 [1] ++ ending 0 (.error "connection lost") ++ [.leave 0] ++
        (opening 1 none .unlimited 6 [2]).take 6 ++
        [.sessionOpened 1 (.error ⟨"no slot left"⟩), .rejectSent 1 true] ++
        opening 2 none .unlimited 7 [3] ++ ending 2 (.ok .close) ++
        [.closeCall 2, .closeReturned 2, .leave 2])
      (fun s => (s.registered 5 ∧ s.minted.map SessionRef.id = [5, 6, 7]) ∧
        ∀ c ∈ s.accepted, (s.conns c).pc.returned = true) (by decide +kernel)
  exact ⟨s, hs, hreg, hminted, (slots_follow_registry hs).2 hidle⟩

end TtyGateway
