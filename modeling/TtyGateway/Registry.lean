import TtyGateway.Frame
import Mathlib.Data.Finmap

namespace TtyGateway

/-- An `Arc<Session>`: the fields of a session that never change. -/
structure SessionRef where
  id : SessionId
  resumeToken : Bytes
  deriving DecidableEq

structure Registry where
  byId : Finmap (fun _ : SessionId => SessionRef)
  byToken : Finmap (fun _ : Bytes => SessionId)

def Registry.default : Registry := ⟨∅, ∅⟩

/-- The registry half of `SessionManager::create`. -/
def Registry.create (reg : Registry) (session : SessionRef) : Registry :=
  ⟨reg.byId.insert session.id session, reg.byToken.insert session.resumeToken session.id⟩

def Registry.resume (reg : Registry) (token : Bytes) : Option SessionRef := do
  let id ← reg.byToken.lookup token
  reg.byId.lookup id

def Registry.remove (reg : Registry) (id : SessionId) : Registry :=
  match reg.byId.lookup id with
  | some session => ⟨reg.byId.erase id, reg.byToken.erase session.resumeToken⟩
  | none => reg

/-- The two maps are inverse to each other, an entry of `byId` being filed under its own id. -/
structure Registry.Paired (reg : Registry) : Prop where
  own : ∀ id session, reg.byId.lookup id = some session → session.id = id
  token : ∀ t id, reg.byToken.lookup t = some id ↔
    ∃ session, reg.byId.lookup id = some session ∧ session.resumeToken = t

theorem Registry.paired_default : Registry.default.Paired :=
  ⟨by simp [Registry.default], by simp [Registry.default]⟩

theorem Registry.Paired.resume_eq_some {reg : Registry} (h : reg.Paired) {t : Bytes}
    {session : SessionRef} : reg.resume t = some session ↔
      reg.byId.lookup session.id = some session ∧ session.resumeToken = t := by
  constructor
  · intro hr
    obtain ⟨id, ht, hid⟩ := Option.bind_eq_some_iff.mp hr
    obtain ⟨found, hf, htok⟩ := (h.token t id).mp ht
    obtain rfl := Option.some.inj (hf.symm.trans hid)
    rw [h.own id found hf]
    exact ⟨hf, htok⟩
  · rintro ⟨hid, ht⟩
    exact Option.bind_eq_some_iff.mpr ⟨session.id, (h.token t session.id).mpr ⟨session, hid, ht⟩, hid⟩

theorem Registry.Paired.create {reg : Registry} (h : reg.Paired) {session : SessionRef}
    (freshId : session.id ∉ reg.byId) (freshToken : session.resumeToken ∉ reg.byToken) :
    (reg.create session).Paired := by
  refine ⟨?_, ?_⟩
  · intro id found hf
    by_cases hid : id = session.id
    · subst id
      simp only [Registry.create, Finmap.lookup_insert, Option.some.injEq] at hf
      rw [hf]
    · rw [Registry.create, Finmap.lookup_insert_of_ne _ hid] at hf
      exact h.own id found hf
  · intro t id
    have hnone : reg.byId.lookup session.id = none := Finmap.lookup_eq_none.mpr freshId
    have hnotok : reg.byToken.lookup session.resumeToken = none :=
      Finmap.lookup_eq_none.mpr freshToken
    by_cases ht : t = session.resumeToken
    · subst t
      simp only [Registry.create, Finmap.lookup_insert, Option.some.injEq]
      constructor
      · rintro rfl
        exact ⟨session, Finmap.lookup_insert _, rfl⟩
      · rintro ⟨found, hf, htok⟩
        by_contra hne
        rw [Finmap.lookup_insert_of_ne _ (Ne.symm hne)] at hf
        have := (h.token session.resumeToken id).mpr ⟨found, hf, htok⟩
        rw [hnotok] at this
        cases this
    · simp only [Registry.create, Finmap.lookup_insert_of_ne _ ht, h.token]
      by_cases hid : id = session.id
      · subst id
        simp only [hnone, Finmap.lookup_insert, Option.some.injEq, reduceCtorEq, false_and,
          exists_false, false_iff]
        rintro ⟨found, rfl, htok⟩
        exact ht htok.symm
      · simp only [Finmap.lookup_insert_of_ne _ hid]

theorem Registry.Paired.remove {reg : Registry} (h : reg.Paired) (id : SessionId) :
    (reg.remove id).Paired := by
  unfold Registry.remove
  split
  next session hs =>
    have hown := h.own id session hs
    refine ⟨?_, ?_⟩
    · intro j found hf
      by_cases hj : j = id
      · subst j
        simp at hf
      · rw [Finmap.lookup_erase_ne hj] at hf
        exact h.own j found hf
    · intro t j
      by_cases ht : t = session.resumeToken
      · subst t
        simp only [Finmap.lookup_erase, reduceCtorEq, false_iff]
        rintro ⟨found, hf, htok⟩
        by_cases hj : j = id
        · subst j
          simp at hf
        · rw [Finmap.lookup_erase_ne hj] at hf
          have h1 := (h.token session.resumeToken j).mpr ⟨found, hf, htok⟩
          have h2 := (h.token session.resumeToken id).mpr ⟨session, hs, rfl⟩
          exact hj (Option.some.inj (h1.symm.trans h2))
      · rw [Finmap.lookup_erase_ne ht, h.token]
        by_cases hj : j = id
        · subst j
          simp only [hs, Finmap.lookup_erase, Option.some.injEq, reduceCtorEq, false_and,
            exists_false, iff_false]
          rintro ⟨found, rfl, htok⟩
          exact ht htok.symm
        · rw [Finmap.lookup_erase_ne hj]
  next => exact h

theorem Registry.mem_remove {reg : Registry} {id j : SessionId} :
    j ∈ (reg.remove id).byId ↔ j ≠ id ∧ j ∈ reg.byId := by
  unfold Registry.remove
  split
  next => exact Finmap.mem_erase
  next hs =>
    have hnot := Finmap.lookup_eq_none.mp hs
    exact ⟨fun hj => ⟨fun he => hnot (he ▸ hj), hj⟩, And.right⟩

theorem Registry.lookup_remove {reg : Registry} {id j : SessionId} {session : SessionRef}
    (h : (reg.remove id).byId.lookup j = some session) : reg.byId.lookup j = some session := by
  have hj : j ∈ (reg.remove id).byId := Finmap.mem_of_lookup_eq_some h
  have hne := (Registry.mem_remove.mp hj).1
  unfold Registry.remove at h
  split at h
  next => rwa [Finmap.lookup_erase_ne hne] at h
  next => exact h

/-- Taking out a session that was just put in under a fresh id and token leaves no trace. -/
theorem Registry.remove_create {reg : Registry} {session : SessionRef}
    (freshId : session.id ∉ reg.byId) (freshToken : session.resumeToken ∉ reg.byToken) :
    (reg.create session).remove session.id = reg := by
  have hid : (reg.byId.insert session.id session).erase session.id = reg.byId := by
    apply Finmap.ext_lookup
    intro j
    by_cases hj : j = session.id
    · subst j
      rw [Finmap.lookup_erase, Finmap.lookup_eq_none.mpr freshId]
    · rw [Finmap.lookup_erase_ne hj, Finmap.lookup_insert_of_ne _ hj]
  have htok : (reg.byToken.insert session.resumeToken session.id).erase session.resumeToken =
      reg.byToken := by
    apply Finmap.ext_lookup
    intro t
    by_cases ht : t = session.resumeToken
    · subst t
      rw [Finmap.lookup_erase, Finmap.lookup_eq_none.mpr freshToken]
    · rw [Finmap.lookup_erase_ne ht, Finmap.lookup_insert_of_ne _ ht]
  simp only [Registry.remove, Registry.create, Finmap.lookup_insert, hid, htok]

end TtyGateway
