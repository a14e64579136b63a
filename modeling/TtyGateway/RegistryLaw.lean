import TtyGateway.Registry

namespace TtyGateway

/-- The calls of `SessionManager`, each under the mutex. `create` comes with the id and the token it
has drawn. -/
inductive RegistryCall
  | create (session : SessionRef)
  | resume (token : Bytes)
  | remove (id : SessionId)
  deriving DecidableEq

def Registry.apply (reg : Registry) : RegistryCall → Registry
  | .create session => reg.create session
  | .resume _ => reg
  | .remove id => reg.remove id

def Registry.after (calls : List RegistryCall) : Registry := calls.foldl Registry.apply .default

/-- `SessionManager::len` -/
def Registry.len (reg : Registry) : Nat := reg.byId.keys.card

def RegistryCall.created : RegistryCall → Option SessionRef
  | .create session => some session
  | _ => none

/-- The sessions created that no later call has removed. -/
def kept : List RegistryCall → List SessionRef
  | [] => []
  | .create session :: calls =>
    if .remove session.id ∈ calls then kept calls else session :: kept calls
  | .resume _ :: calls | .remove _ :: calls => kept calls

/-- No id and no token is drawn twice. -/
structure FreshDraws (calls : List RegistryCall) : Prop where
  ids : ((calls.filterMap RegistryCall.created).map SessionRef.id).Nodup
  tokens : ((calls.filterMap RegistryCall.created).map SessionRef.resumeToken).Nodup

section Kept

variable {calls : List RegistryCall} {session : SessionRef} {id : SessionId}

/-- A session is kept if it was created at some point and not removed after it. -/
theorem mem_kept : session ∈ kept calls ↔
    ∃ before later, calls = before ++ .create session :: later ∧ .remove session.id ∉ later := by
  induction calls with
  | nil => simp [kept]
  | cons call calls ih =>
    have hcons : (∃ before later, call :: calls = before ++ .create session :: later ∧
        .remove session.id ∉ later) ↔
        call = .create session ∧ .remove session.id ∉ calls ∨ session ∈ kept calls := by
      rw [ih]
      constructor
      · rintro ⟨before, later, he, hno⟩
        cases before with
        | nil =>
          obtain ⟨rfl, rfl⟩ := List.cons.inj he
          exact Or.inl ⟨rfl, hno⟩
        | cons first before =>
          obtain ⟨-, rfl⟩ := List.cons.inj he
          exact Or.inr ⟨before, later, rfl, hno⟩
      · rintro (⟨rfl, hno⟩ | ⟨before, later, rfl, hno⟩)
        · exact ⟨[], calls, rfl, hno⟩
        · exact ⟨call :: before, later, rfl, hno⟩
    rw [hcons]
    cases call with
    | create other =>
      simp only [kept, RegistryCall.create.injEq]
      split
      next hremoved =>
        refine ⟨Or.inr, fun h => h.resolve_left ?_⟩
        rintro ⟨rfl, hno⟩
        exact hno hremoved
      next hno =>
        rw [List.mem_cons]
        refine or_congr ⟨?_, fun h => h.1.symm⟩ Iff.rfl
        rintro rfl
        exact ⟨rfl, hno⟩
    | resume | remove => simp [kept]

theorem kept_sublist : (kept calls).Sublist (calls.filterMap RegistryCall.created) := by
  induction calls with
  | nil => exact List.Sublist.slnil
  | cons call calls ih =>
    cases call with
    | create other =>
      simp only [kept, RegistryCall.created, List.filterMap_cons]
      split
      · exact ih.cons other
      · exact ih.cons_cons other
    | resume | remove => simpa [kept, RegistryCall.created, List.filterMap_cons] using ih

theorem kept_create : kept (calls ++ [.create session]) = kept calls ++ [session] := by
  induction calls with
  | nil => simp [kept]
  | cons call calls ih =>
    cases call with
    | create other =>
      simp only [List.cons_append, kept, List.mem_append, List.mem_singleton, reduceCtorEq, or_false,
        ih]
      split <;> rfl
    | resume | remove => simpa [kept] using ih

theorem kept_resume {token : Bytes} : kept (calls ++ [.resume token]) = kept calls := by
  induction calls with
  | nil => simp [kept]
  | cons call calls ih =>
    cases call with
    | create other => simp [kept, ih]
    | resume | remove => simpa [kept] using ih

theorem kept_remove :
    kept (calls ++ [.remove id]) = (kept calls).filter fun session => session.id ≠ id := by
  induction calls with
  | nil => simp [kept]
  | cons call calls ih =>
    cases call with
    | create other =>
      by_cases hm : .remove other.id ∈ calls
      · simp [kept, ih, hm]
      · by_cases hid : other.id = id
        · subst id
          simp [kept, ih, hm]
        · simp [kept, ih, hm, hid]
    | resume | remove => simpa [kept] using ih

end Kept

/-- The registry is the set of these sessions, each found by its id and by its token. -/
structure Registry.Holds (reg : Registry) (sessions : List SessionRef) : Prop where
  paired : reg.Paired
  lookup : ∀ id session, reg.byId.lookup id = some session ↔ session ∈ sessions ∧ session.id = id
  ids : (sessions.map SessionRef.id).Nodup

section Holds

variable {reg : Registry} {sessions : List SessionRef} (h : reg.Holds sessions)

include h

theorem Registry.Holds.mem_byId {id : SessionId} :
    id ∈ reg.byId ↔ id ∈ sessions.map SessionRef.id := by
  simp [Finmap.mem_iff, h.lookup]

theorem Registry.Holds.resume {t : Bytes} {session : SessionRef} :
    reg.resume t = some session ↔ session ∈ sessions ∧ session.resumeToken = t := by
  rw [h.paired.resume_eq_some, h.lookup]
  simp

theorem Registry.Holds.len : reg.len = sessions.length := by
  have hkeys : reg.byId.keys = (sessions.map SessionRef.id).toFinset := by
    ext id
    rw [Finmap.mem_keys, h.mem_byId, List.mem_toFinset]
  rw [Registry.len, hkeys, List.toFinset_card_of_nodup h.ids, List.length_map]

theorem Registry.Holds.create {session : SessionRef}
    (freshId : session.id ∉ sessions.map SessionRef.id)
    (freshToken : session.resumeToken ∉ sessions.map SessionRef.resumeToken) :
    (reg.create session).Holds (sessions ++ [session]) := by
  have hid : session.id ∉ reg.byId := fun hm => freshId (h.mem_byId.mp hm)
  have htoken : session.resumeToken ∉ reg.byToken := by
    intro hm
    obtain ⟨id, ht⟩ := Finmap.mem_iff.mp hm
    obtain ⟨found, hf, htok⟩ := (h.paired.token _ id).mp ht
    exact freshToken (List.mem_map.mpr ⟨found, ((h.lookup id found).mp hf).1, htok⟩)
  refine ⟨h.paired.create hid htoken, fun id found => ?_, ?_⟩
  · by_cases hne : id = session.id
    · subst id
      simp only [Registry.create, Finmap.lookup_insert, Option.some.injEq, List.mem_append,
        List.mem_singleton]
      constructor
      · rintro rfl
        exact ⟨Or.inr rfl, rfl⟩
      · rintro ⟨hold | rfl, he⟩
        · exact absurd (List.mem_map.mpr ⟨found, hold, he⟩) freshId
        · rfl
    · rw [Registry.create, Finmap.lookup_insert_of_ne _ hne, h.lookup, List.mem_append,
        List.mem_singleton]
      constructor
      · rintro ⟨hold, he⟩
        exact ⟨Or.inl hold, he⟩
      · rintro ⟨hold | rfl, he⟩
        · exact ⟨hold, he⟩
        · exact absurd he.symm hne
  · rw [List.map_append, List.nodup_append]
    refine ⟨h.ids, by simp, ?_⟩
    intro a ha b hb
    obtain rfl : b = session.id := by simpa using hb
    rintro rfl
    exact freshId ha

theorem Registry.Holds.remove (id : SessionId) :
    (reg.remove id).Holds (sessions.filter fun session => session.id ≠ id) := by
  refine ⟨h.paired.remove id, fun j found => ?_, h.ids.sublist (List.filter_sublist.map _)⟩
  rw [List.mem_filter, decide_eq_true_iff]
  constructor
  · intro hf
    have hne := (Registry.mem_remove.mp (Finmap.mem_of_lookup_eq_some hf)).1
    obtain ⟨hmem, rfl⟩ := (h.lookup j found).mp (Registry.lookup_remove hf)
    exact ⟨⟨hmem, hne⟩, rfl⟩
  · rintro ⟨⟨hmem, hne⟩, rfl⟩
    have hf := (h.lookup found.id found).mpr ⟨hmem, rfl⟩
    unfold Registry.remove
    split
    · rw [Finmap.lookup_erase_ne hne]
      exact hf
    · exact hf

theorem Registry.Holds.resume_remove {id : SessionId} {t : Bytes}
    (other : ∀ session, reg.resume t = some session → session.id ≠ id) :
    (reg.remove id).resume t = reg.resume t := by
  apply Option.ext
  intro session
  rw [(h.remove id).resume, List.mem_filter, decide_eq_true_iff, h.resume]
  constructor
  · rintro ⟨⟨hmem, -⟩, ht⟩
    exact ⟨hmem, ht⟩
  · rintro ⟨hmem, ht⟩
    exact ⟨⟨hmem, other session (h.resume.mpr ⟨hmem, ht⟩)⟩, ht⟩

end Holds

theorem FreshDraws.of_append {calls later : List RegistryCall} (h : FreshDraws (calls ++ later)) :
    FreshDraws calls := by
  have hsub : (calls.filterMap RegistryCall.created).Sublist
      ((calls ++ later).filterMap RegistryCall.created) := by
    rw [List.filterMap_append]
    exact List.sublist_append_left _ _
  exact ⟨h.ids.sublist (hsub.map _), h.tokens.sublist (hsub.map _)⟩

theorem FreshDraws.not_mem_kept {calls : List RegistryCall} {session : SessionRef}
    (h : FreshDraws (calls ++ [.create session])) :
    session.id ∉ (kept calls).map SessionRef.id ∧
      session.resumeToken ∉ (kept calls).map SessionRef.resumeToken := by
  have hcreated : (calls ++ [RegistryCall.create session]).filterMap RegistryCall.created =
      calls.filterMap RegistryCall.created ++ [session] := by
    simp [RegistryCall.created]
  obtain ⟨hids, htokens⟩ := h
  rw [hcreated, List.map_append, List.nodup_append] at hids htokens
  constructor
  · intro hm
    exact hids.2.2 _ ((kept_sublist.map _).subset hm) session.id (by simp) rfl
  · intro hm
    exact htokens.2.2 _ ((kept_sublist.map _).subset hm) session.resumeToken (by simp) rfl

theorem Registry.holds_after {calls : List RegistryCall} (fresh : FreshDraws calls) :
    (Registry.after calls).Holds (kept calls) := by
  induction calls using List.reverseRecOn with
  | nil => exact ⟨Registry.paired_default, by simp [Registry.after, Registry.default, kept], by simp [kept]⟩
  | append_singleton calls call ih =>
    have held := ih fresh.of_append
    have hafter : Registry.after (calls ++ [call]) = (Registry.after calls).apply call := by
      simp [Registry.after]
    rw [hafter]
    cases call with
    | create session =>
      rw [kept_create]
      exact held.create fresh.not_mem_kept.1 fresh.not_mem_kept.2
    | resume token =>
      rw [kept_resume]
      exact held
    | remove id =>
      rw [kept_remove]
      exact held.remove id

/-- After any calls the two maps are inverse to each other, a token resolves to the session that was
created with it and not removed, no removal touches another session, and `len` counts them. -/
theorem maps_inverse {calls : List RegistryCall} (fresh : FreshDraws calls) :
    (∀ t id, (Registry.after calls).byToken.lookup t = some id ↔
      ∃ session, (Registry.after calls).byId.lookup id = some session ∧ session.resumeToken = t) ∧
    (∀ t session, (Registry.after calls).resume t = some session ↔
      session ∈ kept calls ∧ session.resumeToken = t) ∧
    (∀ id t, (∀ session, (Registry.after calls).resume t = some session → session.id ≠ id) →
      ((Registry.after calls).remove id).resume t = (Registry.after calls).resume t) ∧
    (Registry.after calls).len = (kept calls).length := by
  have held := Registry.holds_after fresh
  refine ⟨held.paired.token, fun t session => held.resume, ?_, held.len⟩
  intro id t other
  exact held.resume_remove other

/-- Three sessions are created and the second is removed, twice. -/
theorem maps_inverse_removed : ∃ calls, FreshDraws calls ∧ kept calls = [⟨5, [1]⟩, ⟨7, [3]⟩] ∧
    (Registry.after calls).resume [3] = some ⟨7, [3]⟩ ∧ (Registry.after calls).resume [2] = none ∧
    (Registry.after calls).len = 2 := by
  let calls : List RegistryCall := [.create ⟨5, [1]⟩, .create ⟨6, [2]⟩, .remove 6, .resume [2],
    .create ⟨7, [3]⟩, .remove 6]
  have fresh : FreshDraws calls := ⟨by decide, by decide⟩
  have hkept : kept calls = [⟨5, [1]⟩, ⟨7, [3]⟩] := by decide
  obtain ⟨-, hresume, -, hlen⟩ := maps_inverse fresh
  refine ⟨calls, fresh, hkept, (hresume _ _).mpr ?_, ?_, ?_⟩
  · simp [hkept]
  · apply Option.eq_none_iff_forall_ne_some.mpr
    intro session hs
    have hmem := (hresume _ _).mp hs
    rw [hkept] at hmem
    rcases hmem with ⟨hmem, ht⟩
    simp only [List.mem_cons, List.not_mem_nil, or_false] at hmem
    rcases hmem with rfl | rfl <;> simp at ht
  · rw [hlen, hkept]
    rfl

end TtyGateway
