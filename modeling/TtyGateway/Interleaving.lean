import Mathlib.Data.List.Basic
import Mathlib.Tactic.Common

namespace Interleaving

variable {κ α : Type*} [DecidableEq κ]

/-- `merged` is made of the sequences `parts`, each in its order, and of nothing else. -/
def Interleaves (parts : κ → List α) (merged : List α) : Prop :=
  ∃ tagged : List (κ × α), tagged.map Prod.snd = merged ∧
    ∀ k, (tagged.filter (·.1 = k)).map Prod.snd = parts k

variable {parts parts' rest : κ → List α} {merged : List α} {k : κ} {xs : List α}

theorem interleaves_nil : Interleaves (fun _ : κ => ([] : List α)) [] := ⟨[], rfl, fun _ => rfl⟩

theorem Interleaves.append (h : Interleaves parts merged) (same : ∀ j, j ≠ k → parts' j = parts j)
    (more : parts' k = parts k ++ xs) : Interleaves parts' (merged ++ xs) := by
  obtain ⟨tagged, rfl, hparts⟩ := h
  refine ⟨tagged ++ xs.map (k, ·), by simp [Function.comp_def], fun j => ?_⟩
  rw [List.filter_append, List.map_append, hparts]
  by_cases hj : j = k
  · subst hj
    simp [more, List.filter_map, Function.comp_def]
  · rw [same j hj]
    simp [List.filter_map, Function.comp_def, Ne.symm hj]

theorem Interleaves.extend (h : Interleaves parts merged) (ks : List κ)
    (finite : ∀ k, rest k ≠ [] → k ∈ ks) :
    ∃ more, Interleaves (fun k => parts k ++ rest k) (merged ++ more) := by
  induction ks generalizing parts merged rest with
  | nil =>
    have hnil : ∀ k, rest k = [] := fun k => by
      by_contra hne
      exact List.not_mem_nil (finite k hne)
    exact ⟨[], by simpa [hnil] using h⟩
  | cons k ks ih =>
    have hone : Interleaves (Function.update parts k (parts k ++ rest k)) (merged ++ rest k) :=
      h.append (fun j hj => Function.update_of_ne hj _ _) (Function.update_self ..)
    have hrest : ∀ j, Function.update rest k [] j ≠ [] → j ∈ ks := fun j hj => by
      by_cases he : j = k
      · simp [he] at hj
      · rw [Function.update_of_ne he] at hj
        exact (List.mem_cons.mp (finite j hj)).resolve_left he
    obtain ⟨more, hmore⟩ := ih hone hrest
    refine ⟨rest k ++ more, ?_⟩
    rw [← List.append_assoc]
    convert hmore using 2 with j
    by_cases he : j = k
    · simp [he]
    · simp [he]

end Interleaving
