import Mathlib.Data.List.DropRight
import Mathlib.Data.List.Basic
import Mathlib.Tactic.Common

namespace Trailing

variable {α : Type*} [DecidableEq α]

def strip (suffix l : List α) : List α := (l.dropSuffix? suffix).getD l

def trim (x : α) (l : List α) : List α := l.rdropWhile (· = x)

def normalize (suffix : List α) (x : α) (l : List α) : List α := trim x (strip suffix l)

variable {suffix l : List α} {x : α} {n : ℕ}

theorem strip_append : strip suffix (l ++ suffix) = l := by
  have hdrop : (l ++ suffix).dropSuffix? suffix = some l :=
    List.dropSuffix?_eq_some_iff.mpr ⟨suffix, rfl, by simp⟩
  rw [strip, hdrop]
  rfl

theorem strip_of_not_suffix (h : ¬suffix <:+ l) : strip suffix l = l := by
  cases hdrop : l.dropSuffix? suffix with
  | none => rw [strip, hdrop]; rfl
  | some kept =>
    obtain ⟨tail, rfl, ht⟩ := List.dropSuffix?_eq_some_iff.mp hdrop
    obtain rfl := eq_of_beq ht
    exact absurd (List.suffix_append kept tail) h

theorem trim_append_replicate : trim x (l ++ List.replicate n x) = trim x l := by
  induction n with
  | zero => simp
  | succ n ih =>
    rw [List.replicate_succ', ← List.append_assoc, trim, List.rdropWhile_concat_pos _ _ _ (by simp)]
    exact ih

theorem length_trim_le : (trim x l).length ≤ l.length := (List.rdropWhile_prefix _ l).length_le

theorem not_suffix_trim : ¬[x] <:+ trim x l := by
  rintro ⟨kept, hk⟩
  have hself : trim x (trim x l) = trim x l := List.rdropWhile_idempotent _ l
  have hlen : (trim x (kept ++ [x])).length ≤ kept.length := by
    rw [trim, List.rdropWhile_concat_pos _ _ _ (by simp)]
    exact length_trim_le
  rw [hk, hself, ← hk, List.length_append, List.length_singleton] at hlen
  omega

theorem trim_of_not_suffix (h : ¬[x] <:+ l) : trim x l = l := by
  induction l using List.reverseRecOn with
  | nil => rfl
  | append_singleton l y =>
    have hne : y ≠ x := by
      rintro rfl
      exact h (List.suffix_append l [y])
    exact List.rdropWhile_concat_neg _ _ _ (by simpa using hne)

theorem normalize_append_suffix : normalize suffix x (l ++ suffix) = trim x l := by
  rw [normalize, strip_append]

theorem normalize_of_not_suffix (h : ¬suffix <:+ l) : normalize suffix x l = trim x l := by
  rw [normalize, strip_of_not_suffix h]

theorem not_suffix_normalize : ¬[x] <:+ normalize suffix x l := not_suffix_trim

section Clean

variable (hne : suffix ≠ []) (hclean : ¬[x] <:+ suffix)

include hne hclean

omit [DecidableEq α] in
theorem not_suffix_append : ¬[x] <:+ l ++ suffix := by
  rintro ⟨kept, hk⟩
  have hlast := congrArg List.getLast? hk
  rw [List.getLast?_append_of_ne_nil _ hne, List.getLast?_concat] at hlast
  obtain ⟨front, hfront⟩ := List.getLast?_eq_some_iff.mp hlast.symm
  exact hclean ⟨front, hfront.symm⟩

omit [DecidableEq α] in
theorem not_suffix_append_replicate (hn : 0 < n) : ¬suffix <:+ l ++ List.replicate n x := by
  rintro ⟨kept, hk⟩
  obtain ⟨m, rfl⟩ := Nat.exists_eq_succ_of_ne_zero hn.ne'
  rw [List.replicate_succ', ← List.append_assoc] at hk
  apply not_suffix_append hne hclean (l := kept)
  rw [hk]
  exact List.suffix_append _ _

theorem normalize_append_replicate (hn : 0 < n) :
    normalize suffix x (l ++ List.replicate n x) = trim x l := by
  rw [normalize_of_not_suffix (not_suffix_append_replicate hne hclean hn), trim_append_replicate]

theorem normalize_append_suffix_replicate (hn : 0 < n) :
    normalize suffix x (l ++ suffix ++ List.replicate n x) = l ++ suffix := by
  rw [normalize_append_replicate hne hclean hn]
  exact trim_of_not_suffix (not_suffix_append hne hclean)

omit hclean in
/-- Normalizing again changes nothing just when the suffix is off. -/
theorem normalize_normalize : normalize suffix x (normalize suffix x l) = normalize suffix x l ↔
    ¬suffix <:+ normalize suffix x l := by
  constructor
  · rintro hsame ⟨kept, hk⟩
    rw [← hk, normalize_append_suffix] at hsame
    have hlen : (trim x kept).length ≤ kept.length := length_trim_le
    rw [hsame, List.length_append] at hlen
    exact hne (List.eq_nil_of_length_eq_zero (by omega))
  · intro h
    rw [normalize_of_not_suffix h, trim_of_not_suffix not_suffix_normalize]

/-- Trailing `x` or the suffix make no difference to what does not end in the suffix already. -/
theorem normalize_same : (∀ n, normalize suffix x (l ++ List.replicate n x) = normalize suffix x l) ∧
    normalize suffix x (l ++ suffix) = normalize suffix x l ↔ ¬suffix <:+ l := by
  constructor
  · rintro ⟨hx, -⟩ ⟨kept, rfl⟩
    have hone := hx 1
    rw [normalize_append_suffix_replicate hne hclean Nat.one_pos, normalize_append_suffix] at hone
    have hlen : (trim x kept).length ≤ kept.length := length_trim_le
    rw [← hone, List.length_append] at hlen
    exact hne (List.eq_nil_of_length_eq_zero (by omega))
  · intro h
    refine ⟨fun n => ?_, ?_⟩
    · rcases Nat.eq_zero_or_pos n with rfl | hn
      · simp
      · rw [normalize_append_replicate hne hclean hn, normalize_of_not_suffix h]
    · rw [normalize_append_suffix, normalize_of_not_suffix h]

end Clean

end Trailing
