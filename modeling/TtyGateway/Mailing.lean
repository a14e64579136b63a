import Mathlib.Data.List.Basic
import Mathlib.Data.List.Perm.Basic
import Mathlib.Tactic.Common

namespace Mailing

variable {α : Type*}

/-- Mail that may be lost, and that arrives in any order: what is under way, what has arrived, and
what never will. -/
structure Mail (α : Type*) where
  underway : List α
  arrived : List α
  lost : List α

def Mail.empty : Mail α := ⟨[], [], []⟩

def Mail.post (m : Mail α) (xs : List α) : Mail α := { m with underway := m.underway ++ xs }

def Mail.deliver (m : Mail α) (n : Nat) : Option (α × Mail α) :=
  m.underway[n]?.map fun x =>
    (x, { m with underway := m.underway.eraseIdx n, arrived := m.arrived ++ [x] })

def Mail.lose (m : Mail α) (n : Nat) : Option (Mail α) :=
  m.underway[n]?.map fun x =>
    { m with underway := m.underway.eraseIdx n, lost := m.lost ++ [x] }

def Mail.posted (m : Mail α) : List α := m.arrived ++ (m.lost ++ m.underway)

section Posted

variable {m m' : Mail α} {x : α} {xs : List α} {n : Nat}

theorem Mail.post_posted : (m.post xs).posted = m.posted ++ xs := by
  simp [Mail.posted, Mail.post]

theorem eraseIdx_perm (h : xs[n]? = some x) : (x :: xs.eraseIdx n).Perm xs := by
  obtain ⟨hn, rfl⟩ := List.getElem?_eq_some_iff.mp h
  exact List.getElem_cons_eraseIdx_perm hn

theorem Mail.deliver_posted (h : m.deliver n = some (x, m')) :
    m'.posted.Perm m.posted ∧ m'.arrived = m.arrived ++ [x] ∧ m'.lost = m.lost := by
  obtain ⟨y, hy, he⟩ := Option.map_eq_some_iff.mp h
  cases he
  refine ⟨?_, rfl, rfl⟩
  simp only [Mail.posted, List.append_assoc]
  refine List.Perm.append_left _ ?_
  exact (List.perm_append_comm_assoc [x] _ _).trans ((eraseIdx_perm hy).append_left _)

theorem Mail.lose_posted (h : m.lose n = some m') :
    m'.posted.Perm m.posted ∧ m'.arrived = m.arrived := by
  obtain ⟨y, hy, he⟩ := Option.map_eq_some_iff.mp h
  cases he
  refine ⟨?_, rfl⟩
  simp only [Mail.posted, List.append_assoc]
  refine List.Perm.append_left _ ?_
  exact (eraseIdx_perm hy).append_left _

end Posted

end Mailing
