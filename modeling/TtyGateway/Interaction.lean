import Mathlib.Data.List.Forall2

namespace Interaction

variable {κ ρ ε α β : Type*}

/-- A program that makes calls and goes on with what they are answered. -/
inductive Program (κ ρ α : Type*)
  | done (result : α)
  | call (k : κ) (next : ρ → Program κ ρ α)

def Program.bind : Program κ ρ α → (α → Program κ ρ β) → Program κ ρ β
  | .done result, f => f result
  | .call k next, f => .call k fun r => (next r).bind f

instance {κ ρ : Type*} : Monad (Program κ ρ) where
  pure := .done
  bind := .bind

def Program.request (k : κ) : Program κ ρ ρ := .call k .done

/-- What is left of `p` after the calls of `history` were made and answered. -/
inductive Program.After (p : Program κ ρ α) : List (κ × ρ) → Program κ ρ α → Prop
  | start : p.After [] p
  | answer {history k next} (r : ρ) : p.After history (.call k next) →
      p.After (history ++ [(k, r)]) (next r)

/-- A call, and which of its answers are errors. -/
structure Attempt (κ ρ ε : Type*) where
  call : κ
  error : ρ → Option ε

/-- The calls of some attempts, one after the other, up to the first that is answered with an
error. -/
def chain (last : Except ε α) : List (Attempt κ ρ ε) → Program κ ρ (Except ε α)
  | [] => .done last
  | attempt :: attempts => .call attempt.call fun r => match attempt.error r with
    | some e => .done (.error e)
    | none => chain last attempts

def Attempt.Passed (attempt : Attempt κ ρ ε) (entry : κ × ρ) : Prop :=
  entry.1 = attempt.call ∧ attempt.error entry.2 = none

/-- How far a chain of attempts has come: to one that is yet to be answered, or to its end, or to an
error. -/
inductive Progress (last : Except ε α) (attempts : List (Attempt κ ρ ε)) :
    List (κ × ρ) → Program κ ρ (Except ε α) → Prop
  | passed {front later history} : attempts = front ++ later →
      List.Forall₂ Attempt.Passed front history → Progress last attempts history (chain last later)
  | failed {front attempt later history r e} : attempts = front ++ attempt :: later →
      List.Forall₂ Attempt.Passed front history → attempt.error r = some e →
      Progress last attempts (history ++ [(attempt.call, r)]) (.done (.error e))

section Progress

variable {last : Except ε α} {attempts : List (Attempt κ ρ ε)} {history : List (κ × ρ)}
  {p : Program κ ρ (Except ε α)}

theorem chain_eq_call {k : κ} {next : ρ → Program κ ρ (Except ε α)}
    (h : chain last attempts = .call k next) : ∃ attempt later, attempts = attempt :: later ∧
      k = attempt.call ∧ ∀ r, next r = match attempt.error r with
        | some e => .done (.error e)
        | none => chain last later := by
  cases attempts with
  | nil => cases h
  | cons attempt later =>
    cases h
    exact ⟨attempt, later, rfl, rfl, fun _ => rfl⟩

theorem Program.After.progress (h : (chain last attempts).After history p) :
    Progress last attempts history p := by
  induction h with
  | start => exact .passed (List.nil_append attempts).symm .nil
  | @answer history k next r _ ih =>
    generalize hleft : Program.call k next = left at ih
    cases ih with
    | @passed front later _ hattempts hpassed =>
      obtain ⟨attempt, later, rfl, rfl, hnext⟩ := chain_eq_call hleft.symm
      rw [hnext]
      cases he : attempt.error r with
      | none =>
        have hsplit : attempts = (front ++ [attempt]) ++ later := by simp [hattempts]
        exact .passed hsplit (List.rel_append hpassed (.cons ⟨rfl, he⟩ .nil))
      | some e => exact .failed hattempts hpassed he
    | failed => cases hleft

/-- A chain that has ended well has been through all of its attempts. -/
theorem Progress.of_ok {result : α} (h : Progress last attempts history (.done (.ok result))) :
    last = .ok result ∧ List.Forall₂ Attempt.Passed attempts history := by
  generalize hp : Program.done (Except.ok result) = q at h
  cases h with
  | @passed front later _ hattempts hpassed =>
    cases later with
    | nil =>
      cases hp
      exact ⟨rfl, by rwa [hattempts, List.append_nil]⟩
    | cons => cases hp
  | failed => cases hp

/-- A chain that has ended in an error has it from its last call, or of itself. -/
theorem Progress.of_error {e : ε} (h : Progress last attempts history (.done (.error e))) :
    last = .error e ∧ List.Forall₂ Attempt.Passed attempts history ∨
    ∃ front attempt later before r, attempts = front ++ attempt :: later ∧
      history = before ++ [(attempt.call, r)] ∧ List.Forall₂ Attempt.Passed front before ∧
      attempt.error r = some e := by
  generalize hp : Program.done (Except.error e) = q at h
  cases h with
  | @passed front later _ hattempts hpassed =>
    cases later with
    | nil =>
      cases hp
      exact Or.inl ⟨rfl, by rwa [hattempts, List.append_nil]⟩
    | cons => cases hp
  | failed hattempts hpassed he =>
    cases hp
    exact Or.inr ⟨_, _, _, _, _, hattempts, rfl, hpassed, he⟩

end Progress

end Interaction
