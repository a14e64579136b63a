import Mathlib.Order.Basic

namespace Notifier

/-- A notifier without permits: a call wakes those who are registered and leaves nothing behind
for those who come later. All it has to remember is how often it was called. -/
structure Notify where
  calls : Nat
  deriving DecidableEq

/-- When a future registers: when it is made, or when it is first enabled. -/
inductive Registration
  | onCreate
  | onEnable
  deriving DecidableEq

/-- A future that waits for a call: the number of calls there had been when it registered. -/
structure Notified where
  since : Option Nat
  deriving DecidableEq

def Notify.new : Notify := ⟨0⟩

def Notify.notifyWaiters (n : Notify) : Notify := ⟨n.calls + 1⟩

def Notify.notified (g : Registration) (n : Notify) : Notified :=
  match g with
  | .onCreate => ⟨some n.calls⟩
  | .onEnable => ⟨none⟩

def Notified.enable (n : Notify) (f : Notified) : Notified := ⟨some (f.since.getD n.calls)⟩

def Notified.woken (n : Notify) (f : Notified) : Bool := f.since.any (· < n.calls)

def Notified.Known (n : Notify) (f : Notified) : Prop := ∀ k, f.since = some k → k ≤ n.calls

def Notified.Registered (n : Notify) (f : Notified) : Prop := ∃ k, f.since = some k ∧ k ≤ n.calls

section Calls

variable {n : Notify} {f : Notified}

theorem Notify.notified_known (g : Registration) : (n.notified g).Known n := by
  intro k hk
  cases g with
  | onCreate =>
    cases hk
    exact Nat.le_refl n.calls
  | onEnable => cases hk

theorem Notified.Known.enable (h : f.Known n) : (f.enable n).Registered n := by
  refine ⟨f.since.getD n.calls, rfl, ?_⟩
  cases hf : f.since with
  | none => exact Nat.le_refl n.calls
  | some k => exact h k hf

theorem Notified.Known.notifyWaiters (h : f.Known n) : f.Known n.notifyWaiters :=
  fun k hk => Nat.le_succ_of_le (h k hk)

theorem Notified.Registered.notifyWaiters (h : f.Registered n) :
    f.Registered n.notifyWaiters := by
  obtain ⟨k, hk, hle⟩ := h
  exact ⟨k, hk, Nat.le_succ_of_le hle⟩

theorem Notified.Registered.woken (h : f.Registered n) : f.woken n.notifyWaiters = true := by
  obtain ⟨k, hk, hle⟩ := h
  simp only [Notified.woken, hk, Option.any_some, decide_eq_true_eq]
  exact Nat.lt_succ_of_le hle

end Calls

/-- A future someone sleeps on: it has been woken, or the call that will wake it is due, or there
is nothing for the sleeper to do. -/
structure Waits (n : Notify) (f : Notified) (due blocked : Prop) : Prop where
  registered : f.Registered n
  covered : f.woken n = true ∨ due ∨ blocked

section Waits

variable {n : Notify} {f : Notified} {due due' blocked blocked' : Prop}

/-- Whoever registers first and then finds nothing to do may sleep. -/
theorem Waits.sleep (h : f.Registered n) (hb : blocked) : Waits n f due blocked :=
  ⟨h, Or.inr (Or.inr hb)⟩

theorem Waits.change (h : Waits n f due blocked) (hd : due') : Waits n f due' blocked' :=
  ⟨h.registered, Or.inr (Or.inl hd)⟩

theorem Waits.notifyWaiters (h : Waits n f due blocked) :
    Waits n.notifyWaiters f due' blocked' :=
  ⟨h.registered.notifyWaiters, Or.inl h.registered.woken⟩

theorem Waits.imp (h : Waits n f due blocked) (hd : due → due') (hb : blocked → blocked') :
    Waits n f due' blocked' :=
  ⟨h.registered, h.covered.imp_right (Or.imp hd hb)⟩

/-- No wake-up is lost. -/
theorem Waits.blocked_or_due (h : Waits n f due blocked) (hw : f.woken n = false) :
    blocked ∨ due ∧ f.woken n.notifyWaiters = true := by
  rcases h.covered with hc | hc | hc
  · simp [hc] at hw
  · exact Or.inr ⟨hc, h.registered.woken⟩
  · exact Or.inl hc

end Waits

end Notifier
