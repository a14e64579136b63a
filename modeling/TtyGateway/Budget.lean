import TtyGateway.Gateway
import TtyGateway.Limiter
import Mathlib.Tactic.Common

namespace TtyGateway

section TokenBucket

variable {rate n : Nat} {b left : TokenBucket} {spent : List (ℚ × ℚ)} {last now : ℚ}

/-- `b` was last filled up at time `last`, and has let nothing but `spent` through. -/
structure TokenBucket.Bounds (b : TokenBucket) (r : Nat) (spent : List (ℚ × ℚ)) (last : ℚ) :
    Prop where
  capacity : b.capacity = bandwidthBurst
  rate : b.rate = r
  bounded : Limiter.Bounded (bandwidthBurst : ℚ) r spent b.tokens last

def TokenBucket.Refilled (b : TokenBucket) (last now : ℚ) : Prop :=
  b.capacity ≤ b.tokens + (now - last) * b.rate

instance : Decidable (b.Refilled last now) := inferInstanceAs (Decidable (_ ≤ _))

theorem TokenBucket.new_eq (h : 1 ≤ rate) :
    TokenBucket.new rate bandwidthBurst = ⟨bandwidthBurst, bandwidthBurst, rate⟩ := by
  have hburst : max bandwidthBurst 1 = bandwidthBurst := max_eq_left (by decide)
  have hrate : max rate 1 = rate := max_eq_left h
  simp only [TokenBucket.new, hburst, hrate]

theorem TokenBucket.bounds_new (h : 1 ≤ rate) (now : ℚ) :
    (TokenBucket.new rate bandwidthBurst).Bounds rate [] now := by
  rw [TokenBucket.new_eq h]
  exact ⟨rfl, rfl, .start (Nat.cast_nonneg _) (Nat.cast_nonneg _) le_rfl now⟩

theorem TokenBucket.Bounds.renew (h : b.Bounds rate spent last) (hrate : 1 ≤ rate)
    (hnow : last ≤ now) (full : b.Refilled last now) :
    (TokenBucket.new rate bandwidthBurst).Bounds rate spent now := by
  unfold TokenBucket.Refilled at full
  rw [h.capacity, h.rate] at full
  rw [TokenBucket.new_eq hrate]
  exact ⟨rfl, rfl, h.bounded.renew (Nat.cast_nonneg _) hnow full⟩

theorem TokenBucket.Bounds.refill (h : b.Bounds rate spent last) (hnow : last ≤ now) :
    (b.refill (now - last)).Bounds rate spent now := by
  refine ⟨h.capacity, h.rate, ?_⟩
  have hfill := h.bounded.refill (Nat.cast_nonneg rate) hnow
  simpa only [TokenBucket.refill, h.capacity, h.rate] using hfill

theorem TokenBucket.Bounds.tryConsume (h : b.Bounds rate spent last)
    (hc : b.tryConsume n = (true, left)) : left.Bounds rate (spent ++ [(last, (n : ℚ))]) last := by
  unfold TokenBucket.tryConsume at hc
  split at hc
  next enough =>
    cases hc
    exact ⟨h.capacity, h.rate,
      h.bounded.consume (Nat.cast_nonneg _) (Nat.cast_nonneg _) enough⟩
  next => cases hc

theorem TokenBucket.eq_of_tryConsume_false (hc : b.tryConsume n = (false, left)) : left = b := by
  unfold TokenBucket.tryConsume at hc
  split at hc
  next => cases hc
  next => cases hc; rfl

end TokenBucket

/-- What a sender task of an account has of its limiter: the bucket, when it was last filled up,
the frame that was let through and is not written yet, and whether the task has ended. -/
structure Purse where
  bucket : TokenBucket
  last : ℚ
  hand : List (ℚ × ℚ)
  ended : Bool

/-- One account of the gateway: the limiters of its connections, and what they were sent when. -/
structure Budget where
  purse : ConnId → Option Purse
  spent : List (ℚ × ℚ)
  clock : ℚ

def Budget.init : Budget := ⟨fun _ => none, [], 0⟩

def Budget.setPurse (u : Budget) (c : ConnId) (p : Purse) : Budget :=
  { u with purse := Function.update u.purse c (some p) }

inductive BudgetStep (rate : Nat) (u : Budget) : Budget → Prop
  | wait {now} : u.clock ≤ now → BudgetStep rate u { u with clock := now }
  | grant {c} : u.purse c = none →
      (∀ d p, u.purse d = some p → p.ended = true ∧ p.bucket.Refilled p.last u.clock) →
      BudgetStep rate u
        (u.setPurse c ⟨TokenBucket.new rate bandwidthBurst, u.clock, [], false⟩)
  | spend {c p n left} : u.purse c = some p → p.ended = false → p.hand = [] →
      (p.bucket.refill (u.clock - p.last)).tryConsume n = (true, left) →
      BudgetStep rate u
        (u.setPurse c { p with bucket := left, last := u.clock, hand := [(u.clock, (n : ℚ))] })
  | starve {c p n left} : u.purse c = some p → p.ended = false →
      (p.bucket.refill (u.clock - p.last)).tryConsume n = (false, left) →
      BudgetStep rate u (u.setPurse c { p with bucket := left, last := u.clock })
  | deliver {c p} : u.purse c = some p → p.ended = false →
      BudgetStep rate u { u.setPurse c { p with hand := [] } with spent := u.spent ++ p.hand }
  | stop {c p} : u.purse c = some p →
      BudgetStep rate u (u.setPurse c { p with hand := [], ended := true })

theorem BudgetStep.same {rate : Nat} {u u' : Budget} (h : u' = u) : BudgetStep rate u u' := by
  subst h
  exact .wait le_rfl

/-- All that the account was sent, and the frame in hand, went through the bucket of `c`, or
through one that was full when the next one was started: the other limiters are dead. -/
structure Budget.Held (u : Budget) (rate : Nat) (c : ConnId) (p : Purse) (spent : List (ℚ × ℚ)) :
    Prop where
  purse : u.purse c = some p
  bounds : p.bucket.Bounds rate spent p.last
  past : p.last ≤ u.clock
  others : ∀ d q, d ≠ c → u.purse d = some q → q.ended = true
  spent : (u.spent ++ p.hand).Sublist spent

def Budget.Metered (u : Budget) (rate : Nat) : Prop :=
  (∀ c, u.purse c = none) ∧ u.spent = [] ∨ ∃ c p spent, u.Held rate c p spent

theorem Budget.metered_init (rate : Nat) : Budget.init.Metered rate :=
  Or.inl ⟨fun _ => rfl, rfl⟩

section Held

variable {rate : Nat} {u u' : Budget} {c d : ConnId} {p q : Purse} {spent : List (ℚ × ℚ)}

theorem Budget.setPurse_self : (u.setPurse c p).purse c = some p := by simp [Budget.setPurse]

theorem Budget.setPurse_of_ne (h : d ≠ c) : (u.setPurse c p).purse d = u.purse d := by
  simp [Budget.setPurse, h]

/-- Only the newest limiter belongs to a task that still runs. -/
theorem Budget.Metered.running (h : u.Metered rate) (hp : u.purse c = some p)
    (running : p.ended = false) : ∃ spent, u.Held rate c p spent := by
  rcases h with ⟨hnone, -⟩ | ⟨d, q, spent, held⟩
  · simp [hnone c] at hp
  · have hc : c = d := by
      by_contra hne
      simp [held.others c p hne hp] at running
    subst hc
    obtain rfl := Option.some.inj (hp.symm.trans held.purse)
    exact ⟨spent, held⟩

theorem Budget.Held.setPurse {more : List (ℚ × ℚ)} (h : u.Held rate c p spent)
    (bounds : q.bucket.Bounds rate more q.last) (past : q.last ≤ u.clock)
    (sub : (u.spent ++ q.hand).Sublist more) : (u.setPurse c q).Held rate c q more := by
  refine ⟨Budget.setPurse_self, bounds, past, fun d e hne he => ?_, sub⟩
  rw [Budget.setPurse_of_ne hne] at he
  exact h.others d e hne he

theorem Budget.Held.wait {now : ℚ} (h : u.Held rate c p spent) (hnow : u.clock ≤ now) :
    { u with clock := now }.Held rate c p spent :=
  { h with past := h.past.trans hnow }

theorem BudgetStep.metered (h : BudgetStep rate u u') (hrate : 1 ≤ rate) (hu : u.Metered rate) :
    u'.Metered rate := by
  cases h with
  | wait hnow =>
    rcases hu with hu | ⟨c, p, spent, held⟩
    · exact Or.inl hu
    · exact Or.inr ⟨c, p, spent, held.wait hnow⟩
  | @grant c hc hall =>
    have others : ∀ d q, d ≠ c → (u.setPurse c ⟨TokenBucket.new rate bandwidthBurst, u.clock, [],
        false⟩).purse d = some q → q.ended = true := by
      intro d q hne hq
      rw [Budget.setPurse_of_ne hne] at hq
      exact (hall d q hq).1
    rcases hu with ⟨-, hspent⟩ | ⟨d, q, spent, held⟩
    · refine Or.inr ⟨c, _, [], Budget.setPurse_self, ?_, le_rfl, others, ?_⟩
      · exact TokenBucket.bounds_new hrate u.clock
      · simp [Budget.setPurse, hspent]
    · obtain ⟨-, full⟩ := hall d q held.purse
      refine Or.inr ⟨c, _, spent, Budget.setPurse_self, ?_, le_rfl, others, ?_⟩
      · exact held.bounds.renew hrate held.past full
      · have hsub := (List.sublist_append_left u.spent q.hand).trans held.spent
        simpa [Budget.setPurse] using hsub
  | @spend c p n left hc running empty hn =>
    obtain ⟨spent, held⟩ := hu.running hc running
    refine Or.inr ⟨c, _, spent ++ [(u.clock, (n : ℚ))], held.setPurse ?_ le_rfl ?_⟩
    · exact (held.bounds.refill held.past).tryConsume hn
    · have hsub := held.spent
      rw [empty, List.append_nil] at hsub
      exact hsub.append (List.Sublist.refl _)
  | @starve c p n left hc running hn =>
    obtain ⟨spent, held⟩ := hu.running hc running
    refine Or.inr ⟨c, _, spent, held.setPurse ?_ le_rfl held.spent⟩
    rw [TokenBucket.eq_of_tryConsume_false hn]
    exact held.bounds.refill held.past
  | @deliver c p hc running =>
    obtain ⟨spent, held⟩ := hu.running hc running
    have hsub : (u.spent ++ []).Sublist spent := by
      rw [List.append_nil]
      exact (List.sublist_append_left u.spent p.hand).trans held.spent
    have held' := held.setPurse (q := { p with hand := [] }) held.bounds held.past hsub
    exact Or.inr ⟨c, _, spent, { held' with spent := by simpa using held.spent }⟩
  | @stop c p hc =>
    rcases hu with ⟨hnone, -⟩ | ⟨d, q, spent, held⟩
    · simp [hnone c] at hc
    · have hsub := (List.sublist_append_left u.spent q.hand).trans held.spent
      by_cases hcd : c = d
      · subst hcd
        obtain rfl := Option.some.inj (hc.symm.trans held.purse)
        refine Or.inr ⟨c, _, spent, held.setPurse held.bounds held.past ?_⟩
        simpa using hsub
      · refine Or.inr ⟨d, q, spent, ?_, held.bounds, held.past, fun e f hne hf => ?_, held.spent⟩
        · rw [Budget.setPurse_of_ne (Ne.symm hcd)]
          exact held.purse
        · by_cases hec : e = c
          · subst hec
            rw [Budget.setPurse_self] at hf
            cases hf
            rfl
          · rw [Budget.setPurse_of_ne hec] at hf
            exact held.others e f hne hf

/-- What a metered account was sent in any window fits its plan. -/
theorem Budget.Metered.within_le (h : u.Metered rate) (t : ℚ) {len : ℚ} (hlen : 0 ≤ len) :
    Limiter.within t len u.spent ≤ bandwidthBurst + rate * len := by
  rcases h with ⟨-, hspent⟩ | ⟨c, p, spent, held⟩
  · rw [hspent]
    have hstart := Limiter.Bounded.start (Nat.cast_nonneg (α := ℚ) bandwidthBurst)
      (Nat.cast_nonneg (α := ℚ) rate) le_rfl 0
    exact hstart.within t len hlen
  · have hsub := (List.sublist_append_left u.spent p.hand).trans held.spent
    calc Limiter.within t len u.spent
        ≤ Limiter.within t len spent :=
          Limiter.within_le_of_sublist hsub held.bounds.bounded.amount t len
      _ ≤ bandwidthBurst + rate * len := held.bounds.bounded.within t len hlen

end Held

end TtyGateway
