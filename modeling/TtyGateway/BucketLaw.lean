import TtyGateway.Quota
import TtyGateway.Limiter
import Mathlib.Data.NNRat.Defs
import Mathlib.Algebra.Order.Field.Basic

namespace TtyGateway

/-- The calls on a bucket that change it. A `Duration` is not negative. -/
inductive BucketCall
  | refill (elapsed : ℚ≥0)
  | tryConsume (amount : ℕ)

def TokenBucket.apply (b : TokenBucket) : BucketCall → TokenBucket
  | .refill elapsed => b.refill elapsed
  | .tryConsume amount => (b.tryConsume amount).2

def TokenBucket.after (b : TokenBucket) (calls : List BucketCall) : TokenBucket :=
  calls.foldl TokenBucket.apply b

def BucketCall.elapsed : BucketCall → ℚ
  | .refill elapsed => elapsed
  | .tryConsume _ => 0

def TokenBucket.grant (b : TokenBucket) : BucketCall → ℚ
  | .refill _ => 0
  | .tryConsume amount => if (b.tryConsume amount).1 then amount else 0

def refilled (calls : List BucketCall) : ℚ := (calls.map BucketCall.elapsed).sum

/-- What the bucket grants the calls, one after the other. -/
def TokenBucket.granted (b : TokenBucket) : List BucketCall → ℚ
  | [] => 0
  | call :: calls => b.grant call + (b.apply call).granted calls

/-- The calls as the history of a limiter; what is refused takes nothing. -/
def TokenBucket.history (b : TokenBucket) : List BucketCall → List (Limiter.Event ℚ)
  | [] => []
  | .refill elapsed :: calls => .elapse elapsed :: (b.refill elapsed).history calls
  | .tryConsume amount :: calls =>
    .take (b.grant (.tryConsume amount)) :: (b.tryConsume amount).2.history calls

section Shape

variable (b : TokenBucket) (elapsed : ℚ) (amount : ℕ)

@[simp] theorem TokenBucket.refill_capacity : (b.refill elapsed).capacity = b.capacity := rfl
@[simp] theorem TokenBucket.refill_rate : (b.refill elapsed).rate = b.rate := rfl

@[simp] theorem TokenBucket.tryConsume_capacity : (b.tryConsume amount).2.capacity = b.capacity := by
  unfold TokenBucket.tryConsume
  split <;> rfl

@[simp] theorem TokenBucket.tryConsume_rate : (b.tryConsume amount).2.rate = b.rate := by
  unfold TokenBucket.tryConsume
  split <;> rfl

end Shape

section History

variable {b : TokenBucket} {before later calls : List BucketCall}

theorem TokenBucket.apply_shape (call : BucketCall) :
    (b.apply call).capacity = b.capacity ∧ (b.apply call).rate = b.rate := by
  cases call <;> simp [TokenBucket.apply]

theorem TokenBucket.after_shape (calls : List BucketCall) :
    (b.after calls).capacity = b.capacity ∧ (b.after calls).rate = b.rate := by
  induction calls generalizing b with
  | nil => exact ⟨rfl, rfl⟩
  | cons call calls ih =>
    obtain ⟨hcap, hrate⟩ := b.apply_shape call
    obtain ⟨ihcap, ihrate⟩ := @ih (b.apply call)
    exact ⟨ihcap.trans hcap, ihrate.trans hrate⟩

theorem TokenBucket.history_append :
    b.history (before ++ later) = b.history before ++ (b.after before).history later := by
  induction before generalizing b with
  | nil => rfl
  | cons call before ih => cases call <;> exact congrArg (_ :: ·) ih

theorem TokenBucket.length_history : (b.history calls).length = calls.length := by
  induction calls generalizing b with
  | nil => rfl
  | cons call calls ih => cases call <;> exact congrArg (· + 1) ih

/-- The windows of a history are what one starting point each leaves of the calls. -/
theorem TokenBucket.suffix_history {window : List (Limiter.Event ℚ)} :
    window <:+ b.history calls ↔ ∃ before later, calls = before ++ later ∧
      window = (b.after before).history later := by
  constructor
  · rintro ⟨front, hfront⟩
    have hlen : (calls.take front.length).length = front.length := by
      have hle := congrArg List.length hfront
      rw [List.length_append, TokenBucket.length_history] at hle
      rw [List.length_take]
      omega
    refine ⟨calls.take front.length, calls.drop front.length, (List.take_append_drop _ _).symm, ?_⟩
    rw [← List.take_append_drop front.length calls, TokenBucket.history_append] at hfront
    exact (List.append_inj hfront (by rw [TokenBucket.length_history, hlen])).2
  · rintro ⟨before, later, rfl, rfl⟩
    rw [TokenBucket.history_append]
    exact List.suffix_append _ _

theorem TokenBucket.grant_nonneg (call : BucketCall) : 0 ≤ b.grant call := by
  cases call with
  | refill => exact le_rfl
  | tryConsume amount =>
    simp only [TokenBucket.grant]
    split
    · exact Nat.cast_nonneg amount
    · exact le_rfl

theorem TokenBucket.history_taken : ∀ amount, .take amount ∈ b.history calls → 0 ≤ amount := by
  induction calls generalizing b with
  | nil => simp [TokenBucket.history]
  | cons call calls ih =>
    intro amount hm
    cases call with
    | refill elapsed => exact ih amount (by simpa [TokenBucket.history] using hm)
    | tryConsume n =>
      rcases List.mem_cons.mp hm with he | hm
      · rw [Limiter.Event.take.inj he]
        exact b.grant_nonneg _
      · exact ih amount hm

theorem TokenBucket.allowance_history (cap : ℚ) : Limiter.allowance cap b.rate (b.history calls) =
    cap + b.rate * refilled calls - b.granted calls := by
  have hgain : ((b.history calls).map (Limiter.Event.gain b.rate)).sum =
      b.rate * refilled calls - b.granted calls := by
    induction calls generalizing b with
    | nil => simp [TokenBucket.history, refilled, TokenBucket.granted]
    | cons call calls ih =>
      have htail := @ih (b.apply call)
      rw [(b.apply_shape call).2] at htail
      cases call with
      | refill elapsed =>
        simp only [TokenBucket.history, List.map_cons, List.sum_cons, Limiter.Event.gain, refilled,
          BucketCall.elapsed, TokenBucket.granted, TokenBucket.grant] at htail ⊢
        rw [show b.refill elapsed = b.apply (.refill elapsed) from rfl, htail]
        ring
      | tryConsume amount =>
        simp only [TokenBucket.history, List.map_cons, List.sum_cons, Limiter.Event.gain, refilled,
          BucketCall.elapsed, TokenBucket.granted] at htail ⊢
        rw [show (b.tryConsume amount).2 = b.apply (.tryConsume amount) from rfl, htail]
        ring
  rw [Limiter.allowance, hgain]
  ring

/-- A bucket that is full to begin with is the limiter of its history. -/
theorem TokenBucket.tokens_after (full : b.tokens = b.capacity) :
    (b.after calls).tokens = Limiter.level b.capacity b.rate (b.history calls) := by
  have hfold : ∀ x : TokenBucket, x.capacity = b.capacity → x.rate = b.rate →
      (x.after calls).tokens =
        (x.history calls).foldl (Limiter.Event.apply b.capacity b.rate) x.tokens := by
    induction calls with
    | nil => exact fun x _ _ => rfl
    | cons call calls ih =>
      intro x hcap hrate
      obtain ⟨hcap', hrate'⟩ := x.apply_shape call
      have htail := ih (x.apply call) (hcap'.trans hcap) (hrate'.trans hrate)
      cases call with
      | refill elapsed =>
        have htokens : (x.apply (.refill elapsed)).tokens =
            Limiter.Event.apply b.capacity b.rate x.tokens (.elapse elapsed) := by
          simp [TokenBucket.apply, TokenBucket.refill, Limiter.Event.apply, hcap, hrate]
        rw [htokens] at htail
        exact htail
      | tryConsume amount =>
        have htokens : (x.apply (.tryConsume amount)).tokens =
            Limiter.Event.apply b.capacity b.rate x.tokens (.take (x.grant (.tryConsume amount))) := by
          simp only [TokenBucket.apply, TokenBucket.tryConsume, TokenBucket.grant,
            Limiter.Event.apply]
          split <;> simp
        rw [htokens] at htail
        exact htail
  rw [hfold b rfl rfl, full]
  rfl

theorem TokenBucket.tokens_isLeast (full : b.tokens = b.capacity) :
    IsLeast {left | ∃ before later, calls = before ++ later ∧
      b.capacity + b.rate * refilled later - (b.after before).granted later = left}
      (b.after calls).tokens := by
  have hallow : ∀ before later, Limiter.allowance b.capacity b.rate
      ((b.after before).history later) =
        b.capacity + b.rate * refilled later - (b.after before).granted later := by
    intro before later
    have h : Limiter.allowance b.capacity (b.after before).rate ((b.after before).history later) =
        _ := TokenBucket.allowance_history b.capacity
    rwa [(b.after_shape before).2] at h
  have hlevel : IsLeast {left | ∃ window, window <:+ b.history calls ∧
      Limiter.allowance b.capacity b.rate window = left}
        (Limiter.level b.capacity b.rate (b.history calls)) :=
    Limiter.level_isLeast b.history_taken
  obtain ⟨⟨window, hw, heq⟩, least⟩ := hlevel
  rw [b.tokens_after full]
  refine ⟨?_, ?_⟩
  · obtain ⟨before, later, hcalls, rfl⟩ := TokenBucket.suffix_history.mp hw
    exact ⟨before, later, hcalls, (hallow before later).symm.trans heq⟩
  · rintro left ⟨before, later, hcalls, rfl⟩
    exact least ⟨_, TokenBucket.suffix_history.mpr ⟨before, later, hcalls, rfl⟩, hallow before later⟩

theorem TokenBucket.tokens_nonneg (hrate : 0 ≤ b.rate) (hcap : 0 ≤ b.capacity) (h : 0 ≤ b.tokens) :
    0 ≤ (b.after calls).tokens := by
  induction calls generalizing b with
  | nil => exact h
  | cons call calls ih =>
    obtain ⟨hcap', hrate'⟩ := b.apply_shape call
    refine ih (hrate'.symm ▸ hrate) (hcap'.symm ▸ hcap) ?_
    cases call with
    | refill elapsed => exact le_min (add_nonneg h (mul_nonneg elapsed.2 hrate)) hcap
    | tryConsume amount =>
      simp only [TokenBucket.apply, TokenBucket.tryConsume]
      split
      next hle => exact sub_nonneg.mpr hle
      next => exact h

end History

theorem TokenBucket.tryConsume_iff {b : TokenBucket} {amount : ℕ} :
    (b.tryConsume amount).1 = true ↔ (amount : ℚ) ≤ b.tokens := by
  unfold TokenBucket.tryConsume
  split
  next hle => exact iff_of_true rfl hle
  next hle => exact iff_of_false (by simp) hle

/-- What fits in the bucket is granted after `timeUntil`, and not before. -/
theorem TokenBucket.timeUntil_isLeast {b : TokenBucket} {amount : ℕ} (hrate : 0 < b.rate)
    (hcap : (amount : ℚ) ≤ b.capacity) :
    IsLeast {elapsed | 0 ≤ elapsed ∧ ((b.refill elapsed).tryConsume amount).1 = true}
      (b.timeUntil amount) := by
  have hgranted : ∀ elapsed, ((b.refill elapsed).tryConsume amount).1 = true ↔
      (amount : ℚ) ≤ b.tokens + elapsed * b.rate := by
    intro elapsed
    rw [TokenBucket.tryConsume_iff]
    exact le_min_iff.trans (and_iff_left hcap)
  simp only [TokenBucket.timeUntil, min_eq_left hcap, hgranted]
  split
  next hle =>
    refine ⟨⟨le_rfl, by simpa using hle⟩, ?_⟩
    exact fun elapsed h => h.1
  next hlt =>
    refine ⟨⟨div_nonneg (by linarith) hrate.le, ?_⟩, ?_⟩
    · rw [div_mul_cancel₀ _ hrate.ne']
      linarith
    · rintro elapsed ⟨-, h⟩
      rw [div_le_iff₀ hrate]
      linarith

/-- A bucket is the exact sliding-window limiter: it holds what the tightest of the windows that end
now has left, grants just what they all allow, and `timeUntil` is the least time to wait. -/
theorem bucket_exact (ratePerSec burst : ℕ) (calls : List BucketCall) :
    let start := TokenBucket.new ratePerSec burst
    let b := start.after calls
    let C : ℚ := (max burst 1 : ℕ)
    let R : ℚ := (max ratePerSec 1 : ℕ)
    IsLeast {left | ∃ before later, calls = before ++ later ∧
      C + R * refilled later - (start.after before).granted later = left} b.tokens ∧
    (0 ≤ b.tokens ∧ b.tokens ≤ C) ∧
    (∀ n, (b.tryConsume n).1 = true ↔ ∀ before later, calls = before ++ later →
      (start.after before).granted later + n ≤ C + R * refilled later) ∧
    (∀ n, (b.tryConsume n).1 = false → (b.tryConsume n).2 = b) ∧
    ∀ n : ℕ, n ≤ C → IsLeast {elapsed : ℚ | 0 ≤ elapsed ∧
      ((b.refill elapsed).tryConsume n).1 = true} (b.timeUntil n) := by
  intro start b C R
  obtain ⟨hcap, hrate⟩ : b.capacity = C ∧ b.rate = R := start.after_shape calls
  have hR : 0 < R := by simp [R]
  have hC : 0 ≤ C := Nat.cast_nonneg _
  have hleast : IsLeast {left | ∃ before later, calls = before ++ later ∧
      C + R * refilled later - (start.after before).granted later = left} b.tokens :=
    start.tokens_isLeast rfl
  refine ⟨hleast, ⟨start.tokens_nonneg hR.le hC hC, ?_⟩, ?_, ?_, ?_⟩
  · apply hleast.2
    exact ⟨calls, [], (List.append_nil calls).symm, by simp [refilled, TokenBucket.granted]⟩
  · intro n
    rw [TokenBucket.tryConsume_iff]
    constructor
    · intro hn before later hcalls
      have hle := hleast.2 ⟨before, later, hcalls, rfl⟩
      linarith
    · intro hall
      obtain ⟨before, later, hcalls, heq⟩ := hleast.1
      have hle := hall before later hcalls
      linarith
  · intro n hn
    unfold TokenBucket.tryConsume at hn ⊢
    split at hn
    next => cases hn
    next hnot => rw [if_neg hnot]
  · intro n hn
    exact TokenBucket.timeUntil_isLeast (hrate ▸ hR) (hcap ▸ hn)

/-- A refused call takes nothing, and half a second later half of the burst is there again. -/
theorem bucket_exact_refused :
    let b := (TokenBucket.new 100 100).after [.tryConsume 100, .tryConsume 1, .refill (1 / 2)]
    (b.tryConsume 60).1 = false ∧
    IsLeast {elapsed : ℚ | 0 ≤ elapsed ∧ ((b.refill elapsed).tryConsume 60).1 = true}
      (b.timeUntil 60) := by
  obtain ⟨-, -, -, -, waits⟩ := bucket_exact 100 100 [.tryConsume 100, .tryConsume 1, .refill (1 / 2)]
  exact ⟨by decide +kernel, waits 60 (by norm_num)⟩

end TtyGateway
