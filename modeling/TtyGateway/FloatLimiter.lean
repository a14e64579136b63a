import TtyGateway.Rounding
import Mathlib.Algebra.Order.Ring.Rat
import Mathlib.Data.Rat.Floor
import Mathlib.Tactic.NormNum

namespace TtyGateway

open Rounding

/-- The values of an `f64`. There is no greatest here. -/
abbrev binary64 : Set ℚ := grid 53 (-1074)

structure Duration where
  secs : UInt64
  nanos : ℕ
  nanos_lt : nanos < 10 ^ 9

def Duration.val (d : Duration) : ℚ := d.secs.toNat + d.nanos / 10 ^ 9

/-- A `TokenBucket` as it is, of `f64`. -/
structure FloatBucket where
  capacity : ℚ
  tokens : ℚ
  rate : ℚ
  deriving DecidableEq

section Bucket

variable (f64 : Nearest binary64)

def FloatBucket.new (ratePerSec burst : UInt64) : FloatBucket :=
  let capacity := f64.round (max burst.toNat 1 : ℕ)
  ⟨capacity, capacity, f64.round (max ratePerSec.toNat 1 : ℕ)⟩

def Duration.asSecsF64 (d : Duration) : ℚ :=
  f64.round (f64.round d.secs.toNat + f64.round (d.nanos / 10 ^ 9))

def FloatBucket.refill (b : FloatBucket) (elapsed : Duration) : FloatBucket :=
  { b with
    tokens := min (f64.round (b.tokens + f64.round (elapsed.asSecsF64 f64 * b.rate))) b.capacity }

def FloatBucket.tryConsume (b : FloatBucket) (amount : UInt64) : Bool × FloatBucket :=
  let amount := f64.round amount.toNat
  if amount ≤ b.tokens then (true, { b with tokens := f64.round (b.tokens - amount) })
  else (false, b)

/-- The whole numbers of nanoseconds. -/
abbrev ticks : Set ℚ := multiples (1 / 10 ^ 9)

/-- `Duration::from_secs_f64`, which panics where there is no such duration. -/
def fromSecsF64 (clock : Nearest ticks) (secs : ℚ) : Option ℚ :=
  if 0 ≤ secs ∧ secs < 2 ^ 64 then some (clock.round secs) else none

def FloatBucket.timeUntil (clock : Nearest ticks) (b : FloatBucket) (amount : UInt64) : Option ℚ :=
  let amount := min (f64.round amount.toNat) b.capacity
  if amount ≤ b.tokens then some 0
  else fromSecsF64 clock (f64.round (f64.round (amount - b.tokens) / b.rate))

/-- The loop of `throttle`, with the time that goes by before each round. It is `none` while the
loop goes on. -/
def FloatBucket.throttle (b : FloatBucket) (amount : UInt64) : List Duration → Option FloatBucket
  | [] => none
  | wait :: waits =>
    let b := b.refill f64 wait
    match b.tryConsume f64 amount with
    | (true, b) => some b
    | (false, b) => b.throttle amount waits

inductive FloatCall
  | refill (elapsed : Duration)
  | tryConsume (amount : UInt64)

def FloatBucket.apply (b : FloatBucket) : FloatCall → FloatBucket
  | .refill elapsed => b.refill f64 elapsed
  | .tryConsume amount => (b.tryConsume f64 amount).2

def FloatBucket.after (b : FloatBucket) (calls : List FloatCall) : FloatBucket :=
  calls.foldl (FloatBucket.apply f64) b

def FloatCall.elapsed : FloatCall → ℚ
  | .refill elapsed => elapsed.val
  | .tryConsume _ => 0

def FloatBucket.grant (b : FloatBucket) : FloatCall → ℚ
  | .refill _ => 0
  | .tryConsume amount => if (b.tryConsume f64 amount).1 then amount.toNat else 0

def floatRefilled (calls : List FloatCall) : ℚ := (calls.map FloatCall.elapsed).sum

def FloatBucket.granted (b : FloatBucket) : List FloatCall → ℚ
  | [] => 0
  | call :: calls => b.grant f64 call + (b.apply f64 call).granted calls

end Bucket

structure FloatBucket.Sane (b : FloatBucket) : Prop where
  tokens_mem : b.tokens ∈ binary64
  capacity_mem : b.capacity ∈ binary64
  tokens_nonneg : 0 ≤ b.tokens
  tokens_le : b.tokens ≤ b.capacity
  capacity_le : b.capacity ≤ 2 ^ 64
  one_le_rate : 1 ≤ b.rate
  rate_le : b.rate ≤ 2 ^ 64

section Sane

variable (f64 : Nearest binary64) {b : FloatBucket} {ratePerSec burst amount : UInt64}
  {elapsed : Duration} {call : FloatCall} {calls : List FloatCall}

theorem zero_mem_binary64 : (0 : ℚ) ∈ binary64 := ⟨0, 0, by simp, by norm_num, by simp⟩

theorem one_mem_binary64 : (1 : ℚ) ∈ binary64 := ⟨1, 0, by norm_num, by norm_num, by simp⟩

theorem round_nonneg {x : ℚ} (h : 0 ≤ x) : 0 ≤ f64.round x := f64.le_round zero_mem_binary64 h

theorem round_le_two_pow {x : ℚ} {n : ℕ} (h : x ≤ 2 ^ n) : f64.round x ≤ 2 ^ n :=
  f64.round_le (two_pow_mem (by norm_num) n) h

theorem uint64_le (n : UInt64) : ((max n.toNat 1 : ℕ) : ℚ) ≤ 2 ^ 64 := by
  have := n.toNat_lt
  exact_mod_cast (by omega : max n.toNat 1 ≤ 2 ^ 64)

theorem FloatBucket.sane_new : (FloatBucket.new f64 ratePerSec burst).Sane where
  tokens_mem := f64.mem _
  capacity_mem := f64.mem _
  tokens_nonneg := round_nonneg f64 (Nat.cast_nonneg _)
  tokens_le := le_rfl
  capacity_le := round_le_two_pow f64 (uint64_le burst)
  one_le_rate := f64.le_round one_mem_binary64 (by exact_mod_cast le_max_right _ 1)
  rate_le := round_le_two_pow f64 (uint64_le ratePerSec)

theorem Duration.asSecsF64_nonneg (elapsed : Duration) : 0 ≤ elapsed.asSecsF64 f64 :=
  round_nonneg f64 (add_nonneg (round_nonneg f64 (Nat.cast_nonneg _))
    (round_nonneg f64 (by positivity)))

theorem FloatBucket.Sane.refill (h : b.Sane) : (b.refill f64 elapsed).Sane where
  tokens_mem := by
    unfold FloatBucket.refill
    rcases min_choice (f64.round (b.tokens + f64.round (elapsed.asSecsF64 f64 * b.rate))) b.capacity
      with he | he
    · simp only [he]
      exact f64.mem _
    · simp only [he]
      exact h.capacity_mem
  capacity_mem := h.capacity_mem
  tokens_nonneg := by
    have hrate : 0 ≤ b.rate := zero_le_one.trans h.one_le_rate
    refine le_min (round_nonneg f64 (add_nonneg h.tokens_nonneg (round_nonneg f64 ?_)))
      (h.tokens_nonneg.trans h.tokens_le)
    exact mul_nonneg (Duration.asSecsF64_nonneg f64 _) hrate
  tokens_le := min_le_right _ _
  capacity_le := h.capacity_le
  one_le_rate := h.one_le_rate
  rate_le := h.rate_le

theorem FloatBucket.Sane.tryConsume (h : b.Sane) : (b.tryConsume f64 amount).2.Sane := by
  unfold FloatBucket.tryConsume
  dsimp only
  split
  next hle =>
    have hamount : 0 ≤ f64.round amount.toNat := round_nonneg f64 (Nat.cast_nonneg _)
    refine ⟨f64.mem _, h.capacity_mem, round_nonneg f64 (sub_nonneg.mpr hle), ?_, h.capacity_le,
      h.one_le_rate, h.rate_le⟩
    exact (f64.round_le h.tokens_mem (sub_le_self _ hamount)).trans h.tokens_le
  next => exact h

theorem FloatBucket.Sane.apply (h : b.Sane) (call : FloatCall) : (b.apply f64 call).Sane := by
  cases call with
  | refill elapsed => exact h.refill f64
  | tryConsume amount => exact h.tryConsume f64

theorem FloatBucket.apply_shape (call : FloatCall) :
    (b.apply f64 call).capacity = b.capacity ∧ (b.apply f64 call).rate = b.rate := by
  cases call with
  | refill elapsed => exact ⟨rfl, rfl⟩
  | tryConsume amount =>
    unfold FloatBucket.apply FloatBucket.tryConsume
    dsimp only
    split <;> exact ⟨rfl, rfl⟩

theorem FloatBucket.Sane.after (h : b.Sane) (calls : List FloatCall) :
    (b.after f64 calls).Sane ∧ (b.after f64 calls).capacity = b.capacity ∧
      (b.after f64 calls).rate = b.rate := by
  induction calls generalizing b with
  | nil => exact ⟨h, rfl, rfl⟩
  | cons call calls ih =>
    obtain ⟨hcap, hrate⟩ := b.apply_shape f64 call
    obtain ⟨hsane, hc, hr⟩ := ih (h.apply f64 call)
    exact ⟨hsane, hc.trans hcap, hr.trans hrate⟩

end Sane

section Drift

variable (f64 : Nearest binary64) {b : FloatBucket} {ratePerSec amount : UInt64}
  {elapsed : Duration} {call : FloatCall} {calls : List FloatCall} {rate : ℚ}

theorem round_natCast_le (n : ℕ) : f64.round n ≤ n * (1 + 1 / 2 ^ 53) :=
  f64.round_le_add (Nat.cast_nonneg n) (Or.inl (multiple_natCast (by norm_num) n))

theorem nanos_large {n : ℕ} (h : 1 ≤ n) : (2 : ℚ) ^ (-30 : ℤ) ≤ n / 10 ^ 9 := by
  have hn : (1 : ℚ) ≤ n := by exact_mod_cast h
  rw [le_div_iff₀ (by norm_num)]
  calc (2 : ℚ) ^ (-30 : ℤ) * 10 ^ 9 ≤ 1 := by norm_num
    _ ≤ n := hn

theorem large_of_le {x : ℚ} (h : (2 : ℚ) ^ (-30 : ℤ) ≤ x) :
    (2 : ℚ) ^ ((-1074 : ℤ) + (53 : ℕ) - 1) ≤ x :=
  (zpow_le_zpow_right₀ one_le_two (by norm_num)).trans h

theorem Duration.nanos_multiple (elapsed : Duration) :
    Multiple (-1074) (elapsed.nanos / 10 ^ 9 : ℚ) ∨
      (2 : ℚ) ^ ((-1074 : ℤ) + (53 : ℕ) - 1) ≤ elapsed.nanos / 10 ^ 9 := by
  rcases Nat.eq_zero_or_pos elapsed.nanos with hzero | hpos
  · exact Or.inl ⟨0, by simp [hzero]⟩
  · exact Or.inr (large_of_le (nanos_large hpos))

theorem Duration.asSecsF64_le (elapsed : Duration) :
    elapsed.asSecsF64 f64 ≤ elapsed.val * (1 + 1 / 2 ^ 53) ^ 2 := by
  have hsecs := round_natCast_le f64 elapsed.secs.toNat
  have hnanos : f64.round (elapsed.nanos / 10 ^ 9) ≤ elapsed.nanos / 10 ^ 9 * (1 + 1 / 2 ^ 53) :=
    f64.round_le_add (by positivity) elapsed.nanos_multiple
  have hsum : 0 ≤ f64.round elapsed.secs.toNat + f64.round (elapsed.nanos / 10 ^ 9) :=
    add_nonneg (round_nonneg f64 (Nat.cast_nonneg _)) (round_nonneg f64 (by positivity))
  calc elapsed.asSecsF64 f64
      ≤ (f64.round elapsed.secs.toNat + f64.round (elapsed.nanos / 10 ^ 9)) * (1 + 1 / 2 ^ 53) :=
        f64.round_le_add hsum
          (Or.inl ((multiple_of_mem (f64.mem _)).add (multiple_of_mem (f64.mem _))))
    _ ≤ (elapsed.secs.toNat * (1 + 1 / 2 ^ 53) + elapsed.nanos / 10 ^ 9 * (1 + 1 / 2 ^ 53)) *
          (1 + 1 / 2 ^ 53) := by gcongr
    _ = elapsed.val * (1 + 1 / 2 ^ 53) ^ 2 := by
        unfold Duration.val
        ring

theorem Duration.asSecsF64_cases (elapsed : Duration) :
    elapsed.asSecsF64 f64 = 0 ∨ (2 : ℚ) ^ (-30 : ℤ) ≤ elapsed.asSecsF64 f64 := by
  have hmem : (2 : ℚ) ^ (-30 : ℤ) ∈ binary64 := ⟨1, -30, by norm_num, by norm_num, by simp⟩
  have hsecs : 0 ≤ f64.round elapsed.secs.toNat := round_nonneg f64 (Nat.cast_nonneg _)
  have hnanos : 0 ≤ f64.round (elapsed.nanos / 10 ^ 9) := round_nonneg f64 (by positivity)
  rcases Nat.eq_zero_or_pos elapsed.nanos with hnzero | hnpos
  · rcases Nat.eq_zero_or_pos elapsed.secs.toNat with hszero | hspos
    · left
      simp [Duration.asSecsF64, hnzero, hszero, f64.round_of_mem zero_mem_binary64]
    · right
      refine f64.le_round hmem ?_
      have hone : (1 : ℚ) ≤ f64.round elapsed.secs.toNat :=
        f64.le_round one_mem_binary64 (by exact_mod_cast hspos)
      calc (2 : ℚ) ^ (-30 : ℤ) ≤ 1 := by norm_num
        _ ≤ _ := by linarith
  · right
    refine f64.le_round hmem ?_
    have hlarge := f64.le_round hmem (nanos_large hnpos)
    linarith

theorem FloatBucket.product_multiple (h : b.Sane) (elapsed : Duration) :
    Multiple (-1074) (elapsed.asSecsF64 f64 * b.rate) ∨
      (2 : ℚ) ^ ((-1074 : ℤ) + (53 : ℕ) - 1) ≤ elapsed.asSecsF64 f64 * b.rate := by
  rcases Duration.asSecsF64_cases f64 elapsed with hzero | hlarge
  · exact Or.inl ⟨0, by simp [hzero]⟩
  · exact Or.inr (large_of_le (hlarge.trans
      (le_mul_of_one_le_right (Duration.asSecsF64_nonneg f64 _) h.one_le_rate)))

/-- A refill adds no more than the time is worth, but for roundings. -/
theorem FloatBucket.refill_tokens_le (h : b.Sane) (hrate : b.rate ≤ rate * (1 + 1 / 2 ^ 53))
    (elapsed : Duration) :
    (b.refill f64 elapsed).tokens ≤
      b.tokens + (1 + 1 / 2 ^ 50) * rate * elapsed.val + b.capacity / 2 ^ 53 := by
  have hsecs := Duration.asSecsF64_le f64 elapsed
  have hnonneg := Duration.asSecsF64_nonneg f64 elapsed
  have hval : 0 ≤ elapsed.val := by
    unfold Duration.val
    positivity
  have hb := h.one_le_rate
  have hgain : f64.round (elapsed.asSecsF64 f64 * b.rate) ≤
      elapsed.asSecsF64 f64 * b.rate * (1 + 1 / 2 ^ 53) :=
    f64.round_le_add (by positivity) (FloatBucket.product_multiple f64 h elapsed)
  have hpos : 0 < rate := by
    by_contra hneg
    have hle : rate * (1 + 1 / 2 ^ 53) ≤ 0 :=
      mul_nonpos_of_nonpos_of_nonneg (not_lt.mp hneg) (by norm_num)
    linarith
  have hsum : 0 ≤ b.tokens + f64.round (elapsed.asSecsF64 f64 * b.rate) :=
    add_nonneg h.tokens_nonneg (round_nonneg f64 (by positivity))
  have hscaled : f64.round (elapsed.asSecsF64 f64 * b.rate) * (1 + 1 / 2 ^ 53) ≤
      (1 + 1 / 2 ^ 50) * rate * elapsed.val := by
    calc f64.round (elapsed.asSecsF64 f64 * b.rate) * (1 + 1 / 2 ^ 53)
        ≤ elapsed.asSecsF64 f64 * b.rate * (1 + 1 / 2 ^ 53) * (1 + 1 / 2 ^ 53) := by gcongr
      _ ≤ elapsed.val * (1 + 1 / 2 ^ 53) ^ 2 * (rate * (1 + 1 / 2 ^ 53)) * (1 + 1 / 2 ^ 53) *
            (1 + 1 / 2 ^ 53) := by gcongr
      _ = (1 + 1 / 2 ^ 53) ^ 5 * (rate * elapsed.val) := by ring
      _ ≤ (1 + 1 / 2 ^ 50) * (rate * elapsed.val) :=
          mul_le_mul_of_nonneg_right (by norm_num) (by positivity)
      _ = (1 + 1 / 2 ^ 50) * rate * elapsed.val := by ring
  have hround : (b.refill f64 elapsed).tokens ≤
      (b.tokens + f64.round (elapsed.asSecsF64 f64 * b.rate)) * (1 + 1 / 2 ^ 53) :=
    (min_le_left _ _).trans (f64.round_le_add hsum
      (Or.inl ((multiple_of_mem h.tokens_mem).add (multiple_of_mem (f64.mem _)))))
  have hroom := h.tokens_le
  linarith

theorem FloatBucket.consume_tokens_le (h : b.Sane) (amount : UInt64) :
    (b.tryConsume f64 amount).2.tokens + b.grant f64 (.tryConsume amount) ≤
      b.tokens + b.capacity / 2 ^ 51 := by
  have hcap : 0 ≤ b.capacity := h.tokens_nonneg.trans h.tokens_le
  unfold FloatBucket.grant FloatBucket.tryConsume
  dsimp only
  split
  next hle =>
    have hleft : f64.round (b.tokens - f64.round amount.toNat) ≤
        (b.tokens - f64.round amount.toNat) * (1 + 1 / 2 ^ 53) :=
      f64.round_le_add (sub_nonneg.mpr hle)
        (Or.inl ((multiple_of_mem h.tokens_mem).sub (multiple_of_mem (f64.mem _))))
    have herror := f64.relative (x := (amount.toNat : ℚ))
      (Or.inl (multiple_natCast (by norm_num) _))
    have hamount : (0 : ℚ) ≤ amount.toNat := Nat.cast_nonneg _
    rw [abs_of_nonneg hamount] at herror
    have hbelow := (abs_le.mp herror).1
    have hroom := h.tokens_le
    simp only [if_true]
    linarith
  next =>
    simp only [Bool.false_eq_true, if_false]
    have : 0 ≤ b.capacity / 2 ^ 51 := by positivity
    linarith

theorem FloatBucket.apply_tokens_le (h : b.Sane) (hrate : b.rate ≤ rate * (1 + 1 / 2 ^ 53))
    (call : FloatCall) :
    (b.apply f64 call).tokens + b.grant f64 call ≤
      b.tokens + (1 + 1 / 2 ^ 50) * rate * call.elapsed + b.capacity / 2 ^ 51 := by
  have hcap : 0 ≤ b.capacity := h.tokens_nonneg.trans h.tokens_le
  cases call with
  | refill elapsed =>
    have hle := FloatBucket.refill_tokens_le f64 h hrate elapsed
    simp only [FloatBucket.apply, FloatBucket.grant, FloatCall.elapsed]
    linarith
  | tryConsume amount =>
    have hle := FloatBucket.consume_tokens_le f64 h amount
    simp only [FloatBucket.apply, FloatCall.elapsed]
    linarith

/-- The window law of the exact bucket, with an error for each call. -/
theorem FloatBucket.after_tokens_le (h : b.Sane) (hrate : b.rate ≤ rate * (1 + 1 / 2 ^ 53))
    (calls : List FloatCall) :
    (b.after f64 calls).tokens + b.granted f64 calls ≤
      b.tokens + (1 + 1 / 2 ^ 50) * rate * floatRefilled calls +
        calls.length * (b.capacity / 2 ^ 51) := by
  induction calls generalizing b with
  | nil => simp [FloatBucket.after, FloatBucket.granted, floatRefilled]
  | cons call calls ih =>
    obtain ⟨hc, hr⟩ := b.apply_shape f64 call
    have hstep := FloatBucket.apply_tokens_le f64 h hrate call
    have hrest := ih (h.apply f64 call) (hr ▸ hrate)
    rw [hc] at hrest
    simp only [FloatBucket.after, FloatBucket.granted, floatRefilled, List.foldl_cons,
      List.map_cons, List.sum_cons, List.length_cons, Nat.cast_add, Nat.cast_one] at hrest ⊢
    linarith

end Drift

section Gain

variable (f64 : Nearest binary64) {b : FloatBucket} {amount : UInt64} {rate : ℚ}

theorem Duration.val_cases (elapsed : Duration) :
    elapsed.secs.toNat = 0 ∧ elapsed.nanos = 0 ∨ 1 / 10 ^ 9 ≤ elapsed.val := by
  unfold Duration.val
  rcases Nat.eq_zero_or_pos elapsed.nanos with hnzero | hnpos
  · rcases Nat.eq_zero_or_pos elapsed.secs.toNat with hszero | hspos
    · exact Or.inl ⟨hszero, hnzero⟩
    · have hone : (1 : ℚ) ≤ elapsed.secs.toNat := by exact_mod_cast hspos
      right
      rw [hnzero, Nat.cast_zero, zero_div, add_zero]
      exact le_trans (by norm_num) hone
  · have hone : (1 : ℚ) ≤ elapsed.nanos := by exact_mod_cast hnpos
    right
    exact (div_le_div_of_nonneg_right hone (by positivity)).trans
      (le_add_of_nonneg_left (Nat.cast_nonneg _))

theorem Duration.le_asSecsF64 (elapsed : Duration) :
    elapsed.val * (1 - 1 / 2 ^ 53) ^ 2 ≤ elapsed.asSecsF64 f64 := by
  have hsecs : elapsed.secs.toNat * (1 - 1 / 2 ^ 53) ≤ f64.round elapsed.secs.toNat :=
    f64.sub_le_round (Nat.cast_nonneg _) (Or.inl (multiple_natCast (by norm_num) _))
  have hnanos : elapsed.nanos / 10 ^ 9 * (1 - 1 / 2 ^ 53) ≤ f64.round (elapsed.nanos / 10 ^ 9) :=
    f64.sub_le_round (by positivity) elapsed.nanos_multiple
  have hsum : 0 ≤ f64.round elapsed.secs.toNat + f64.round (elapsed.nanos / 10 ^ 9) :=
    add_nonneg (round_nonneg f64 (Nat.cast_nonneg _)) (round_nonneg f64 (by positivity))
  calc elapsed.val * (1 - 1 / 2 ^ 53) ^ 2
      = (elapsed.secs.toNat * (1 - 1 / 2 ^ 53) + elapsed.nanos / 10 ^ 9 * (1 - 1 / 2 ^ 53)) *
          (1 - 1 / 2 ^ 53) := by
        unfold Duration.val
        ring
    _ ≤ (f64.round elapsed.secs.toNat + f64.round (elapsed.nanos / 10 ^ 9)) * (1 - 1 / 2 ^ 53) :=
        mul_le_mul_of_nonneg_right (add_le_add hsecs hnanos) (by norm_num)
    _ ≤ elapsed.asSecsF64 f64 :=
        f64.sub_le_round hsum
          (Or.inl ((multiple_of_mem (f64.mem _)).add (multiple_of_mem (f64.mem _))))

theorem FloatBucket.refill_idle (h : b.Sane) {elapsed : Duration} (hs : elapsed.secs.toNat = 0)
    (hn : elapsed.nanos = 0) : (b.refill f64 elapsed).tokens = b.tokens := by
  simp [FloatBucket.refill, Duration.asSecsF64, hs, hn, f64.round_of_mem zero_mem_binary64,
    f64.round_of_mem h.tokens_mem, h.tokens_le]

/-- A burst is small enough for a nanosecond not to be lost in a refill. -/
theorem FloatBucket.le_refill_tokens (h : b.Sane) (hcap : b.capacity ≤ 2 ^ 20) (hone : 1 ≤ rate)
    (hrate : rate * (1 - 1 / 2 ^ 53) ≤ b.rate) (elapsed : Duration) :
    min b.capacity (b.tokens + 7 / 8 * rate * elapsed.val) ≤ (b.refill f64 elapsed).tokens := by
  rcases elapsed.val_cases with ⟨hs, hn⟩ | hval
  · rw [FloatBucket.refill_idle f64 h hs hn]
    simp [Duration.val, hs, hn]
  have hpos : 0 ≤ elapsed.val := le_trans (by norm_num) hval
  have hb : 0 ≤ b.rate := zero_le_one.trans h.one_le_rate
  have hseconds := Duration.le_asSecsF64 f64 elapsed
  have hnonneg := Duration.asSecsF64_nonneg f64 elapsed
  have hgain : (1 - 1 / 2 ^ 53) ^ 4 * (rate * elapsed.val) ≤
      f64.round (elapsed.asSecsF64 f64 * b.rate) := by
    calc (1 - 1 / 2 ^ 53) ^ 4 * (rate * elapsed.val)
        = elapsed.val * (1 - 1 / 2 ^ 53) ^ 2 * (rate * (1 - 1 / 2 ^ 53)) * (1 - 1 / 2 ^ 53) := by
          ring
      _ ≤ elapsed.asSecsF64 f64 * b.rate * (1 - 1 / 2 ^ 53) := by
          refine mul_le_mul_of_nonneg_right ?_ (by norm_num)
          exact mul_le_mul hseconds hrate
            (mul_nonneg (zero_le_one.trans hone) (by norm_num)) hnonneg
      _ ≤ f64.round (elapsed.asSecsF64 f64 * b.rate) :=
          f64.sub_le_round (mul_nonneg hnonneg hb) (FloatBucket.product_multiple f64 h elapsed)
  have hworth : 1 / 10 ^ 9 ≤ rate * elapsed.val :=
    hval.trans (le_mul_of_one_le_left hpos hone)
  have hscaled : 7 / 8 * (rate * elapsed.val) + 1 / 2 ^ 33 ≤
      (1 - 1 / 2 ^ 53) ^ 5 * (rate * elapsed.val) := by
    calc 7 / 8 * (rate * elapsed.val) + 1 / 2 ^ 33
        ≤ 7 / 8 * (rate * elapsed.val) + ((1 - 1 / 2 ^ 53) ^ 5 - 7 / 8) * (1 / 10 ^ 9) :=
          add_le_add_right (by norm_num) _
      _ ≤ 7 / 8 * (rate * elapsed.val) + ((1 - 1 / 2 ^ 53) ^ 5 - 7 / 8) * (rate * elapsed.val) :=
          add_le_add_right (mul_le_mul_of_nonneg_left hworth (by norm_num)) _
      _ = (1 - 1 / 2 ^ 53) ^ 5 * (rate * elapsed.val) := by ring
  have hround : (b.tokens + f64.round (elapsed.asSecsF64 f64 * b.rate)) * (1 - 1 / 2 ^ 53) ≤
      f64.round (b.tokens + f64.round (elapsed.asSecsF64 f64 * b.rate)) :=
    f64.sub_le_round (add_nonneg h.tokens_nonneg (round_nonneg f64 (mul_nonneg hnonneg hb)))
      (Or.inl ((multiple_of_mem h.tokens_mem).add (multiple_of_mem (f64.mem _))))
  have hlost : b.tokens * (1 / 2 ^ 53) ≤ 1 / 2 ^ 33 :=
    (mul_le_mul_of_nonneg_right (h.tokens_le.trans hcap) (by norm_num)).trans (by norm_num)
  have hfifth : (1 - 1 / 2 ^ 53) ^ 5 * (rate * elapsed.val) ≤
      f64.round (elapsed.asSecsF64 f64 * b.rate) * (1 - 1 / 2 ^ 53) := by
    calc (1 - 1 / 2 ^ 53) ^ 5 * (rate * elapsed.val)
        = (1 - 1 / 2 ^ 53) ^ 4 * (rate * elapsed.val) * (1 - 1 / 2 ^ 53) := by ring
      _ ≤ f64.round (elapsed.asSecsF64 f64 * b.rate) * (1 - 1 / 2 ^ 53) :=
          mul_le_mul_of_nonneg_right hgain (by norm_num)
  refine le_min ((min_le_right _ _).trans ?_) (min_le_left _ _)
  calc b.tokens + 7 / 8 * rate * elapsed.val
      ≤ b.tokens * (1 - 1 / 2 ^ 53) +
          f64.round (elapsed.asSecsF64 f64 * b.rate) * (1 - 1 / 2 ^ 53) := by linarith
    _ = (b.tokens + f64.round (elapsed.asSecsF64 f64 * b.rate)) * (1 - 1 / 2 ^ 53) := by ring
    _ ≤ _ := hround

/-- A whole number of tokens that fits the bucket is granted if it is there. -/
theorem FloatBucket.tryConsume_of_le (hsmall : amount.toNat ≤ 2 ^ 53)
    (h : (amount.toNat : ℚ) ≤ b.tokens) : (b.tryConsume f64 amount).1 = true := by
  have hexact : f64.round amount.toNat = amount.toNat :=
    f64.round_of_mem (natCast_mem (by norm_num) hsmall)
  unfold FloatBucket.tryConsume
  dsimp only
  rw [if_pos (hexact.le.trans h)]

theorem FloatBucket.tryConsume_refused (h : (b.tryConsume f64 amount).1 = false) :
    b.tryConsume f64 amount = (false, b) := by
  unfold FloatBucket.tryConsume at h ⊢
  dsimp only at h ⊢
  split at h
  next => cases h
  next hlt => rw [if_neg hlt]

/-- The loop goes on as long as the bucket would refuse after all of the waits. -/
theorem FloatBucket.throttle_isSome (h : b.Sane) (hcap : b.capacity ≤ 2 ^ 20) (hone : 1 ≤ rate)
    (hrate : rate * (1 - 1 / 2 ^ 53) ≤ b.rate) (hsmall : amount.toNat ≤ 2 ^ 53)
    (hfits : (amount.toNat : ℚ) ≤ b.capacity) {waits : List Duration} (hne : waits ≠ [])
    (hwaited : (amount.toNat : ℚ) ≤ b.tokens + 7 / 8 * rate * (waits.map Duration.val).sum) :
    ∃ b', b.throttle f64 amount waits = some b' ∧ b'.Sane := by
  induction waits generalizing b with
  | nil => exact absurd rfl hne
  | cons wait waits ih =>
    have hsane : (b.refill f64 wait).Sane := h.refill f64
    have hstep := FloatBucket.le_refill_tokens f64 h hcap hone hrate wait
    rw [FloatBucket.throttle]
    cases hgranted : ((b.refill f64 wait).tryConsume f64 amount).1 with
    | true =>
      have hpair : (b.refill f64 wait).tryConsume f64 amount =
          (true, ((b.refill f64 wait).tryConsume f64 amount).2) := Prod.ext hgranted rfl
      rw [hpair]
      exact ⟨_, rfl, FloatBucket.Sane.tryConsume f64 hsane⟩
    | false =>
      -- refused, it is not full, and has all that it was refilled for
      have hlt : (b.refill f64 wait).tokens < amount.toNat := by
        by_contra hle
        rw [FloatBucket.tryConsume_of_le f64 hsmall (not_lt.mp hle)] at hgranted
        cases hgranted
      have hmore : b.tokens + 7 / 8 * rate * wait.val ≤ (b.refill f64 wait).tokens := by
        rcases min_le_iff.mp hstep with hfull | hmore
        · exact absurd (hfits.trans hfull) (not_le.mpr hlt)
        · exact hmore
      rw [FloatBucket.tryConsume_refused f64 hgranted]
      rw [List.map_cons, List.sum_cons, mul_add] at hwaited
      refine ih hsane hcap hrate hfits ?_ (by linarith)
      rintro rfl
      rw [List.map_nil, List.sum_nil, mul_zero] at hwaited
      linarith

theorem FloatBucket.throttle_none (h : b.Sane) (hover : b.capacity < f64.round amount.toNat)
    (waits : List Duration) : b.throttle f64 amount waits = none := by
  induction waits generalizing b with
  | nil => rfl
  | cons wait waits ih =>
    have hsane : (b.refill f64 wait).Sane := h.refill f64
    have hlt : ¬ f64.round amount.toNat ≤ (b.refill f64 wait).tokens :=
      not_le.mpr (hsane.tokens_le.trans_lt hover)
    rw [FloatBucket.throttle]
    have hrefused : (b.refill f64 wait).tryConsume f64 amount = (false, b.refill f64 wait) :=
      if_neg hlt
    rw [hrefused]
    exact ih hsane hover

end Gain

section Panic

variable (f64 : Nearest binary64) (clock : Nearest ticks) {b : FloatBucket} {amount : UInt64}
  {elapsed : Duration}

/-- No sum of a refill is anywhere near the greatest `f64`. -/
theorem FloatBucket.refill_sum_le (h : b.Sane) :
    b.tokens + f64.round (elapsed.asSecsF64 f64 * b.rate) ≤ 2 ^ 130 := by
  have hlt := elapsed.secs.toNat_lt
  have hsecs : f64.round elapsed.secs.toNat ≤ 2 ^ 64 :=
    round_le_two_pow f64 (by exact_mod_cast hlt.le)
  have hnanos : f64.round (elapsed.nanos / 10 ^ 9) ≤ 2 ^ 0 := by
    refine round_le_two_pow f64 ?_
    rw [pow_zero, div_le_one (by norm_num)]
    exact_mod_cast elapsed.nanos_lt.le
  have hseconds : elapsed.asSecsF64 f64 ≤ 2 ^ 65 := round_le_two_pow f64 (by linarith)
  have hproduct : f64.round (elapsed.asSecsF64 f64 * b.rate) ≤ 2 ^ 129 := by
    refine round_le_two_pow f64 ?_
    calc elapsed.asSecsF64 f64 * b.rate ≤ 2 ^ 65 * 2 ^ 64 :=
          mul_le_mul hseconds h.rate_le (zero_le_one.trans h.one_le_rate) (by norm_num)
      _ = 2 ^ 129 := by norm_num
  have htokens := h.tokens_le.trans h.capacity_le
  linarith

/-- What is waited for is a duration, and no longer than the bucket takes to fill. -/
theorem FloatBucket.timeUntil_some (h : b.Sane) (hcap : b.capacity ≤ 2 ^ 63) :
    ∃ wait, b.timeUntil f64 clock amount = some wait ∧ 0 ≤ wait ∧
      wait ≤ clock.round (f64.round (b.capacity / b.rate)) := by
  have hzero : (0 : ℚ) ∈ ticks := ⟨0, by simp⟩
  have hrate : 0 < b.rate := zero_lt_one.trans_le h.one_le_rate
  have hc : 0 ≤ b.capacity := h.tokens_nonneg.trans h.tokens_le
  have hquotient : 0 ≤ b.capacity / b.rate := div_nonneg hc hrate.le
  unfold FloatBucket.timeUntil
  dsimp only
  split
  next => exact ⟨0, rfl, le_rfl, clock.le_round hzero (round_nonneg f64 hquotient)⟩
  next hlt =>
    have hdeficit := sub_pos.mpr (not_le.mp hlt)
    have hle : min (f64.round amount.toNat) b.capacity - b.tokens ≤ b.capacity :=
      (sub_le_self _ h.tokens_nonneg).trans (min_le_right _ _)
    have hmono : f64.round
        (f64.round (min (f64.round amount.toNat) b.capacity - b.tokens) / b.rate) ≤
          f64.round (b.capacity / b.rate) :=
      f64.round_mono (div_le_div_of_nonneg_right (f64.round_le h.capacity_mem hle) hrate.le)
    have hnonneg : 0 ≤ f64.round
        (f64.round (min (f64.round amount.toNat) b.capacity - b.tokens) / b.rate) :=
      round_nonneg f64 (div_nonneg (round_nonneg f64 hdeficit.le) hrate.le)
    have hbound : f64.round (b.capacity / b.rate) ≤ 2 ^ 63 :=
      round_le_two_pow f64 ((div_le_self hc h.one_le_rate).trans hcap)
    have hfits : f64.round
        (f64.round (min (f64.round amount.toNat) b.capacity - b.tokens) / b.rate) < 2 ^ 64 :=
      (hmono.trans hbound).trans_lt (by norm_num)
    exact ⟨_, if_pos ⟨hnonneg, hfits⟩, clock.le_round hzero hnonneg, clock.round_mono hmono⟩

end Panic

/-- As it is computed, the bucket is a sliding-window limiter but for a part in `2 ^ 50` of the rate
and, for each call, in `2 ^ 51` of the burst. It never holds less than nothing or more than the
burst, its sums are far from overflowing, and `time_until` does not panic. -/
theorem float_bucket (f64 : Nearest binary64) (clock : Nearest ticks) (ratePerSec burst : UInt64)
    (calls : List FloatCall) :
    let start := FloatBucket.new f64 ratePerSec burst
    let b := start.after f64 calls
    let R : ℚ := (max ratePerSec.toNat 1 : ℕ)
    (b.capacity = start.capacity ∧ 0 ≤ b.tokens ∧ b.tokens ≤ b.capacity) ∧
    (∀ before window, calls = before ++ window →
      (start.after f64 before).granted f64 window ≤ start.capacity +
        (1 + 1 / 2 ^ 50) * R * floatRefilled window +
        window.length * (start.capacity / 2 ^ 51)) ∧
    (∀ elapsed : Duration,
      b.tokens + f64.round (elapsed.asSecsF64 f64 * b.rate) ≤ 2 ^ 130) ∧
    (burst.toNat ≤ 2 ^ 63 → ∀ amount, ∃ wait, b.timeUntil f64 clock amount = some wait ∧ 0 ≤ wait ∧
      wait ≤ clock.round (f64.round (b.capacity / b.rate))) := by
  intro start b R
  have hstart : start.Sane := FloatBucket.sane_new f64
  obtain ⟨hsane, hcap, -⟩ := hstart.after f64 calls
  refine ⟨⟨hcap, hsane.tokens_nonneg, hsane.tokens_le⟩, ?_,
    fun _ => FloatBucket.refill_sum_le f64 hsane, fun hburst amount => ?_⟩
  · rintro before window -
    obtain ⟨hmiddle, hc, hr⟩ := hstart.after f64 before
    have hrate : (start.after f64 before).rate ≤ R * (1 + 1 / 2 ^ 53) := by
      rw [hr]
      exact round_natCast_le f64 _
    have hlaw := FloatBucket.after_tokens_le f64 hmiddle hrate window
    have hend := (hmiddle.after f64 window).1.tokens_nonneg
    have hfull := hmiddle.tokens_le
    rw [hc] at hlaw hfull
    linarith
  · refine FloatBucket.timeUntil_some f64 clock hsane ?_
    rw [hcap]
    refine round_le_two_pow f64 ?_
    exact_mod_cast (by omega : max burst.toNat 1 ≤ 2 ^ 63)

theorem tick_pos : (0 : ℚ) < 1 / 10 ^ 9 := by norm_num

theorem float_bucket_megabyte :
    let f64 : Nearest binary64 := Rounding.nearest (by decide) (-1074)
    let clock : Nearest ticks := Rounding.nearestMultiple tick_pos
    let b := (FloatBucket.new f64 10 1048576).after f64
      [.tryConsume 1048576, .refill ⟨0, 1, by decide⟩]
    ∀ amount, ∃ wait, b.timeUntil f64 clock amount = some wait ∧ 0 ≤ wait ∧
      wait ≤ clock.round (f64.round (b.capacity / b.rate)) := by
  intro f64 clock b
  exact (float_bucket f64 clock 10 1048576
    [.tryConsume 1048576, .refill ⟨0, 1, by decide⟩]).2.2.2 (by decide)

/-- The loop of `throttle` ends, and ends in time, for what fits a burst of the gateway's size, and
for nothing else: no wait is so short that a refill loses it. -/
theorem float_throttle (f64 : Nearest binary64) (ratePerSec burst amount : UInt64)
    (hburst : burst.toNat ≤ 2 ^ 20) (calls : List FloatCall) :
    let b := (FloatBucket.new f64 ratePerSec burst).after f64 calls
    let R : ℚ := (max ratePerSec.toNat 1 : ℕ)
    (amount.toNat ≤ max burst.toNat 1 → ∀ waits ≠ [],
      (amount.toNat : ℚ) ≤ b.tokens + 7 / 8 * R * (waits.map Duration.val).sum →
        ∃ b', b.throttle f64 amount waits = some b' ∧ 0 ≤ b'.tokens ∧
          b'.tokens ≤ b'.capacity) ∧
    (max burst.toNat 1 < amount.toNat → ∀ waits, b.throttle f64 amount waits = none) := by
  intro b R
  obtain ⟨hsane, hcap, hrate⟩ := (FloatBucket.sane_new f64).after f64 calls
  have hexact : b.capacity = (max burst.toNat 1 : ℕ) := by
    rw [hcap]
    exact f64.round_of_mem (natCast_mem (by norm_num) (by omega))
  have hone : 1 ≤ R := Nat.one_le_cast.mpr (le_max_right _ 1)
  refine ⟨fun hfits waits hne hwaited => ?_, fun hover => ?_⟩
  · have hbound : b.capacity ≤ 2 ^ 20 := by
      rw [hexact]
      exact_mod_cast (by omega : max burst.toNat 1 ≤ 2 ^ 20)
    have hlow : R * (1 - 1 / 2 ^ 53) ≤ b.rate := by
      rw [hrate]
      exact f64.sub_le_round (Nat.cast_nonneg _) (Or.inl (multiple_natCast (by norm_num) _))
    obtain ⟨b', he, hb'⟩ := FloatBucket.throttle_isSome f64 hsane hbound hone hlow (by omega)
      (hexact ▸ Nat.cast_le.mpr hfits) hne hwaited
    exact ⟨b', he, hb'.tokens_nonneg, hb'.tokens_le⟩
  · refine FloatBucket.throttle_none f64 hsane ?_
    have hnext : ((max burst.toNat 1 + 1 : ℕ) : ℚ) ≤ f64.round amount.toNat :=
      f64.le_round (natCast_mem (by norm_num) (by omega)) (Nat.cast_le.mpr hover)
    refine lt_of_lt_of_le ?_ hnext
    rw [hexact]
    exact_mod_cast Nat.lt_succ_self _

/-- Ten bytes at ten a second, out of an empty bucket of a megabyte. -/
theorem float_throttle_ten :
    let f64 : Nearest binary64 := Rounding.nearest (by decide) (-1074)
    let b := (FloatBucket.new f64 10 1048576).after f64 [.tryConsume 1048576]
    ∃ b', b.throttle f64 10 [⟨1, 0, by decide⟩, ⟨0, 500000000, by decide⟩] = some b' ∧
      0 ≤ b'.tokens ∧ b'.tokens ≤ b'.capacity := by
  intro f64 b
  have hthrottle := float_throttle f64 10 1048576 10 (by decide) [.tryConsume 1048576]
  refine hthrottle.1 (by decide) _ (by simp) ?_
  have hnonneg : 0 ≤ b.tokens :=
    ((FloatBucket.sane_new f64).after f64 [.tryConsume 1048576]).1.tokens_nonneg
  refine le_trans ?_ (le_add_of_nonneg_left hnonneg)
  have hten : (10 : UInt64).toNat = 10 := rfl
  have hone : (1 : UInt64).toNat = 1 := rfl
  norm_num [Duration.val, hten, hone]

end TtyGateway
