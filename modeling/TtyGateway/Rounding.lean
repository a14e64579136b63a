import Mathlib.Data.Int.Log
import Mathlib.Algebra.Order.Round
import Mathlib.Tactic.Linarith
import Mathlib.Tactic.Ring
import Mathlib.Tactic.Positivity
import Mathlib.Tactic.FieldSimp

namespace Rounding

variable {α : Type*} [Field α] [LinearOrder α] [IsStrictOrderedRing α]

/-- A rounding to the nearest numbers of a set, whichever of two it takes in the middle. -/
structure Nearest (F : Set α) where
  round : α → α
  mem : ∀ x, round x ∈ F
  near : ∀ x, ∀ y ∈ F, |round x - x| ≤ |y - x|

section Nearest

variable {F : Set α} (r : Nearest F) {x y : α}

theorem Nearest.round_of_mem (h : x ∈ F) : r.round x = x := by
  have hnear := r.near x x h
  rw [sub_self, abs_zero] at hnear
  exact sub_eq_zero.mp (abs_nonpos_iff.mp hnear)

/-- What the greater of two numbers is nearer to lies above their middle. -/
theorem middle_le {a b : α} (hlt : b < a) (h : |a - x| ≤ |b - x|) : a + b ≤ 2 * x := by
  have hsq := sq_le_sq.mpr h
  by_contra hgt
  have hprod : 0 < (a - b) * (a + b - 2 * x) :=
    mul_pos (sub_pos.mpr hlt) (sub_pos.mpr (not_le.mp hgt))
  have hdiff : (a - x) ^ 2 - (b - x) ^ 2 = (a - b) * (a + b - 2 * x) := by ring
  linarith

theorem le_middle {a b : α} (hlt : b < a) (h : |b - x| ≤ |a - x|) : 2 * x ≤ a + b := by
  have hneg := middle_le (x := -x) (neg_lt_neg hlt)
    (by rwa [neg_sub_neg, neg_sub_neg, abs_sub_comm x, abs_sub_comm x])
  linarith

theorem Nearest.round_mono (h : x ≤ y) : r.round x ≤ r.round y := by
  by_contra hgt
  have hlt := not_le.mp hgt
  have hx := middle_le hlt (r.near x _ (r.mem y))
  have hy := le_middle hlt (r.near y _ (r.mem x))
  have he : x = y := le_antisymm h (by linarith)
  rw [he] at hlt
  exact lt_irrefl _ hlt

theorem Nearest.le_round (hy : y ∈ F) (h : y ≤ x) : y ≤ r.round x :=
  r.round_of_mem hy ▸ r.round_mono h

theorem Nearest.round_le (hy : y ∈ F) (h : x ≤ y) : r.round x ≤ y :=
  r.round_of_mem hy ▸ r.round_mono h

end Nearest

/-- The numbers with `p` binary digits and no exponent below `emin`. -/
def grid (p : ℕ) (emin : ℤ) : Set α := {x | ∃ m e : ℤ, |m| ≤ 2 ^ p ∧ emin ≤ e ∧ x = m * 2 ^ e}

section Grid

variable {p : ℕ} {emin : ℤ} {x y : α}

/-- The multiples of the least number of the grid. -/
def Multiple (emin : ℤ) (x : α) : Prop := ∃ k : ℤ, x = k * 2 ^ emin

theorem multiple_of_mem (h : x ∈ grid p emin) : Multiple emin x := by
  obtain ⟨m, e, -, he, rfl⟩ := h
  refine ⟨m * 2 ^ (e - emin).toNat, ?_⟩
  have hpow : (2 : α) ^ e = 2 ^ (e - emin).toNat * 2 ^ emin := by
    rw [← zpow_natCast, ← zpow_add₀ two_ne_zero]
    congr 1
    omega
  rw [hpow]
  push_cast
  ring

omit [LinearOrder α] [IsStrictOrderedRing α] in
theorem Multiple.add (hx : Multiple emin x) (hy : Multiple emin y) : Multiple emin (x + y) := by
  obtain ⟨j, rfl⟩ := hx
  obtain ⟨k, rfl⟩ := hy
  exact ⟨j + k, by push_cast; ring⟩

omit [LinearOrder α] [IsStrictOrderedRing α] in
theorem Multiple.sub (hx : Multiple emin x) (hy : Multiple emin y) : Multiple emin (x - y) := by
  obtain ⟨j, rfl⟩ := hx
  obtain ⟨k, rfl⟩ := hy
  exact ⟨j - k, by push_cast; ring⟩

theorem multiple_natCast (h : emin ≤ 0) (n : ℕ) : Multiple emin (n : α) := by
  refine ⟨n * 2 ^ (-emin).toNat, ?_⟩
  have hpow : (2 : α) ^ (-emin).toNat * 2 ^ emin = 1 := by
    rw [← zpow_natCast, ← zpow_add₀ two_ne_zero, Int.toNat_of_nonneg (by omega), neg_add_cancel,
      zpow_zero]
  push_cast
  rw [mul_assoc, hpow, mul_one]

omit [LinearOrder α] [IsStrictOrderedRing α] in
theorem natCast_mem (hemin : emin ≤ 0) {n : ℕ} (h : n ≤ 2 ^ p) : (n : α) ∈ grid p emin :=
  ⟨n, 0, by rw [Nat.abs_cast]; exact_mod_cast h, hemin, by simp⟩

omit [LinearOrder α] [IsStrictOrderedRing α] in
theorem two_pow_mem (hemin : emin ≤ 0) (n : ℕ) : (2 ^ n : α) ∈ grid p emin := by
  refine ⟨1, n, ?_, by omega, by simp⟩
  rw [abs_one]
  exact one_le_pow₀ (by norm_num)

variable [FloorRing α]

/-- The distance of the numbers of the grid around `x`, as an exponent. -/
def unit (p : ℕ) (emin : ℤ) (x : α) : ℤ := max emin (Int.log 2 |x| - p + 1)

/-- The nearest multiple of that distance, upwards in the middle. -/
def snap (p : ℕ) (emin : ℤ) (x : α) : α := round (x / 2 ^ unit p emin x) * 2 ^ unit p emin x

theorem two_pow_unit_pos (p : ℕ) (emin : ℤ) (x : α) : (0 : α) < 2 ^ unit p emin x :=
  zpow_pos two_pos _

theorem snap_error (x : α) : |snap p emin x - x| ≤ 2 ^ unit p emin x / 2 := by
  have hpos := two_pow_unit_pos p emin x
  have hround := abs_sub_round (x / 2 ^ unit p emin x)
  have hscale : snap p emin x - x =
      -(x / 2 ^ unit p emin x - round (x / 2 ^ unit p emin x)) * 2 ^ unit p emin x := by
    rw [snap, neg_sub, sub_mul, div_mul_cancel₀ _ hpos.ne']
  rw [hscale, abs_mul, abs_neg, abs_of_pos hpos]
  calc _ ≤ 1 / 2 * 2 ^ unit p emin x := mul_le_mul_of_nonneg_right hround hpos.le
    _ = _ := by ring

/-- There are fewer than `2 ^ p` units in a number. -/
theorem abs_lt_unit (x : α) : |x| < 2 ^ p * 2 ^ unit p emin x := by
  have hlog := Int.lt_zpow_succ_log_self (R := α) Nat.one_lt_two |x|
  calc |x| < 2 ^ (Int.log 2 |x| + 1) := by exact_mod_cast hlog
    _ ≤ 2 ^ (p + unit p emin x) := by
        refine zpow_le_zpow_right₀ one_le_two ?_
        have := le_max_right emin (Int.log 2 |x| - p + 1)
        unfold unit
        omega
    _ = 2 ^ p * 2 ^ unit p emin x := by rw [zpow_add₀ two_ne_zero, zpow_natCast]

theorem snap_mem (x : α) : snap p emin x ∈ grid p emin := by
  refine ⟨round (x / 2 ^ unit p emin x), unit p emin x, ?_, le_max_left _ _, rfl⟩
  have hpos := two_pow_unit_pos p emin x
  have habs : |x / 2 ^ unit p emin x| < 2 ^ p := by
    rw [abs_div, abs_of_pos hpos, div_lt_iff₀ hpos]
    exact abs_lt_unit x
  have hround := abs_sub_round (x / 2 ^ unit p emin x)
  have hcast : ((|round (x / 2 ^ unit p emin x)| : ℤ) : α) < ((2 ^ p + 1 : ℤ) : α) := by
    push_cast
    calc |(round (x / 2 ^ unit p emin x) : α)|
        = |x / 2 ^ unit p emin x -
            (x / 2 ^ unit p emin x - round (x / 2 ^ unit p emin x))| := by rw [sub_sub_cancel]
      _ ≤ |x / 2 ^ unit p emin x| +
            |x / 2 ^ unit p emin x - round (x / 2 ^ unit p emin x)| := abs_sub _ _
      _ < 2 ^ p + 1 := by linarith
  exact Int.lt_add_one_iff.mp (Int.cast_lt.mp hcast)

theorem snap_le_multiple (x : α) (k : ℤ) :
    |snap p emin x - x| ≤ |k * 2 ^ unit p emin x - x| := by
  have hpos := two_pow_unit_pos p emin x
  have hscale : ∀ j : ℤ, |j * 2 ^ unit p emin x - x| =
      |x / 2 ^ unit p emin x - j| * 2 ^ unit p emin x := by
    intro j
    rw [← abs_of_pos hpos, ← abs_mul, abs_of_pos hpos, sub_mul, div_mul_cancel₀ _ hpos.ne',
      abs_sub_comm]
  rw [snap, hscale, hscale]
  exact mul_le_mul_of_nonneg_right (round_le _ k) hpos.le

/-- The greatest power of two in `x`, if the unit is not the least one. -/
theorem two_pow_log_eq (hp : 1 ≤ p) (h : emin < unit p emin x) :
    (2 : α) ^ Int.log 2 |x| = ((2 ^ (p - 1) : ℤ) : α) * 2 ^ unit p emin x := by
  have hunit : unit p emin x = Int.log 2 |x| - p + 1 :=
    max_eq_right_of_lt ((lt_max_iff.mp h).resolve_left (lt_irrefl _))
  have hlog : Int.log 2 |x| = (p - 1 : ℕ) + unit p emin x := by omega
  rw [hlog, zpow_add₀ (two_pos : (0 : α) < 2).ne', zpow_natCast]
  push_cast
  rfl

/-- A number of the grid is as far from `x` as its nearest multiple of the unit, or farther. -/
theorem snap_near (hp : 1 ≤ p) (x y : α) (h : y ∈ grid p emin) :
    |snap p emin x - x| ≤ |y - x| := by
  obtain ⟨m, e, hm, he, rfl⟩ := h
  by_cases hunit : unit p emin x ≤ e
  · have hmultiple : (m : α) * 2 ^ e =
        ((m * 2 ^ (e - unit p emin x).toNat : ℤ) : α) * 2 ^ unit p emin x := by
      have hexp : e = ((e - unit p emin x).toNat : ℤ) + unit p emin x := by omega
      conv_lhs => rw [hexp, zpow_add₀ two_ne_zero, zpow_natCast]
      push_cast
      ring
    rw [hmultiple]
    exact snap_le_multiple x _
  · -- a finer number of the grid lies below the greatest power of two in `x`
    have hlt : e < unit p emin x := not_le.mp hunit
    have hpow := two_pow_log_eq hp (he.trans_lt hlt)
    have hy : |(m : α) * 2 ^ e| ≤ 2 ^ Int.log 2 |x| := by
      have hm : |(m : α)| ≤ 2 ^ (p - 1) * 2 := by
        rw [← pow_succ, Nat.sub_add_cancel hp]
        exact_mod_cast hm
      calc |(m : α) * 2 ^ e| = |(m : α)| * 2 ^ e := by
            rw [abs_mul, abs_of_pos (zpow_pos (two_pos : (0 : α) < 2) e)]
        _ ≤ 2 ^ (p - 1) * 2 * 2 ^ e :=
            mul_le_mul_of_nonneg_right hm (zpow_pos two_pos e).le
        _ = 2 ^ (p - 1) * 2 ^ (e + 1) := by rw [zpow_add_one₀ two_ne_zero]; ring
        _ ≤ 2 ^ (p - 1) * 2 ^ unit p emin x :=
            mul_le_mul_of_nonneg_left (zpow_le_zpow_right₀ one_le_two hlt) (by positivity)
        _ = 2 ^ Int.log 2 |x| := by rw [hpow]; push_cast; rfl
    have hfar : |x| - |(m : α) * 2 ^ e| ≤ |(m : α) * 2 ^ e - x| := by
      rw [abs_sub_comm]
      exact abs_sub_abs_le_abs_sub _ _
    rcases eq_or_ne x 0 with rfl | hx
    · simpa [snap] using abs_nonneg ((m : α) * 2 ^ e)
    · have hlog := Int.zpow_log_le_self (R := α) Nat.one_lt_two (abs_pos.mpr hx)
      push_cast at hlog
      have hnear : |snap p emin x - x| ≤ |x| - 2 ^ Int.log 2 |x| := by
        rcases abs_cases x with ⟨hab, -⟩ | ⟨hab, -⟩
        · refine (snap_le_multiple x (2 ^ (p - 1))).trans ?_
          rw [← hpow, abs_sub_comm, abs_of_nonneg (by linarith), hab]
        · refine (snap_le_multiple x (-2 ^ (p - 1))).trans ?_
          rw [Int.cast_neg, neg_mul, ← hpow, abs_of_nonneg (by linarith), hab]
          linarith
      linarith

/-- Rounding to the nearest number of the grid. -/
def nearest (hp : 1 ≤ p) (emin : ℤ) : Nearest (grid p emin : Set α) where
  round := snap p emin
  mem := snap_mem
  near := snap_near hp

/-- Where `x` is a number of the grid with more digits, or large enough, the error is small in
comparison with `x`. -/
theorem snap_relative (x : α) (h : Multiple emin x ∨ 2 ^ (emin + p - 1) ≤ |x|) :
    |snap p emin x - x| ≤ |x| / 2 ^ p := by
  rcases eq_or_ne x 0 with rfl | hx
  · simp [snap]
  have hlog := Int.zpow_log_le_self (R := α) Nat.one_lt_two (abs_pos.mpr hx)
  push_cast at hlog
  by_cases hunit : unit p emin x = Int.log 2 |x| - p + 1
  · calc |snap p emin x - x| ≤ 2 ^ unit p emin x / 2 := snap_error x
      _ = 2 ^ Int.log 2 |x| / 2 ^ p := by
          rw [hunit, zpow_add_one₀ two_ne_zero, zpow_sub₀ two_ne_zero, zpow_natCast]
          ring
      _ ≤ |x| / 2 ^ p := div_le_div_of_nonneg_right hlog (by positivity)
  · have hleast : unit p emin x = emin := by
      unfold unit at hunit ⊢
      omega
    rcases h with ⟨k, hk⟩ | hlarge
    · have hexact : |snap p emin x - x| ≤ |k * 2 ^ unit p emin x - x| := snap_le_multiple x k
      rw [hleast, ← hk, sub_self, abs_zero] at hexact
      exact hexact.trans (by positivity)
    · have hexp : emin + p - 1 ≤ Int.log 2 |x| :=
        (Int.zpow_le_iff_le_log Nat.one_lt_two (abs_pos.mpr hx)).mp (by exact_mod_cast hlarge)
      exact absurd (max_eq_right (by omega)) hunit

end Grid

section Relative

variable {p : ℕ} {emin : ℤ} {x : α} [FloorRing α] (r : Nearest (grid p emin : Set α))

theorem Nearest.relative (h : Multiple emin x ∨ 2 ^ (emin + p - 1) ≤ |x|) :
    |r.round x - x| ≤ |x| / 2 ^ p :=
  (r.near x _ (snap_mem x)).trans (snap_relative x h)

theorem Nearest.round_le_add (hx : 0 ≤ x) (h : Multiple emin x ∨ 2 ^ (emin + p - 1) ≤ x) :
    r.round x ≤ x * (1 + 1 / 2 ^ p) := by
  have hle := le_abs_self (r.round x - x)
  have hrel := r.relative (x := x) (by rwa [abs_of_nonneg hx])
  rw [abs_of_nonneg hx] at hrel
  calc r.round x ≤ x + x / 2 ^ p := by linarith
    _ = x * (1 + 1 / 2 ^ p) := by ring

theorem Nearest.sub_le_round (hx : 0 ≤ x) (h : Multiple emin x ∨ 2 ^ (emin + p - 1) ≤ x) :
    x * (1 - 1 / 2 ^ p) ≤ r.round x := by
  have hle := neg_abs_le (r.round x - x)
  have hrel := r.relative (x := x) (by rwa [abs_of_nonneg hx])
  rw [abs_of_nonneg hx] at hrel
  calc x * (1 - 1 / 2 ^ p) = x - x / 2 ^ p := by ring
    _ ≤ r.round x := by linarith

end Relative

section Multiples

variable {w : α}

def multiples (w : α) : Set α := {x | ∃ n : ℤ, x = n * w}

variable [FloorRing α]

def nearestMultiple (hw : 0 < w) : Nearest (multiples w) where
  round x := round (x / w) * w
  mem x := ⟨_, rfl⟩
  near := by
    rintro x _ ⟨n, rfl⟩
    have hscale : ∀ k : ℤ, |k * w - x| = |x / w - k| * w := by
      intro k
      rw [← abs_of_pos hw, ← abs_mul, abs_of_pos hw, sub_mul, div_mul_cancel₀ _ hw.ne',
        abs_sub_comm]
    rw [hscale, hscale]
    exact mul_le_mul_of_nonneg_right (round_le _ n) hw.le

end Multiples

end Rounding
