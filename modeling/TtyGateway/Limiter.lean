import Mathlib.Algebra.Order.Field.Basic
import Mathlib.Algebra.Order.BigOperators.Group.List
import Mathlib.Data.List.Sublists
import Mathlib.Tactic.Linarith
import Mathlib.Tactic.Ring

namespace Limiter

variable {α : Type*} [CommRing α] [LinearOrder α] [IsStrictOrderedRing α]

/-- What was spent from time `t` on; `spent` lists what was spent when. -/
def since (t : α) (spent : List (α × α)) : α :=
  ((spent.filter fun e => t ≤ e.1).map Prod.snd).sum

/-- What was spent in the window of length `len` that begins at time `t`. -/
def within (t len : α) (spent : List (α × α)) : α :=
  ((spent.filter fun e => t ≤ e.1 ∧ e.1 ≤ t + len).map Prod.snd).sum

/-- A token bucket over its whole history: of what it gave out, no window holds more than the
capacity and what flowed in meanwhile, and what is left still fits on top of any window that ends
now. `last` is when the bucket was last filled up. -/
structure Bounded (cap rate : α) (spent : List (α × α)) (tokens last : α) : Prop where
  past : ∀ e ∈ spent, e.1 ≤ last
  amount : ∀ e ∈ spent, 0 ≤ e.2
  room : tokens ≤ cap
  since : ∀ t ≤ last, since t spent + tokens ≤ cap + rate * (last - t)
  within : ∀ t len, 0 ≤ len → within t len spent ≤ cap + rate * len

theorem sum_le_sum_of_sublist {xs ys : List (α × α)} (h : xs.Sublist ys)
    (nonneg : ∀ e ∈ ys, 0 ≤ e.2) : (xs.map Prod.snd).sum ≤ (ys.map Prod.snd).sum := by
  induction h with
  | slnil => exact le_rfl
  | cons e h ih =>
    have he := nonneg e List.mem_cons_self
    have := ih fun d hd => nonneg d (List.mem_cons_of_mem _ hd)
    simp only [List.map_cons, List.sum_cons]
    linarith
  | cons_cons e h ih =>
    have := ih fun d hd => nonneg d (List.mem_cons_of_mem _ hd)
    simp only [List.map_cons, List.sum_cons]
    linarith

theorem within_le_of_sublist {xs ys : List (α × α)} (h : xs.Sublist ys)
    (nonneg : ∀ e ∈ ys, 0 ≤ e.2) (t len : α) : within t len xs ≤ within t len ys :=
  sum_le_sum_of_sublist (h.filter _) fun e he => nonneg e (List.mem_of_mem_filter he)

theorem within_le_since {spent : List (α × α)} (nonneg : ∀ e ∈ spent, 0 ≤ e.2) (t len : α) :
    within t len spent ≤ since t spent := by
  have hsub : (spent.filter fun e => t ≤ e.1 ∧ e.1 ≤ t + len).Sublist
      (spent.filter fun e => t ≤ e.1) := by
    apply List.monotone_filter_right spent
    intro e he
    exact decide_eq_true (of_decide_eq_true he).1
  exact sum_le_sum_of_sublist hsub fun e he => nonneg e (List.mem_of_mem_filter he)

omit [IsStrictOrderedRing α] in
theorem since_eq_zero {spent : List (α × α)} {t : α} (h : ∀ e ∈ spent, e.1 < t) :
    since t spent = 0 := by
  have hnil : (spent.filter fun e => t ≤ e.1) = [] := by
    apply List.filter_eq_nil_iff.mpr
    intro e he hle
    exact absurd (h e he) (not_lt.mpr (of_decide_eq_true hle))
  simp [since, hnil]

theorem Bounded.start {cap rate tokens : α} (hcap : 0 ≤ cap) (hrate : 0 ≤ rate)
    (room : tokens ≤ cap) (last : α) : Bounded cap rate [] tokens last := by
  refine ⟨by simp, by simp, room, fun t ht => ?_, fun t len hlen => ?_⟩
  · have := mul_nonneg hrate (sub_nonneg.mpr ht)
    simp only [Limiter.since, List.filter_nil, List.map_nil, List.sum_nil, zero_add]
    linarith
  · have := mul_nonneg hrate hlen
    simp only [Limiter.within, List.filter_nil, List.map_nil, List.sum_nil]
    linarith

theorem Bounded.refill {cap rate tokens last now : α} {spent : List (α × α)}
    (h : Bounded cap rate spent tokens last) (hrate : 0 ≤ rate) (hnow : last ≤ now) :
    Bounded cap rate spent (min (tokens + (now - last) * rate) cap) now := by
  refine ⟨fun e he => (h.past e he).trans hnow, h.amount, min_le_right _ _, fun t ht => ?_,
    h.within⟩
  by_cases hold : t ≤ last
  · have hs := h.since t hold
    have hmin := min_le_left (tokens + (now - last) * rate) cap
    have hsplit : rate * (now - t) = rate * (last - t) + (now - last) * rate := by ring
    linarith
  · have hzero : Limiter.since t spent = 0 :=
      since_eq_zero fun e he => (h.past e he).trans_lt (not_le.mp hold)
    have hmin := min_le_right (tokens + (now - last) * rate) cap
    have := mul_nonneg hrate (sub_nonneg.mpr ht)
    linarith

/-- A bucket that has had the time to fill up may be replaced by a new one. -/
theorem Bounded.renew {cap rate tokens last now : α} {spent : List (α × α)}
    (h : Bounded cap rate spent tokens last) (hrate : 0 ≤ rate) (hnow : last ≤ now)
    (full : cap ≤ tokens + (now - last) * rate) : Bounded cap rate spent cap now := by
  have := h.refill hrate hnow
  rwa [min_eq_right full] at this

theorem Bounded.consume {cap rate tokens last amount : α} {spent : List (α × α)}
    (h : Bounded cap rate spent tokens last) (hrate : 0 ≤ rate) (hamount : 0 ≤ amount)
    (enough : amount ≤ tokens) :
    Bounded cap rate (spent ++ [(last, amount)]) (tokens - amount) last := by
  have hroom := h.room
  refine ⟨fun e he => ?_, fun e he => ?_, by linarith, fun t ht => ?_, fun t len hlen => ?_⟩
  · rcases List.mem_append.mp he with he | he
    · exact h.past e he
    · obtain rfl := List.mem_singleton.mp he
      exact le_rfl
  · rcases List.mem_append.mp he with he | he
    · exact h.amount e he
    · obtain rfl := List.mem_singleton.mp he
      exact hamount
  · have hs := h.since t ht
    simp only [Limiter.since, List.filter_append, List.map_append, List.sum_append] at hs ⊢
    simp only [ht, decide_true, List.filter_cons_of_pos, List.filter_nil, List.map_cons,
      List.map_nil, List.sum_cons, List.sum_nil]
    linarith
  · by_cases hin : t ≤ last ∧ last ≤ t + len
    · have hs := h.since t hin.1
      have hle := within_le_since h.amount t len
      have hlen' : rate * (last - t) ≤ rate * len :=
        mul_le_mul_of_nonneg_left (by linarith [hin.2]) hrate
      simp only [Limiter.within, List.filter_append, List.map_append, List.sum_append] at hle ⊢
      simp only [hin, and_self, decide_true, List.filter_cons_of_pos, List.filter_nil,
        List.map_cons, List.map_nil, List.sum_cons, List.sum_nil]
      linarith
    · have hw := h.within t len hlen
      simp only [Limiter.within, List.filter_append, List.map_append, List.sum_append] at hw ⊢
      simp only [hin, decide_false, Bool.false_eq_true, not_false_eq_true,
        List.filter_cons_of_neg, List.filter_nil, List.map_nil, List.sum_nil, add_zero]
      exact hw

section Level

/-- What happens to a bucket: time goes by, or an amount is taken out. -/
inductive Event (α : Type*)
  | elapse (time : α)
  | take (amount : α)

/-- What a window brings in less what it takes out. -/
def Event.gain (rate : α) : Event α → α
  | .elapse time => rate * time
  | .take amount => -amount

/-- How much more a window may take out: the capacity and its gain. -/
def allowance (cap rate : α) (window : List (Event α)) : α :=
  cap + (window.map (Event.gain rate)).sum

def Event.apply (cap rate : α) (tokens : α) : Event α → α
  | .elapse time => min (tokens + time * rate) cap
  | .take amount => tokens - amount

/-- What a bucket that starts full holds in the end. -/
def level (cap rate : α) (history : List (Event α)) : α :=
  history.foldl (Event.apply cap rate) cap

variable {cap rate : α} {history : List (Event α)}

omit [LinearOrder α] [IsStrictOrderedRing α] in
theorem allowance_concat (window : List (Event α)) (e : Event α) :
    allowance cap rate (window ++ [e]) = allowance cap rate window + e.gain rate := by
  simp only [allowance, List.map_append, List.map_cons, List.map_nil, List.sum_append,
    List.sum_cons, List.sum_nil]
  ring

/-- A bucket holds as much as the tightest of the windows that end now has left. -/
theorem level_isLeast (taken : ∀ amount, .take amount ∈ history → 0 ≤ amount) :
    IsLeast {left | ∃ window, window <:+ history ∧ allowance cap rate window = left}
      (level cap rate history) := by
  induction history using List.reverseRecOn with
  | nil => exact ⟨⟨[], List.nil_suffix, by simp [allowance, level]⟩, by simp [lowerBounds, allowance, level]⟩
  | append_singleton history e ih =>
    obtain ⟨⟨tight, htight, heq⟩, least⟩ := ih fun amount hm => taken amount (by simp [hm])
    have room : level cap rate history ≤ cap := least ⟨[], List.nil_suffix, by simp [allowance]⟩
    have hlevel : level cap rate (history ++ [e]) =
        min (level cap rate history + e.gain rate) cap := by
      rw [level, List.foldl_concat]
      cases e with
      | elapse time => rw [Event.apply, Event.gain, mul_comm]; rfl
      | take amount =>
        have hamount := taken amount (by simp)
        rw [Event.apply, Event.gain, min_eq_left (by linarith)]
        exact sub_eq_add_neg _ _
    rw [hlevel]
    refine ⟨?_, ?_⟩
    · rcases min_choice (level cap rate history + e.gain rate) cap with hmin | hmin
      · exact ⟨tight ++ [e], List.suffix_concat_iff.mpr (Or.inr ⟨tight, rfl, htight⟩),
          by rw [hmin, allowance_concat, heq]⟩
      · exact ⟨[], List.nil_suffix, by rw [hmin]; simp [allowance]⟩
    · rintro left ⟨window, hw, rfl⟩
      rcases List.suffix_concat_iff.mp hw with rfl | ⟨earlier, rfl, hearlier⟩
      · simp [allowance]
      · have hle := least ⟨earlier, hearlier, rfl⟩
        rw [allowance_concat]
        exact (min_le_left _ _).trans (add_le_add_left hle _)

end Level

end Limiter
