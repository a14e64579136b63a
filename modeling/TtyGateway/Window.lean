import Mathlib.Data.List.DropRight
import Mathlib.Data.List.TakeDrop
import Mathlib.Data.List.Induction

namespace Window

variable {α : Type*}

theorem rtake_eq_drop (out : List α) (n : Nat) : out.rtake n = out.drop (out.length - n) := rfl

theorem length_rtake (out : List α) (n : Nat) : (out.rtake n).length = min out.length n := by
  rw [rtake_eq_drop, List.length_drop]
  omega

/-- A trailing window is kept by trimming only what the window already held. -/
theorem rtake_append_rtake (out more : List α) (n : Nat) :
    (out.rtake n ++ more).rtake n = (out ++ more).rtake n := by
  have hl := length_rtake out n
  simp only [rtake_eq_drop] at hl ⊢
  have hs : out.drop (out.length - n) ++ more = (out ++ more).drop (out.length - n) :=
    (List.drop_append_of_le_length (by omega)).symm
  rw [hs, List.drop_drop]
  congr 1
  simp only [List.length_drop, List.length_append]
  omega

/-- Pieces of a growing output handed out up to `cursor`, each with its offset: they are nonempty
segments in order, and whatever below `cursor` is in none of them lies below `low`. -/
structure Pieces (out : List α) (low cursor : Nat) (ds : List (Nat × List α)) : Prop where
  segment : ∀ d ∈ ds, d.2 ≠ [] ∧ d.2 = out.extract d.1 (d.1 + d.2.length) ∧
    d.1 + d.2.length ≤ cursor
  ordered : ds.Pairwise (fun d e => d.1 + d.2.length ≤ e.1)
  missed : ∀ x, x < cursor → (∃ d ∈ ds, d.1 ≤ x ∧ x < d.1 + d.2.length) ∨ x < low
  bound : cursor ≤ out.length

theorem Pieces.nil (out : List α) (low : Nat) : Pieces out low 0 [] :=
  ⟨by simp, .nil, by omega, Nat.zero_le _⟩

theorem extract_append_left {out : List α} {lo hi : Nat} (h : hi ≤ out.length) (more : List α) :
    (out ++ more).extract lo hi = out.extract lo hi := by
  by_cases hlo : lo ≤ out.length
  · simp only [List.extract_eq_take_drop, List.drop_append_of_le_length hlo]
    exact List.take_append_of_le_length (by rw [List.length_drop]; omega)
  · simp [List.extract_eq_take_drop, show hi - lo = 0 by omega]

theorem Pieces.append {out : List α} {low cursor : Nat} {ds : List (Nat × List α)}
    (h : Pieces out low cursor ds) (more : List α) : Pieces (out ++ more) low cursor ds := by
  refine ⟨fun d hd => ?_, h.ordered, h.missed, ?_⟩
  · obtain ⟨hne, heq, hle⟩ := h.segment d hd
    refine ⟨hne, ?_, hle⟩
    rw [extract_append_left (hle.trans h.bound)]
    exact heq
  · have := h.bound
    simp only [List.length_append]
    omega

theorem Pieces.trim {out : List α} {low low' cursor : Nat} {ds : List (Nat × List α)}
    (h : Pieces out low cursor ds) (hl : low ≤ low') : Pieces out low' cursor ds :=
  ⟨h.segment, h.ordered, fun x hx => (h.missed x hx).imp_right (by omega), h.bound⟩

/-- The cursor may be moved over bytes that lie below `low`. -/
theorem Pieces.skip {out : List α} {low cursor cursor' : Nat} {ds : List (Nat × List α)}
    (h : Pieces out low cursor ds) (hc : cursor ≤ cursor') (hl : cursor < cursor' → cursor' ≤ low)
    (hb : cursor' ≤ out.length) : Pieces out low cursor' ds := by
  refine ⟨fun d hd => ?_, h.ordered, fun x hx => ?_, hb⟩
  · obtain ⟨hne, heq, hle⟩ := h.segment d hd
    exact ⟨hne, heq, by omega⟩
  · by_cases hxc : x < cursor
    · exact h.missed x hxc
    · exact Or.inr (by omega)

theorem Pieces.snoc {out : List α} {low cursor : Nat} {ds : List (Nat × List α)}
    (h : Pieces out low cursor ds) (hc : cursor < out.length) :
    Pieces out low out.length (ds ++ [(cursor, out.drop cursor)]) := by
  have hlen : cursor + (out.drop cursor).length = out.length := by
    rw [List.length_drop]; omega
  refine ⟨fun d hd => ?_, ?_, fun x hx => ?_, le_rfl⟩
  · rcases List.mem_append.mp hd with hd | hd
    · obtain ⟨hne, heq, hle⟩ := h.segment d hd
      exact ⟨hne, heq, by omega⟩
    · obtain rfl := List.mem_singleton.mp hd
      refine ⟨List.ne_nil_of_length_pos (by rw [List.length_drop]; omega), ?_, hlen.le⟩
      simp only [hlen, List.extract_eq_take_drop]
      exact (List.take_of_length_le (by rw [List.length_drop])).symm
  · refine List.pairwise_append.mpr ⟨h.ordered, List.pairwise_singleton _ _, fun d hd e he => ?_⟩
    obtain rfl := List.mem_singleton.mp he
    exact (h.segment d hd).2.2
  · by_cases hxc : x < cursor
    · refine (h.missed x hxc).imp_left ?_
      rintro ⟨d, hd, hx'⟩
      exact ⟨d, List.mem_append_left _ hd, hx'⟩
    · refine Or.inl ⟨_, List.mem_append_right _ (List.mem_singleton.mpr rfl), by omega, ?_⟩
      change x < cursor + (out.drop cursor).length
      omega

/-- Where the last piece handed out ends; the beginning of the output if there is none. -/
def lastEnd (ds : List (Nat × List α)) : Nat := ds.getLast?.elim 0 (fun d => d.1 + d.2.length)

theorem lastEnd_concat (ds : List (Nat × List α)) (d : Nat × List α) :
    lastEnd (ds ++ [d]) = d.1 + d.2.length := by simp [lastEnd]

theorem Pieces.le_lastEnd {out : List α} {low cursor : Nat} {ds : List (Nat × List α)}
    (h : Pieces out low cursor ds) {d : Nat × List α} (hd : d ∈ ds) :
    d.1 + d.2.length ≤ lastEnd ds := by
  induction ds using List.reverseRecOn with
  | nil => simp at hd
  | append_singleton ds e _ =>
    rw [lastEnd_concat]
    rcases List.mem_append.mp hd with hd | hd
    · have := (List.pairwise_append.mp h.ordered).2.2 d hd e (List.mem_singleton.mpr rfl)
      omega
    · obtain rfl := List.mem_singleton.mp hd
      exact le_rfl

theorem Pieces.first {out : List α} {low cursor : Nat} {ds es : List (Nat × List α)}
    (h : Pieces out low cursor (ds ++ es)) : Pieces out low (lastEnd ds) ds := by
  obtain ⟨hds, -, hafter⟩ := List.pairwise_append.mp h.ordered
  have loose : Pieces out cursor cursor ds :=
    ⟨fun d hd => h.segment d (List.mem_append_left _ hd), hds, fun _ hx => Or.inr hx, h.bound⟩
  have hlast : lastEnd ds ≤ cursor ∧ ∀ e ∈ es, lastEnd ds ≤ e.1 := by
    rcases List.eq_nil_or_concat ds with rfl | ⟨front, d, rfl⟩
    · exact ⟨Nat.zero_le _, fun e _ => Nat.zero_le _⟩
    · rw [List.concat_eq_append, lastEnd_concat]
      exact ⟨(loose.segment d (by simp)).2.2, fun e he => hafter d (by simp) e he⟩
  refine ⟨fun d hd => ?_, hds, fun x hx => ?_, hlast.1.trans h.bound⟩
  · obtain ⟨hne, heq, -⟩ := loose.segment d hd
    exact ⟨hne, heq, loose.le_lastEnd hd⟩
  · refine (h.missed x (by omega)).imp_left ?_
    rintro ⟨d, hd, hle, hlt⟩
    rcases List.mem_append.mp hd with hd | hd
    · exact ⟨d, hd, hle, hlt⟩
    · have := hlast.2 d hd
      omega

/-- If nothing past the last piece has been trimmed, the cursor is where that piece ended. -/
theorem Pieces.cursor_eq {out : List α} {low cursor : Nat} {ds : List (Nat × List α)}
    (h : Pieces out low cursor ds) (hl : low ≤ lastEnd ds) : cursor = lastEnd ds := by
  have hle : lastEnd ds ≤ cursor := by
    cases hg : ds.getLast? with
    | none => simp [lastEnd, hg]
    | some d =>
      have := (h.segment d (List.mem_of_getLast? hg)).2.2
      simpa [lastEnd, hg] using this
  by_contra hne
  rcases h.missed (lastEnd ds) (by omega) with ⟨d, hd, _, hlt⟩ | hlt
  · have := h.le_lastEnd hd
    omega
  · omega

/-- Before the first piece the cursor has at most been moved over trimmed bytes. -/
theorem Pieces.cursor_le_of_nil {out : List α} {low cursor : Nat} (h : Pieces out low cursor []) :
    cursor ≤ low := by
  by_contra hn
  rcases h.missed (cursor - 1) (by omega) with ⟨d, hd, -⟩ | hlt
  · simp at hd
  · omega

/-- The first piece begins with a byte that was the oldest one kept, or older. -/
theorem Pieces.head_le {out : List α} {low cursor : Nat} {d : Nat × List α}
    {ds : List (Nat × List α)} (h : Pieces out low cursor (d :: ds)) : d.1 ≤ low := by
  by_contra hn
  have hd := h.segment d List.mem_cons_self
  rcases h.missed (d.1 - 1) (by omega) with ⟨e, he, hle, hlt⟩ | hlt
  · rcases List.mem_cons.mp he with rfl | he
    · omega
    · have := (List.pairwise_cons.mp h.ordered).1 e he
      omega
  · omega

theorem extract_split (out : List α) {a b c : Nat} (hab : a ≤ b) (hbc : b ≤ c) :
    out.extract a b ++ out.extract b c = out.extract a c := by
  simp only [List.extract_eq_take_drop]
  rw [show c - a = (b - a) + (c - b) by omega, List.take_add, List.drop_drop,
    show a + (b - a) = b by omega]

theorem Pieces.lastEnd_le {out : List α} {low cursor : Nat} {ds : List (Nat × List α)}
    {d : Nat × List α} (h : Pieces out low cursor (ds ++ [d])) : lastEnd ds ≤ d.1 := by
  rcases List.eq_nil_or_concat ds with rfl | ⟨front, e, rfl⟩
  · exact Nat.zero_le _
  · rw [List.concat_eq_append] at h ⊢
    rw [lastEnd_concat]
    exact (List.pairwise_append.mp h.ordered).2.2 e (by simp) d (by simp)

/-- The pieces put together end with everything from `low` on. -/
theorem Pieces.suffix {out : List α} {low cursor : Nat} {ds : List (Nat × List α)}
    (h : Pieces out low cursor ds) : out.extract low cursor <:+ (ds.map Prod.snd).flatten := by
  induction ds using List.reverseRecOn generalizing cursor with
  | nil =>
    have hle := h.cursor_le_of_nil
    simp [List.extract_eq_take_drop, show cursor - low = 0 by omega]
  | append_singleton ds d ih =>
    by_cases hlow : cursor ≤ low
    · simp [List.extract_eq_take_drop, show cursor - low = 0 by omega]
    obtain ⟨-, heq, hle⟩ := h.segment d (by simp)
    have hend : d.1 + d.2.length = cursor := by
      rcases h.missed (cursor - 1) (by omega) with ⟨e, he, -, hlt⟩ | hlt
      · have hlast := h.le_lastEnd he
        rw [lastEnd_concat] at hlast
        omega
      · omega
    rw [hend] at heq
    rw [List.map_append, List.flatten_append, List.map_singleton, List.flatten_singleton]
    by_cases hd : d.1 ≤ low
    · -- all of it lies in the last piece
      refine List.IsSuffix.trans ⟨out.extract d.1 low, ?_⟩ (List.suffix_append _ _)
      rw [extract_split out hd (by omega)]
      exact heq.symm
    · have hlast : lastEnd ds = d.1 := by
        rcases h.missed (d.1 - 1) (by omega) with ⟨e, he, hle', hlt⟩ | hlt
        · rcases List.mem_append.mp he with he | he
          · have := h.first.le_lastEnd he
            have := h.lastEnd_le
            omega
          · obtain rfl := List.mem_singleton.mp he
            omega
        · omega
      obtain ⟨front, hfront⟩ := ih h.first
      refine ⟨front, ?_⟩
      rw [← extract_split out (by omega : low ≤ d.1) (by omega : d.1 ≤ cursor), ← heq,
        ← List.append_assoc, ← hlast, hfront]

theorem Pieces.sublist {out : List α} {low cursor : Nat} {ds : List (Nat × List α)}
    (h : Pieces out low cursor ds) : (ds.map Prod.snd).flatten.Sublist (out.extract 0 cursor) := by
  induction ds using List.reverseRecOn generalizing cursor with
  | nil => exact List.nil_sublist _
  | append_singleton ds d ih =>
    obtain ⟨-, heq, hle⟩ := h.segment d (by simp)
    have hlast := h.lastEnd_le
    rw [List.map_append, List.flatten_append, List.map_singleton, List.flatten_singleton,
      ← extract_split out (Nat.zero_le _) (hlast.trans (by omega : d.1 ≤ cursor))]
    refine (ih h.first).append ?_
    rw [← extract_split out hlast (by omega : d.1 ≤ cursor),
      ← extract_split out (by omega : d.1 ≤ d.1 + d.2.length) hle, ← heq]
    exact (List.sublist_append_left _ _).trans (List.sublist_append_right _ _)

theorem Pieces.whole {out : List α} {ds : List (Nat × List α)} (h : Pieces out 0 out.length ds) :
    (ds.map Prod.snd).flatten = out := by
  have hall : out.extract 0 out.length = out := by simp [List.extract_eq_take_drop]
  have hsub := h.sublist
  have hsuf := h.suffix
  rw [hall] at hsub hsuf
  exact hsub.antisymm hsuf.sublist

end Window
