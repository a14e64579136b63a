import TtyGateway.Scrollback
import TtyGateway.Transition
import Mathlib.Logic.Function.Basic

namespace TtyGateway

open Window Transition

/-- One session's buffer and the readers made on it, with what the output was and what each
reader's `next` has returned so far (every chunk with the offset of its first byte). -/
structure Scroll where
  inner : SessionInner
  readers : Nat → Option SessionReader
  output : Bytes
  got : Nat → List (Nat × Bytes)

inductive ScrollLabel
  | append (data : Bytes)
  | close
  | reader (k : Nat)
  | next (k : Nat)

def Scroll.init (maxBytes : Nat) : Scroll :=
  ⟨.new maxBytes, fun _ => none, [], fun _ => []⟩

/-- A chunk is recorded under the reader it went to. -/
def Scroll.record (s : Scroll) (k : Nat) (r : SessionReader) : Poll → Scroll
  | .chunk bytes =>
    { s with
      readers := Function.update s.readers k (some r)
      got := Function.update s.got k (s.got k ++ [(r.cursor - bytes.length, bytes)]) }
  | _ => { s with readers := Function.update s.readers k (some r) }

/-- The critical sections of a session's buffer; a poll that panics has no successor. -/
def scrollStep (s : Scroll) : ScrollLabel → Option Scroll
  | .append data =>
    some { s with inner := s.inner.append .u64 data, output := s.output ++ data }
  | .close => some { s with inner := s.inner.close }
  | .reader k =>
    if s.readers k = none then
      some { s with readers := Function.update s.readers k (some ⟨0⟩) }
    else none
  | .next k => do
    let r ← s.readers k
    let (p, r) ← r.poll .u64 s.inner
    some (s.record k r p)

def scrollback (maxBytes : Nat) : System Scroll ScrollLabel :=
  machine (.init maxBytes) scrollStep

structure Scroll.Inv (maxBytes : Nat) (s : Scroll) : Prop where
  bound : s.inner.maxBytes = maxBytes
  holds : s.inner.Holds s.output
  pieces : ∀ k r, s.readers k = some r →
    Pieces s.output s.inner.startOffset r.cursor (s.got k)
  fresh : ∀ k, s.readers k = none → s.got k = []

theorem Scroll.inv_init (maxBytes : Nat) : (Scroll.init maxBytes).Inv maxBytes :=
  ⟨rfl, SessionInner.holds_new maxBytes, by simp [Scroll.init], by simp [Scroll.init]⟩

theorem Scroll.Inv.poll_eq {maxBytes : Nat} {s : Scroll} (h : s.Inv maxBytes)
    (small : s.output.length < 2 ^ 64) {k : Nat} {r : SessionReader} (hr : s.readers k = some r) :
    r.poll .u64 s.inner = some (
      if max r.cursor s.inner.startOffset < s.output.length then
        (.chunk (s.output.drop (max r.cursor s.inner.startOffset)), ⟨s.output.length⟩)
      else if s.inner.closed then (.finished, ⟨s.output.length⟩)
      else (.parked, ⟨s.output.length⟩)) := by
  rw [SessionReader.poll_u64 h.holds small]
  exact SessionReader.poll_eq h.holds (h.pieces k r hr).bound

theorem Scroll.Inv.setReader {maxBytes : Nat} {s : Scroll} (h : s.Inv maxBytes) {k : Nat}
    {r : SessionReader} {ds : List (Nat × Bytes)}
    (hp : Pieces s.output s.inner.startOffset r.cursor ds) :
    Inv maxBytes { s with
      readers := Function.update s.readers k (some r), got := Function.update s.got k ds } := by
  refine ⟨h.bound, h.holds, fun j q hq => ?_, fun j hq => ?_⟩
  · by_cases hj : j = k
    · subst j
      simp only [Function.update_self, Option.some.injEq] at hq ⊢
      exact hq ▸ hp
    · simp only [Function.update_of_ne hj] at hq ⊢
      exact h.pieces j q hq
  · by_cases hj : j = k
    · subst j
      simp at hq
    · simp only [Function.update_of_ne hj] at hq ⊢
      exact h.fresh j hq

theorem scrollStep_inv {maxBytes : Nat} {s s' : Scroll} {l : ScrollLabel} (h : s.Inv maxBytes)
    (small : s'.output.length < 2 ^ 64) (hs : scrollStep s l = some s') : s'.Inv maxBytes := by
  cases l with
  | append data =>
    cases Option.some.inj hs
    have ha := SessionInner.append_u64 h.holds small
    refine ⟨by simp [h.bound], ?_, fun k r hr => ?_, h.fresh⟩
    · simp only [ha]
      exact h.holds.append data
    · simp only [ha]
      exact ((h.pieces k r hr).append data).trim (SessionInner.startOffset_le_append data)
  | close =>
    cases Option.some.inj hs
    exact ⟨h.bound, h.holds.close, h.pieces, h.fresh⟩
  | reader k =>
    simp only [scrollStep, Option.ite_none_right_eq_some, Option.some.injEq] at hs
    obtain ⟨hk, rfl⟩ := hs
    have := h.setReader (k := k) (Pieces.nil s.output s.inner.startOffset) (r := ⟨0⟩)
    rwa [← h.fresh k hk, Function.update_eq_self] at this
  | next k =>
    obtain ⟨r, hr, hs⟩ := Option.bind_eq_some_iff.mp hs
    obtain ⟨⟨p, r'⟩, hp, hs⟩ := Option.bind_eq_some_iff.mp hs
    cases Option.some.inj hs
    have hsmall : s.output.length < 2 ^ 64 := by
      cases p <;> exact small
    have hpieces := h.pieces k r hr
    have hstart := h.holds.start_eq
    have hskip : Pieces s.output s.inner.startOffset (max r.cursor s.inner.startOffset) (s.got k) :=
      hpieces.skip (le_max_left _ _) (by omega) (by have := hpieces.bound; omega)
    rw [h.poll_eq hsmall hr] at hp
    split at hp
    next hlt =>
      cases Option.some.inj hp
      have := h.setReader (k := k) (r := ⟨s.output.length⟩) (hskip.snoc hlt)
      simpa only [Scroll.record, List.length_drop, Nat.sub_sub_self hlt.le] using this
    next hge =>
      have he : max r.cursor s.inner.startOffset = s.output.length := by
        have := hpieces.bound
        omega
      have := h.setReader (k := k) (r := ⟨s.output.length⟩) (he ▸ hskip)
      rw [Function.update_eq_self] at this
      split at hp
      · cases Option.some.inj hp
        exact this
      · cases Option.some.inj hp
        exact this

theorem scrollStep_grows {s s' : Scroll} {l : ScrollLabel} (hs : scrollStep s l = some s') :
    s.output.length ≤ s'.output.length := by
  cases l with
  | append data =>
    cases Option.some.inj hs
    simp
  | close => cases Option.some.inj hs; exact le_rfl
  | reader k =>
    simp only [scrollStep, Option.ite_none_right_eq_some, Option.some.injEq] at hs
    obtain ⟨-, rfl⟩ := hs
    exact le_rfl
  | next k =>
    obtain ⟨r, -, hs⟩ := Option.bind_eq_some_iff.mp hs
    obtain ⟨⟨p, r'⟩, -, hs⟩ := Option.bind_eq_some_iff.mp hs
    cases Option.some.inj hs
    cases p <;> exact le_rfl

theorem scrollback_inv {maxBytes : Nat} {s : Scroll} (h : Reachable (scrollback maxBytes) s)
    (small : s.output.length < 2 ^ 64) : s.Inv maxBytes := by
  revert small
  refine h.invariant (P := fun s => s.output.length < 2 ^ 64 → s.Inv maxBytes) ?_ ?_
  · exact fun _ => Scroll.inv_init maxBytes
  · intro s l s' _ ih _ hs small
    exact scrollStep_inv (ih ((scrollStep_grows hs).trans_lt small)) small hs

/-- The buffer is the newest output, and every reader gets the output in order: each chunk runs
from its cursor, or from the oldest byte still kept if the cursor was trimmed away, to the end. -/
theorem scrollback_delivery {maxBytes : Nat} {s : Scroll}
    (h : Reachable (scrollback maxBytes) s) (small : s.output.length < 2 ^ 64) :
    (s.inner.buf = s.output.rtake maxBytes ∧ s.inner.buf.length = min s.output.length maxBytes ∧
      s.inner.endOffset = s.output.length ∧
      s.inner.startOffset + s.inner.buf.length = s.inner.endOffset) ∧
    ∀ k r, s.readers k = some r →
      Pieces s.output s.inner.startOffset r.cursor (s.got k) ∧
      ∃ p r', r.poll .u64 s.inner = some (p, r') ∧
        (∀ bytes, p = .chunk bytes → bytes ≠ [] ∧
          bytes = s.output.extract (max r.cursor s.inner.startOffset) s.inner.endOffset ∧
          r'.cursor = s.inner.endOffset ∧
          (s.output.length - lastEnd (s.got k) ≤ maxBytes →
            max r.cursor s.inner.startOffset = lastEnd (s.got k))) ∧
        (p = .finished → s.inner.closed = true ∧ ∀ x, s.inner.startOffset ≤ x →
          x < s.inner.endOffset → ∃ d ∈ s.got k, d.1 ≤ x ∧ x < d.1 + d.2.length) := by
  have inv := scrollback_inv h small
  have hw := inv.holds.window
  have hstart := inv.holds.start_eq
  have hstop := inv.holds.stop
  rw [inv.bound] at hw hstart
  refine ⟨⟨hw, by rw [hw, length_rtake], hstop, inv.holds.start⟩, fun k r hr => ?_⟩
  have hpieces := inv.pieces k r hr
  have hbound := hpieces.bound
  have hpoll := inv.poll_eq small hr
  split at hpoll
  next hlt =>
    refine ⟨hpieces, _, _, hpoll, fun bytes hb => ?_, by simp⟩
    cases hb
    refine ⟨List.ne_nil_of_length_pos (by rw [List.length_drop]; omega), ?_, hstop.symm, fun hm => ?_⟩
    · rw [hstop, List.extract_eq_take_drop, ← List.length_drop, List.take_length]
    · have := hpieces.cursor_eq (by omega)
      omega
  next hge =>
    split at hpoll
    next hclosed =>
      refine ⟨hpieces, _, _, hpoll, by simp, fun _ => ⟨hclosed, fun x hx hlt => ?_⟩⟩
      exact (hpieces.missed x (by omega)).resolve_right (by omega)
    next => exact ⟨hpieces, _, _, hpoll, by simp, by simp⟩

/-- Ten bytes against a bound of eight: the reader that comes after gets the last eight. -/
theorem scrollback_delivery_trimmed : ∃ s, Reachable (scrollback 8) s ∧
    s.got 0 = [(2, [50, 51, 52, 53, 54, 55, 56, 57])] ∧ s.inner.buf = s.output.rtake 8 := by
  obtain ⟨s, hs, hg, hsmall⟩ := exists_reachable_of_exec (Scroll.init 8) scrollStep
    ([.append [48, 49, 50, 51, 52, 53, 54, 55, 56, 57], .reader 0, .next 0])
    (fun s => s.got 0 = [(2, [50, 51, 52, 53, 54, 55, 56, 57])] ∧ s.output.length < 2 ^ 64)
    (by decide)
  exact ⟨s, hs, hg, (scrollback_delivery hs hsmall).1.1⟩

end TtyGateway
