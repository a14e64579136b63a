import TtyGateway.Frame
import TtyGateway.Window
import Mathlib.Algebra.Group.Nat.Defs

namespace TtyGateway

/-- Addition and subtraction of byte offsets: exact, or as the `u64` registers do it. -/
structure OffsetArith where
  add : Nat → Nat → Nat
  sub : Nat → Nat → Nat

def OffsetArith.exact : OffsetArith := ⟨(· + ·), (· - ·)⟩

def OffsetArith.u64 : OffsetArith :=
  ⟨fun a b => (a + b) % 2 ^ 64, fun a b => (a + 2 ^ 64 - b) % 2 ^ 64⟩

structure SessionInner where
  buf : Bytes
  startOffset : Nat
  endOffset : Nat
  closed : Bool
  maxBytes : Nat
  deriving DecidableEq

/-- The buffer `Session::spawn` starts with. -/
def SessionInner.new (maxBytes : Nat) : SessionInner := ⟨[], 0, 0, false, maxBytes⟩

def SessionInner.append (A : OffsetArith) (s : SessionInner) (data : Bytes) : SessionInner :=
  let buf := s.buf ++ data
  let endOffset := A.add s.endOffset data.length
  if s.maxBytes < buf.length then
    let excess := buf.length - s.maxBytes
    { s with buf := buf.drop excess, startOffset := A.add s.startOffset excess, endOffset }
  else { s with buf, endOffset }

def SessionInner.close (s : SessionInner) : SessionInner := { s with closed := true }

structure SessionReader where
  cursor : Nat
  deriving DecidableEq

/-- What one check of the buffer inside `next` comes to: `Some(chunk)`, `None`, or parking at
the await until the next notification. -/
inductive Poll
  | chunk (bytes : Bytes)
  | finished
  | parked
  deriving DecidableEq

/-- The critical section of `SessionReader::next`, run when the future is polled. The result is
`none` where the slice `buf[lo..]` would panic. -/
def SessionReader.poll (A : OffsetArith) (r : SessionReader) (inner : SessionInner) :
    Option (Poll × SessionReader) :=
  let cursor := if r.cursor < inner.startOffset then inner.startOffset else r.cursor
  if cursor < inner.endOffset then
    let lo := A.sub cursor inner.startOffset
    if lo ≤ inner.buf.length then
      some (.chunk (inner.buf.drop lo), ⟨inner.endOffset⟩)
    else none
  else if inner.closed then some (.finished, ⟨cursor⟩)
  else some (.parked, ⟨cursor⟩)

/-- The buffer holds the newest bytes of `output`, addressed from its beginning. -/
structure SessionInner.Holds (s : SessionInner) (output : Bytes) : Prop where
  window : s.buf = output.rtake s.maxBytes
  stop : s.endOffset = output.length
  start : s.startOffset + s.buf.length = s.endOffset

theorem SessionInner.holds_new (maxBytes : Nat) : (SessionInner.new maxBytes).Holds [] :=
  ⟨by simp [SessionInner.new, Window.rtake_eq_drop], rfl, rfl⟩

theorem SessionInner.Holds.start_eq {s : SessionInner} {output : Bytes} (h : s.Holds output) :
    s.startOffset = output.length - s.maxBytes := by
  have hl := Window.length_rtake output s.maxBytes
  rw [← h.window] at hl
  have := h.start
  have := h.stop
  omega

theorem SessionInner.Holds.buf_eq {s : SessionInner} {output : Bytes} (h : s.Holds output) :
    s.buf = output.drop s.startOffset := by
  rw [h.start_eq, h.window, Window.rtake_eq_drop]

theorem SessionInner.Holds.close {s : SessionInner} {output : Bytes} (h : s.Holds output) :
    s.close.Holds output := ⟨h.window, h.stop, h.start⟩

@[simp] theorem SessionInner.append_maxBytes (A : OffsetArith) (s : SessionInner) (data : Bytes) :
    (s.append A data).maxBytes = s.maxBytes := by
  simp only [append]
  split <;> rfl

@[simp] theorem SessionInner.append_closed (A : OffsetArith) (s : SessionInner) (data : Bytes) :
    (s.append A data).closed = s.closed := by
  simp only [append]
  split <;> rfl

theorem SessionInner.Holds.append {s : SessionInner} {output : Bytes} (h : s.Holds output)
    (data : Bytes) : (s.append .exact data).Holds (output ++ data) := by
  have hw : (s.buf ++ data).rtake s.maxBytes = (output ++ data).rtake s.maxBytes := by
    rw [h.window, Window.rtake_append_rtake]
  have hstart := h.start
  have hstop := h.stop
  simp only [SessionInner.append]
  split
  next hlt =>
    refine ⟨hw, ?_, ?_⟩
    · simp only [OffsetArith.exact, hstop, List.length_append]
    · simp only [OffsetArith.exact, List.length_drop, List.length_append] at hlt ⊢
      omega
  next hge =>
    refine ⟨?_, ?_, ?_⟩
    · rw [← hw, Window.rtake_eq_drop, Nat.sub_eq_zero_of_le (not_lt.mp hge)]
      rfl
    · simp only [OffsetArith.exact, hstop, List.length_append]
    · simp only [OffsetArith.exact, List.length_append]
      omega

theorem SessionInner.startOffset_le_append {s : SessionInner} (data : Bytes) :
    s.startOffset ≤ (s.append .exact data).startOffset := by
  simp only [SessionInner.append]
  split
  · exact Nat.le_add_right _ _
  · exact le_rfl

/-- The `u64` registers agree with exact arithmetic while the output stays below `2^64` bytes. -/
theorem SessionInner.append_u64 {s : SessionInner} {output data : Bytes} (h : s.Holds output)
    (small : (output ++ data).length < 2 ^ 64) : s.append .u64 data = s.append .exact data := by
  have hstart := h.start
  have hstop := h.stop
  rw [List.length_append] at small
  have hend : (s.endOffset + data.length) % 2 ^ 64 = s.endOffset + data.length :=
    Nat.mod_eq_of_lt (by omega)
  simp only [SessionInner.append, OffsetArith.u64, OffsetArith.exact, hend]
  split
  next hlt =>
    rw [List.length_append] at hlt ⊢
    rw [Nat.mod_eq_of_lt (by omega)]
  next => rfl

theorem caughtUp_eq_max (cursor start : Nat) :
    (if cursor < start then start else cursor) = max cursor start := by
  split <;> omega

/-- A reader that has never been ahead of the buffer polls without a panic, and this is what it
gets: all output from its cursor (or from the oldest byte kept, if it fell behind) to the end;
`None` or parking only where it has caught up. -/
theorem SessionReader.poll_eq {r : SessionReader} {inner : SessionInner} {output : Bytes}
    (h : inner.Holds output) (hc : r.cursor ≤ output.length) :
    r.poll .exact inner = some (
      if max r.cursor inner.startOffset < output.length then
        (.chunk (output.drop (max r.cursor inner.startOffset)), ⟨output.length⟩)
      else if inner.closed then (.finished, ⟨output.length⟩) else (.parked, ⟨output.length⟩)) := by
  have hstart := h.start
  have hstop := h.stop
  unfold SessionReader.poll
  rw [caughtUp_eq_max]
  simp only [hstop, OffsetArith.exact]
  split
  next hlt =>
    rw [if_pos (by omega), h.buf_eq, List.drop_drop]
    congr 4
    omega
  next hge =>
    have he : max r.cursor inner.startOffset = output.length := by omega
    rw [he]
    split <;> rfl

theorem SessionReader.poll_u64 {r : SessionReader} {inner : SessionInner} {output : Bytes}
    (h : inner.Holds output) (small : output.length < 2 ^ 64) :
    r.poll .u64 inner = r.poll .exact inner := by
  have hstop := h.stop
  unfold SessionReader.poll
  rw [caughtUp_eq_max]
  simp only [OffsetArith.u64, OffsetArith.exact]
  by_cases hlt : max r.cursor inner.startOffset < inner.endOffset
  · have hsub : (max r.cursor inner.startOffset + 2 ^ 64 - inner.startOffset) % 2 ^ 64 =
        max r.cursor inner.startOffset - inner.startOffset := by
      rw [show max r.cursor inner.startOffset + 2 ^ 64 - inner.startOffset =
        max r.cursor inner.startOffset - inner.startOffset + 2 ^ 64 by omega, Nat.add_mod_right]
      exact Nat.mod_eq_of_lt (by omega)
    simp only [hsub]
    rfl
  · simp only [if_neg hlt]

theorem SessionReader.closed_of_finished {A : OffsetArith} {r r' : SessionReader}
    {inner : SessionInner} (h : r.poll A inner = some (.finished, r')) : inner.closed = true := by
  unfold SessionReader.poll at h
  extract_lets cursor lo at h
  split at h
  · split at h <;> simp at h
  · split at h
    next hc => exact hc
    next => simp at h

end TtyGateway
