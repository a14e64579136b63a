import TtyGateway.Notifier
import TtyGateway.ScrollbackLaw

namespace TtyGateway

open Notifier Transition

/-- Where the ingest task stands: at its `recv`, or before the next of its critical sections and
calls. The lock is free between an append and the call that follows it. -/
inductive IngestPc
  | recv
  | append (bytes : Bytes)
  | notify
  | close
  | closeNotify
  | done
  deriving DecidableEq

def IngestPc.due : IngestPc → Bool
  | .notify | .closeNotify => true
  | _ => false

/-- Where a reader stands: outside `next`, with its future made or enabled, at the await, or past
it with the future to be made again. -/
inductive NextPc
  | idle
  | created (notified : Notified)
  | enabled (notified : Notified)
  | parked (notified : Notified)
  | awake
  deriving DecidableEq

structure ReaderTask where
  reader : SessionReader
  pc : NextPc
  deriving DecidableEq

/-- A session's buffer and notifier with its ingest task and the readers made on it. `output` is
history, all that was appended. -/
structure Wakeup where
  inner : SessionInner
  notify : Notify
  ingest : IngestPc
  readers : Nat → Option ReaderTask
  output : Bytes

def Wakeup.init (maxBytes : Nat) : Wakeup := ⟨.new maxBytes, .new, .recv, fun _ => none, []⟩

def Wakeup.setReader (s : Wakeup) (k : Nat) (t : ReaderTask) : Wakeup :=
  { s with readers := Function.update s.readers k (some t) }

inductive WakeupLabel
  | recv (message : Option Bytes)
  | append
  | notifyWaiters
  | close
  | reader (k : Nat)
  | next (k : Nat)
  | enable (k : Nat)
  | check (k : Nat)
  | wake (k : Nat)
  | renew (k : Nat)
  | drop (k : Nat)

section Steps

variable (s : Wakeup) (k : Nat)

def Wakeup.recv (message : Option Bytes) : Option Wakeup :=
  match s.ingest, message with
  | .recv, some bytes => some { s with ingest := .append bytes }
  | .recv, none => some { s with ingest := .close }
  | _, _ => none

def Wakeup.append : Option Wakeup :=
  match s.ingest with
  | .append bytes =>
    some { s with
      inner := s.inner.append .exact bytes, ingest := .notify, output := s.output ++ bytes }
  | _ => none

def Wakeup.notifyWaiters : Option Wakeup :=
  match s.ingest with
  | .notify => some { s with notify := s.notify.notifyWaiters, ingest := .recv }
  | .closeNotify => some { s with notify := s.notify.notifyWaiters, ingest := .done }
  | _ => none

def Wakeup.close : Option Wakeup :=
  match s.ingest with
  | .close => some { s with inner := s.inner.close, ingest := .closeNotify }
  | _ => none

/-- `Session::reader` -/
def Wakeup.reader : Option Wakeup :=
  match s.readers k with
  | none => some (s.setReader k ⟨⟨0⟩, .idle⟩)
  | some _ => none

def Wakeup.next (g : Registration) : Option Wakeup := do
  let t ← s.readers k
  match t.pc with
  | .idle => some (s.setReader k { t with pc := .created (s.notify.notified g) })
  | _ => none

def Wakeup.enable : Option Wakeup := do
  let t ← s.readers k
  match t.pc with
  | .created notified => some (s.setReader k { t with pc := .enabled (notified.enable s.notify) })
  | _ => none

/-- The check under the lock: `next` returns, or goes on to the await. -/
def Wakeup.check : Option Wakeup := do
  let t ← s.readers k
  match t.pc with
  | .enabled notified =>
    let (p, reader) ← t.reader.poll .exact s.inner
    match p with
    | .parked => some (s.setReader k ⟨reader, .parked notified⟩)
    | _ => some (s.setReader k ⟨reader, .idle⟩)
  | _ => none

/-- The await is over. -/
def Wakeup.wake : Option Wakeup := do
  let t ← s.readers k
  match t.pc with
  | .parked notified =>
    if notified.woken s.notify then some (s.setReader k { t with pc := .awake }) else none
  | _ => none

def Wakeup.renew (g : Registration) : Option Wakeup := do
  let t ← s.readers k
  match t.pc with
  | .awake => some (s.setReader k { t with pc := .created (s.notify.notified g) })
  | _ => none

/-- The future of `next` is dropped at its await, as `select!` does when another branch is taken. -/
def Wakeup.drop : Option Wakeup := do
  let t ← s.readers k
  match t.pc with
  | .parked _ => some (s.setReader k { t with pc := .idle })
  | _ => none

end Steps

def wakeupStep (g : Registration) (s : Wakeup) : WakeupLabel → Option Wakeup
  | .recv message => s.recv message
  | .append => s.append
  | .notifyWaiters => s.notifyWaiters
  | .close => s.close
  | .reader k => s.reader k
  | .next k => s.next k g
  | .enable k => s.enable k
  | .check k => s.check k
  | .wake k => s.wake k
  | .renew k => s.renew k g
  | .drop k => s.drop k

def wakeup (g : Registration) (maxBytes : Nat) : System Wakeup WakeupLabel :=
  machine (.init maxBytes) (wakeupStep g)

/-- The reader has seen all output, and the session is open. -/
def ReaderTask.CaughtUp (t : ReaderTask) (s : Wakeup) : Prop :=
  t.reader.cursor = s.inner.endOffset ∧ s.inner.closed = false

/-- What a reader's place in `next` rests on. -/
structure ReaderTask.Safe (t : ReaderTask) (s : Wakeup) : Prop where
  bound : t.reader.cursor ≤ s.output.length
  created : ∀ notified, t.pc = .created notified → notified.Known s.notify
  enabled : ∀ notified, t.pc = .enabled notified → notified.Registered s.notify
  parked : ∀ notified, t.pc = .parked notified →
    Waits s.notify notified (s.ingest.due = true) (t.CaughtUp s)

structure Wakeup.Inv (s : Wakeup) : Prop where
  holds : s.inner.Holds s.output
  safe : ∀ k t, s.readers k = some t → t.Safe s

section Preservation

variable {s s' : Wakeup} {k : Nat} {t : ReaderTask} {g : Registration}

theorem Wakeup.Inv.setReader (h : s.Inv) (ht : t.Safe s) : (s.setReader k t).Inv := by
  refine ⟨h.holds, fun j u hj => ?_⟩
  by_cases hjk : j = k
  · subst hjk
    simp only [Wakeup.setReader, Function.update_self, Option.some.injEq] at hj
    subst hj
    exact ⟨ht.bound, ht.created, ht.enabled, ht.parked⟩
  · simp only [Wakeup.setReader, Function.update_of_ne hjk] at hj
    have hu := h.safe j u hj
    exact ⟨hu.bound, hu.created, hu.enabled, hu.parked⟩

theorem ReaderTask.Safe.idle {reader : SessionReader} (h : reader.cursor ≤ s.output.length) :
    (ReaderTask.mk reader .idle).Safe s :=
  ⟨h, by simp, by simp, by simp⟩

theorem SessionReader.caughtUp_of_parked {r r' : SessionReader} {inner : SessionInner}
    {output : Bytes} (h : inner.Holds output) (hc : r.cursor ≤ output.length)
    (hp : r.poll .exact inner = some (.parked, r')) :
    r'.cursor = inner.endOffset ∧ inner.closed = false := by
  rw [SessionReader.poll_eq h hc] at hp
  split at hp
  · simp at hp
  · split at hp
    next => simp at hp
    next hclosed =>
      cases hp
      exact ⟨h.stop.symm, by simpa using hclosed⟩

theorem SessionReader.poll_bound {r r' : SessionReader} {inner : SessionInner} {output : Bytes}
    {p : Poll} (h : inner.Holds output) (hc : r.cursor ≤ output.length)
    (hp : r.poll .exact inner = some (p, r')) : r'.cursor ≤ output.length := by
  rw [SessionReader.poll_eq h hc] at hp
  split at hp
  · cases hp
    exact le_rfl
  · split at hp <;> cases hp <;> exact le_rfl

theorem Wakeup.Inv.recv {message : Option Bytes} (h : s.Inv) (hs : s.recv message = some s') :
    s'.Inv := by
  have keep : ∀ pc, s.ingest = .recv → ({ s with ingest := pc } : Wakeup).Inv := by
    intro pc hpc
    refine ⟨h.holds, fun k t ht => ?_⟩
    obtain ⟨hb, hc, he, hp⟩ := h.safe k t ht
    refine ⟨hb, hc, he, fun notified hn => (hp notified hn).imp (fun hd => ?_) id⟩
    simp [hpc, IngestPc.due] at hd
  unfold Wakeup.recv at hs
  split at hs
  next hpc =>
    cases hs
    exact keep _ hpc
  next hpc =>
    cases hs
    exact keep _ hpc
  next => cases hs

theorem Wakeup.Inv.append (h : s.Inv) (hs : s.append = some s') : s'.Inv := by
  unfold Wakeup.append at hs
  split at hs
  next bytes hpc =>
    cases hs
    refine ⟨h.holds.append bytes, fun k t ht => ?_⟩
    obtain ⟨hb, hc, he, hp⟩ := h.safe k t ht
    refine ⟨?_, hc, he, fun notified hn => (hp notified hn).change rfl⟩
    rw [List.length_append]
    omega
  next => cases hs

theorem Wakeup.Inv.notifyWaiters (h : s.Inv) (hs : s.notifyWaiters = some s') : s'.Inv := by
  have keep : ∀ pc,
      ({ s with notify := s.notify.notifyWaiters, ingest := pc } : Wakeup).Inv := by
    refine fun pc => ⟨h.holds, fun k t ht => ?_⟩
    obtain ⟨hb, hc, he, hp⟩ := h.safe k t ht
    exact ⟨hb, fun notified hn => (hc notified hn).notifyWaiters,
      fun notified hn => (he notified hn).notifyWaiters,
      fun notified hn => (hp notified hn).notifyWaiters⟩
  unfold Wakeup.notifyWaiters at hs
  split at hs
  next =>
    cases hs
    exact keep _
  next =>
    cases hs
    exact keep _
  next => cases hs

theorem Wakeup.Inv.close (h : s.Inv) (hs : s.close = some s') : s'.Inv := by
  unfold Wakeup.close at hs
  split at hs
  next hpc =>
    cases hs
    refine ⟨h.holds.close, fun k t ht => ?_⟩
    obtain ⟨hb, hc, he, hp⟩ := h.safe k t ht
    exact ⟨hb, hc, he, fun notified hn => (hp notified hn).change rfl⟩
  next => cases hs

theorem Wakeup.Inv.check (h : s.Inv) (hs : s.check k = some s') : s'.Inv := by
  obtain ⟨t, ht, hs⟩ := Option.bind_eq_some_iff.mp hs
  obtain ⟨hb, -, he, -⟩ := h.safe k t ht
  split at hs
  next notified hpc =>
    obtain ⟨⟨p, reader⟩, hp, hs⟩ := Option.bind_eq_some_iff.mp hs
    have hbound := SessionReader.poll_bound h.holds hb hp
    cases p with
    | parked =>
      cases hs
      have hcaught := SessionReader.caughtUp_of_parked h.holds hb hp
      refine h.setReader ⟨hbound, by simp, by simp, fun f hf => ?_⟩
      cases hf
      -- the future has been registered since before the check
      exact .sleep (he notified hpc) hcaught
    | chunk | finished =>
      cases hs
      exact h.setReader (.idle hbound)
  next => cases hs

theorem Wakeup.Inv.create (h : s.Inv) (ht : s.readers k = some t) :
    (s.setReader k { t with pc := .created (s.notify.notified g) }).Inv := by
  refine h.setReader ⟨(h.safe k t ht).bound, fun f hf => ?_, by simp, by simp⟩
  cases hf
  exact Notify.notified_known g

theorem wakeupStep_inv {l : WakeupLabel} (h : s.Inv) (hs : wakeupStep g s l = some s') :
    s'.Inv := by
  cases l with
  | recv message => exact h.recv hs
  | append => exact h.append hs
  | notifyWaiters => exact h.notifyWaiters hs
  | close => exact h.close hs
  | check k => exact h.check hs
  | reader k =>
    simp only [wakeupStep, Wakeup.reader] at hs
    split at hs
    next =>
      cases hs
      exact h.setReader (.idle (Nat.zero_le _))
    next => cases hs
  | next k | renew k =>
    obtain ⟨t, ht, hs⟩ := Option.bind_eq_some_iff.mp hs
    split at hs
    next =>
      cases hs
      exact h.create ht
    next => cases hs
  | enable k =>
    obtain ⟨t, ht, hs⟩ := Option.bind_eq_some_iff.mp hs
    split at hs
    next notified hpc =>
      cases hs
      refine h.setReader ⟨(h.safe k t ht).bound, by simp, fun f hf => ?_, by simp⟩
      cases hf
      exact ((h.safe k t ht).created notified hpc).enable
    next => cases hs
  | wake k =>
    obtain ⟨t, ht, hs⟩ := Option.bind_eq_some_iff.mp hs
    split at hs
    next =>
      obtain ⟨-, hs⟩ := Option.ite_none_right_eq_some.mp hs
      cases hs
      exact h.setReader ⟨(h.safe k t ht).bound, by simp, by simp, by simp⟩
    next => cases hs
  | drop k =>
    obtain ⟨t, ht, hs⟩ := Option.bind_eq_some_iff.mp hs
    split at hs
    next =>
      cases hs
      exact h.setReader (.idle (h.safe k t ht).bound)
    next => cases hs

end Preservation

theorem wakeup_inv {g : Registration} {maxBytes : Nat} {s : Wakeup}
    (h : Reachable (wakeup g maxBytes) s) : s.Inv := by
  refine h.invariant (P := Wakeup.Inv) ?_ ?_
  · exact ⟨SessionInner.holds_new maxBytes, by simp [wakeup, machine, Wakeup.init]⟩
  · exact fun s l s' _ ih _ hs => wakeupStep_inv ih hs

theorem Wakeup.notifyWaiters_of_due {s : Wakeup} (h : s.ingest.due = true) : ∃ pc,
    s.notifyWaiters = some { s with notify := s.notify.notifyWaiters, ingest := pc } := by
  cases hpc : s.ingest with
  | notify => exact ⟨.recv, by simp only [Wakeup.notifyWaiters, hpc]⟩
  | closeNotify => exact ⟨.done, by simp only [Wakeup.notifyWaiters, hpc]⟩
  | _ => simp [hpc, IngestPc.due] at h

/-- A reader that is parked and not woken has nothing to do, or the call that wakes it is the next
step of the ingest task. -/
theorem no_lost_wakeup {g : Registration} {maxBytes : Nat} {s : Wakeup} {k : Nat} {t : ReaderTask}
    {notified : Notified} (h : Reachable (wakeup g maxBytes) s) (reader : s.readers k = some t)
    (parked : t.pc = .parked notified) (asleep : notified.woken s.notify = false) :
    t.reader.cursor = s.inner.endOffset ∧ s.inner.closed = false ∨
    s.ingest.due = true ∧ ∃ s', wakeupStep g s .notifyWaiters = some s' ∧
      s'.readers k = some t ∧ notified.woken s'.notify = true := by
  have hwaits := ((wakeup_inv h).safe k t reader).parked notified parked
  rcases hwaits.blocked_or_due asleep with hcaught | ⟨hdue, hwoken⟩
  · exact Or.inl hcaught
  · obtain ⟨pc, hs⟩ := Wakeup.notifyWaiters_of_due hdue
    exact Or.inr ⟨hdue, _, hs, reader, hwoken⟩

/-- The reader has parked, and the ingest task is between its append and the call. -/
theorem no_lost_wakeup_appended : ∃ s t notified,
    Reachable (wakeup .onEnable 8) s ∧ s.readers 0 = some t ∧
    t.pc = .parked notified ∧ t.reader.cursor ≠ s.inner.endOffset ∧
    ∃ s', wakeupStep .onEnable s .notifyWaiters = some s' ∧ s'.readers 0 = some t ∧
      notified.woken s'.notify = true := by
  obtain ⟨s, hs, hreader, hstop, hcalls⟩ := exists_reachable_of_exec (.init 8)
    (wakeupStep .onEnable)
    [.reader 0, .next 0, .enable 0, .check 0, .recv (some [104]), .append]
    (fun s => s.readers 0 = some ⟨⟨0⟩, .parked ⟨some 0⟩⟩ ∧ s.inner.endOffset = 1 ∧
      s.notify.calls = 0)
    (by decide +kernel)
  have hne : (⟨0⟩ : SessionReader).cursor ≠ s.inner.endOffset := by simp [hstop]
  rcases no_lost_wakeup hs hreader rfl (by simp [Notified.woken, hcalls]) with ⟨he, -⟩ | ⟨-, hdue⟩
  · exact absurd he hne
  · exact ⟨s, _, _, hs, hreader, rfl, hne, hdue⟩

section Scroll

variable {s s' : Wakeup} {w : Scroll} {g : Registration} {k : Nat} {t u : ReaderTask}

/-- The buffer and the readers are those of `w`. -/
structure Wakeup.Reads (s : Wakeup) (w : Scroll) : Prop where
  inner : w.inner = s.inner
  output : w.output = s.output
  readers : ∀ k, w.readers k = (s.readers k).map ReaderTask.reader

theorem Wakeup.Reads.update {r : SessionReader} (h : s.Reads w) (he : u.reader = r) (j : Nat) :
    Function.update w.readers k (some r) j = ((s.setReader k u).readers j).map ReaderTask.reader := by
  by_cases hj : j = k
  · subst hj
    simp [Wakeup.setReader, he]
  · simp only [Wakeup.setReader, Function.update_of_ne hj]
    exact h.readers j

theorem Wakeup.Reads.moved (h : s.Reads w) (ht : s.readers k = some t)
    (he : u.reader = t.reader) : (s.setReader k u).Reads w := by
  refine ⟨h.inner, h.output, fun j => ?_⟩
  rw [← h.update (k := k) he j, Function.update_eq_self_iff.mpr]
  rw [h.readers k, ht]
  rfl

theorem Wakeup.Reads.check (h : s.Reads w) (inv : s.Inv) (small : s.output.length < 2 ^ 64)
    (hs : s.check k = some s') : ∃ w', scrollStep w (.next k) = some w' ∧ s'.Reads w' := by
  obtain ⟨t, ht, hs⟩ := Option.bind_eq_some_iff.mp hs
  split at hs
  next notified hpc =>
    obtain ⟨⟨p, reader⟩, hp, hs⟩ := Option.bind_eq_some_iff.mp hs
    have hr : w.readers k = some t.reader := by
      rw [h.readers k, ht]
      rfl
    have hpoll : t.reader.poll .u64 w.inner = some (p, reader) := by
      rw [h.inner, SessionReader.poll_u64 inv.holds small, hp]
    have hnext : scrollStep w (.next k) = some (w.record k reader p) := by
      simp only [scrollStep, hr, Option.bind_eq_bind, Option.bind_some, hpoll]
    refine ⟨_, hnext, ?_⟩
    cases p <;> cases hs <;> exact ⟨h.inner, h.output, h.update rfl⟩
  next => cases hs

theorem wakeupStep_grows {l : WakeupLabel} (hs : wakeupStep g s l = some s') :
    s.output.length ≤ s'.output.length := by
  cases l with
  | append =>
    simp only [wakeupStep, Wakeup.append] at hs
    split at hs <;> cases hs
    simp
  | recv message =>
    simp only [wakeupStep, Wakeup.recv] at hs
    split at hs <;> cases hs <;> exact le_rfl
  | notifyWaiters =>
    simp only [wakeupStep, Wakeup.notifyWaiters] at hs
    split at hs <;> cases hs <;> exact le_rfl
  | close =>
    simp only [wakeupStep, Wakeup.close] at hs
    split at hs <;> cases hs
    exact le_rfl
  | reader k =>
    simp only [wakeupStep, Wakeup.reader] at hs
    split at hs <;> cases hs
    exact le_rfl
  | next k | enable k | renew k | drop k =>
    obtain ⟨t, -, hs⟩ := Option.bind_eq_some_iff.mp hs
    split at hs <;> cases hs
    exact le_rfl
  | check k =>
    obtain ⟨t, -, hs⟩ := Option.bind_eq_some_iff.mp hs
    split at hs
    next =>
      obtain ⟨⟨p, reader⟩, -, hs⟩ := Option.bind_eq_some_iff.mp hs
      cases p <;> cases hs <;> exact le_rfl
    next => cases hs
  | wake k =>
    obtain ⟨t, -, hs⟩ := Option.bind_eq_some_iff.mp hs
    split at hs
    next =>
      obtain ⟨-, hs⟩ := Option.ite_none_right_eq_some.mp hs
      cases hs
      exact le_rfl
    next => cases hs

theorem Wakeup.Reads.step {l : WakeupLabel} (h : s.Reads w) (inv : s.Inv)
    (small : s'.output.length < 2 ^ 64) (hs : wakeupStep g s l = some s') :
    s'.Reads w ∨ ∃ l' w', scrollStep w l' = some w' ∧ s'.Reads w' := by
  cases l with
  | recv message =>
    simp only [wakeupStep, Wakeup.recv] at hs
    split at hs <;> cases hs <;> exact Or.inl ⟨h.inner, h.output, h.readers⟩
  | append =>
    simp only [wakeupStep, Wakeup.append] at hs
    split at hs
    next bytes hpc =>
      cases hs
      have hinner : w.inner.append .u64 bytes = s.inner.append .exact bytes := by
        rw [h.inner]
        exact SessionInner.append_u64 inv.holds small
      refine Or.inr ⟨.append bytes, _, rfl, hinner, ?_, h.readers⟩
      simp only [h.output]
    next => cases hs
  | notifyWaiters =>
    simp only [wakeupStep, Wakeup.notifyWaiters] at hs
    split at hs <;> cases hs <;> exact Or.inl ⟨h.inner, h.output, h.readers⟩
  | close =>
    simp only [wakeupStep, Wakeup.close] at hs
    split at hs
    next =>
      cases hs
      refine Or.inr ⟨.close, _, rfl, ?_, h.output, h.readers⟩
      simp only [h.inner]
    next => cases hs
  | reader k =>
    simp only [wakeupStep, Wakeup.reader] at hs
    split at hs
    next hk =>
      cases hs
      have hw : w.readers k = none := by simp [h.readers k, hk]
      have hstep : scrollStep w (.reader k) =
          some { w with readers := Function.update w.readers k (some ⟨0⟩) } := by
        simp only [scrollStep, hw, if_true]
      exact Or.inr ⟨.reader k, _, hstep, h.inner, h.output, h.update rfl⟩
    next => cases hs
  | check k =>
    obtain ⟨w', hw, hreads⟩ := h.check inv ((wakeupStep_grows (g := g) hs).trans_lt small) hs
    exact Or.inr ⟨.next k, w', hw, hreads⟩
  | next k | enable k | renew k | drop k =>
    obtain ⟨t, ht, hs⟩ := Option.bind_eq_some_iff.mp hs
    split at hs
    next =>
      cases hs
      exact Or.inl (h.moved ht rfl)
    next => cases hs
  | wake k =>
    obtain ⟨t, ht, hs⟩ := Option.bind_eq_some_iff.mp hs
    split at hs
    next =>
      obtain ⟨-, hs⟩ := Option.ite_none_right_eq_some.mp hs
      cases hs
      exact Or.inl (h.moved ht rfl)
    next => cases hs

end Scroll

/-- What the readers read is what `scrollback` says, however their calls of `next` are cut up. -/
theorem wakeup_scrollback {g : Registration} {maxBytes : Nat} {s : Wakeup}
    (h : Reachable (wakeup g maxBytes) s) (small : s.output.length < 2 ^ 64) :
    ∃ w, Reachable (scrollback maxBytes) w ∧ s.Reads w := by
  revert small
  refine h.invariant (P := fun s => s.output.length < 2 ^ 64 →
    ∃ w, Reachable (scrollback maxBytes) w ∧ s.Reads w) ?_ ?_
  · exact fun _ => ⟨_, .init, rfl, rfl, fun _ => rfl⟩
  · intro s l s' hr ih _ hs small
    obtain ⟨w, hw, hreads⟩ := ih ((wakeupStep_grows hs).trans_lt small)
    rcases hreads.step (wakeup_inv hr) small hs with hreads' | ⟨l', w', hl, hreads'⟩
    · exact ⟨w, hw, hreads'⟩
    · exact ⟨w', hw.step trivial hl, hreads'⟩

end TtyGateway
