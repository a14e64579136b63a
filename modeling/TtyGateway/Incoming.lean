import TtyGateway.Acceptance

namespace TtyGateway

open Postcard

/-- `read_exact` on what has arrived of a stream: with too little there it waits, unless that is all
that comes, before the peer finishes the stream or it is lost. -/
def awaitExact (fin : Option Bool) (n : Nat) (stream : Bytes) :
    Option (Except ReadExactError (Bytes × Bytes)) :=
  if n ≤ stream.length then some (.ok (stream.take n, stream.drop n))
  else fin.map fun lost => .error (if lost then .readError else .finishedEarly stream.length)

/-- `recv`, in the same way. -/
def FramedRecv.poll {α : Type} (C : Codec α) (fin : Option Bool) (stream : Bytes) :
    Option (Except TransportError (α × Bytes)) := do
  match ← awaitExact fin lenPrefix stream with
  | .error e => some (.error (.read e))
  | .ok (len, stream) =>
    let n := (fromBeBytes len).toNat
    if maxFrameLen < n then some (.error (.frameTooLarge n))
    else
      match ← awaitExact fin n stream with
      | .error e => some (.error (.read e))
      | .ok (body, stream) =>
        match decode C body with
        | .error e => some (.error (.codec e))
        | .ok frame => some (.ok (frame, stream))

section Poll

variable {α : Type} {C : Codec α} {fin : Option Bool} {lost : Bool} {stream rest more : Bytes}
  {frame : α}

theorem awaitExact_eq_some {n : Nat} {r : Except ReadExactError (Bytes × Bytes)}
    (h : awaitExact fin n stream = some r) (hfin : fin = none ∨ fin = some lost ∧ more = []) :
    readExact lost n (stream ++ more) = r.map fun p => (p.1, p.2 ++ more) := by
  simp only [awaitExact] at h
  split at h
  next hle =>
    cases h
    rw [readExact, if_pos (by rw [List.length_append]; omega), List.take_append_of_le_length hle,
      List.drop_append_of_le_length hle]
    rfl
  next hlt =>
    obtain ⟨lost', hf, rfl⟩ := Option.map_eq_some_iff.mp h
    rcases hfin with hnone | ⟨hsome, rfl⟩
    · simp [hnone] at hf
    · obtain rfl := Option.some.inj (hf.symm.trans hsome)
      rw [List.append_nil, readExact, if_neg hlt]
      rfl

theorem FramedRecv.poll_eq_some {r : Except TransportError (α × Bytes)}
    (h : poll C fin stream = some r) (hfin : fin = none ∨ fin = some lost ∧ more = []) :
    recv C lost (stream ++ more) = r.map fun p => (p.1, p.2 ++ more) := by
  obtain ⟨first, hfirst, h⟩ := Option.bind_eq_some_iff.mp h
  rw [recv, awaitExact_eq_some hfirst hfin]
  cases first with
  | error e =>
    cases h
    rfl
  | ok p =>
    obtain ⟨len, stream⟩ := p
    dsimp only [Except.map] at h ⊢
    split at h
    next htoo =>
      cases h
      rw [if_pos htoo]
    next hfits =>
      rw [if_neg hfits]
      obtain ⟨second, hsecond, h⟩ := Option.bind_eq_some_iff.mp h
      rw [awaitExact_eq_some hsecond hfin]
      cases second with
      | error e =>
        cases h
        rfl
      | ok p =>
        obtain ⟨body, stream⟩ := p
        dsimp only [Except.map] at h ⊢
        cases hdec : decode C body with
        | error e =>
          rw [hdec] at h
          cases h
          rfl
        | ok frame =>
          rw [hdec] at h
          cases h
          rfl

/-- A frame is read off its own bytes, whatever comes behind them and however that ends. -/
theorem FramedRecv.recv_used (h : recv C lost stream = .ok (frame, rest)) :
    ∃ used, stream = used ++ rest ∧
      ∀ lost more, recv C lost (used ++ more) = .ok (frame, more) := by
  obtain ⟨len, body, rfl, hpre, hn, hmax, hdec⟩ := recv_eq_ok h
  refine ⟨len ++ body, (List.append_assoc _ _ _).symm, fun lost more => ?_⟩
  have hlen : readExact lost lenPrefix (len ++ (body ++ more)) = .ok (len, body ++ more) :=
    readExact_append hpre
  have hbody : readExact lost (fromBeBytes len).toNat (body ++ more) = .ok (body, more) :=
    readExact_append hn
  have hfits : ¬maxFrameLen < (fromBeBytes len).toNat := by omega
  rw [List.append_assoc, recv, hlen]
  simp only [hfits, if_false, hbody, hdec]

theorem FramedRecv.poll_ok (h : poll C fin stream = some (.ok (frame, rest))) :
    ∃ used, stream = used ++ rest ∧
      ∀ lost more, recv C lost (used ++ more) = .ok (frame, more) := by
  have hrecv : recv C (fin.getD false) (stream ++ []) = .ok (frame, rest ++ []) := by
    refine poll_eq_some h ?_
    cases fin <;> simp
  rw [List.append_nil, List.append_nil] at hrecv
  exact recv_used hrecv

theorem recvAll_append (lost lost' : Bool) (stream more : Bytes) :
    (recvAll C lost stream).1 <+: (recvAll C lost' (stream ++ more)).1 := by
  induction hlen : stream.length using Nat.strongRecOn generalizing stream with
  | ind n ih =>
    cases h : FramedRecv.recv C lost stream with
    | error e =>
      rw [recvAll_error h]
      exact List.nil_prefix
    | ok p =>
      obtain ⟨frame, rest⟩ := p
      have hshort := FramedRecv.recv_shortens h
      obtain ⟨used, rfl, hused⟩ := FramedRecv.recv_used h
      rw [recvAll_ok h, List.append_assoc, recvAll_ok (hused lost' (rest ++ more))]
      exact (List.prefix_cons_inj frame).mpr (ih rest.length (hlen ▸ hshort) rest rfl)

end Poll

/-- The receiving half of a control stream: what its handler has read, what has arrived since, and
whether that is all, with the stream finished or lost. -/
structure Line where
  taken : Bytes
  unread : Bytes
  fin : Option Bool

def Line.arrived (x : Line) : Bytes := x.taken ++ x.unread

def Line.new : Line := ⟨[], [], none⟩

/-- Reading `bytes` gives these frames, whatever comes behind. -/
def Spells {α : Type} (C : Codec α) (frames : List α) (bytes : Bytes) : Prop :=
  ∀ lost more, recvAll C lost (bytes ++ more) =
    (frames ++ (recvAll C lost more).1, (recvAll C lost more).2)

section Spells

variable {α : Type} {C : Codec α} {frames : List α} {frame : α} {bytes used : Bytes}

theorem Spells.nil : Spells C [] [] := fun _ _ => rfl

theorem Spells.concat (h : Spells C frames bytes)
    (hused : ∀ lost more, FramedRecv.recv C lost (used ++ more) = .ok (frame, more)) :
    Spells C (frames ++ [frame]) (bytes ++ used) := by
  intro lost more
  rw [List.append_assoc, h lost (used ++ more), recvAll_ok (hused lost more)]
  simp

theorem Spells.prefix_sent {sent : List α} {out : Bytes} (h : Spells C frames bytes)
    (hsent : encodeStream C sent = .ok out) (hb : bytes <+: out) : frames <+: sent := by
  obtain ⟨e, he⟩ : ∃ e, FramedRecv.recv C false [] = .error (.read e) := FramedRecv.recv_nil
  have hall : recvAll C false (out ++ []) =
      (sent ++ (recvAll C false []).1, (recvAll C false []).2) := recvAll_encodeStream hsent []
  obtain ⟨more, rfl⟩ := hb
  rw [List.append_nil, recvAll_error he, List.append_nil, h false more] at hall
  obtain ⟨hframes, -⟩ := Prod.mk.inj hall
  exact ⟨_, hframes⟩

end Spells

end TtyGateway
