import TtyGateway.Codec

namespace TtyGateway

open Postcard

inductive ReadExactError
  | finishedEarly (read : Nat)
  | readError
  deriving DecidableEq

/-- The errors of `FramedRecv::recv`. -/
inductive TransportError
  | read (error : ReadExactError)
  | frameTooLarge (n : Nat)
  | codec (error : CodecError)
  deriving DecidableEq

/-- `read_exact` of quinn; `stream` is all that is to come before the peer finishes the stream or
the connection is `lost`. -/
def readExact (lost : Bool) (n : Nat) (stream : Bytes) : Except ReadExactError (Bytes × Bytes) :=
  if n ≤ stream.length then .ok (stream.take n, stream.drop n)
  else .error (if lost then .readError else .finishedEarly stream.length)

section Recv

variable {α : Type} (C : Codec α) (lost : Bool)

def FramedRecv.recv (stream : Bytes) : Except TransportError (α × Bytes) :=
  match readExact lost lenPrefix stream with
  | .error e => .error (.read e)
  | .ok (len, stream) =>
    let n := (fromBeBytes len).toNat
    if maxFrameLen < n then .error (.frameTooLarge n)
    else
      match readExact lost n stream with
      | .error e => .error (.read e)
      | .ok (body, stream) =>
        match decode C body with
        | .error e => .error (.codec e)
        | .ok frame => .ok (frame, stream)

end Recv

section ReadExact

variable {lost : Bool} {n : Nat} {stream rest : Bytes}

theorem readExact_append (h : stream.length = n) :
    readExact lost n (stream ++ rest) = .ok (stream, rest) := by
  subst h
  simp [readExact]

theorem readExact_short (h : stream.length < n) : ∃ e, readExact lost n stream = .error e :=
  ⟨_, if_neg (by omega)⟩

theorem readExact_length {p : Bytes × Bytes} (h : readExact lost n stream = .ok p) :
    p.2.length + n = stream.length := by
  simp only [readExact] at h
  split at h
  next hle =>
    cases h
    rw [List.length_drop]
    omega
  next => cases h

end ReadExact

section Recv

variable {α : Type} {C : Codec α} {lost : Bool}

theorem FramedRecv.recv_shortens {stream : Bytes} {p : α × Bytes}
    (h : recv C lost stream = .ok p) : p.2.length < stream.length := by
  unfold recv at h
  split at h
  next => cases h
  next len more hlen =>
    have hl := readExact_length hlen
    have hpos : 0 < lenPrefix := by decide
    simp only at h
    split at h
    next => cases h
    next =>
      split at h
      next => cases h
      next body after hbody =>
        have hb := readExact_length hbody
        split at h
        next => cases h
        next frame hdec =>
          cases h
          simp only at hl hb ⊢
          omega

/-- What comes by calling `recv` again and again: the frames before the first error, what was
still to come when the failing call began, and the error. -/
def recvAll (C : Codec α) (lost : Bool) (stream : Bytes) : List α × Bytes × TransportError :=
  match h : FramedRecv.recv C lost stream with
  | .ok p =>
    have := FramedRecv.recv_shortens h
    (p.1 :: (recvAll C lost p.2).1, (recvAll C lost p.2).2)
  | .error e => ([], stream, e)
termination_by stream.length

theorem recvAll_ok {stream rest : Bytes} {frame : α}
    (h : FramedRecv.recv C lost stream = .ok (frame, rest)) :
    recvAll C lost stream = (frame :: (recvAll C lost rest).1, (recvAll C lost rest).2) := by
  rw [recvAll]
  split
  next p hp =>
    obtain rfl := Except.ok.inj (h.symm.trans hp)
    rfl
  next e he => cases h.symm.trans he

theorem recvAll_error {stream : Bytes} {e : TransportError}
    (h : FramedRecv.recv C lost stream = .error e) : recvAll C lost stream = ([], stream, e) := by
  rw [recvAll]
  split
  next p hp => cases h.symm.trans hp
  next e' he =>
    cases h.symm.trans he
    rfl

theorem FramedRecv.recv_frame {frame : α} {out : Bytes} (h : encodeFramed C frame = .ok out)
    (rest : Bytes) : recv C lost (out ++ rest) = .ok (frame, rest) := by
  obtain ⟨n, hn, hmax, rfl⟩ := encodeFramed_eq_ok h
  have hlen : readExact lost lenPrefix (toBeBytes n ++ (encode C frame ++ rest)) =
      .ok (toBeBytes n, encode C frame ++ rest) := readExact_append (length_toBeBytes n)
  have hbody : readExact lost n.toNat (encode C frame ++ rest) = .ok (encode C frame, rest) :=
    readExact_append hn.symm
  have hdec := decode_encode frame (hn ▸ hmax)
  have hnot : ¬maxFrameLen < n.toNat := by omega
  rw [List.append_assoc, recv, hlen]
  simp only [fromBeBytes_toBeBytes, hnot, if_false, hbody, hdec]

/-- `rest` is the beginning of the encoding of a frame, but not all of it. -/
def Begun (C : Codec α) (frame : α) (rest : Bytes) : Prop :=
  ∃ framed, encodeFramed C frame = .ok framed ∧ rest <+: framed ∧ rest ≠ framed

theorem FramedRecv.recv_nil : ∃ e, recv C lost [] = .error (.read e) :=
  ⟨_, rfl⟩

theorem FramedRecv.recv_begun {frame : α} {rest : Bytes} (h : Begun C frame rest) :
    ∃ e, recv C lost rest = .error (.read e) := by
  obtain ⟨framed, hf, hpre, hne⟩ := h
  obtain ⟨n, hn, hmax, rfl⟩ := encodeFramed_eq_ok hf
  have hlt : rest.length < lenPrefix + n.toNat := by
    have hle := hpre.length_le
    have : rest.length ≠ (toBeBytes n ++ encode C frame).length := fun he =>
      hne (hpre.eq_of_length he)
    rw [List.length_append, length_toBeBytes] at hle this
    omega
  by_cases hshort : rest.length < lenPrefix
  · obtain ⟨e, he⟩ : ∃ e, readExact lost lenPrefix rest = .error e := readExact_short hshort
    exact ⟨e, by rw [recv, he]⟩
  · -- the length is there, the body is not
    obtain ⟨more, rfl⟩ : toBeBytes n <+: rest :=
      List.prefix_of_prefix_length_le (List.prefix_append _ _) hpre
        (by rw [length_toBeBytes]; omega)
    rw [List.length_append, length_toBeBytes] at hlt
    have hlen : readExact lost lenPrefix (toBeBytes n ++ more) = .ok (toBeBytes n, more) :=
      readExact_append (length_toBeBytes n)
    obtain ⟨e, he⟩ : ∃ e, readExact lost n.toNat more = .error e := readExact_short (by omega)
    have hnot : ¬maxFrameLen < n.toNat := by omega
    refine ⟨e, ?_⟩
    rw [recv, hlen]
    simp only [fromBeBytes_toBeBytes, hnot, if_false, he]

end Recv

section Streams

variable {α : Type} {C : Codec α} {lost : Bool}

/-- The encodings of some frames one after the other, if they all have one. -/
def encodeStream (C : Codec α) : List α → Except CodecError Bytes
  | [] => .ok []
  | frame :: frames => (encodeFramed C frame).bind fun out => (encodeStream C frames).map (out ++ ·)

theorem encodeStream_cons {frame : α} {frames : List α} {out : Bytes}
    (h : encodeStream C (frame :: frames) = .ok out) : ∃ framed more,
      encodeFramed C frame = .ok framed ∧ encodeStream C frames = .ok more ∧ out = framed ++ more := by
  rw [encodeStream] at h
  cases hf : encodeFramed C frame with
  | error e => simp [hf, Except.bind] at h
  | ok framed =>
    cases hs : encodeStream C frames with
    | error e => simp [hf, hs, Except.bind, Except.map] at h
    | ok more =>
      simp only [hf, hs, Except.bind, Except.map, Except.ok.injEq] at h
      exact ⟨framed, more, rfl, rfl, h.symm⟩

theorem encodeStream_concat {frames : List α} {frame : α} {out framed : Bytes}
    (h : encodeStream C frames = .ok out) (hf : encodeFramed C frame = .ok framed) :
    encodeStream C (frames ++ [frame]) = .ok (out ++ framed) := by
  induction frames generalizing out with
  | nil =>
    cases h
    simp [encodeStream, hf, Except.bind, Except.map]
  | cons first frames ih =>
    obtain ⟨head, more, hhead, hs, rfl⟩ := encodeStream_cons h
    rw [List.cons_append, encodeStream, hhead, ih hs]
    simp [Except.bind, Except.map]

theorem recvAll_encodeStream {frames : List α} {out : Bytes} (h : encodeStream C frames = .ok out)
    (rest : Bytes) :
    recvAll C lost (out ++ rest) = (frames ++ (recvAll C lost rest).1, (recvAll C lost rest).2) := by
  induction frames generalizing out with
  | nil =>
    cases h
    rfl
  | cons frame frames ih =>
    obtain ⟨framed, more, hf, hs, rfl⟩ := encodeStream_cons h
    rw [List.append_assoc, recvAll_ok (FramedRecv.recv_frame hf (more ++ rest)), ih hs]
    rfl

/-- A stream cut anywhere: some frames whole, and the next one not at all or in part. -/
theorem encodeStream_take {frames : List α} {out : Bytes} (h : encodeStream C frames = .ok out)
    (k : Nat) : ∃ got whole rest, got <+: frames ∧ encodeStream C got = .ok whole ∧
      out.take k = whole ++ rest ∧ (rest = [] ∨ ∃ frame, Begun C frame rest) := by
  induction frames generalizing out k with
  | nil =>
    cases h
    exact ⟨[], [], [], List.prefix_rfl, rfl, by simp, Or.inl rfl⟩
  | cons frame frames ih =>
    obtain ⟨framed, more, hf, hs, rfl⟩ := encodeStream_cons h
    by_cases hk : k < framed.length
    · refine ⟨[], [], framed.take k, List.nil_prefix, rfl, ?_, Or.inr ⟨frame, framed, hf, ?_, ?_⟩⟩
      · rw [List.take_append_of_le_length (Nat.le_of_lt hk), List.nil_append]
      · exact List.take_prefix k framed
      · intro he
        have hlen := congrArg List.length he
        rw [List.length_take] at hlen
        omega
    · obtain ⟨got, whole, rest, hgot, hwhole, htake, hrest⟩ := ih hs (k - framed.length)
      refine ⟨frame :: got, framed ++ whole, rest, ?_, ?_, ?_, hrest⟩
      · exact (List.prefix_cons_inj frame).mpr hgot
      · simp [encodeStream, hf, hwhole, Except.bind, Except.map]
      · rw [List.take_append, List.take_of_length_le (Nat.not_lt.mp hk), htake, List.append_assoc]

/-- The frames that are sent are the frames that are received, and where the stream is cut short
there are fewer of them. -/
structure StreamRoundTrip (C : Codec α) : Prop where
  whole : ∀ lost frames out, encodeStream C frames = .ok out →
    ∃ e, recvAll C lost out = (frames, [], .read e)
  cut : ∀ lost frames out k, encodeStream C frames = .ok out →
    ∃ got rest e, recvAll C lost (out.take k) = (got, rest, .read e) ∧ got <+: frames

theorem streamRoundTrip (C : Codec α) : StreamRoundTrip C := by
  refine ⟨?_, ?_⟩
  · intro lost frames out h
    obtain ⟨e, he⟩ : ∃ e, FramedRecv.recv C lost [] = .error (.read e) := FramedRecv.recv_nil
    have hall : recvAll C lost (out ++ []) =
        (frames ++ (recvAll C lost []).1, (recvAll C lost []).2) := recvAll_encodeStream h []
    rw [recvAll_error he, List.append_nil, List.append_nil] at hall
    exact ⟨e, hall⟩
  · intro lost frames out k h
    obtain ⟨got, whole, rest, hgot, hwhole, htake, hrest⟩ := encodeStream_take h k
    obtain ⟨e, he⟩ : ∃ e, FramedRecv.recv C lost rest = .error (.read e) := by
      rcases hrest with rfl | ⟨frame, hbegun⟩
      · exact FramedRecv.recv_nil
      · exact FramedRecv.recv_begun hbegun
    refine ⟨got, rest, e, ?_, hgot⟩
    rw [htake, recvAll_encodeStream hwhole, recvAll_error he, List.append_nil]

end Streams

section Limit

variable {α : Type} {C : Codec α} {lost : Bool}

theorem FramedRecv.recv_tooLarge (n : UInt32) (rest : Bytes) :
    (∃ m, recv C lost (toBeBytes n ++ rest) = .error (.frameTooLarge m)) ↔
      maxFrameLen < n.toNat := by
  have hlen : readExact lost lenPrefix (toBeBytes n ++ rest) = .ok (toBeBytes n, rest) :=
    readExact_append (length_toBeBytes n)
  rw [recv, hlen]
  simp only [fromBeBytes_toBeBytes]
  constructor
  · rintro ⟨m, hm⟩
    by_contra hnot
    simp only [hnot, if_false] at hm
    split at hm
    next => cases hm
    next body stream hbody => split at hm <;> cases hm
  · intro hlt
    exact ⟨n.toNat, if_pos hlt⟩

def constant (body : Bytes) : Codec Unit where
  encode _ := body
  decode input := .ok ((), input.drop body.length)
  decode_encode a rest _ := by rw [List.drop_left]

theorem encodeFramed_sendable (n : UInt32) :
    (∃ (β : Type) (D : Codec β) (frame : β) (out : Bytes),
      encodeFramed D frame = .ok out ∧ toBeBytes n <+: out) ↔ n.toNat ≤ maxFrameLen := by
  constructor
  · rintro ⟨β, D, frame, out, hout, hpre⟩
    obtain ⟨m, -, hmax, rfl⟩ := encodeFramed_eq_ok hout
    obtain ⟨more, hmore⟩ := hpre
    have hnm : toBeBytes n = toBeBytes m := List.append_inj_left hmore rfl
    rw [toBeBytes_injective hnm]
    exact hmax
  · intro hle
    let body : Bytes := List.replicate n.toNat 0
    have hlen : (encode (constant body) ()).length = n.toNat := List.length_replicate
    obtain ⟨out, hout⟩ : ∃ out, encodeFramed (constant body) () = .ok out :=
      encodeFramed_ok (by omega)
    obtain ⟨m, hm, -, he⟩ := encodeFramed_eq_ok hout
    have hmn : m = n := UInt32.toNat_inj.mp (hm.trans hlen)
    exact ⟨Unit, constant body, (), out, hout, by rw [he, hmn]; exact List.prefix_append _ _⟩

end Limit

/-- What the two ends send each other arrives, and both draw the same line at frames too long: the
length in front of a frame is never cut to 32 bits, and `recv` turns down for their length exactly
the prefixes that no frame can be sent with. -/
theorem wire_roundtrip : StreamRoundTrip ClientFrame.codec ∧ StreamRoundTrip ServerFrame.codec ∧
    (∀ {α : Type} (C : Codec α) frame out, encodeFramed C frame = .ok out →
      ∃ n : UInt32, n.toNat = (encode C frame).length ∧ out = toBeBytes n ++ encode C frame) ∧
    ∀ {α : Type} (C : Codec α) (lost : Bool) (n : UInt32) (rest : Bytes),
      ((∃ m, FramedRecv.recv C lost (toBeBytes n ++ rest) = .error (.frameTooLarge m)) ↔
        maxFrameLen < n.toNat) ∧
      (maxFrameLen < n.toNat ↔ ¬∃ (β : Type) (D : Codec β) (frame : β) (out : Bytes),
        encodeFramed D frame = .ok out ∧ toBeBytes n <+: out) := by
  refine ⟨streamRoundTrip _, streamRoundTrip _, fun C frame out h => ?_, fun C lost n rest => ?_⟩
  · obtain ⟨n, hn, -, hout⟩ := encodeFramed_eq_ok h
    exact ⟨n, hn, hout⟩
  · refine ⟨FramedRecv.recv_tooLarge n rest, ?_⟩
    rw [encodeFramed_sendable]
    exact Nat.not_le.symm

/-- Three frames, one of them with every kind of field, and the stream cut after sixteen bytes. -/
theorem wire_roundtrip_frames : ∃ out e e',
    encodeStream ClientFrame.codec [.hello 1 "é" (some ⟨[7]⟩) none, .ping,
      .openTarget ⟨"host", 22, "user"⟩ (.privateKey "pem" none) 80 300] = .ok out ∧
    recvAll ClientFrame.codec false out = ([.hello 1 "é" (some ⟨[7]⟩) none, .ping,
      .openTarget ⟨"host", 22, "user"⟩ (.privateKey "pem" none) 80 300], [], .read e) ∧
    (∃ got rest, recvAll ClientFrame.codec true (out.take 16) = (got, rest, .read e') ∧
      got <+: [.hello 1 "é" (some ⟨[7]⟩) none, .ping,
        .openTarget ⟨"host", 22, "user"⟩ (.privateKey "pem" none) 80 300]) := by
  obtain ⟨out, hout⟩ : ∃ out, encodeStream ClientFrame.codec [.hello 1 "é" (some ⟨[7]⟩) none, .ping,
      .openTarget ⟨"host", 22, "user"⟩ (.privateKey "pem" none) 80 300] = .ok out := ⟨_, rfl⟩
  obtain ⟨e, he⟩ := wire_roundtrip.1.whole false _ _ hout
  obtain ⟨got, rest, e', hcut, hgot⟩ := wire_roundtrip.1.cut true _ _ 16 hout
  exact ⟨out, e, e', hout, he, got, rest, hcut, hgot⟩

/-- Bytes behind a frame are not noticed: `decode` takes the frame for all there is, and `recv` turns
down such a body only where it is too long. -/
structure TailIgnored {α : Type} (C : Codec α) (frame : α) (tail : Bytes) : Prop where
  decoded : decode C (encode C frame ++ tail) = .ok frame
  received : ∀ (n : UInt32) lost rest, n.toNat = (encode C frame ++ tail).length →
    FramedRecv.recv C lost (toBeBytes n ++ (encode C frame ++ tail) ++ rest) =
      if maxFrameLen < n.toNat then .error (.frameTooLarge n.toNat) else .ok (frame, rest)

theorem FramedRecv.recv_append {α : Type} {C : Codec α} {frame : α} {tail : Bytes} {n : UInt32}
    (h : (encode C frame).length < 2 ^ 64) (hn : n.toNat = (encode C frame ++ tail).length)
    (lost : Bool) (rest : Bytes) :
    recv C lost (toBeBytes n ++ (encode C frame ++ tail) ++ rest) =
      if maxFrameLen < n.toNat then .error (.frameTooLarge n.toNat) else .ok (frame, rest) := by
  have hlen : readExact lost lenPrefix (toBeBytes n ++ (encode C frame ++ tail ++ rest)) =
      .ok (toBeBytes n, encode C frame ++ tail ++ rest) := readExact_append (length_toBeBytes n)
  have hbody : readExact lost n.toNat (encode C frame ++ tail ++ rest) =
      .ok (encode C frame ++ tail, rest) := readExact_append hn.symm
  have hdec : decode C (encode C frame ++ tail) = .ok frame := decode_append frame tail h
  rw [List.append_assoc, recv, hlen]
  simp only [fromBeBytes_toBeBytes, hbody, hdec]

theorem TailIgnored.of_fits {α : Type} {C : Codec α} {frame : α} (tail : Bytes)
    (h : (encode C frame).length < 2 ^ 64) : TailIgnored C frame tail :=
  ⟨decode_append frame tail h, fun _ lost rest hn => FramedRecv.recv_append h hn lost rest⟩

/-- A body with more in it than its frame is taken for that frame, whatever follows it. -/
theorem tail_ignored (tail : Bytes) :
    (∀ frame, (encode ClientFrame.codec frame).length < 2 ^ 64 →
      TailIgnored ClientFrame.codec frame tail) ∧
    ∀ frame, (encode ServerFrame.codec frame).length < 2 ^ 64 →
      TailIgnored ServerFrame.codec frame tail :=
  ⟨fun _ h => .of_fits tail h, fun _ h => .of_fits tail h⟩

/-- Three bytes behind a `Ping` are read over, and the stream goes on after it. -/
theorem tail_ignored_ping :
    FramedRecv.recv ClientFrame.codec false
      (toBeBytes (4 : UInt32) ++ (encode ClientFrame.codec .ping ++ [7, 8, 9]) ++ [0]) =
        .ok (.ping, [0]) :=
  ((tail_ignored [7, 8, 9]).1 .ping (by decide)).received 4 false [0] rfl

/-- A `Ping` with the bytes of a `Close` hidden behind it. -/
theorem tail_hidden : encode ClientFrame.codec .ping = [5] ∧
    decode ClientFrame.codec [5, 6] = .ok .ping ∧
    FramedRecv.recv ClientFrame.codec false [0, 0, 0, 2, 5, 6] = .ok (.ping, []) := by
  decide

end TtyGateway
