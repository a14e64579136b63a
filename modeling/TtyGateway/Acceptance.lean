import TtyGateway.Reader
import TtyGateway.Framing

namespace TtyGateway

open Postcard

section Readers

theorem u16_reader : u16.Reader :=
  (varint_reader 16 (by decide)).via fun _ _ h => by cases h; rfl

theorem u64_reader : u64.Reader :=
  (varint_reader 64 (by decide)).via fun _ _ h => by cases h; rfl

theorem u128_reader : u128.Reader := varint_reader 128 (by decide)

theorem ResumeToken.codec_reader : ResumeToken.codec.Reader :=
  bytes_reader.via fun _ _ h => by cases h; rfl

theorem TargetSpec.codec_reader : TargetSpec.codec.Reader :=
  (string_reader.seq (u16_reader.seq string_reader)).via fun _ _ h => by cases h; rfl

theorem AuthIntent.codec_reader : AuthIntent.codec.Reader := by
  refine Enumeration.codec_reader (fun v hv => ?_) fun k f => ?_
  · simp only [enumeration, List.mem_cons, List.not_mem_nil, or_false] at hv
    rcases hv with rfl | rfl | rfl | rfl
    · exact bytes_reader
    · exact string_reader
    · exact string_reader.seq string_reader.option
    · exact string_reader
  · match k with
    | ⟨0, _⟩ | ⟨1, _⟩ | ⟨2, _⟩ | ⟨3, _⟩ => rfl

theorem ClientFrame.codec_reader : ClientFrame.codec.Reader := by
  refine Enumeration.codec_reader (fun v hv => ?_) fun k f => ?_
  · simp only [enumeration, List.mem_cons, List.not_mem_nil, or_false] at hv
    rcases hv with rfl | rfl | rfl | rfl | rfl | rfl | rfl
    · exact u16_reader.seq
        (string_reader.seq (ResumeToken.codec_reader.option.seq bytes_reader.option))
    · exact TargetSpec.codec_reader.seq (AuthIntent.codec_reader.seq (u16_reader.seq u16_reader))
    · exact bytes_reader
    · exact u16_reader.seq u16_reader
    · exact u64_reader.seq bytes_reader
    · exact unit_reader
    · exact unit_reader
  · match k with
    | ⟨0, _⟩ | ⟨1, _⟩ | ⟨2, _⟩ | ⟨3, _⟩ | ⟨4, _⟩ | ⟨5, _⟩ | ⟨6, _⟩ => rfl

theorem SessionStatus.codec_reader : SessionStatus.codec.Reader := by
  refine Enumeration.codec_reader (fun v hv => ?_) fun k f => ?_
  · simp only [enumeration, List.mem_cons, List.not_mem_nil, or_false] at hv
    rcases hv with rfl | rfl | rfl | rfl | rfl <;> exact unit_reader
  · match k with
    | ⟨0, _⟩ | ⟨1, _⟩ | ⟨2, _⟩ | ⟨3, _⟩ | ⟨4, _⟩ => rfl

theorem ServerFrame.codec_reader : ServerFrame.codec.Reader := by
  refine Enumeration.codec_reader (fun v hv => ?_) fun k f => ?_
  · simp only [enumeration, List.mem_cons, List.not_mem_nil, or_false] at hv
    rcases hv with rfl | rfl | rfl | rfl | rfl | rfl | rfl
    · exact u16_reader.seq (u128_reader.seq (bool_reader.seq ResumeToken.codec_reader))
    · exact bytes_reader
    · exact u64_reader.seq (bytes_reader.seq bytes_reader)
    · exact SessionStatus.codec_reader
    · exact unit_reader
    · exact string_reader
    · exact unit_reader
  · match k with
    | ⟨0, _⟩ | ⟨1, _⟩ | ⟨2, _⟩ | ⟨3, _⟩ | ⟨4, _⟩ | ⟨5, _⟩ | ⟨6, _⟩ => rfl

end Readers

section Recv

variable {α : Type} {C : Codec α} {lost : Bool} {frame : α} {stream rest : Bytes}

theorem decode_eq_ok {body : Bytes} (h : decode C body = .ok frame) :
    ∃ tail, C.decode body = .ok (frame, tail) := by
  rw [decode] at h
  split at h
  next p hp =>
    cases h
    exact ⟨p.2, hp⟩
  next => cases h

theorem decode_eq_error {body : Bytes} {e : Postcard.Error}
    (h : decode C body = .error (.deserialize e)) : C.decode body = .error e := by
  rw [decode] at h
  split at h
  next => cases h
  next e' he =>
    cases h
    exact he

theorem readExact_eq_ok {n : Nat} {p : Bytes × Bytes} (h : readExact lost n stream = .ok p) :
    stream = p.1 ++ p.2 ∧ p.1.length = n := by
  simp only [readExact] at h
  split at h
  next hle =>
    cases h
    exact ⟨(List.take_append_drop n stream).symm, by rw [List.length_take]; omega⟩
  next => cases h

theorem FramedRecv.recv_eq_ok (h : recv C lost stream = .ok (frame, rest)) :
    ∃ (len body : Bytes), stream = len ++ (body ++ rest) ∧ len.length = lenPrefix ∧
      body.length = (fromBeBytes len).toNat ∧ body.length ≤ maxFrameLen ∧
      decode C body = .ok frame := by
  rw [recv] at h
  split at h
  next => cases h
  next len more hlen =>
    obtain ⟨rfl, hpre⟩ := readExact_eq_ok hlen
    dsimp only at h
    split at h
    next => cases h
    next hmax =>
      split at h
      next => cases h
      next body after hbody =>
        obtain ⟨rfl, hn⟩ := readExact_eq_ok hbody
        dsimp only at h hn
        split at h
        next => cases h
        next frame' hdec =>
          cases h
          exact ⟨len, body, rfl, hpre, hn, by omega, hdec⟩

/-- A frame that was received can be sent, in no more bytes than it took to receive. -/
theorem FramedRecv.recv_resendable (reader : C.Reader)
    (h : recv C lost stream = .ok (frame, rest)) : ∃ out, encodeFramed C frame = .ok out ∧
      out.length + rest.length ≤ stream.length := by
  obtain ⟨len, body, rfl, hpre, -, hmax, hdec⟩ := recv_eq_ok h
  obtain ⟨tail, hread⟩ := decode_eq_ok hdec
  have hsmall : maxFrameLen < 2 ^ 64 := by decide
  obtain ⟨hlen, -⟩ := reader.rewritten hread (by omega)
  have hle : (encode C frame).length ≤ body.length := by
    rw [encode]
    omega
  obtain ⟨out, hout⟩ := encodeFramed_ok (Nat.le_trans hle hmax)
  obtain ⟨n, -, -, rfl⟩ := encodeFramed_eq_ok hout
  refine ⟨_, hout, ?_⟩
  simp only [List.length_append, length_toBeBytes, hpre]
  omega

/-- A stream with all that is received of it written anew, in front of what was left. -/
theorem recvAll_rewritten (reader : C.Reader) (lost : Bool) (stream : Bytes) :
    ∃ out, encodeStream C (recvAll C lost stream).1 = .ok out ∧
      out.length + (recvAll C lost stream).2.1.length ≤ stream.length := by
  induction hlen : stream.length using Nat.strongRecOn generalizing stream with
  | ind n ih =>
    cases h : FramedRecv.recv C lost stream with
    | error e =>
      rw [recvAll_error h]
      exact ⟨[], rfl, by simp [hlen]⟩
    | ok p =>
      obtain ⟨frame, rest⟩ := p
      obtain ⟨framed, hf, hle⟩ := FramedRecv.recv_resendable reader h
      have hshort := FramedRecv.recv_shortens h
      obtain ⟨more, hs, hmore⟩ := ih rest.length (hlen ▸ hshort) rest rfl
      rw [recvAll_ok h]
      refine ⟨framed ++ more, ?_, ?_⟩
      · simp [encodeStream, hf, hs, Except.bind, Except.map]
      · simp only [List.length_append]
        omega

theorem recvAll_left (lost : Bool) (stream : Bytes) :
    recvAll C lost (recvAll C lost stream).2.1 = ([], (recvAll C lost stream).2) := by
  induction hlen : stream.length using Nat.strongRecOn generalizing stream with
  | ind n ih =>
    cases h : FramedRecv.recv C lost stream with
    | error e =>
      rw [recvAll_error h]
      exact recvAll_error h
    | ok p =>
      rw [recvAll_ok h]
      exact ih p.2.length (hlen ▸ FramedRecv.recv_shortens h) p.2 rfl

end Recv

/-- What an end receives of a stream, however that was written, is what it receives of the one that
its peer would have written for these frames; and that is no longer. -/
structure Normal {α : Type} (C : Codec α) (lost : Bool) (stream : Bytes) : Prop where
  written : ∃ out, encodeStream C (recvAll C lost stream).1 = .ok out ∧
    out.length + (recvAll C lost stream).2.1.length ≤ stream.length ∧
    recvAll C lost (out ++ (recvAll C lost stream).2.1) = recvAll C lost stream

theorem Normal.of_reader {α : Type} {C : Codec α} (reader : C.Reader) (lost : Bool)
    (stream : Bytes) : Normal C lost stream := by
  obtain ⟨out, hout, hlen⟩ := recvAll_rewritten reader lost stream
  refine ⟨out, hout, hlen, ?_⟩
  rw [recvAll_encodeStream hout, recvAll_left]
  simp

theorem streams_normal (lost : Bool) (stream : Bytes) :
    Normal ClientFrame.codec lost stream ∧ Normal ServerFrame.codec lost stream :=
  ⟨.of_reader ClientFrame.codec_reader lost stream, .of_reader ServerFrame.codec_reader lost stream⟩

/-- How reading goes wrong: cut short, a frame is reported as ended too early and as nothing else,
and what is wrong in another way is wrong whatever follows. Nor is one frame the beginning of
another. -/
structure Truncation {α : Type} (C : Codec α) : Prop where
  short : ∀ frame (n : UInt32) lost rest, n.toNat < (encode C frame).length →
    (encode C frame).length < 2 ^ 64 →
    FramedRecv.recv C lost (toBeBytes n ++ (encode C frame ++ rest)) =
      if maxFrameLen < n.toNat then .error (.frameTooLarge n.toNat)
      else .error (.codec (.deserialize .deserializeUnexpectedEnd))
  wrong : ∀ body e more, decode C body = .error (.deserialize e) →
    e ≠ .deserializeUnexpectedEnd → decode C (body ++ more) = .error (.deserialize e)
  unambiguous : ∀ frame frame', (encode C frame').length < 2 ^ 64 →
    encode C frame <+: encode C frame' → frame = frame'

theorem Truncation.of_reader {α : Type} {C : Codec α} (reader : C.Reader) : Truncation C := by
  refine ⟨fun frame n lost rest hn hsmall => ?_, fun body e more h he => ?_,
    fun frame frame' hsmall h => ?_⟩
  · have hlen : readExact lost lenPrefix (toBeBytes n ++ (encode C frame ++ rest)) =
        .ok (toBeBytes n, encode C frame ++ rest) := readExact_append (length_toBeBytes n)
    have hcut : ((encode C frame).take n.toNat).length = n.toNat := by
      rw [List.length_take]
      omega
    have hsplit : encode C frame ++ rest =
        (encode C frame).take n.toNat ++ ((encode C frame).drop n.toNat ++ rest) := by
      rw [← List.append_assoc, List.take_append_drop]
    have hbody : readExact lost n.toNat (encode C frame ++ rest) =
        .ok ((encode C frame).take n.toNat, (encode C frame).drop n.toNat ++ rest) := by
      rw [hsplit]
      exact readExact_append hcut
    have hwhole : C.decode ((encode C frame).take n.toNat ++ (encode C frame).drop n.toNat) =
        .ok (frame, []) := by
      rw [List.take_append_drop]
      simpa [encode] using C.decode_encode frame [] hsmall
    have hread : C.decode ((encode C frame).take n.toNat) = .error .deserializeUnexpectedEnd := by
      refine reader.truncated hwhole ?_
      rw [ne_eq, List.drop_eq_nil_iff]
      omega
    have hdec : decode C ((encode C frame).take n.toNat) =
        .error (.deserialize .deserializeUnexpectedEnd) := by
      rw [decode, hread]
    rw [FramedRecv.recv, hlen]
    simp only [fromBeBytes_toBeBytes, hbody, hdec]
  · have hread := reader.refuses (decode_eq_error h) he more
    rw [decode, hread]
  · obtain ⟨more, hmore⟩ := h
    have hwhole : decode C (encode C frame' ++ []) = .ok frame' := decode_append frame' [] hsmall
    have hle : (encode C frame).length < 2 ^ 64 := by
      rw [← hmore, List.length_append] at hsmall
      omega
    rw [List.append_nil, ← hmore, decode_append frame more hle] at hwhole
    exact Except.ok.inj hwhole

theorem frames_truncated : Truncation ClientFrame.codec ∧ Truncation ServerFrame.codec :=
  ⟨.of_reader ClientFrame.codec_reader, .of_reader ServerFrame.codec_reader⟩

end TtyGateway
