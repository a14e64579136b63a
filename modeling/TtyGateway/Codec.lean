import TtyGateway.Frame
import TtyGateway.Postcard

namespace TtyGateway

open Postcard

section Serde

/-- `u16`, `u32`, `u64` and `u128` are varints. -/
def u16 : Codec UInt16 :=
  (varint 16 (by decide)).via UInt16.toBitVec (fun n => .ok ⟨n⟩) fun _ => rfl

def u64 : Codec UInt64 :=
  varint64.via UInt64.toBitVec (fun n => .ok ⟨n⟩) fun _ => rfl

def u128 : Codec SessionId := varint 128 (by decide)

def ResumeToken.codec : Codec ResumeToken :=
  bytes.via ResumeToken.val (fun b => .ok ⟨b⟩) fun _ => rfl

def TargetSpec.codec : Codec TargetSpec :=
  (string.seq (u16.seq string)).via (fun t => (t.host, t.port, t.user))
    (fun f => .ok ⟨f.1, f.2.1, f.2.2⟩) fun _ => rfl

def AuthIntent.enumeration : Enumeration AuthIntent where
  variants := [
    ⟨_, bytes, .delegatedKey⟩,
    ⟨_, string, .password⟩,
    ⟨_, string.seq (option string), fun f => .privateKey f.1 f.2⟩,
    ⟨_, string, .gatewayKey⟩]
  split
    | .delegatedKey publicKey => ⟨0, publicKey⟩
    | .password secret => ⟨1, secret⟩
    | .privateKey pem passphrase => ⟨2, pem, passphrase⟩
    | .gatewayKey keyId => ⟨3, keyId⟩
  make_split auth := by cases auth <;> rfl
  few := by decide

def AuthIntent.codec : Codec AuthIntent := AuthIntent.enumeration.codec

def ClientFrame.enumeration : Enumeration ClientFrame where
  variants := [
    ⟨_, u16.seq (string.seq ((option ResumeToken.codec).seq (option bytes))),
      fun f => .hello f.1 f.2.1 f.2.2.1 f.2.2.2⟩,
    ⟨_, TargetSpec.codec.seq (AuthIntent.codec.seq (u16.seq u16)),
      fun f => .openTarget f.1 f.2.1 f.2.2.1 f.2.2.2⟩,
    ⟨_, bytes, .data⟩,
    ⟨_, u16.seq u16, fun f => .resize f.1 f.2⟩,
    ⟨_, u64.seq bytes, fun f => .signResponse f.1 f.2⟩,
    ⟨_, unit, fun _ => .ping⟩,
    ⟨_, unit, fun _ => .close⟩]
  split
    | .hello version clientName resume accountToken =>
      ⟨0, version, clientName, resume, accountToken⟩
    | .openTarget target auth cols rows => ⟨1, target, auth, cols, rows⟩
    | .data bytes => ⟨2, bytes⟩
    | .resize cols rows => ⟨3, cols, rows⟩
    | .signResponse id signature => ⟨4, id, signature⟩
    | .ping => ⟨5, ()⟩
    | .close => ⟨6, ()⟩
  make_split frame := by cases frame <;> rfl
  few := by decide

def ClientFrame.codec : Codec ClientFrame := ClientFrame.enumeration.codec

def SessionStatus.enumeration : Enumeration SessionStatus where
  variants := [
    ⟨_, unit, fun _ => .connecting⟩,
    ⟨_, unit, fun _ => .authenticating⟩,
    ⟨_, unit, fun _ => .live⟩,
    ⟨_, unit, fun _ => .detached⟩,
    ⟨_, unit, fun _ => .closed⟩]
  split
    | .connecting => ⟨0, ()⟩
    | .authenticating => ⟨1, ()⟩
    | .live => ⟨2, ()⟩
    | .detached => ⟨3, ()⟩
    | .closed => ⟨4, ()⟩
  make_split status := by cases status <;> rfl
  few := by decide

def SessionStatus.codec : Codec SessionStatus := SessionStatus.enumeration.codec

def ServerFrame.enumeration : Enumeration ServerFrame where
  variants := [
    ⟨_, u16.seq (u128.seq (bool.seq ResumeToken.codec)),
      fun f => .hello f.1 f.2.1 f.2.2.1 f.2.2.2⟩,
    ⟨_, bytes, .data⟩,
    ⟨_, u64.seq (bytes.seq bytes), fun f => .signRequest f.1 f.2.1 f.2.2⟩,
    ⟨_, SessionStatus.codec, .status⟩,
    ⟨_, unit, fun _ => .pong⟩,
    ⟨_, string, .error⟩,
    ⟨_, unit, fun _ => .closed⟩]
  split
    | .hello version sessionId resumed resume => ⟨0, version, sessionId, resumed, resume⟩
    | .data bytes => ⟨1, bytes⟩
    | .signRequest id publicKey toSign => ⟨2, id, publicKey, toSign⟩
    | .status value => ⟨3, value⟩
    | .pong => ⟨4, ()⟩
    | .error message => ⟨5, message⟩
    | .closed => ⟨6, ()⟩
  make_split frame := by cases frame <;> rfl
  few := by decide

def ServerFrame.codec : Codec ServerFrame := ServerFrame.enumeration.codec

end Serde

inductive CodecError
  | deserialize (error : Postcard.Error)
  | tooLarge (n : Nat)
  deriving DecidableEq

def maxFrameLen : Nat := 8 * 1024 * 1024

def lenPrefix : Nat := 4

def toBeBytes (n : UInt32) : Bytes :=
  [UInt8.ofNat (n.toNat / 2 ^ 24), UInt8.ofNat (n.toNat / 2 ^ 16 % 256),
    UInt8.ofNat (n.toNat / 2 ^ 8 % 256), UInt8.ofNat (n.toNat % 256)]

def fromBeBytes (b : Bytes) : UInt32 := UInt32.ofNat (b.foldl (fun n x => n * 256 + x.toNat) 0)

section Framed

variable {α : Type} (C : Codec α)

/-- `postcard::to_stdvec`, which has no way to fail on these types. -/
def encode (frame : α) : Bytes := C.encode frame

/-- `postcard::from_bytes`: what follows the value in `bytes` is dropped. -/
def decode (bytes : Bytes) : Except CodecError α :=
  match C.decode bytes with
  | .ok p => .ok p.1
  | .error e => .error (.deserialize e)

def encodeFramed (frame : α) : Except CodecError Bytes :=
  let body := encode C frame
  if maxFrameLen < body.length then .error (.tooLarge body.length)
  else .ok (toBeBytes (UInt32.ofNat body.length) ++ body)

end Framed

theorem length_toBeBytes (n : UInt32) : (toBeBytes n).length = lenPrefix := rfl

theorem fromBeBytes_toBeBytes (n : UInt32) : fromBeBytes (toBeBytes n) = n := by
  have hn := n.toNat_lt
  have h24 : (UInt8.ofNat (n.toNat / 2 ^ 24)).toNat = n.toNat / 2 ^ 24 :=
    toNat_ofNat (by omega)
  have h16 : (UInt8.ofNat (n.toNat / 2 ^ 16 % 256)).toNat = n.toNat / 2 ^ 16 % 256 :=
    toNat_ofNat (by omega)
  have h8 : (UInt8.ofNat (n.toNat / 2 ^ 8 % 256)).toNat = n.toNat / 2 ^ 8 % 256 :=
    toNat_ofNat (by omega)
  have h0 : (UInt8.ofNat (n.toNat % 256)).toNat = n.toNat % 256 := toNat_ofNat (by omega)
  have hsum : (((0 * 256 + n.toNat / 2 ^ 24) * 256 + n.toNat / 2 ^ 16 % 256) * 256 +
      n.toNat / 2 ^ 8 % 256) * 256 + n.toNat % 256 = n.toNat := by omega
  simp only [fromBeBytes, toBeBytes, List.foldl_cons, List.foldl_nil, h24, h16, h8, h0, hsum,
    UInt32.ofNat_toNat]

theorem toBeBytes_injective {m n : UInt32} (h : toBeBytes m = toBeBytes n) : m = n := by
  rw [← fromBeBytes_toBeBytes m, h, fromBeBytes_toBeBytes]

section Law

variable {α : Type} {C : Codec α}

theorem decode_append (frame : α) (tail : Bytes) (h : (encode C frame).length < 2 ^ 64) :
    decode C (encode C frame ++ tail) = .ok frame := by
  have hdec := C.decode_encode frame tail h
  simp [decode, encode, hdec]

theorem decode_encode (frame : α) (h : (encode C frame).length ≤ maxFrameLen) :
    decode C (encode C frame) = .ok frame := by
  have hmax : maxFrameLen < 2 ^ 64 := by decide
  have hdec : decode C (encode C frame ++ []) = .ok frame := decode_append frame [] (by omega)
  rwa [List.append_nil] at hdec

/-- The prefix of what was framed is the length of its body, as a `u32` that was not cut short. -/
theorem encodeFramed_eq_ok {frame : α} {out : Bytes} (h : encodeFramed C frame = .ok out) :
    ∃ n : UInt32, n.toNat = (encode C frame).length ∧ n.toNat ≤ maxFrameLen ∧
      out = toBeBytes n ++ encode C frame := by
  simp only [encodeFramed] at h
  split at h
  next => cases h
  next hle =>
    cases h
    have hmax : maxFrameLen < 2 ^ 32 := by decide
    have hn : (UInt32.ofNat (encode C frame).length).toNat = (encode C frame).length := by
      rw [UInt32.toNat_ofNat']
      exact Nat.mod_eq_of_lt (by omega)
    exact ⟨_, hn, by omega, rfl⟩

theorem encodeFramed_ok {frame : α} (h : (encode C frame).length ≤ maxFrameLen) :
    ∃ out, encodeFramed C frame = .ok out := by
  simp [encodeFramed, Nat.not_lt.mpr h]

end Law

end TtyGateway
