import Mathlib.Algebra.Group.Nat.Defs
import Mathlib.Tactic.Common

namespace Postcard

/-- Why a value could not be read, as `postcard::Error` has it. -/
inductive Error
  | deserializeUnexpectedEnd
  | deserializeBadVarint
  | deserializeBadBool
  | deserializeBadOption
  | deserializeBadUtf8
  | serdeDeCustom
  deriving DecidableEq

/-- How the values of a type are written and read. Reading what was written gives the value back
and leaves what follows; longer than `2^64` bytes a value does not get. -/
structure Codec (α : Type) where
  encode : α → List UInt8
  decode : List UInt8 → Except Error (α × List UInt8)
  decode_encode : ∀ a rest, (encode a).length < 2 ^ 64 →
    decode (encode a ++ rest) = .ok (a, rest)

section Varint

/-- Seven bits a byte, lowest first, every byte but the last with its high bit set; in `k` bytes
at most. -/
def putVarint : Nat → Nat → List UInt8
  | 0, _ => []
  | k + 1, n =>
    if n < 128 then [UInt8.ofNat n] else UInt8.ofNat (n % 128 + 128) :: putVarint k (n / 128)

/-- Reads such a number off `k` bytes at most; the last of them may not be above `last`. -/
def takeVarint (last : Nat) : Nat → List UInt8 → Except Error (Nat × List UInt8)
  | 0, _ => .error .deserializeBadVarint
  | _ + 1, [] => .error .deserializeUnexpectedEnd
  | k + 1, b :: rest =>
    if b.toNat < 128 then
      if k = 0 ∧ last < b.toNat then .error .deserializeBadVarint else .ok (b.toNat, rest)
    else (takeVarint last k rest).map fun p => (b.toNat - 128 + 128 * p.1, p.2)

def varintMax (w : Nat) : Nat := (w + 6) / 7

def maxOfLastByte (w : Nat) : Nat := 2 ^ (w % 7) - 1

theorem toNat_ofNat {n : Nat} (h : n < 256) : (UInt8.ofNat n).toNat = n := by
  rw [UInt8.toNat_ofNat']
  exact Nat.mod_eq_of_lt h

theorem takeVarint_putVarint {e : Nat} (he : e ≤ 7) (k n : Nat) (rest : List UInt8)
    (h : n < 2 ^ (7 * k + e)) :
    takeVarint (2 ^ e - 1) (k + 1) (putVarint (k + 1) n ++ rest) = .ok (n, rest) := by
  induction k generalizing n with
  | zero =>
    have hpow : 2 ^ e ≤ 2 ^ 7 := Nat.pow_le_pow_right (by omega) he
    have hn : n < 2 ^ e := by simpa using h
    have hsmall : n < 128 := by omega
    have hb : (UInt8.ofNat n).toNat = n := toNat_ofNat (by omega)
    have hlast : ¬2 ^ e - 1 < n := by omega
    simp [putVarint, takeVarint, hsmall, hb, hlast]
  | succ k ih =>
    rw [putVarint]
    split
    next hsmall =>
      have hb : (UInt8.ofNat n).toNat = n := toNat_ofNat (by omega)
      simp [takeVarint, hb, hsmall]
    next hbig =>
      have hb : (UInt8.ofNat (n % 128 + 128)).toNat = n % 128 + 128 := toNat_ofNat (by omega)
      have hpow : 2 ^ (7 * (k + 1) + e) = 128 * 2 ^ (7 * k + e) := by
        rw [show 7 * (k + 1) + e = 7 + (7 * k + e) by omega, Nat.pow_add]
      have hdiv : n / 128 < 2 ^ (7 * k + e) := by
        rw [hpow] at h
        omega
      have hge : ¬n % 128 + 128 < 128 := by omega
      have hsum : n % 128 + 128 - 128 + 128 * (n / 128) = n := by omega
      simp only [List.cons_append, takeVarint, hb, hge, if_false, ih (n / 128) hdiv, Except.map,
        hsum]

theorem length_putVarint (k n : Nat) : (putVarint k n).length ≤ k := by
  induction k generalizing n with
  | zero => simp [putVarint]
  | succ k ih =>
    rw [putVarint]
    split
    · simp
    · simpa using ih (n / 128)

/-- An unsigned integer of `w` bits. -/
def varint (w : Nat) (hw : w % 7 ≠ 0) : Codec (BitVec w) where
  encode n := putVarint (varintMax w) n.toNat
  decode bytes :=
    (takeVarint (maxOfLastByte w) (varintMax w) bytes).map fun p => (BitVec.ofNat w p.1, p.2)
  decode_encode n rest _ := by
    have hmax : varintMax w = w / 7 + 1 := by
      simp only [varintMax]
      omega
    have hn : n.toNat < 2 ^ (7 * (w / 7) + w % 7) := by
      rw [Nat.div_add_mod]
      exact n.isLt
    have htake := takeVarint_putVarint (by omega : w % 7 ≤ 7) (w / 7) n.toNat rest hn
    rw [hmax, maxOfLastByte, htake]
    simp [Except.map]

end Varint

section Combinators

variable {α β : Type}

/-- Written as another type, from which not every value need come back. -/
def Codec.via (C : Codec β) (toRaw : α → β) (ofRaw : β → Except Error α)
    (back : ∀ a, ofRaw (toRaw a) = .ok a) : Codec α where
  encode a := C.encode (toRaw a)
  decode bytes := (C.decode bytes).bind fun p => (ofRaw p.1).map fun a => (a, p.2)
  decode_encode a rest h := by
    rw [C.decode_encode (toRaw a) rest h]
    simp [Except.bind, Except.map, back]

def unit : Codec Unit where
  encode _ := []
  decode bytes := .ok ((), bytes)
  decode_encode _ _ _ := rfl

def Codec.seq (A : Codec α) (B : Codec β) : Codec (α × β) where
  encode p := A.encode p.1 ++ B.encode p.2
  decode bytes := (A.decode bytes).bind fun p => (B.decode p.2).map fun q => ((p.1, q.1), q.2)
  decode_encode p rest h := by
    rw [List.length_append] at h
    have hA := A.decode_encode p.1 (B.encode p.2 ++ rest) (by omega)
    have hB := B.decode_encode p.2 rest (by omega)
    simp [hA, hB, Except.bind, Except.map]

def bool : Codec Bool where
  encode b := [if b then 1 else 0]
  decode
    | [] => .error .deserializeUnexpectedEnd
    | b :: rest =>
      if b = 0 then .ok (false, rest)
      else if b = 1 then .ok (true, rest)
      else .error .deserializeBadBool
  decode_encode b rest _ := by cases b <;> rfl

def option (A : Codec α) : Codec (Option α) where
  encode
    | none => [0]
    | some a => 1 :: A.encode a
  decode
    | [] => .error .deserializeUnexpectedEnd
    | b :: rest =>
      if b = 0 then .ok (none, rest)
      else if b = 1 then (A.decode rest).map fun p => (some p.1, p.2)
      else .error .deserializeBadOption
  decode_encode a rest h := by
    cases a with
    | none => rfl
    | some a =>
      have hA := A.decode_encode a rest (by simp at h; omega)
      simp [hA, Except.map]

def varint32 : Codec (BitVec 32) := varint 32 (by decide)

def varint64 : Codec (BitVec 64) := varint 64 (by decide)

/-- A length, and as many bytes. -/
def bytes : Codec (List UInt8) where
  encode b := varint64.encode (BitVec.ofNat 64 b.length) ++ b
  decode input := (varint64.decode input).bind fun p =>
    if p.1.toNat ≤ p.2.length then .ok (p.2.take p.1.toNat, p.2.drop p.1.toNat)
    else .error .deserializeUnexpectedEnd
  decode_encode b rest h := by
    rw [List.length_append] at h
    have hlen := varint64.decode_encode (BitVec.ofNat 64 b.length) (b ++ rest)
      (by omega)
    have hb : b.length % 2 ^ 64 = b.length := Nat.mod_eq_of_lt (by omega)
    rw [List.append_assoc, hlen]
    simp only [Except.bind, BitVec.toNat_ofNat, hb, List.length_append, Nat.le_add_right, if_true,
      List.take_left, List.drop_left]

theorem fromUTF8?_toUTF8 (s : String) : String.fromUTF8? ⟨s.toUTF8.data.toList.toArray⟩ = some s := by
  have hv : ByteArray.IsValidUTF8 ⟨s.toUTF8.data.toList.toArray⟩ := s.isValidUTF8
  exact dif_pos hv

def string : Codec String :=
  bytes.via (fun s => s.toUTF8.data.toList)
    (fun b => (String.fromUTF8? ⟨b.toArray⟩).elim (.error .deserializeBadUtf8) .ok)
    fun s => by rw [fromUTF8?_toUTF8]; rfl

end Combinators

section Enumerations

variable {ε : Type}

/-- One variant of an enumeration: its fields, and the value they make. -/
structure Variant (ε : Type) where
  Fields : Type
  fields : Codec Fields
  make : Fields → ε

/-- The variants of a type in the order of their indices, and which of them a value is. -/
structure Enumeration (ε : Type) where
  variants : List (Variant ε)
  split : ε → (k : Fin variants.length) × (variants.get k).Fields
  make_split : ∀ e, (variants.get (split e).1).make (split e).2 = e
  few : variants.length ≤ 2 ^ 32

def Enumeration.decodeVariant (E : Enumeration ε) (k : Nat) (input : List UInt8) :
    Except Error (ε × List UInt8) :=
  if h : k < E.variants.length then
    ((E.variants.get ⟨k, h⟩).fields.decode input).map fun p =>
      ((E.variants.get ⟨k, h⟩).make p.1, p.2)
  else .error .serdeDeCustom

theorem Enumeration.decodeVariant_split (E : Enumeration ε) (e : ε) (rest : List UInt8)
    (h : ((E.variants.get (E.split e).1).fields.encode (E.split e).2).length < 2 ^ 64) :
    E.decodeVariant (E.split e).1
      ((E.variants.get (E.split e).1).fields.encode (E.split e).2 ++ rest) = .ok (e, rest) := by
  have hfields := (E.variants.get (E.split e).1).fields.decode_encode (E.split e).2 rest h
  rw [decodeVariant, dif_pos (E.split e).1.isLt, Fin.eta, hfields]
  simp only [Except.map, E.make_split]

/-- The index of the variant, and its fields. -/
def Enumeration.codec (E : Enumeration ε) : Codec ε where
  encode e := varint32.encode (BitVec.ofNat 32 (E.split e).1) ++
    (E.variants.get (E.split e).1).fields.encode (E.split e).2
  decode input := (varint32.decode input).bind fun p =>
    E.decodeVariant p.1.toNat p.2
  decode_encode e rest h := by
    rw [List.length_append] at h
    have hfew := E.few
    have hk := (E.split e).1.isLt
    have hindex := varint32.decode_encode (BitVec.ofNat 32 (E.split e).1)
      ((E.variants.get (E.split e).1).fields.encode (E.split e).2 ++ rest) (by omega)
    have hmod : (BitVec.ofNat 32 (E.split e).1).toNat = (E.split e).1 := by
      rw [BitVec.toNat_ofNat]
      exact Nat.mod_eq_of_lt (by omega)
    rw [List.append_assoc, hindex]
    simp only [Except.bind, hmod]
    exact E.decodeVariant_split e rest (by omega)

end Enumerations

end Postcard
