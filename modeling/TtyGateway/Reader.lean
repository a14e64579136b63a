import TtyGateway.Postcard

namespace Postcard

variable {α β ε : Type}

/-- How a codec reads input that it need not have written. What it reads a value off is as long as
the encoding of that value or longer, and the same whatever follows; and an error other than that
the input ended is the same whatever follows. -/
structure Codec.Reader (C : Codec α) : Prop where
  consumes : ∀ {input a rest}, C.decode input = .ok (a, rest) → ∃ used, input = used ++ rest ∧
    (C.encode a).length ≤ used.length ∧ ∀ more, C.decode (used ++ more) = .ok (a, more)
  refuses : ∀ {input e}, C.decode input = .error e → e ≠ .deserializeUnexpectedEnd →
    ∀ more, C.decode (input ++ more) = .error e

section Results

variable {x : Except ε α} {f : α → Except ε β} {g : α → β} {b : β} {e : ε}

theorem bind_eq_ok : x.bind f = .ok b ↔ ∃ a, x = .ok a ∧ f a = .ok b := by
  cases x <;> simp [Except.bind]

theorem bind_eq_error : x.bind f = .error e ↔ x = .error e ∨ ∃ a, x = .ok a ∧ f a = .error e := by
  cases x <;> simp [Except.bind]

theorem map_eq_ok : x.map g = .ok b ↔ ∃ a, x = .ok a ∧ g a = b := by
  cases x <;> simp [Except.map]

theorem map_eq_error : x.map g = .error e ↔ x = .error e := by
  cases x <;> simp [Except.map]

end Results

section Consequences

variable {C : Codec α} {a : α} {input rest read more : List UInt8}

/-- Of what a value is read off, a part is never enough, and never wrong either. -/
theorem Codec.Reader.truncated (h : C.Reader) (hr : C.decode (read ++ more) = .ok (a, []))
    (hm : more ≠ []) : C.decode read = .error .deserializeUnexpectedEnd := by
  cases hd : C.decode read with
  | ok p =>
    obtain ⟨b, rest⟩ := p
    obtain ⟨used, rfl, -, hread⟩ := h.consumes hd
    rw [List.append_assoc, hread] at hr
    obtain ⟨-, hnil⟩ := Prod.mk.inj (Except.ok.inj hr)
    exact absurd (List.append_eq_nil_iff.mp hnil).2 hm
  | error e =>
    by_cases he : e = .deserializeUnexpectedEnd
    · rw [he]
    · rw [h.refuses hd he] at hr
      cases hr

theorem Codec.Reader.rewritten (h : C.Reader) (hr : C.decode input = .ok (a, rest))
    (hsmall : input.length < 2 ^ 64) : (C.encode a).length + rest.length ≤ input.length ∧
      C.decode (C.encode a ++ rest) = .ok (a, rest) := by
  obtain ⟨used, rfl, hlen, -⟩ := h.consumes hr
  rw [List.length_append] at hsmall ⊢
  exact ⟨by omega, C.decode_encode a rest (by omega)⟩

end Consequences

section Varint

theorem takeVarint_consumes {last k n : Nat} {input rest : List UInt8}
    (h : takeVarint last k input = .ok (n, rest)) : ∃ used, input = used ++ rest ∧
      (putVarint k n).length ≤ used.length ∧
      ∀ more, takeVarint last k (used ++ more) = .ok (n, more) := by
  induction k generalizing input n with
  | zero => cases h
  | succ k ih =>
    cases input with
    | nil => cases h
    | cons b input =>
      rw [takeVarint] at h
      split at h
      next hsmall =>
        split at h
        next => cases h
        next hlast =>
          cases h
          refine ⟨[b], rfl, by simp [putVarint, hsmall], fun more => ?_⟩
          rw [List.singleton_append, takeVarint, if_pos hsmall, if_neg hlast]
      next hbig =>
        obtain ⟨⟨m, tail⟩, htake, he⟩ := map_eq_ok.mp h
        cases he
        obtain ⟨used, rfl, hlen, hmore⟩ := ih htake
        refine ⟨b :: used, rfl, ?_, fun more => ?_⟩
        · have hb := b.toNat_lt
          have hdiv : (b.toNat - 128 + 128 * m) / 128 = m := by omega
          rw [putVarint, hdiv]
          split
          · simp
          · simpa using hlen
        · rw [List.cons_append, takeVarint, if_neg hbig, hmore]
          rfl

theorem takeVarint_refuses {last k : Nat} {input : List UInt8} {e : Error}
    (h : takeVarint last k input = .error e) (he : e ≠ .deserializeUnexpectedEnd)
    (more : List UInt8) : takeVarint last k (input ++ more) = .error e := by
  induction k generalizing input with
  | zero => exact h
  | succ k ih =>
    cases input with
    | nil =>
      cases h
      exact absurd rfl he
    | cons b input =>
      rw [takeVarint] at h
      rw [List.cons_append, takeVarint]
      split at h
      next hsmall =>
        rw [if_pos hsmall]
        split at h
        next hlast => rw [if_pos hlast, ← h]
        next => cases h
      next hbig =>
        rw [if_neg hbig, ih (map_eq_error.mp h)]
        rfl

/-- What the last byte is checked for is what keeps the number within its bits. -/
theorem takeVarint_lt {e k n : Nat} {input rest : List UInt8}
    (h : takeVarint (2 ^ e - 1) (k + 1) input = .ok (n, rest)) : n < 2 ^ (7 * k + e) := by
  induction k generalizing input n with
  | zero =>
    cases input with
    | nil => cases h
    | cons b input =>
      have hpos : 0 < 2 ^ e := Nat.two_pow_pos e
      rw [takeVarint] at h
      split at h
      next =>
        split at h
        next => cases h
        next hlast =>
          cases h
          simp only [true_and] at hlast
          simp only [Nat.mul_zero, Nat.zero_add]
          omega
      next =>
        obtain ⟨p, hp, -⟩ := map_eq_ok.mp h
        cases hp
  | succ k ih =>
    cases input with
    | nil => cases h
    | cons b input =>
      have hpow : 2 ^ (7 * (k + 1) + e) = 128 * 2 ^ (7 * k + e) := by
        rw [show 7 * (k + 1) + e = 7 + (7 * k + e) by omega, Nat.pow_add]
      have hpos : 0 < 2 ^ (7 * k + e) := Nat.two_pow_pos _
      have hb := b.toNat_lt
      rw [takeVarint] at h
      split at h
      next hsmall =>
        split at h
        next => cases h
        next =>
          cases h
          omega
      next =>
        obtain ⟨⟨m, tail⟩, htake, he⟩ := map_eq_ok.mp h
        cases he
        have hm := ih htake
        omega

theorem varint_reader (w : Nat) (hw : w % 7 ≠ 0) : (varint w hw).Reader := by
  refine ⟨fun {input a rest} h => ?_, fun {input e} h he more => ?_⟩
  · obtain ⟨⟨n, tail⟩, htake, heq⟩ := map_eq_ok.mp h
    cases heq
    have hmax : varintMax w = w / 7 + 1 := by
      simp only [varintMax]
      omega
    have hn : n < 2 ^ w := by
      rw [hmax] at htake
      have hlt := takeVarint_lt htake
      rwa [Nat.div_add_mod] at hlt
    obtain ⟨used, rfl, hlen, hmore⟩ := takeVarint_consumes htake
    refine ⟨used, rfl, ?_, fun more => ?_⟩
    · simp only [varint, BitVec.toNat_ofNat, Nat.mod_eq_of_lt hn]
      exact hlen
    · simp only [varint, hmore]
      rfl
  · have htake := takeVarint_refuses (map_eq_error.mp h) he more
    simp only [varint, htake]
    rfl

end Varint

section Combinators

variable {A : Codec α} {B : Codec β}

/-- Where only what is written can come back. -/
theorem Codec.Reader.via {C : Codec β} (h : C.Reader) {toRaw : α → β}
    {ofRaw : β → Except Error α} {back : ∀ a, ofRaw (toRaw a) = .ok a}
    (exact : ∀ b a, ofRaw b = .ok a → toRaw a = b) : (C.via toRaw ofRaw back).Reader := by
  refine ⟨fun {input a rest} hr => ?_, fun {input e} hr he more => ?_⟩
  · obtain ⟨⟨b, tail⟩, hb, hmap⟩ := bind_eq_ok.mp hr
    obtain ⟨a', ha, heq⟩ := map_eq_ok.mp hmap
    cases heq
    obtain ⟨used, rfl, hlen, hmore⟩ := h.consumes hb
    refine ⟨used, rfl, ?_, fun more => ?_⟩
    · simp only [Codec.via, exact b a ha]
      exact hlen
    · simp only [Codec.via, hmore, Except.bind, ha, Except.map]
  · rcases bind_eq_error.mp hr with hb | ⟨⟨b, tail⟩, hb, hmap⟩
    · simp only [Codec.via, h.refuses hb he more, Except.bind]
    · obtain ⟨used, rfl, -, hmore⟩ := h.consumes hb
      simp only [Codec.via, List.append_assoc, hmore, Except.bind]
      rw [map_eq_error.mp hmap]
      rfl

theorem unit_reader : unit.Reader :=
  ⟨fun {input a rest} h => ⟨[], by cases h; rfl, Nat.le_refl 0, fun _ => rfl⟩,
    fun {input e} h => by cases h⟩

theorem Codec.Reader.seq (hA : A.Reader) (hB : B.Reader) : (A.seq B).Reader := by
  refine ⟨fun {input p rest} hr => ?_, fun {input e} hr he more => ?_⟩
  · obtain ⟨⟨a, tail⟩, ha, hmap⟩ := bind_eq_ok.mp hr
    obtain ⟨⟨b, tail'⟩, hb, heq⟩ := map_eq_ok.mp hmap
    cases heq
    obtain ⟨usedA, rfl, hlenA, hmoreA⟩ := hA.consumes ha
    obtain ⟨usedB, rfl, hlenB, hmoreB⟩ := hB.consumes hb
    refine ⟨usedA ++ usedB, (List.append_assoc _ _ _).symm, ?_, fun more => ?_⟩
    · simp only [Codec.seq, List.length_append]
      omega
    · simp only [Codec.seq, List.append_assoc, hmoreA, Except.bind, hmoreB, Except.map]
  · rcases bind_eq_error.mp hr with ha | ⟨⟨a, tail⟩, ha, hmap⟩
    · simp only [Codec.seq, hA.refuses ha he more, Except.bind]
    · obtain ⟨used, rfl, -, hmore⟩ := hA.consumes ha
      have hb := hB.refuses (map_eq_error.mp hmap) he more
      simp only [Codec.seq, List.append_assoc, hmore, Except.bind, hb, Except.map]

theorem bool_reader : bool.Reader := by
  refine ⟨fun {input a rest} h => ?_, fun {input e} h he more => ?_⟩
  · cases input with
    | nil => cases h
    | cons b input =>
      simp only [bool] at h
      split at h
      next hb =>
        cases h
        exact ⟨[b], rfl, Nat.le_refl 1, fun more => by simp [bool, hb]⟩
      next =>
        split at h
        next hb =>
          cases h
          exact ⟨[b], rfl, Nat.le_refl 1, fun more => by simp [bool, hb]⟩
        next => cases h
  · cases input with
    | nil =>
      cases h
      exact absurd rfl he
    | cons b input =>
      simp only [bool] at h
      split at h
      next => cases h
      next h0 =>
        split at h
        next => cases h
        next h1 =>
          cases h
          simp [bool, h0, h1]

theorem Codec.Reader.option (hA : A.Reader) : (option A).Reader := by
  refine ⟨fun {input a rest} h => ?_, fun {input e} h he more => ?_⟩
  · cases input with
    | nil => cases h
    | cons b input =>
      simp only [Postcard.option] at h
      split at h
      next hb =>
        cases h
        exact ⟨[b], rfl, Nat.le_refl 1, fun more => by simp [Postcard.option, hb]⟩
      next h0 =>
        split at h
        next h1 =>
          obtain ⟨⟨a', tail⟩, ha, heq⟩ := map_eq_ok.mp h
          cases heq
          obtain ⟨used, rfl, hlen, hmore⟩ := hA.consumes ha
          refine ⟨b :: used, rfl, by simpa [Postcard.option] using hlen, fun more => ?_⟩
          simp [Postcard.option, h1, hmore, Except.map]
        next => cases h
  · cases input with
    | nil =>
      cases h
      exact absurd rfl he
    | cons b input =>
      simp only [Postcard.option] at h
      split at h
      next => cases h
      next h0 =>
        split at h
        next h1 =>
          have ha := hA.refuses (map_eq_error.mp h) he more
          simp [Postcard.option, h1, ha, Except.map]
        next h1 =>
          cases h
          simp [Postcard.option, h0, h1]

theorem bytes_reader : bytes.Reader := by
  have hvarint : varint64.Reader := varint_reader 64 (by decide)
  refine ⟨fun {input a rest} h => ?_, fun {input e} h he more => ?_⟩
  · obtain ⟨⟨n, tail⟩, hn, hbody⟩ := bind_eq_ok.mp h
    dsimp only at hbody
    split at hbody
    next hle =>
      cases hbody
      obtain ⟨used, rfl, hlen, hmore⟩ := hvarint.consumes hn
      have htake : (tail.take n.toNat).length = n.toNat := by
        rw [List.length_take]
        omega
      refine ⟨used ++ tail.take n.toNat, ?_, ?_, fun more => ?_⟩
      · rw [List.append_assoc, List.take_append_drop]
      · simp only [bytes, List.length_append, htake, BitVec.ofNat_toNat, BitVec.setWidth_eq]
        omega
      · simp only [bytes, List.append_assoc, hmore, Except.bind, List.length_append, htake,
          Nat.le_add_right, if_true]
        rw [List.take_left' htake, List.drop_left' htake]
    next => cases hbody
  · rcases bind_eq_error.mp h with hn | ⟨⟨n, tail⟩, hn, hbody⟩
    · simp only [bytes, hvarint.refuses hn he more, Except.bind]
    · dsimp only at hbody
      split at hbody
      next => cases hbody
      next =>
        cases hbody
        exact absurd rfl he

theorem string_reader : string.Reader := by
  refine bytes_reader.via fun b s h => ?_
  by_cases hv : ByteArray.IsValidUTF8 ⟨b.toArray⟩
  · have hs : String.fromUTF8? ⟨b.toArray⟩ = some (String.fromUTF8 ⟨b.toArray⟩ hv) := dif_pos hv
    rw [hs] at h
    cases h
    rfl
  · have hs : String.fromUTF8? ⟨b.toArray⟩ = none := dif_neg hv
    rw [hs] at h
    cases h

end Combinators

section Enumerations

theorem Enumeration.encode_make {E : Enumeration ε} {k : Fin E.variants.length}
    {f : (E.variants.get k).Fields} (exact : E.split ((E.variants.get k).make f) = ⟨k, f⟩) :
    E.codec.encode ((E.variants.get k).make f) =
      varint32.encode (BitVec.ofNat 32 k) ++ (E.variants.get k).fields.encode f := by
  dsimp only [codec]
  rw [exact]

/-- Where what fields of a variant make is found to be of that variant and of those fields. -/
theorem Enumeration.codec_reader {E : Enumeration ε} (fields : ∀ v ∈ E.variants, v.fields.Reader)
    (exact : ∀ k f, E.split ((E.variants.get k).make f) = ⟨k, f⟩) : E.codec.Reader := by
  have hvarint : varint32.Reader := varint_reader 32 (by decide)
  have hfew := E.few
  refine ⟨fun {input a rest} h => ?_, fun {input e} h he more => ?_⟩
  · obtain ⟨⟨n, tail⟩, hn, hvariant⟩ := bind_eq_ok.mp h
    dsimp only [decodeVariant] at hvariant
    split at hvariant
    next hk =>
      obtain ⟨⟨f, tail'⟩, hf, heq⟩ := map_eq_ok.mp hvariant
      cases heq
      obtain ⟨usedIndex, rfl, hlenIndex, hmoreIndex⟩ := hvarint.consumes hn
      obtain ⟨usedFields, rfl, hlenFields, hmoreFields⟩ :=
        (fields _ (List.get_mem _ ⟨n.toNat, hk⟩)).consumes hf
      refine ⟨usedIndex ++ usedFields, (List.append_assoc _ _ _).symm, ?_, fun more => ?_⟩
      · rw [encode_make (exact ⟨n.toNat, hk⟩ f)]
        simp only [List.length_append, BitVec.ofNat_toNat, BitVec.setWidth_eq]
        omega
      · simp only [codec, List.append_assoc, hmoreIndex, Except.bind, decodeVariant, dif_pos hk,
          hmoreFields, Except.map]
    next => cases hvariant
  · rcases bind_eq_error.mp h with hn | ⟨⟨n, tail⟩, hn, hvariant⟩
    · simp only [codec, hvarint.refuses hn he more, Except.bind]
    · obtain ⟨used, rfl, -, hmore⟩ := hvarint.consumes hn
      dsimp only [decodeVariant] at hvariant
      simp only [codec, List.append_assoc, hmore, Except.bind, decodeVariant]
      split at hvariant
      next hk =>
        have hf := (fields _ (List.get_mem _ ⟨n.toNat, hk⟩)).refuses
          (map_eq_error.mp hvariant) he more
        rw [dif_pos hk, hf]
        rfl
      next hk =>
        rw [dif_neg hk]
        exact hvariant

end Enumerations

end Postcard
