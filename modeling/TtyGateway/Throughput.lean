import TtyGateway.Pacing
import TtyGateway.Codec
import TtyGateway.Grammar

namespace TtyGateway

open Transition Postcard

theorem length_encode_data (bytes : Bytes) :
    (encode ServerFrame.codec (.data bytes)).length ≤ bytes.length + 15 := by
  have hindex := length_putVarint (varintMax 32) (BitVec.ofNat 32 1).toNat
  have hlen := length_putVarint (varintMax 64) (BitVec.ofNat 64 bytes.length).toNat
  have hsum : (encode ServerFrame.codec (.data bytes)).length =
      (putVarint (varintMax 32) (BitVec.ofNat 32 1).toNat).length +
        ((putVarint (varintMax 64) (BitVec.ofNat 64 bytes.length).toNat).length + bytes.length) := by
    rw [← List.length_append, ← List.length_append]
    rfl
  have h32 : varintMax 32 = 5 := rfl
  have h64 : varintMax 64 = 10 := rfl
  omega

theorem encodeFramed_chunk {bytes : Bytes} (h : bytes.length ≤ defaultScrollbackBytes) :
    ∃ out, encodeFramed ServerFrame.codec (.data bytes) = .ok out := by
  apply encodeFramed_ok
  have hlen := length_encode_data bytes
  have hmax : defaultScrollbackBytes + 15 ≤ maxFrameLen := by decide
  omega

theorem Move.yielded {s s' : State} {l : Label} (m : Move s l s') (delivers : s.Delivers)
    {c : ConnId}
    (h : ∀ p ∈ (s.conns c).yielded, p.2.length ≤ s.maxScrollback) :
    ∀ p ∈ (s'.conns c).yielded, p.2.length ≤ s.maxScrollback := by
  by_cases hl : l.conn = some c
  · cases m with
    | @chunk d session ses bytes reader hpc hsession hses hp =>
      cases hl
      have hbuf := delivers.buffered session.id ses hses
      have hcursor := ((delivers.tracks c).pieces session ses hsession hses).bound
      have hlen := SessionReader.chunk_length hbuf.1 hcursor hp
      intro p hm
      simp only [State.setConn_conns_self, List.mem_append, List.mem_singleton] at hm
      rcases hm with hm | rfl
      · exact h p hm
      · exact hlen.trans hbuf.2.le
    | signIgnored | recvIgnored => exact h
    | actorOutput | actorInput | actorEnd | actorNone | ingest | ingestEnd | tick => cases hl
    | _ =>
      cases hl
      simpa using h
  · rw [m.conns_of_ne hl]
    exact h

theorem gateway_chunks {maxScrollback : Nat} {C : State → Label → Prop} {s : State}
    (h : Reach (gateway maxScrollback) C s) (c : ConnId) :
    ∀ p ∈ (s.conns c).yielded, p.2 ≠ [] ∧ p.2.length ≤ maxScrollback := by
  have hlen : ∀ p ∈ (s.conns c).yielded, p.2.length ≤ maxScrollback := by
    refine h.invariant
      (P := fun s => ∀ p ∈ (s.conns c).yielded, p.2.length ≤ maxScrollback) ?_ ?_
    · simp [gateway, machine, State.init, Conn.init]
    · intro s l s' hr ih _ hs
      obtain ⟨delivers, hmax⟩ := gateway_delivers hr
      exact hmax ▸ (step_move hs).yielded delivers (hmax.symm ▸ ih)
  intro p hp
  exact ⟨(gateway_sound h).yielded_ne_nil (gateway_delivers h).1 hp, hlen p hp⟩

/-- `throttle` has let a chunk through, and left no debt. -/
structure State.Admits (s : State) (c : ConnId) (bytes : Bytes) : Prop where
  counting : (s.conns c).sender = .count bytes s.clock
  balance : ∀ limiter, (s.conns c).limiter = some limiter → 0 ≤ limiter.1.tokens

/-- `throttle` sleeps on a chunk that its bucket has refused, or has woken up again. -/
structure State.Waits (s : State) (c : ConnId) (bytes : Bytes) (left : TokenBucket)
    (since until_ : ℚ) : Prop where
  limiter : (s.conns c).limiter = some (left, since)
  sender : (s.conns c).sender = .sleep bytes until_ ∨
    (s.conns c).sender = .throttle bytes ∧ until_ ≤ s.clock

section Throttle

variable {s s' : State} {c : ConnId} {l : Label} {bytes : Bytes} {left : TokenBucket}
  {since until_ : ℚ}

theorem Move.clock_le (m : Move s l s') : s.clock ≤ s'.clock := by
  cases m with
  | tick h => exact le_add_of_nonneg_right h
  | _ => exact le_rfl

theorem admitted_nonneg {b b' : TokenBucket} {amount : ℕ} (h : b.tryConsume amount = (true, b')) :
    0 ≤ b'.tokens := by
  unfold TokenBucket.tryConsume at h
  split at h
  next hle =>
    cases h
    exact sub_nonneg.mpr hle
  next => cases h

/-- One round: the chunk is let through, or `throttle` goes to sleep on it. -/
theorem throttle_round (hsender : (s.conns c).sender = .throttle bytes) :
    ∃ s', step s (.throttle c) = some s' ∧ (s'.Admits c bytes ∨
      ∃ left, s'.Waits c bytes left s.clock (s.clock + left.timeUntil bytes.length)) := by
  cases hlim : (s.conns c).limiter with
  | none =>
    refine ⟨s.setConn c { s.conns c with sender := .count bytes s.clock },
      by simp [step, State.throttle, hsender, hlim], Or.inl ⟨by simp, ?_⟩⟩
    simp [hlim]
  | some limiter =>
    obtain ⟨bucket, last⟩ := limiter
    rcases htake : (bucket.refill (s.clock - last)).tryConsume bytes.length with ⟨ok, left⟩
    cases ok with
    | true =>
      refine ⟨s.setConn c { s.conns c with
          limiter := some (left, s.clock), sender := .count bytes s.clock },
        by simp [step, State.throttle, hsender, hlim, htake], Or.inl ⟨by simp, ?_⟩⟩
      simpa using admitted_nonneg htake
    | false =>
      exact ⟨s.setConn c { s.conns c with
          limiter := some (left, s.clock)
          sender := .sleep bytes (s.clock + left.timeUntil bytes.length) },
        by simp [step, State.throttle, hsender, hlim, htake],
        Or.inr ⟨left, by simp, Or.inl (by simp)⟩⟩

theorem State.Waits.admits (h : s.Waits c bytes left since (since + left.timeUntil bytes.length))
    (hsender : (s.conns c).sender = .throttle bytes) (paced : (s.conns c).Paced defaultScrollbackBytes) :
    ∃ s', step s (.throttle c) = some s' ∧ s'.Admits c bytes := by
  have hwoken : since + left.timeUntil bytes.length ≤ s.clock := by
    rcases h.sender with hs | ⟨-, hle⟩
    · simp [hsender] at hs
    · exact hle
  obtain ⟨hcap, hrate⟩ := paced.bucket _ h.limiter
  have hfits : (bytes.length : ℚ) ≤ left.capacity :=
    hcap ▸ paced.fits (b := bytes) (by simp [hsender, SenderPc.inFlight])
  have hgranted : ((left.refill (s.clock - since)).tryConsume bytes.length).1 = true := by
    obtain ⟨-, hleast⟩ := (TokenBucket.timeUntil_isLeast hrate hfits).1
    rw [TokenBucket.tryConsume_iff] at hleast ⊢
    refine hleast.trans (min_le_min_right _ (add_le_add_right ?_ _))
    exact mul_le_mul_of_nonneg_right (by linarith) hrate.le
  rcases htake : (left.refill (s.clock - since)).tryConsume bytes.length with ⟨ok, rest⟩
  obtain rfl : ok = true := by simpa [htake] using hgranted
  refine ⟨s.setConn c { s.conns c with
      limiter := some (rest, s.clock), sender := .count bytes s.clock },
    by simp [step, State.throttle, hsender, h.limiter, htake], ⟨by simp, ?_⟩⟩
  simpa using admitted_nonneg htake

/-- Until its next round `throttle` only wakes up, or is aborted. -/
theorem State.Waits.next (h : s.Waits c bytes left since until_) (hs : step s l = some s')
    (sound : s.Sound) (hl : l ≠ .throttle c) :
    s'.Waits c bytes left since until_ ∨
      (s'.conns c).sender = .ended ∧ (s'.conns c).aborted = true := by
  have m := step_move hs
  have hclock := m.clock_le
  have keep : (s'.conns c).limiter = (s.conns c).limiter →
      (s'.conns c).sender = (s.conns c).sender → s'.Waits c bytes left since until_ := by
    intro hlim hsender
    refine ⟨hlim.trans h.limiter, ?_⟩
    rw [hsender]
    exact h.sender.imp id fun hw => ⟨hw.1, hw.2.trans hclock⟩
  by_cases hc : l.conn = some c
  · have busy : ∀ pc, (s.conns c).sender = pc → (∃ b u, pc = .sleep b u) ∨ ∃ b, pc = .throttle b := by
      rintro pc rfl
      exact h.sender.imp (fun hs => ⟨_, _, hs⟩) fun hs => ⟨_, hs.1⟩
    cases m with
    | @wake d bytes' u hpc =>
      cases hc
      rcases h.sender with hsleep | ⟨hthrottle, -⟩
      · obtain ⟨rfl, rfl⟩ : bytes' = bytes ∧ u = until_ := by simpa using hpc.symm.trans hsleep
        refine Or.inl ⟨by simpa using h.limiter, Or.inr ⟨by simp, ?_⟩⟩
        simpa [step, State.wake, hpc] using hs
      · simp [hpc] at hthrottle
    | @cancel d haborted =>
      cases hc
      exact Or.inr ⟨by simp, by simpa using haborted⟩
    | @statusSent d hpc =>
      cases hc
      have hidle := sound.sender_idle (c := c) (Or.inr (Or.inr (by simp [hpc, Pc.stage])))
      simpa using busy _ hidle
    | unlimited | admitted | delayed =>
      cases hc
      exact absurd rfl hl
    | senderStart hpc | chunk hpc | finished hpc | parked hpc | oob hpc | oobClosed hpc
    | addOut hpc | written hpc | unwritten hpc | closedWritten hpc | closedUnwritten hpc =>
      cases hc
      simpa using busy _ hpc
    | signIgnored | recvIgnored => exact Or.inl h
    | actorOutput | actorInput | actorEnd | actorNone | ingest | ingestEnd | tick => cases hc
    | _ =>
      cases hc
      exact Or.inl (keep (by simp) (by simp))
  · rw [m.conns_of_ne hc] at keep
    exact Or.inl (keep rfl rfl)

theorem Move.stays_aborted (m : Move s l s') (sound : s.Sound)
    (h : (s.conns c).sender = .ended ∧ (s.conns c).aborted = true) :
    (s'.conns c).sender = .ended ∧ (s'.conns c).aborted = true := by
  by_cases hc : l.conn = some c
  · cases m with
    | abort => cases hc; simpa using h.1
    | cancel => cases hc; simpa using h.2
    | @statusSent d hpc =>
      cases hc
      have hidle := sound.sender_idle (c := c) (Or.inr (Or.inr (by simp [hpc, Pc.stage])))
      simp [hidle] at h
    | senderStart hpc | chunk hpc | finished hpc | parked hpc | oob hpc | oobClosed hpc
    | unlimited hpc | admitted hpc | delayed hpc | wake hpc | addOut hpc | written hpc
    | unwritten hpc | closedWritten hpc | closedUnwritten hpc =>
      cases hc
      simp [hpc] at h
    | signIgnored | recvIgnored => exact h
    | actorOutput | actorInput | actorEnd | actorNone | ingest | ingestEnd | tick => cases hc
    | _ =>
      cases hc
      simpa using h
  · rw [m.conns_of_ne hc]
    exact h

theorem State.Waits.run {t : State} {ls : List Label} {n : ℕ} (h : s.Waits c bytes left since until_)
    (reach : Reachable (gateway n) s) (run : exec step s ls = some t) (hl : .throttle c ∉ ls) :
    t.Waits c bytes left since until_ ∨
      (t.conns c).sender = .ended ∧ (t.conns c).aborted = true := by
  have kept : Reachable (gateway n) t ∧ (.throttle c ∉ ls →
      t.Waits c bytes left since until_ ∨
        (t.conns c).sender = .ended ∧ (t.conns c).aborted = true) := by
    refine exec_trace (P := fun ls t => Reachable (gateway n) t ∧ (.throttle c ∉ ls →
      t.Waits c bytes left since until_ ∨
        (t.conns c).sender = .ended ∧ (t.conns c).aborted = true)) ⟨reach, fun _ => Or.inl h⟩ ?_ run
    intro ms u l u' ⟨hu, ih⟩ hs
    refine ⟨hu.step trivial hs, fun hno => ?_⟩
    have sound := gateway_sound hu
    rw [List.mem_append, List.mem_singleton, not_or] at hno
    rcases ih hno.1 with hwaits | hended
    · exact hwaits.next hs sound (Ne.symm hno.2)
    · exact Or.inr ((step_move hs).stays_aborted sound hended)
  exact kept.2 hl

end Throttle

/-- With the scrollback that `SessionManager::new` sets, a chunk is not empty, fits in a frame, and
gets through `throttle` with one sleep at most, whatever its bucket has come to. -/
theorem chunks_get_through {s : State} (h : Reachable (gateway defaultScrollbackBytes) s)
    (c : ConnId) :
    (∀ piece ∈ (s.conns c).yielded, piece.2 ≠ [] ∧ piece.2.length ≤ defaultScrollbackBytes ∧
      ∃ out, encodeFramed ServerFrame.codec (.data piece.2) = .ok out) ∧
    ∀ bytes, (s.conns c).sender = .throttle bytes →
      ∃ s₁, step s (.throttle c) = some s₁ ∧ (s₁.Admits c bytes ∨
        ∃ until_, ∀ ls t, exec step s₁ ls = some t → .throttle c ∉ ls →
          (t.conns c).sender = .sleep bytes until_ ∧
            (until_ ≤ t.clock → ∃ t', step t (.wake c) = some t') ∨
          (t.conns c).sender = .throttle bytes ∧
            (∃ t', step t (.throttle c) = some t' ∧ t'.Admits c bytes) ∨
          (t.conns c).sender = .ended ∧ (t.conns c).aborted = true) := by
  refine ⟨fun piece hp => ?_, fun bytes hsender => ?_⟩
  · obtain ⟨hne, hlen⟩ := gateway_chunks h c piece hp
    exact ⟨hne, hlen, encodeFramed_chunk hlen⟩
  · obtain ⟨s₁, hs, hround⟩ := throttle_round hsender
    refine ⟨s₁, hs, hround.imp id ?_⟩
    rintro ⟨left, hwaits⟩
    have hreach := h.step trivial hs
    refine ⟨s.clock + left.timeUntil bytes.length, fun ls t run hl => ?_⟩
    rcases hwaits.run hreach run hl with hw | hended
    · rcases hw.sender with hsleep | ⟨hthrottle, -⟩
      · refine Or.inl ⟨hsleep, fun hlate => ?_⟩
        exact ⟨t.setConn c { t.conns c with sender := .throttle bytes },
          by simp [step, State.wake, hsleep, hlate]⟩
      · have hpaced := gateway_paced (reachable_exec hreach run) c
        exact Or.inr (Or.inl ⟨hthrottle, hw.admits hthrottle hpaced⟩)
    · exact Or.inr (Or.inr hended)

/-- A plan of no bytes per second: the first chunk is let through. -/
theorem chunks_get_through_unpaid : ∃ s s₁, Reachable (gateway defaultScrollbackBytes) s ∧
    (s.conns 0).yielded = [(0, [104])] ∧
    (∃ out, encodeFramed ServerFrame.codec (.data [104]) = .ok out) ∧
    step s (.throttle 0) = some s₁ ∧ s₁.Admits 0 [104] := by
  obtain ⟨s, hs, ⟨hyielded, hsender⟩, hcount⟩ :=
    exists_reachable_of_exec (.init defaultScrollbackBytes) step
      (opening 0 none ⟨some 0, none⟩ 5 [1] ++ [.actorOutput 5 [104], .ingest 5, .pollReader 0])
      (fun s => ((s.conns 0).yielded = [(0, [104])] ∧ (s.conns 0).sender = .throttle [104]) ∧
        (step s (.throttle 0)).any fun s₁ => (s₁.conns 0).sender = .count [104] 0)
      (by decide +kernel)
  obtain ⟨hchunks, hthrottle⟩ := chunks_get_through hs 0
  obtain ⟨s₁, hs₁, hround⟩ := hthrottle [104] hsender
  obtain ⟨-, -, hencoded⟩ := hchunks (0, [104]) (by simp [hyielded])
  refine ⟨s, s₁, hs, hyielded, hencoded, hs₁, ?_⟩
  rcases hround with hadmits | ⟨until_, hsleep⟩
  · exact hadmits
  · have hcount' : (s₁.conns 0).sender = .count [104] 0 := by simpa [hs₁] using hcount
    have hno := hsleep [] s₁ rfl (by simp)
    simp [hcount'] at hno

end TtyGateway
