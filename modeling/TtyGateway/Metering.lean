import TtyGateway.Grammar
import Mathlib.Algebra.Order.Field.Basic

namespace TtyGateway

open Transition

def State.delivered (s : State) (c : ConnId) : Nat := ((s.completed c).map List.length).sum

def SenderPc.counted : SenderPc → Nat
  | .write (.data bytes) _ => bytes.length
  | _ => 0

/-- The meter has counted what is delivered and what is about to be. -/
structure Conn.Metered (x : Conn) (delivered : Nat) : Prop where
  running : x.sender ≠ .ended → x.meter.bytesOut = delivered + x.sender.counted
  least : delivered ≤ x.meter.bytesOut

section Metered

variable {s s' : State} {c : ConnId} {l : Label}

theorem State.delivered_setConn (d : ConnId) (x : Conn) :
    (s.setConn d x).delivered c = s.delivered c := rfl

theorem State.delivered_put (t : ℚ) (f : ServerFrame) :
    (s.put c t f).delivered c = s.delivered c + (f.output.toList.map List.length).sum := by
  simp [State.delivered, State.completed_put]

theorem Conn.Metered.same {x y : Conn} {n : Nat} (h : x.Metered n)
    (meter : y.meter.bytesOut = x.meter.bytesOut)
    (running : y.sender ≠ .ended → x.sender ≠ .ended ∧ y.sender.counted = x.sender.counted) :
    y.Metered n := by
  refine ⟨fun hy => ?_, ?_⟩
  · obtain ⟨hx, he⟩ := running hy
    rw [meter, he]
    exact h.running hx
  · rw [meter]
    exact h.least

theorem Move.metered (m : Move s l s') (sound : s.Sound)
    (h : ∀ c, (s.conns c).Metered (s.delivered c)) (c : ConnId) :
    (s'.conns c).Metered (s'.delivered c) := by
  by_cases hl : l.conn = some c
  · have hc := h c
    cases m with
    | @signSent d | @rejectSent d | @helloSent d =>
      cases hl
      simp only [State.setConn_conns_self]
      refine Conn.Metered.same ?_ (x := s.conns c) rfl (fun hy => ⟨hy, rfl⟩)
      rw [State.delivered_setConn, State.delivered_put]
      exact hc
    | @statusSent d hpc =>
      cases hl
      have hidle := sound.sender_idle (c := c) (Or.inr (Or.inr (by simp [hpc, Pc.stage])))
      simp only [State.setConn_conns_self]
      refine Conn.Metered.same ?_ (x := s.conns c) rfl (fun _ => by simp [hidle, SenderPc.counted])
      rw [State.delivered_setConn, State.delivered_put]
      exact hc
    | @addOut d bytes time hpc =>
      cases hl
      have hrun := hc.running (by simp [hpc])
      simp only [hpc, SenderPc.counted] at hrun
      refine ⟨fun _ => ?_, ?_⟩
      · simp [UsageMeter.addOut, SenderPc.counted, hrun, State.delivered_setConn]
      · simp [UsageMeter.addOut, hrun, State.delivered_setConn]
    | @written d frame time hpc =>
      cases hl
      have hrun := hc.running (by simp [hpc])
      have hsum : (s.conns c).meter.bytesOut =
          s.delivered c + (frame.output.toList.map List.length).sum := by
        rw [hrun, hpc]
        rcases (sound.framed c).writing frame time hpc with rfl | ⟨bytes, rfl⟩ <;>
          simp [SenderPc.counted, ServerFrame.output]
      refine ⟨fun _ => ?_, ?_⟩
      · simp [State.delivered_setConn, State.delivered_put, SenderPc.counted, hsum]
      · simp [State.delivered_setConn, State.delivered_put, hsum]
    | @closedWritten d hpc =>
      cases hl
      simp only [State.setConn_conns_self]
      refine Conn.Metered.same ?_ (x := s.conns c) rfl (by simp)
      rw [State.delivered_setConn, State.delivered_put]
      exact hc
    | @oob d frame rest hpc ho =>
      cases hl
      have hf := (sound.framed c).oob frame (by simp [ho])
      simp only [State.setConn_conns_self]
      exact Conn.Metered.same hc rfl fun _ => by simp [hpc, hf, SenderPc.counted]
    | @senderStart d hpc | @chunk d _ _ _ _ hpc | @finished d _ _ _ hpc | @unlimited d _ hpc
    | @admitted d _ _ _ _ hpc | @delayed d _ _ _ _ hpc | @wake d _ _ hpc =>
      cases hl
      simp only [State.setConn_conns_self]
      exact Conn.Metered.same hc rfl fun _ => by simp [hpc, SenderPc.counted]
    | @unwritten d | @closedUnwritten d | @cancel d =>
      cases hl
      simp only [State.setConn_conns_self]
      exact Conn.Metered.same hc rfl (by simp)
    | signIgnored | recvIgnored => exact hc
    | actorOutput | actorInput | actorEnd | actorNone | ingest | ingestEnd | tick => cases hl
    | _ =>
      cases hl
      simp only [State.setConn_conns_self]
      exact Conn.Metered.same hc rfl fun hy => ⟨hy, rfl⟩
  · have hdel : s'.delivered c = s.delivered c := by
      rw [State.delivered, m.completed_of_ne hl, State.delivered]
    rw [m.conns_of_ne hl, hdel]
    exact h c

end Metered

theorem gateway_metered {maxScrollback : Nat} {C : State → Label → Prop} {s : State}
    (h : Reach (gateway maxScrollback) C s) : ∀ c, (s.conns c).Metered (s.delivered c) := by
  refine h.invariant (P := fun s => ∀ c, (s.conns c).Metered (s.delivered c)) (fun c => ?_) ?_
  · exact ⟨fun _ => rfl, le_rfl⟩
  · exact fun s l s' hr ih _ hs => (step_move hs).metered (gateway_sound hr) ih

section Late

variable {s s' : State} {c : ConnId} {l : Label} {ls : List Label} {reported : Nat}

theorem Move.bytesOut_of_ne (m : Move s l s') (h : l ≠ .addOut c) :
    (s'.conns c).meter.bytesOut = (s.conns c).meter.bytesOut := by
  by_cases hl : l.conn = some c
  · cases m with
    | addOut =>
      cases hl
      exact absurd rfl h
    | signIgnored | recvIgnored => rfl
    | actorOutput | actorInput | actorEnd | actorNone | ingest | ingestEnd | tick => cases hl
    | _ =>
      cases hl
      simp [UsageMeter.addIn]
  · rw [m.conns_of_ne hl]

theorem Move.delivered_of_ne (m : Move s l s') (h : l ≠ .written c true) :
    s'.delivered c = s.delivered c := by
  by_cases hl : l.conn = some c
  · cases m with
    | written | closedWritten =>
      cases hl
      exact absurd rfl h
    | signSent | rejectSent | helloSent | statusSent =>
      cases hl
      rw [State.delivered_setConn, State.delivered_put]
      rfl
    | _ => rfl
  · rw [State.delivered, m.completed_of_ne hl, State.delivered]

/-- The sender task has a counted chunk in its hand, or has ended. -/
def SenderPc.Pending (sender : SenderPc) : Prop :=
  (∃ bytes time, sender = .write (.data bytes) time) ∨ sender = .ended

theorem Move.pending_of_ne (m : Move s l s') (sound : s.Sound) (h : l ≠ .written c true)
    (hp : (s.conns c).sender.Pending) : (s'.conns c).sender.Pending := by
  by_cases hl : l.conn = some c
  · cases m with
    | unwritten | closedUnwritten | cancel =>
      cases hl
      exact Or.inr (by simp)
    | written | closedWritten =>
      cases hl
      exact absurd rfl h
    | statusSent hpc =>
      cases hl
      have hidle := sound.sender_idle (c := c) (Or.inr (Or.inr (by simp [hpc, Pc.stage])))
      rcases hp with ⟨_, _, hp⟩ | hp <;> simp [hidle] at hp
    | senderStart hpc | chunk hpc | finished hpc | parked hpc | oob hpc | unlimited hpc
    | admitted hpc | delayed hpc | wake hpc | addOut hpc =>
      cases hl
      rcases hp with ⟨_, _, hp⟩ | hp <;> simp [hpc] at hp
    | signIgnored | recvIgnored => exact hp
    | actorOutput | actorInput | actorEnd | actorNone | ingest | ingestEnd | tick => cases hl
    | _ =>
      cases hl
      simpa using hp
  · rw [m.conns_of_ne hl]
    exact hp

/-- A chunk was counted and then its write completed. -/
def CountedAndSent (c : ConnId) (ls : List Label) : Prop :=
  [.addOut c, .written c true].Sublist ls

theorem countedAndSent_append (l : Label) : CountedAndSent c (ls ++ [l]) ↔
    CountedAndSent c ls ∨ .addOut c ∈ ls ∧ l = .written c true := by
  constructor
  · intro h
    obtain ⟨pre, post, he, hpre, hpost⟩ := List.sublist_append_iff.mp h
    rcases List.sublist_singleton.mp hpost with rfl | rfl
    · rw [List.append_nil] at he
      subst he
      exact Or.inl hpre
    · have hsplit : [Label.addOut c] ++ [.written c true] = pre ++ [l] := he
      obtain ⟨rfl, hl⟩ := List.append_inj' hsplit rfl
      cases hl
      exact Or.inr ⟨List.singleton_sublist.mp hpre, rfl⟩
  · rintro (h | ⟨h, rfl⟩)
    · exact h.trans (List.sublist_append_left ls [l])
    · exact (List.singleton_sublist.mpr h).append (List.Sublist.refl _)

/-- What the labels since the handler's look at the meter say about the state. -/
structure Late (c : ConnId) (reported : Nat) (ls : List Label) (s : State) : Prop where
  uncounted : .addOut c ∉ ls → (s.conns c).meter.bytesOut = reported
  counted : .addOut c ∈ ls → reported < (s.conns c).meter.bytesOut
  pending : .addOut c ∈ ls → ¬CountedAndSent c ls → (s.conns c).sender.Pending
  exceeded : CountedAndSent c ls → reported < s.delivered c
  within : ¬CountedAndSent c ls → s.delivered c ≤ reported

theorem Late.addOut (h : Late c reported ls s) (m : Move s (.addOut c) s') (sound : s'.Sound)
    (delivers : s'.Delivers) : Late c reported (ls ++ [.addOut c]) s' := by
  have hsent : CountedAndSent c (ls ++ [.addOut c]) ↔ CountedAndSent c ls := by
    simp [countedAndSent_append]
  have hdel : s'.delivered c = s.delivered c := m.delivered_of_ne (by simp)
  have hle : reported ≤ (s.conns c).meter.bytesOut := by
    by_cases hmem : .addOut c ∈ ls
    · exact (h.counted hmem).le
    · exact (h.uncounted hmem).ge
  cases m with
  | @addOut _ bytes time hpc =>
    have hsender : ((s.setConn c { s.conns c with
        meter := (s.conns c).meter.addOut bytes.length,
        sender := .write (.data bytes) time }).conns c).sender = .write (.data bytes) time := by
      simp
    have hpos : 0 < bytes.length := List.length_pos_iff.mpr (sound.data_ne_nil delivers hsender)
    refine ⟨?_, ?_, ?_, ?_, ?_⟩
    · intro hn
      simp at hn
    · intro _
      simp only [State.setConn_conns_self, UsageMeter.addOut]
      omega
    · intro _ _
      exact Or.inl ⟨bytes, time, hsender⟩
    · intro hs
      rw [hdel]
      exact h.exceeded (hsent.mp hs)
    · intro hs
      rw [hdel]
      exact h.within fun ho => hs (hsent.mpr ho)

theorem Late.written (h : Late c reported ls s) (m : Move s (.written c true) s')
    (metered : (s'.conns c).Metered (s'.delivered c)) :
    Late c reported (ls ++ [.written c true]) s' := by
  have hout : (s'.conns c).meter.bytesOut = (s.conns c).meter.bytesOut :=
    m.bytesOut_of_ne (by simp)
  have hmem : .addOut c ∈ ls ++ [.written c true] ↔ .addOut c ∈ ls := by simp
  have hsent : CountedAndSent c (ls ++ [.written c true]) ↔ .addOut c ∈ ls := by
    rw [countedAndSent_append]
    refine ⟨?_, fun ha => Or.inr ⟨ha, rfl⟩⟩
    rintro (ho | ⟨ha, -⟩)
    · exact ho.subset (by simp)
    · exact ha
  refine ⟨?_, ?_, ?_, ?_, ?_⟩
  · intro hn
    rw [hout]
    exact h.uncounted fun ha => hn (hmem.mpr ha)
  · intro ha
    rw [hout]
    exact h.counted (hmem.mp ha)
  · intro ha hn
    exact absurd (hsent.mpr (hmem.mp ha)) hn
  · intro hs
    by_cases ho : CountedAndSent c ls
    · have hover := h.exceeded ho
      cases m with
      | written => simp only [State.delivered_setConn, State.delivered_put]; omega
      | closedWritten => simp only [State.delivered_setConn, State.delivered_put]; omega
    · have hcounted := h.counted (hsent.mp hs)
      cases m with
      | @written _ frame time hpc =>
        -- the chunk that was counted is written, so all that is counted is delivered
        have hrun := metered.running (by simp)
        rw [hout] at hrun
        simp only [State.setConn_conns_self, SenderPc.counted, Nat.add_zero] at hrun
        exact hrun ▸ hcounted
      | closedWritten hpc =>
        rcases h.pending (hsent.mp hs) ho with ⟨_, _, hp⟩ | hp <;> simp [hpc] at hp
  · intro hs
    have hleast := metered.least
    rw [hout, h.uncounted fun ha => hs (hsent.mpr ha)] at hleast
    exact hleast

theorem Late.step (h : Late c reported ls s) (m : Move s l s') (sound : s.Sound)
    (sound' : s'.Sound) (delivers' : s'.Delivers)
    (metered : (s'.conns c).Metered (s'.delivered c)) : Late c reported (ls ++ [l]) s' := by
  by_cases ha : l = .addOut c
  · subst ha
    exact h.addOut m sound' delivers'
  by_cases hw : l = .written c true
  · subst hw
    exact h.written m metered
  have hmem : .addOut c ∈ ls ++ [l] ↔ .addOut c ∈ ls := by simp [Ne.symm ha]
  have hsent : CountedAndSent c (ls ++ [l]) ↔ CountedAndSent c ls := by
    simp [countedAndSent_append, hw]
  have hout := m.bytesOut_of_ne ha
  have hdel := m.delivered_of_ne hw
  refine ⟨?_, ?_, ?_, ?_, ?_⟩
  · rw [hmem, hout]
    exact h.uncounted
  · rw [hmem, hout]
    exact h.counted
  · rw [hmem, hsent]
    exact fun hi hn => m.pending_of_ne sound hw (h.pending hi hn)
  · rw [hsent, hdel]
    exact h.exceeded
  · rw [hsent, hdel]
    exact h.within

end Late

/-- What is reported for a connection covers all output whose write has completed, now and later,
unless its sender task counts a further chunk and completes its write. -/
theorem usage_reported {maxScrollback : Nat} {s₀ s₁ s : State} {c : ConnId} {ls : List Label}
    (h : Reachable (gateway maxScrollback) s₀) (report : step s₀ (.report c) = some s₁)
    (run : exec step s₁ ls = some s) :
    ∃ account id bytesIn bytesOut,
      s₁.calls = s₀.calls ++ [.reportUsage account id bytesIn bytesOut] ∧
      (s.delivered c ≤ bytesOut ↔ ¬CountedAndSent c ls) := by
  have h₁ : Reachable (gateway maxScrollback) s₁ := h.step trivial report
  have hmetered := gateway_metered h₁ c
  cases step_move report with
  | @report _ session outcome hpc hses =>
    refine ⟨_, _, _, _, rfl, ?_⟩
    have late : Reachable (gateway maxScrollback) s ∧
        Late c (s₀.conns c).meter.bytesOut ls s := by
      refine exec_trace (P := fun ls t => Reachable (gateway maxScrollback) t ∧
        Late c (s₀.conns c).meter.bytesOut ls t) ⟨h₁, ?_⟩ ?_ run
      · refine ⟨fun _ => by simp, by simp, by simp, by simp [CountedAndSent], fun _ => ?_⟩
        simpa using hmetered.least
      · intro ms t l t' ⟨ht, ih⟩ hs
        have ht' : Reachable (gateway maxScrollback) t' := ht.step trivial hs
        exact ⟨ht', ih.step (step_move hs) (gateway_sound ht) (gateway_sound ht')
          (gateway_delivers ht').1 (gateway_metered ht' c)⟩
    constructor
    · intro hle hs
      have hover := late.2.exceeded hs
      omega
    · exact late.2.within

/-- The report is made while a counted chunk is being written. -/
theorem usage_reported_counted : ∃ s₀ s₁ s,
    Reachable (gateway defaultScrollbackBytes) s₀ ∧ step s₀ (.report 0) = some s₁ ∧
    exec step s₁ [.written 0 true] = some s ∧ s.delivered 0 = 1 ∧
    ∃ account id bytesIn bytesOut,
      s₁.calls = s₀.calls ++ [.reportUsage account id bytesIn bytesOut] ∧
      s.delivered 0 ≤ bytesOut := by
  obtain ⟨s₀, h₀, hp⟩ := exists_reachable_of_exec (.init defaultScrollbackBytes) step
    (opening 0 none .unlimited 5 [1] ++ [.actorOutput 5 [104], .ingest 5, .pollReader 0,
      .throttle 0, .addOut 0, .recv 0 (.ok .close), .abort 0])
    (fun s₀ => (step s₀ (.report 0)).any fun s₁ =>
      (exec step s₁ [.written 0 true]).any fun s => s.delivered 0 = 1)
    (by decide +kernel)
  obtain ⟨s₁, h₁, hp⟩ := (Option.any_eq_true _ _).mp hp
  obtain ⟨s, hs, hp⟩ := (Option.any_eq_true _ _).mp hp
  obtain ⟨account, id, bytesIn, bytesOut, hcalls, hiff⟩ := usage_reported h₀ h₁ hs
  exact ⟨s₀, s₁, s, h₀, h₁, hs, of_decide_eq_true hp, account, id, bytesIn, bytesOut, hcalls,
    hiff.mpr (by simp [CountedAndSent])⟩

/-- The sender task has its chunk in `throttle` when the handler aborts it and reads the meter; it
reaches its next await only after the count, and the write goes through. -/
theorem usage_unreported : ∃ s, Reachable (gateway defaultScrollbackBytes) s ∧
    s.accepted = [0] ∧ s.calls.getLast? = some (.reportUsage none 5 0 0) ∧ s.delivered 0 = 1 := by
  obtain ⟨s, hs, hp⟩ := exists_reachable_of_exec (.init defaultScrollbackBytes) step
    (opening 0 none .unlimited 5 [1] ++ [.actorOutput 5 [104], .ingest 5, .pollReader 0,
      .recv 0 (.ok .close), .abort 0, .report 0, .throttle 0, .addOut 0, .written 0 true])
    (fun s => s.accepted = [0] ∧ s.calls.getLast? = some (.reportUsage none 5 0 0) ∧
      s.delivered 0 = 1)
    (by decide +kernel)
  exact ⟨s, hs, hp⟩

end TtyGateway
