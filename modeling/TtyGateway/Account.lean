import TtyGateway.Delivery
import TtyGateway.Budget

namespace TtyGateway

open Transition

/-- If the call asks about the account, the answer allows it `rate` bytes per second. -/
def HookCall.allows (x : HookCall) (account : Option Bytes) (rate : Nat) : Bool :=
  match x with
  | .authorize _ a (.ok entitlement) => a ≠ account || entitlement.maxBytesPerSec = some rate
  | _ => true

/-- The account's plan is `rate` bytes per second, whenever the control plane is asked. -/
def State.Entitled (s : State) (account : Option Bytes) (rate : Nat) : Prop :=
  ∀ x ∈ s.calls, x.allows account rate = true

def Label.starts : Label → Option ConnId
  | .senderStart c => some c
  | _ => none

/-- A sender task of the account begins with a full bucket only where that changes nothing: the
other sender tasks of the account have ended, and their buckets would be full again by now. -/
def FreshLimiter (account : Option Bytes) (s : State) (l : Label) : Prop :=
  ∀ c ∈ l.starts, (s.conns c).accountToken = account → ∀ d ∈ s.accepted, d ≠ c →
    (s.conns d).accountToken = account → ∀ limiter ∈ (s.conns d).limiter,
      (s.conns d).sender = .ended ∧ limiter.1.Refilled limiter.2 s.clock

instance (account : Option Bytes) (s : State) (l : Label) : Decidable (FreshLimiter account s l) :=
  inferInstanceAs (Decidable (∀ c ∈ l.starts, _ → ∀ d ∈ s.accepted, _ → _ → ∀ limiter ∈ _, _))

theorem State.Entitled.maxBytesPerSec {s : State} {account : Option Bytes} {rate : Nat}
    (h : s.Entitled account rate) {clientName : String} {entitlement : Entitlement}
    (hx : .authorize clientName account (.ok entitlement) ∈ s.calls) :
    entitlement.maxBytesPerSec = some rate := by
  simpa [HookCall.allows] using h _ hx

def Sent.spent (m : Sent) : Option (ℚ × ℚ) :=
  m.frame.output.map fun bytes => (m.time, (bytes.length : ℚ))

def SenderPc.admitted : SenderPc → List (ℚ × ℚ)
  | .count bytes time | .write (.data bytes) time => [(time, (bytes.length : ℚ))]
  | _ => []

def Conn.purse (x : Conn) (account : Option Bytes) : Option Purse :=
  if x.accountToken = account then
    x.limiter.map fun l => ⟨l.1, l.2, x.sender.admitted, x.sender = .ended⟩
  else none

def State.spentBy (s : State) (account : Option Bytes) : List (ℚ × ℚ) :=
  s.wire.filterMap fun m => if (s.conns m.conn).accountToken = account then m.spent else none

/-- What the gateway is to one account. -/
def State.budget (s : State) (account : Option Bytes) : Budget where
  purse c := (s.conns c).purse account
  spent := s.spentBy account
  clock := s.clock

section Budget

variable {s s' : State} {c d : ConnId} {x : Conn} {account : Option Bytes} {l : Label} {rate : Nat}

theorem Conn.purse_of_ne (h : x.accountToken ≠ account) : x.purse account = none := if_neg h

theorem Conn.purse_of_none (h : x.limiter = none) : x.purse account = none := by
  simp [Conn.purse, h]

theorem Conn.purse_of_some {p : Purse} (h : x.accountToken = account)
    (hl : x.limiter = some (p.bucket, p.last)) (hand : x.sender.admitted = p.hand)
    (ended : decide (x.sender = .ended) = p.ended) : x.purse account = some p := by
  simp [Conn.purse, h, hl, hand, ended]

theorem State.budget_init (maxScrollback : Nat) :
    (State.init maxScrollback).budget account = .init := by
  have hpurse : ∀ c, ((State.init maxScrollback).conns c).purse account = none := fun _ =>
    Conn.purse_of_none rfl
  simp only [State.budget, hpurse]
  rfl

theorem State.spentBy_setConn (h : x.accountToken = (s.conns c).accountToken) :
    (s.setConn c x).spentBy account = s.spentBy account := by
  have haccount : ∀ d, ((s.setConn c x).conns d).accountToken = (s.conns d).accountToken := by
    intro d
    by_cases hd : d = c
    · subst hd
      rw [State.setConn_conns_self, h]
    · rw [State.setConn_conns_of_ne _ _ _ hd]
  simp only [State.spentBy, State.setConn_wire, haccount]

theorem State.budget_setConn (s : State) (c : ConnId) (h : x.accountToken = (s.conns c).accountToken) :
    (s.setConn c x).budget account =
      { s.budget account with
        purse := Function.update (s.budget account).purse c (x.purse account) } := by
  simp only [State.budget, State.spentBy_setConn h, State.setConn_clock, Budget.mk.injEq, and_true]
  funext d
  by_cases hd : d = c
  · simp [hd]
  · simp [hd, State.setConn_conns_of_ne _ _ _ hd]

theorem State.budget_setConn_same (s : State) (c : ConnId)
    (h : x.accountToken = (s.conns c).accountToken)
    (hp : x.purse account = (s.conns c).purse account) :
    (s.setConn c x).budget account = s.budget account := by
  rw [State.budget_setConn s c h, hp]
  have hself : Function.update (s.budget account).purse c ((s.conns c).purse account) =
      (s.budget account).purse := Function.update_eq_self c _
  rw [hself]

theorem State.budget_setPurse (s : State) (c : ConnId) (p : Purse)
    (h : x.accountToken = (s.conns c).accountToken) (ha : (s.conns c).accountToken = account)
    (hl : x.limiter = some (p.bucket, p.last)) (hand : x.sender.admitted = p.hand)
    (ended : decide (x.sender = .ended) = p.ended) :
    (s.setConn c x).budget account = (s.budget account).setPurse c p := by
  rw [State.budget_setConn s c h, Conn.purse_of_some (h.trans ha) hl hand ended]
  rfl

theorem State.budget_of_none (s : State) (c : ConnId)
    (h : x.accountToken = (s.conns c).accountToken) (hl : (s.conns c).limiter = none)
    (hx : x.limiter = none) : (s.setConn c x).budget account = s.budget account :=
  State.budget_setConn_same s c h (by rw [Conn.purse_of_none hl, Conn.purse_of_none hx])

theorem State.budget_of_ne (s : State) (c : ConnId) (h : x.accountToken = (s.conns c).accountToken)
    (ha : (s.conns c).accountToken ≠ account) :
    (s.setConn c x).budget account = s.budget account :=
  State.budget_setConn_same s c h (by rw [Conn.purse_of_ne ha, Conn.purse_of_ne (h ▸ ha)])

theorem State.spentBy_put (t : ℚ) (f : ServerFrame) :
    (s.put c t f).spentBy account = s.spentBy account ++
      if (s.conns c).accountToken = account then (Sent.spent ⟨c, t, f⟩).toList else [] := by
  have happend : (s.put c t f).spentBy account =
      (s.wire ++ [(⟨c, t, f⟩ : Sent)]).filterMap fun m =>
        if (s.conns m.conn).accountToken = account then m.spent else none := rfl
  rw [happend, List.filterMap_append]
  congr 1
  by_cases hc : (s.conns c).accountToken = account
  · cases hs : Sent.spent ⟨c, t, f⟩ <;> simp [hc, hs]
  · simp [hc]

theorem State.budget_put (t : ℚ) {f : ServerFrame}
    (h : f.output = none ∨ (s.conns c).accountToken ≠ account) :
    (s.put c t f).budget account = s.budget account := by
  have hspent : (s.put c t f).spentBy account = s.spentBy account := by
    rw [State.spentBy_put]
    rcases h with h | h
    · simp [Sent.spent, h]
    · simp [h]
  unfold State.budget
  rw [hspent]
  rfl

theorem State.budget_put_data (t : ℚ) (bytes : Bytes) (ha : (s.conns c).accountToken = account) :
    (s.put c t (.data bytes)).budget account =
      { s.budget account with spent := s.spentBy account ++ [(t, (bytes.length : ℚ))] } := by
  unfold State.budget
  rw [State.spentBy_put, if_pos ha]
  rfl

theorem State.budget_end (s : State) (c : ConnId) (h : x.accountToken = (s.conns c).accountToken)
    (limiter : x.limiter = (s.conns c).limiter) (ended : x.sender = .ended) :
    BudgetStep rate (s.budget account) ((s.setConn c x).budget account) := by
  by_cases ha : (s.conns c).accountToken = account
  · cases hl : (s.conns c).limiter with
    | none => exact .same (State.budget_of_none s c h hl (limiter.trans hl))
    | some l =>
      have hpurse : (s.budget account).purse c = some ⟨l.1, l.2, (s.conns c).sender.admitted, _⟩ :=
        Conn.purse_of_some ha hl rfl rfl
      rw [State.budget_setPurse s c ⟨l.1, l.2, [], true⟩ h ha (limiter.trans hl)
        (by simp [ended, SenderPc.admitted]) (by simp [ended])]
      exact .stop hpurse
  · exact .same (State.budget_of_ne s c h ha)

end Budget

/-- The control plane's answer has come, and it was not a denial. -/
def Pc.authorized : Pc → Bool
  | .idle | .hello | .authorize | .reject _ | .failed => false
  | _ => true

/-- A sender task has a limiter exactly if the answer its handler was given asks for one. -/
structure State.Governed (s : State) (x : Conn) : Prop where
  answered : x.pc.authorized = true ∨ x.sender ≠ .idle →
    .authorize x.clientName x.accountToken (.ok x.entitlement) ∈ s.calls
  unstarted : x.sender = .idle ∨ x.sender = .spawned → x.limiter = none
  limited : x.sender ≠ .idle → x.sender ≠ .spawned → x.sender ≠ .ended →
    x.limiter.isSome = x.entitlement.maxBytesPerSec.isSome

theorem Move.calls {s s' : State} {l : Label} (m : Move s l s') {a : HookCall} (h : a ∈ s.calls) :
    a ∈ s'.calls := by
  cases m with
  | authorized | denied | slotTaken | slotDenied | report | closeCall =>
    exact List.mem_append_left _ h
  | _ => exact h

theorem State.Governed.same {s : State} {x y : Conn} (h : s.Governed x)
    (clientName : y.clientName = x.clientName) (account : y.accountToken = x.accountToken)
    (entitlement : y.entitlement = x.entitlement) (limiter : y.limiter = x.limiter)
    (pc : y.pc.authorized = true ∨ y.sender ≠ .idle → x.pc.authorized = true ∨ x.sender ≠ .idle)
    (sender : y.sender = x.sender ∨ y.sender = .ended ∨
      (y.sender ≠ .idle ∧ y.sender ≠ .spawned ∧ x.sender ≠ .idle ∧ x.sender ≠ .spawned ∧
        x.sender ≠ .ended)) : s.Governed y := by
  refine ⟨?_, ?_, ?_⟩
  · intro hy
    rw [clientName, account, entitlement]
    exact h.answered (pc hy)
  · intro hy
    rw [limiter]
    rcases sender with he | he | ⟨hi, hs, -⟩
    · exact h.unstarted (he ▸ hy)
    · simp [he] at hy
    · exact absurd hy (by simp [hi, hs])
  · intro hi hs he
    rw [limiter, entitlement]
    rcases sender with hx | hx | ⟨-, -, hxi, hxs, hxe⟩
    · exact h.limited (hx ▸ hi) (hx ▸ hs) (hx ▸ he)
    · exact absurd hx he
    · exact h.limited hxi hxs hxe

/-- The sender task of an account that is entitled to so many bytes a second is limited. -/
theorem State.Governed.exists_limiter {s : State} {x : Conn} {account : Option Bytes} {rate : Nat}
    (h : s.Governed x) (entitled : s.Entitled account rate) (ha : x.accountToken = account)
    (hi : x.sender ≠ .idle) (hs : x.sender ≠ .spawned) (he : x.sender ≠ .ended) :
    ∃ limiter, x.limiter = some limiter := by
  have hrate := entitled.maxBytesPerSec (ha ▸ h.answered (Or.inr hi))
  apply Option.isSome_iff_exists.mp
  rw [h.limited hi hs he, hrate]
  rfl

theorem Move.governed {s s' : State} {l : Label} (m : Move s l s') (sound : s.Sound)
    (h : ∀ c, s.Governed (s.conns c)) (c : ConnId) : s'.Governed (s'.conns c) := by
  have later : ∀ x, s.Governed x → s'.Governed x := fun x hx =>
    { hx with answered := fun hy => m.calls (hx.answered hy) }
  by_cases hl : l.conn = some c
  · have hc := h c
    cases m with
    | @hello d clientName resume accountToken hpc =>
      cases hl
      have hstage : (s.conns c).pc.stage = .early := by simp [hpc, Pc.stage]
      have hidle := sound.sender_idle (Or.inl hstage)
      have hnone := hc.unstarted (Or.inl hidle)
      simp only [State.setConn_conns_self]
      exact ⟨by simp [Pc.authorized, hidle], fun _ => hnone, fun hi => absurd hidle hi⟩
    | @authorized d entitlement hpc =>
      cases hl
      have hstage : (s.conns c).pc.stage = .early := by simp [hpc, Pc.stage]
      have hidle := sound.sender_idle (Or.inl hstage)
      have hnone := hc.unstarted (Or.inl hidle)
      simp only [State.setConn_conns_self]
      refine ⟨fun _ => ?_, fun _ => hnone, fun hi => absurd hidle hi⟩
      exact List.mem_append_right _ (List.mem_singleton.mpr rfl)
    | @statusSent d hpc =>
      cases hl
      have hstage : (s.conns c).pc.stage = .greeting := by simp [hpc, Pc.stage]
      have hidle := sound.sender_idle (Or.inr (Or.inr hstage))
      have hnone := hc.unstarted (Or.inl hidle)
      have hans := hc.answered (Or.inl (by simp [hpc, Pc.authorized]))
      simp only [State.setConn_conns_self]
      exact ⟨fun _ => hans, fun _ => hnone, by simp⟩
    | @senderStart d hpc =>
      cases hl
      have hans := hc.answered (Or.inr (by simp [hpc]))
      simp only [State.setConn_conns_self]
      exact ⟨fun _ => hans, by simp, by simp⟩
    | @admitted d _ _ _ _ hpc hlim | @delayed d _ _ _ _ hpc hlim =>
      cases hl
      have hans := hc.answered (Or.inr (by simp [hpc]))
      have hsome := hc.limited (by simp [hpc]) (by simp [hpc]) (by simp [hpc])
      rw [hlim, Option.isSome_some] at hsome
      simp only [State.setConn_conns_self]
      exact ⟨fun _ => hans, by simp, fun _ _ _ => hsome⟩
    | @chunk d _ _ _ _ hpc | @finished d _ _ _ hpc | @parked d _ _ _ hpc | @oob d _ _ hpc
    | @oobClosed d hpc | @unlimited d _ hpc | @wake d _ _ hpc | @addOut d _ _ hpc
    | @written d _ _ hpc =>
      cases hl
      simp only [State.setConn_conns_self]
      refine later _ (hc.same rfl rfl rfl rfl ?_ ?_)
      · simp [hpc]
      · simp [hpc]
    | @unwritten d _ _ hpc | @closedWritten d hpc | @closedUnwritten d hpc =>
      cases hl
      simp only [State.setConn_conns_self]
      refine later _ (hc.same rfl rfl rfl rfl ?_ (Or.inr (Or.inl rfl)))
      simp [hpc]
    | @cancel d ha hpc =>
      cases hl
      have hne : (s.conns c).sender ≠ .idle := by
        intro he
        simp [he, SenderPc.atAwait] at hpc
      simp only [State.setConn_conns_self]
      exact later _ (hc.same rfl rfl rfl rfl (fun _ => Or.inr hne) (Or.inr (Or.inl rfl)))
    | signIgnored | recvIgnored => exact later _ hc
    | actorOutput | actorInput | actorEnd | actorNone | ingest | ingestEnd | tick => cases hl
    | _ =>
      cases hl
      simp only [State.setConn_conns_self]
      refine later _ (hc.same rfl rfl rfl rfl ?_ (Or.inl rfl))
      simp [Pc.authorized, *]
  · rw [m.conns_of_ne hl]
    exact later _ (h c)

theorem State.Delivers.unsent {s : State} (h : s.Delivers) {c : ConnId}
    (hs : (s.conns c).sender = .idle ∨ (s.conns c).sender = .spawned) : s.completed c = [] := by
  obtain ⟨rest, he, -⟩ := h.accounts c
  rw [((h.tracks c).unread hs).2, List.map_nil] at he
  exact (List.append_eq_nil_iff.mp he).1

theorem State.budget_unsent {s : State} {c : ConnId} {x : Conn} {account : Option Bytes}
    (hs : s.completed c = []) (hl : (s.conns c).limiter = none) (hx : x.limiter = none) :
    (s.setConn c x).budget account = s.budget account := by
  have hnone := List.filterMap_eq_nil_iff.mp hs
  have hspent : (s.setConn c x).spentBy account = s.spentBy account := by
    apply List.filterMap_congr
    intro m hm
    by_cases hc : m.conn = c
    · have hout : m.frame.output = none := by simpa [Sent.outputTo, hc] using hnone m hm
      simp [Sent.spent, hout]
    · rw [State.setConn_conns_of_ne _ _ _ hc]
  simp only [State.budget, hspent, State.setConn_clock, Budget.mk.injEq, and_true]
  funext d
  by_cases hd : d = c
  · subst hd
    rw [State.setConn_conns_self, Conn.purse_of_none hl, Conn.purse_of_none hx]
  · rw [State.setConn_conns_of_ne _ _ _ hd]

theorem FreshLimiter.purse {s : State} {c d : ConnId} {account : Option Bytes} {p : Purse}
    (h : FreshLimiter account s (.senderStart c)) (sound : s.Sound) (hc : (s.conns c).limiter = none)
    (ha : (s.conns c).accountToken = account) (hd : (s.budget account).purse d = some p) :
    p.ended = true ∧ p.bucket.Refilled p.last s.clock := by
  change (s.conns d).purse account = some p at hd
  have had : (s.conns d).accountToken = account := by
    by_contra hne
    simp [Conn.purse_of_ne hne] at hd
  cases hl : (s.conns d).limiter with
  | none => simp [Conn.purse_of_none hl] at hd
  | some limiter =>
    have hne : d ≠ c := by
      rintro rfl
      simp [hc] at hl
    have hacc : d ∈ s.accepted := sound.wf.accepted fun he => by simp [he, Conn.init] at hl
    obtain ⟨hended, hfull⟩ := h c rfl ha d hacc hne had limiter hl
    have hp : (s.conns d).purse account =
        some ⟨limiter.1, limiter.2, (s.conns d).sender.admitted, true⟩ :=
      Conn.purse_of_some had hl rfl (by simp [hended])
    obtain rfl := Option.some.inj (hd.symm.trans hp)
    exact ⟨rfl, hfull⟩

/-- Each step of the gateway is a step of the account's budget. -/
theorem Move.budget {s s' : State} {l : Label} (m : Move s l s') (sound : s.Sound)
    (delivers : s.Delivers) (governed : ∀ c, s.Governed (s.conns c)) {account : Option Bytes}
    (fresh : FreshLimiter account s l) {rate : Nat} (entitled : s.Entitled account rate) :
    BudgetStep rate (s.budget account) (s'.budget account) := by
  cases m with
  | @hello c clientName resume accountToken hpc =>
    have hstage : (s.conns c).pc.stage = .early := by simp [hpc, Pc.stage]
    have hidle := sound.sender_idle (Or.inl hstage)
    have hnone := (governed c).unstarted (Or.inl hidle)
    exact .same (State.budget_unsent (delivers.unsent (Or.inl hidle)) hnone hnone)
  | @signSent c id publicKey data hpc | @rejectSent c message hpc | @helloSent c session hpc =>
    refine .same ((State.budget_setConn_same _ c ?_ ?_).trans (State.budget_put _ (Or.inl rfl)))
    · rfl
    · rfl
  | @statusSent c hpc =>
    have hstage : (s.conns c).pc.stage = .greeting := by simp [hpc, Pc.stage]
    have hidle := sound.sender_idle (Or.inr (Or.inr hstage))
    have hnone := (governed c).unstarted (Or.inl hidle)
    refine .same ((State.budget_of_none _ c ?_ ?_ ?_).trans (State.budget_put _ (Or.inl rfl)))
    · rfl
    · exact hnone
    · exact hnone
  | @senderStart c hpc =>
    have hnone := (governed c).unstarted (Or.inr hpc)
    by_cases ha : (s.conns c).accountToken = account
    · have hrate := entitled.maxBytesPerSec (ha ▸ (governed c).answered (Or.inr (by simp [hpc])))
      have hpurse : (s.budget account).purse c = none := Conn.purse_of_none hnone
      rw [State.budget_setPurse s c ⟨.new rate bandwidthBurst, s.clock, [], false⟩ ?_ ha ?_ ?_ ?_]
      · exact .grant hpurse fun d p hd => fresh.purse sound hnone ha hd
      · rfl
      · simp [hrate]
      · simp [SenderPc.admitted]
      · simp
    · refine .same (State.budget_of_ne s c ?_ ha)
      rfl
  | @unlimited c bytes hpc hlim =>
    refine .same (State.budget_of_none s c ?_ hlim ?_)
    · rfl
    · exact hlim
  | @admitted c bytes bucket last left hpc hlim hn =>
    by_cases ha : (s.conns c).accountToken = account
    · have hpurse : (s.budget account).purse c = some ⟨bucket, last, [], false⟩ :=
        Conn.purse_of_some ha hlim (by simp [hpc, SenderPc.admitted]) (by simp [hpc])
      rw [State.budget_setPurse s c ⟨left, s.clock, [(s.clock, (bytes.length : ℚ))], false⟩
        ?_ ha ?_ ?_ ?_]
      · exact .spend hpurse rfl rfl hn
      · rfl
      · rfl
      · simp [SenderPc.admitted]
      · simp
    · refine .same (State.budget_of_ne s c ?_ ha)
      rfl
  | @delayed c bytes bucket last left hpc hlim hn =>
    by_cases ha : (s.conns c).accountToken = account
    · have hpurse : (s.budget account).purse c = some ⟨bucket, last, [], false⟩ :=
        Conn.purse_of_some ha hlim (by simp [hpc, SenderPc.admitted]) (by simp [hpc])
      rw [State.budget_setPurse s c ⟨left, s.clock, [], false⟩ ?_ ha ?_ ?_ ?_]
      · exact .starve hpurse rfl hn
      · rfl
      · rfl
      · simp [SenderPc.admitted]
      · simp
    · refine .same (State.budget_of_ne s c ?_ ha)
      rfl
  | @chunk c _ _ _ _ hpc | @finished c _ _ _ hpc | @wake c _ _ hpc | @addOut c _ _ hpc =>
    refine .same (State.budget_setConn_same s c ?_ ?_)
    · rfl
    · simp [Conn.purse, hpc, SenderPc.admitted]
  | @oob c frame rest hpc ho =>
    have hf := (sound.framed c).oob frame (by simp [ho])
    refine .same (State.budget_setConn_same s c ?_ ?_)
    · rfl
    · simp [Conn.purse, hpc, hf, SenderPc.admitted]
  | @written c frame time hpc =>
    by_cases ha : (s.conns c).accountToken = account
    · rcases (sound.framed c).writing frame time hpc with rfl | ⟨bytes, rfl⟩
      · refine .same ((State.budget_setConn_same _ c ?_ ?_).trans (State.budget_put _ (Or.inl rfl)))
        · rfl
        · simp [Conn.purse, hpc, SenderPc.admitted]
      · obtain ⟨⟨bucket, last⟩, hlim⟩ := (governed c).exists_limiter entitled ha (by simp [hpc])
          (by simp [hpc]) (by simp [hpc])
        have hpurse : (s.budget account).purse c =
            some ⟨bucket, last, [(time, (bytes.length : ℚ))], false⟩ :=
          Conn.purse_of_some ha hlim (by simp [hpc, SenderPc.admitted]) (by simp [hpc])
        rw [State.budget_setPurse (s.put c time _) c ⟨bucket, last, [], false⟩ ?_ ha ?_ ?_ ?_,
          State.budget_put_data time bytes ha]
        · exact .deliver hpurse rfl
        · rfl
        · exact hlim
        · simp [SenderPc.admitted]
        · simp
    · refine .same ((State.budget_of_ne (s.put c time frame) c ?_ ha).trans ?_)
      · rfl
      · exact State.budget_put time (Or.inr ha)
  | @closedWritten c hpc =>
    rw [← State.budget_put (s := s) (c := c) (f := .closed) s.clock (Or.inl rfl)]
    refine State.budget_end _ c ?_ ?_ ?_
    · rfl
    · rfl
    · rfl
  | @unwritten c _ _ hpc | @closedUnwritten c hpc | @cancel c ha hpc =>
    refine State.budget_end s c ?_ ?_ ?_
    · rfl
    · rfl
    · rfl
  | tick he => exact .wait (le_add_of_nonneg_right he)
  | signIgnored | recvIgnored | actorOutput | actorInput | actorEnd | actorNone | ingest
  | ingestEnd => exact .same rfl
  | _ =>
    refine .same (State.budget_setConn_same s _ ?_ ?_)
    · rfl
    · rfl

structure State.Throttled (s : State) (account : Option Bytes) : Prop where
  governed : ∀ c, s.Governed (s.conns c)
  metered : ∀ rate, 1 ≤ rate → s.Entitled account rate → (s.budget account).Metered rate

theorem State.throttled_init (maxScrollback : Nat) (account : Option Bytes) :
    (State.init maxScrollback).Throttled account := by
  refine ⟨fun c => ⟨?_, fun _ => rfl, ?_⟩, fun rate hrate entitled => ?_⟩
  · simp [State.init, Conn.init, Pc.authorized]
  · simp [State.init, Conn.init]
  · rw [State.budget_init]
    exact Budget.metered_init rate

theorem gateway_throttled {maxScrollback : Nat} {account : Option Bytes} {s : State}
    (h : Reach (gateway maxScrollback) (FreshLimiter account) s) : s.Throttled account := by
  refine h.invariant (P := fun s => s.Throttled account)
    (State.throttled_init maxScrollback account) ?_
  intro s l s' hr ih fresh hs
  have m := step_move hs
  have sound := gateway_sound hr
  obtain ⟨delivers, -⟩ := gateway_delivers hr
  refine ⟨m.governed sound ih.governed, fun rate hrate entitled => ?_⟩
  have before : s.Entitled account rate := fun x hx => entitled x (m.calls hx)
  have hstep := m.budget sound delivers ih.governed fresh before
  exact hstep.metered hrate (ih.metered rate hrate before)

end TtyGateway
