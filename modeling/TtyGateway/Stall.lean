import TtyGateway.Pacing
import TtyGateway.Shell

namespace TtyGateway

open Transition

/-- The usage report is made, and `handle_connection` goes on to close or to detach. -/
def State.Decided (s : State) (c : ConnId) : Prop :=
  (s.conns c).pc = .closing ∨ (s.conns c).pc = .leaving

/-- A step of the gateway's own, except for the actors', when `r` is what `c` has to read next and
`write` is what a write to it comes to, with `none` where it waits. -/
def Label.Unaided (c : ConnId) (r : Recv) (write : Option Bool) : Label → Prop
  | .recv d r' => d = c ∧ r' = r
  | .written d ok => d = c ∧ write = some ok
  | .lookup _ | .forward _ | .pong _ | .abort _ | .report _ | .reported _ | .checkClosed _
  | .closeCall _ | .closeReturned _ | .leave _ | .senderStart _ | .pollReader _ | .pollOob _
  | .throttle _ | .wake _ | .addOut _ | .cancel _ | .ingest _ | .ingestEnd _ | .tick _ => True
  | _ => False

section Loop

variable {maxScrollback : Nat} {s : State} {c : ConnId} {r : Recv} {write : Option Bool}

end Loop

/-- `sender_task` has a frame in its hands, and takes no other until that is written. -/
def SenderPc.busy : SenderPc → Bool
  | .throttle _ | .sleep _ _ | .count _ _ | .write _ _ | .writeClosed => true
  | _ => false

/-- The handler of `c` is to send a `Pong`, and the queue for it is full with the sender task
busy. -/
structure State.Muted (s : State) (c : ConnId) : Prop where
  ponging : (s.conns c).pc = .pong
  full : 16 ≤ (s.conns c).oob.length
  busy : (s.conns c).sender.busy = true

section Pong

variable {s : State} {c : ConnId} {r : Recv} {write : Option Bool} {ok : Bool}
  (h : Reachable (gateway defaultScrollbackBytes) s)
  (hpc : (s.conns c).pc = .pong)

include h hpc

variable (gone : r = .ok .close ∨ ∃ e, r = .error e)

include gone

end Pong

section Muted

variable {s s' : State} {c : ConnId} {l : Label}

/-- The abort is asked for when `receiver_loop` has returned. -/
theorem Move.aborted (m : Move s l s')
    (h : (s.conns c).aborted = true → (s.conns c).pc.loopless = true) :
    (s'.conns c).aborted = true → (s'.conns c).pc.loopless = true := by
  by_cases hl : l.conn = some c
  · cases m with
    | signIgnored | recvIgnored => exact h
    | actorOutput | actorInput | actorEnd | actorNone | ingest | ingestEnd | tick => cases hl
    | _ =>
      cases hl
      simp_all [Pc.loopless]
  · rw [m.conns_of_ne hl]
    exact h

theorem SenderPc.alive_of_busy {pc : SenderPc} (h : pc.busy = true) : pc.alive = true := by
  cases pc <;> first | rfl | cases h

theorem State.Muted.pong_disabled (h : s.Muted c) : step s (.pong c) = none := by
  have halive := SenderPc.alive_of_busy h.busy
  simp [step, State.pong, h.ponging, halive, h.full]

theorem State.Muted.step (h : s.Muted c) (hs : step s l = some s')
    (running : (s.conns c).aborted = false) (hl : ∀ ok, l ≠ .written c ok) : s'.Muted c := by
  have m := step_move hs
  have hpc := h.ponging
  have hbusy := h.busy
  by_cases hc : l.conn = some c
  · cases m with
    | ponged | unponged =>
      cases hc
      simp [h.pong_disabled] at hs
    | written | unwritten | closedWritten | closedUnwritten =>
      cases hc
      exact absurd rfl (hl _)
    | cancel haborted =>
      cases hc
      simp [running] at haborted
    | unlimited | admitted | delayed | wake | addOut =>
      cases hc
      exact ⟨by simpa using hpc, by simpa using h.full, by simp [SenderPc.busy]⟩
    | senderStart hsender | chunk hsender | finished hsender | parked hsender | oob hsender
    | oobClosed hsender =>
      cases hc
      simp [hsender, SenderPc.busy] at hbusy
    | signIgnored | recvIgnored => exact h
    | actorOutput | actorInput | actorEnd | actorNone | ingest | ingestEnd | tick => cases hc
    | _ =>
      cases hc
      simp_all
  · obtain ⟨ponging, full, busy⟩ := h
    rw [← m.conns_of_ne hc] at ponging full busy
    exact ⟨ponging, full, busy⟩

end Muted

/-- A step without the target, and without its connection breaking. -/
def ProxyLabel.Unaided (c : ConnId) (r : Recv) (write : Option Bool) : ProxyLabel → Prop
  | .gateway l => l.Unaided c r write
  | .read _ _ | .produce _ _ | .hangup _ _ | .lose _ => False
  | _ => True

/-- The handler of `c` can come to its decision without the target. -/
def Proxy.Releases (lim : SshLimits) (s : Proxy) (c : ConnId) (r : Recv) (write : Option Bool) :
    Prop :=
  Leads (proxyStep lim) (ProxyLabel.Unaided c r write) (·.gateway.Decided c) s

/-- A write of `n` bytes comes to an end without the target: the window allows it, with the grants
that still come in, or the connection is gone and a part of it is handed over and fails. -/
def Shell.Ends (lim : SshLimits) (x : Shell) (n : Nat) : Prop :=
  (x.stage = .lost ∧ 0 < x.window) ∨ x.Covers lim n

instance (lim : SshLimits) (x : Shell) (n : Nat) : Decidable (x.Ends lim n) :=
  inferInstanceAs (Decidable (_ ∨ _))

section Ends

variable {lim : SshLimits} {x : Shell}

theorem Shell.ends_of_pc (h : x.pc.unwritten = 0) : x.Ends lim x.pc.unwritten :=
  Or.inr (Shell.fed_of_pc h)

theorem Shell.ends_begin {command : SshInput} :
    (x.begin command).Ends lim (x.begin command).pc.unwritten ↔ x.Ends lim command.size := by
  cases command with
  | data bytes => exact Iff.rfl
  | resize cols rows => exact iff_of_true (Shell.ends_of_pc rfl) (Or.inr (Nat.zero_le _))

theorem Shell.ends_iff_fed (hstage : x.stage ≠ .lost) : x.Ends lim x.pc.unwritten ↔ x.Fed lim :=
  or_iff_right fun h => hstage h.1

theorem Shell.ends_hand {bytes : Bytes} {n : Nat} (hstage : x.stage ≠ .lost)
    (hpc : x.pc = .write bytes) (hn : n ≤ bytes.length) (hw : n ≤ x.window) :
    (x.hand bytes n).Ends lim (x.hand bytes n).pc.unwritten ↔ x.Ends lim x.pc.unwritten := by
  rw [Shell.ends_iff_fed (x := x.hand bytes n) hstage, Shell.ends_iff_fed hstage]
  exact Shell.fed_hand hpc hn hw

theorem Shell.ends_put {msg : ChannelMsg} {rest : List ChannelMsg} (hstage : x.stage ≠ .lost)
    (hlink : x.link = msg :: rest) (hroom : x.queue.length < lim.queue) :
    (x.put msg rest).Ends lim (x.put msg rest).pc.unwritten ↔ x.Ends lim x.pc.unwritten := by
  rw [Shell.ends_iff_fed (x := x.put msg rest) hstage, Shell.ends_iff_fed hstage]
  exact Shell.fed_put hlink hroom

theorem Shell.starved_writing (h : ¬x.Ends lim x.pc.unwritten) :
    ∃ rest, x.pc = .write rest ∧ x.window < rest.length :=
  Shell.unfed_writing fun hfed => h (Or.inr hfed)

end Ends

/-- The handler of `c` is in `send_input` on a full channel, with the actor at its other end. -/
structure State.Clogged (s : State) (c : ConnId) (session : SessionRef) : Prop where
  sending : ∃ input, (s.conns c).pc = .forward input
  attached : (s.conns c).session = some session
  full : ∃ ses, s.sessions session.id = some ses ∧ ses.actor = true ∧ 64 ≤ ses.input.length

/-- And the actor is in a write that does not end. -/
structure Proxy.Hostage (lim : SshLimits) (s : Proxy) (c : ConnId) (session : SessionRef) : Prop
    extends s.gateway.Clogged c session where
  starved : ¬(s.shells session.id).Ends lim (s.shells session.id).pc.unwritten

section Lift

variable {lim : SshLimits} {s : Proxy} {c : ConnId} {r : Recv} {write : Option Bool}

end Lift

theorem WriteMove.link {lim : SshLimits} {s : Proxy} {i : SessionId} {l : ProxyLabel} {x : Shell}
    (m : WriteMove lim s i l x) (h : (s.shells i).stage = .lost → (s.shells i).link = [])
    (hlost : x.stage = .lost) : x.link = [] := by
  cases m with
  | same => exact h hlost
  | idle _ hstage hlink => exact hlink ▸ h (hstage hlost)
  | @begun _ command =>
    obtain ⟨hstage, hlink⟩ := Shell.begin_same (s.shells i) command
    exact hlink ▸ h (hstage ▸ hlost)
  | going _ hstage => exact absurd hlost hstage
  | lost => rfl

/-- The handler of `c` is in `send_input`, with the actor at its other end. -/
structure Proxy.Sending (lim : SshLimits) (s : Proxy) (c : ConnId) (session : SessionRef)
    (ses : Session) : Prop where
  reached : Reachable (proxy lim defaultScrollbackBytes) s
  sending : ∃ input, (s.gateway.conns c).pc = .forward input
  attached : (s.gateway.conns c).session = some session
  found : s.gateway.sessions session.id = some ses
  alive : ses.actor = true

section Sending

variable {lim : SshLimits} {s s' : Proxy} {c : ConnId} {r : Recv} {write : Option Bool}
  {session : SessionRef} {ses ses' : Session} {l : ProxyLabel}

theorem Proxy.Sending.step (h : s.Sending lim c session ses) (hs : proxyStep lim s l = some s')
    (conns : s'.gateway.conns = s.gateway.conns)
    (found : s'.gateway.sessions session.id = some ses') (alive : ses'.actor = true) :
    s'.Sending lim c session ses' :=
  ⟨h.reached.step trivial hs, conns ▸ h.sending, conns ▸ h.attached, found, alive⟩

variable (gone : r = .ok .close ∨ ∃ e, r = .error e)

include gone

end Sending

section Hostage

variable {g g' : State} {c : ConnId} {session : SessionRef} {i : SessionId} {l : Label}

theorem Move.input_stays (m : Move g l g') (wf : g.Wf) {ses : Session}
    (hi : g.sessions i = some ses) (alive : ses.actor = true)
    (hl : l ≠ .actorInput i ∧ l ≠ .actorEnd i ∧ l ≠ .actorNone i) :
    ∃ ses', g'.sessions i = some ses' ∧ ses'.actor = true ∧
      ses.input.length ≤ ses'.input.length := by
  obtain ⟨ses', hs', hmove⟩ := m.session wf hi
  refine ⟨ses', hs', ?_⟩
  cases hmove with
  | same | actorOutput | ingest => exact ⟨alive, le_rfl⟩
  | forwarded => exact ⟨alive, by simp⟩
  | ingestEnd hdead => simp [hdead] at alive
  | actorInput => exact absurd rfl hl.1
  | actorEnd => exact absurd rfl hl.2.1
  | actorNone => exact absurd rfl hl.2.2

theorem State.Clogged.forward_disabled (h : g.Clogged c session) : step g (.forward c) = none := by
  obtain ⟨input, hpc⟩ := h.sending
  obtain ⟨ses, hses, ha, hfull⟩ := h.full
  simp [step, State.forward, hpc, h.attached, hses, ha, hfull]

theorem State.Clogged.handler_stays (h : g.Clogged c session) (hs : step g l = some g') :
    (g'.conns c).pc = (g.conns c).pc ∧ (g'.conns c).session = (g.conns c).session := by
  have m := step_move hs
  by_cases hl : l.conn = some c
  · obtain ⟨input, hpc⟩ := h.sending
    cases m with
    | forwarded | unforwarded =>
      cases hl
      simp [h.forward_disabled] at hs
    | signIgnored | recvIgnored => exact ⟨rfl, rfl⟩
    | senderStart | chunk | finished | parked | oob | oobClosed | unlimited | admitted | delayed
    | wake | addOut | written | unwritten | closedWritten | closedUnwritten | cancel =>
      cases hl
      simp
    | actorOutput | actorInput | actorEnd | actorNone | ingest | ingestEnd | tick => cases hl
    | _ =>
      cases hl
      simp_all
  · rw [m.conns_of_ne hl]
    exact ⟨rfl, rfl⟩

theorem State.Clogged.step (h : g.Clogged c session) (hs : step g l = some g') (wf : g.Wf)
    (hl : l ≠ .actorInput session.id ∧ l ≠ .actorEnd session.id) : g'.Clogged c session := by
  obtain ⟨hpc, hsession⟩ := h.handler_stays hs
  obtain ⟨ses, hses, ha, hfull⟩ := h.full
  have hnone : l ≠ .actorNone session.id := by
    rintro rfl
    have hinput : ses.input ≠ [] := List.ne_nil_of_length_pos (by omega)
    simp [TtyGateway.step, State.actorNone, hses, hinput] at hs
  obtain ⟨ses', hses', ha', hle⟩ := (step_move hs).input_stays wf hses ha ⟨hl.1, hl.2, hnone⟩
  exact ⟨hpc ▸ h.sending, hsession ▸ h.attached, ses', hses', ha', hfull.trans hle⟩

variable {lim : SshLimits} {s s' : Proxy} {r : Recv} {write : Option Bool} {k : ProxyLabel}

theorem Proxy.Hostage.step (h : s.Hostage lim c session) (hk : k.Unaided c r write)
    (hs : proxyStep lim s k = some s') (wf : s.gateway.Wf) : s'.Hostage lim c session := by
  obtain ⟨rest, hpc, hlt⟩ := Shell.starved_writing h.starved
  have set : ∀ (t : Proxy) j x, t.shells = s.shells → t.gateway.Clogged c session →
      (j = session.id → ¬x.Ends lim x.pc.unwritten) → (t.setShell j x).Hostage lim c session := by
    intro t j x ht hclogged hx
    refine ⟨hclogged, ?_⟩
    rw [Proxy.setShell_shells]
    split
    next hj => exact hx hj.symm
    next => exact ht ▸ h.starved
  have m := proxyStep_move hs
  cases m with
  | @gateway l g hl hg =>
    refine ⟨h.toClogged.step hg wf ⟨?_, ?_⟩, h.starved⟩
    · rintro rfl
      cases hl
    · rintro rfl
      cases hl
  | top _ _ htop =>
    apply set s _ _ rfl h.toClogged
    rintro rfl
    simp [hpc] at htop
  | received _ _ hselect =>
    apply set s _ _ rfl h.toClogged
    rintro rfl
    simp [hpc] at hselect
  | @left j _ g x hg _ hcase =>
    have hne : j ≠ session.id := by
      rintro rfl
      rcases hcase with ⟨-, hselect, -⟩ | ⟨-, hfails, -⟩
      · simp [hpc] at hselect
      · exact h.starved (Or.inl hfails)
    exact set _ _ _ rfl (h.toClogged.step hg wf (by simp [hne])) fun hj => absurd hj hne
  | sent hsend hg =>
    refine set _ _ _ rfl (h.toClogged.step hg wf (by simp)) ?_
    rintro rfl
    simp [hpc] at hsend
  | @taken j _ _ _ g _ hselect _ hg =>
    have hne : j ≠ session.id := by
      rintro rfl
      simp [hpc] at hselect
    exact set _ _ _ rfl (h.toClogged.step hg wf (by simp [hne])) fun hj => absurd hj hne
  | abandoned hg => exact ⟨h.toClogged.step hg wf (by simp), h.starved⟩
  | @wrote j _ rest n _ _ hwrite hn hw hstage =>
    apply set s _ _ rfl h.toClogged
    rintro rfl
    exact (Shell.ends_hand hstage hwrite hn hw).not.mpr h.starved
  | written _ _ hwritten =>
    apply set s _ _ rfl h.toClogged
    rintro rfl
    cases hpc.symm.trans hwritten
    simp at hlt
  | delivered hlink hroom hstage =>
    apply set s _ _ rfl h.toClogged
    rintro rfl
    exact (Shell.ends_put hstage hlink hroom).not.mpr h.starved
  | emitted msg hlabel =>
    rcases hlabel with ⟨n, rfl⟩ | rfl | rfl <;> exact absurd hk id
  | lost => exact absurd hk id

theorem Proxy.Hostage.kept {maxScrollback : Nat} (h : s.Hostage lim c session)
    (hr : Reachable (proxy lim maxScrollback) s) : ¬s.Releases lim c r write := by
  refine not_leads (I := fun t => Reachable (proxy lim maxScrollback) t ∧
    t.Hostage lim c session) ?_ ?_ ⟨hr, h⟩
  · rintro t k u ⟨ht, hh⟩ hk hs
    exact ⟨ht.step trivial hs, hh.step hk hs (gateway_sound (proxy_gateway ht)).wf⟩
  · rintro t ⟨-, hh⟩ hdecided
    obtain ⟨input, hpc⟩ := hh.sending
    rcases hdecided with hd | hd <;> simp [hpc] at hd

end Hostage

section Silence

variable {lim : SshLimits} {s s' : Proxy} {c : ConnId} {r : Recv} {k : ProxyLabel}

end Silence

def Label.pinged : Label → Option ConnId
  | .recv c (.ok .ping) => some c
  | _ => none

/-- What an actor takes off its input channel is written in any case, a connection is not lost while
a write waits for window, and no client sends a `Ping` with sixteen answers to others in the
queue. -/
def Unhindered (lim : SshLimits) (s : Proxy) : ProxyLabel → Prop
  | .take i => ∀ ses ∈ s.gateway.sessions i, ∀ command ∈ ses.input.head?,
      (s.shells i).Ends lim command.size
  | .lose i => (s.shells i).pc.unwritten = 0 ∨ 0 < (s.shells i).window
  | .gateway l => ∀ c ∈ l.pinged, (s.gateway.conns c).oob.length < 16
  | _ => True

instance (lim : SshLimits) (s : Proxy) : ∀ l, Decidable (Unhindered lim s l)
  | .take i => inferInstanceAs (Decidable (∀ ses ∈ s.gateway.sessions i, _))
  | .lose _ => inferInstanceAs (Decidable (_ ∨ _))
  | .gateway l => inferInstanceAs (Decidable (∀ c ∈ l.pinged, _))
  | .top _ | .wait _ | .send _ | .write _ _ | .written _ | .writeFailed _ | .deliver _ | .read _ _
  | .produce _ _ | .hangup _ _ => inferInstanceAs (Decidable True)

section Unhindered

variable {lim : SshLimits} {maxScrollback : Nat} {s : Proxy}

theorem WriteMove.ends {i : SessionId} {l : ProxyLabel} {x : Shell} (m : WriteMove lim s i l x)
    (unhindered : Unhindered lim s l) (h : (s.shells i).Ends lim (s.shells i).pc.unwritten) :
    x.Ends lim x.pc.unwritten := by
  cases m with
  | same => exact h
  | idle hpc => exact Shell.ends_of_pc hpc
  | begun hses hcommand => exact Shell.ends_begin.mpr (unhindered _ hses _ hcommand)
  | going hstage hstage' _ hfed =>
    exact (Shell.ends_iff_fed hstage').mpr (hfed ((Shell.ends_iff_fed hstage).mp h))
  | lost =>
    rcases unhindered with hzero | hw
    · exact Shell.ends_of_pc hzero
    · exact Or.inl ⟨rfl, hw⟩

theorem Move.ponging {g g' : State} {l : Label} {c : ConnId} (m : Move g l g')
    (room : ∀ d ∈ l.pinged, (g.conns d).oob.length < 16)
    (h : (g.conns c).pc = .pong → (g.conns c).oob.length < 16) :
    (g'.conns c).pc = .pong → (g'.conns c).oob.length < 16 := by
  by_cases hl : l.conn = some c
  · cases m with
    | recvPing =>
      cases hl
      simpa using room c rfl
    | oob _ hoob =>
      cases hl
      simp only [State.setConn_conns_self]
      intro hpc
      have hlt := h hpc
      rw [hoob, List.length_cons] at hlt
      omega
    | signIgnored | recvIgnored => exact h
    | actorOutput | actorInput | actorEnd | actorNone | ingest | ingestEnd | tick => cases hl
    | _ =>
      cases hl
      simp_all
  · rw [m.conns_of_ne hl]
    exact h

theorem ProxyMove.ponging {s' : Proxy} {l : ProxyLabel} {c : ConnId} (m : ProxyMove lim s l s')
    (unhindered : Unhindered lim s l)
    (h : (s.gateway.conns c).pc = .pong → (s.gateway.conns c).oob.length < 16) :
    (s'.gateway.conns c).pc = .pong → (s'.gateway.conns c).oob.length < 16 := by
  cases m with
  | gateway _ hg => exact (step_move hg).ponging unhindered h
  | left hg | sent _ hg | taken _ _ _ hg | abandoned hg => exact (step_move hg).ponging nofun h
  | _ => exact h

end Unhindered

end TtyGateway
