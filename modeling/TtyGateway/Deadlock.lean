import TtyGateway.Shell
import TtyGateway.Refinement

namespace TtyGateway

open Transition

/-- The actor of session `i`, its connection task, its ingest task, or its target as a reader of
input takes the step. -/
def ProxyLabel.Serves (i : SessionId) : ProxyLabel → Prop
  | .gateway l => l = .ingest i
  | .top j | .wait j | .send j | .take j | .write j _ | .written j | .writeFailed j | .deliver j
  | .read j _ => j = i
  | .produce _ _ | .hangup _ _ | .lose _ => False

def ProxyLabel.Speaks (i : SessionId) : ProxyLabel → Prop
  | .produce j _ | .hangup j _ => j = i
  | _ => False

/-- Output or input of session `i` waits somewhere, or its actor has something in its hands. -/
def Proxy.Pending (s : Proxy) (i : SessionId) : Prop :=
  (s.shells i).pc ≠ .select ∨ (s.shells i).queue ≠ [] ∨ (s.shells i).link ≠ [] ∨
    (s.shells i).inbox ≠ [] ∨ ∃ ses ∈ s.gateway.sessions i, ses.input ≠ [] ∨ ses.output ≠ []

section Progress

variable {lim : SshLimits} {s : Proxy} {i : SessionId} {ses : Session}

/-- An actor whose write is covered is never in anyone's way. -/
theorem progress_of_fed (fed : (s.shells i).Fed lim) (hses : s.gateway.sessions i = some ses)
    (ha : ses.actor = true) (hingest : ses.ingest = true) (hstage : (s.shells i).stage = .open)
    (pending : s.Pending i) : ∃ l s', l.Serves i ∧ proxyStep lim s l = some s' := by
  have deliver : ∀ msg rest, (s.shells i).link = msg :: rest →
      (s.shells i).queue.length < lim.queue → ∃ l s', l.Serves i ∧ proxyStep lim s l = some s' :=
    fun msg rest hlink hroom => ⟨.deliver i, _, rfl, deliver_enabled hses (by simp [hstage]) hlink hroom⟩
  have ingest : ses.output ≠ [] → ∃ l s', l.Serves i ∧ proxyStep lim s l = some s' := by
    intro hout
    obtain ⟨bytes, rest, hout⟩ := List.exists_cons_of_ne_nil hout
    exact ⟨.gateway (.ingest i), _, rfl, ingest_enabled hses hingest hout⟩
  cases hpc : (s.shells i).pc with
  | top => exact ⟨.top i, _, rfl, top_enabled hses ha hpc⟩
  | send bytes =>
    by_cases hroom : ses.output.length < 256
    · exact ⟨.send i, _, rfl, send_enabled hses ha hpc hroom⟩
    · refine ingest fun hnil => hroom ?_
      simp [hnil]
  | write rest =>
    by_cases hrest : rest = []
    · exact ⟨.written i, _, rfl, written_enabled hses ha (hrest ▸ hpc)⟩
    · have hpos := List.length_pos_iff.mpr hrest
      by_cases hw : 0 < (s.shells i).window
      · exact ⟨.write i 1, _, rfl, write_enabled hses ha (by simp [hstage]) hpc one_pos hpos hw⟩
      · obtain ⟨msg, tail, hlink, hroom⟩ := fed.grant_comes
          (by rw [hpc]; simp only [ActorPc.unwritten]; omega)
        exact deliver msg tail hlink hroom
  | select =>
    by_cases hq : (s.shells i).queue = []
    · cases hlink : (s.shells i).link with
      | cons msg rest => exact deliver msg rest hlink (by rw [hq]; exact lim.queue_pos)
      | nil =>
        rcases pending with hp | hp | hp | hp | ⟨ses', hses', hp⟩
        · exact absurd hpc hp
        · exact absurd hq hp
        · exact absurd hlink hp
        · obtain ⟨s', hs⟩ : ∃ s', proxyStep lim s (.read i 1) = some s' :=
            read_enabled hses hstage hlink hp
          exact ⟨.read i 1, s', rfl, hs⟩
        · obtain rfl := Option.some.inj (hses.symm.trans hses')
          rcases hp with hp | hp
          · obtain ⟨command, rest, hinput⟩ := List.exists_cons_of_ne_nil hp
            exact ⟨.take i, _, rfl, take_enabled hses ha hpc hinput⟩
          · exact ingest hp
    · obtain ⟨s', hs⟩ : ∃ s', proxyStep lim s (.wait i) = some s' := wait_enabled hses ha hpc hq
      exact ⟨.wait i, s', rfl, hs⟩

end Progress

/-- The actor of session `i` is in a write that is not covered, and no output is left for the
ingest task. -/
structure Proxy.Choked (lim : SshLimits) (s : Proxy) (i : SessionId) : Prop where
  stage : (s.shells i).stage = .open
  alive : ∃ ses, s.gateway.sessions i = some ses ∧ ses.actor = true ∧ ses.output = []
  unfed : ¬(s.shells i).Fed lim

/-- Every buffer between the actor and the target is full, and the window used up. -/
structure Proxy.Deadlocked (lim : SshLimits) (s : Proxy) (i : SessionId) : Prop
    extends s.Choked lim i where
  window : (s.shells i).window = 0
  queue : lim.queue ≤ (s.shells i).queue.length
  link : lim.link ≤ (s.shells i).link.length

section Stuck

variable {lim : SshLimits} {s s' : Proxy} {i : SessionId} {l : ProxyLabel}

theorem Proxy.Deadlocked.pending (h : s.Deadlocked lim i) : s.Pending i := by
  obtain ⟨rest, hpc, -⟩ := Shell.unfed_writing h.unfed
  exact Or.inl (by simp [hpc])

theorem Proxy.Deadlocked.emit_disabled (h : s.Deadlocked lim i) (msg : ChannelMsg)
    (f : Shell → Shell) : s.emit lim i msg f = none := by
  obtain ⟨ses, hses, -⟩ := h.alive
  have hlink := h.link
  simp [Proxy.emit, hses, hlink]

theorem Proxy.Deadlocked.stuck (h : s.Deadlocked lim i) (hl : l.Serves i ∨ l.Speaks i) :
    proxyStep lim s l = none := by
  obtain ⟨ses, hses, ha, hout⟩ := h.alive
  obtain ⟨rest, hpc, hlt⟩ := Shell.unfed_writing h.unfed
  have hwindow := h.window
  have hqueue := h.queue
  have hstage := h.stage
  cases l with
  | gateway l =>
    rcases hl with hl | hl
    · obtain rfl : l = .ingest i := hl
      simp [proxyStep, Proxy.run, Label.actor, step, State.ingest, hses, hout]
    · exact absurd hl id
  | lose j => exact absurd hl (by simp [ProxyLabel.Serves, ProxyLabel.Speaks])
  | top j =>
    obtain rfl : j = i := by simpa [ProxyLabel.Serves, ProxyLabel.Speaks] using hl
    simp [proxyStep, Proxy.top, hses, hpc]
  | wait j =>
    obtain rfl : j = i := by simpa [ProxyLabel.Serves, ProxyLabel.Speaks] using hl
    simp [proxyStep, Proxy.wait, hses, hpc]
  | send j =>
    obtain rfl : j = i := by simpa [ProxyLabel.Serves, ProxyLabel.Speaks] using hl
    simp [proxyStep, Proxy.send, hpc]
  | take j =>
    obtain rfl : j = i := by simpa [ProxyLabel.Serves, ProxyLabel.Speaks] using hl
    simp [proxyStep, Proxy.take, hses, hpc]
  | write j n =>
    obtain rfl : j = i := by simpa [ProxyLabel.Serves, ProxyLabel.Speaks] using hl
    simp [proxyStep, Proxy.write, hses, hpc, hwindow]
    omega
  | written j =>
    obtain rfl : j = i := by simpa [ProxyLabel.Serves, ProxyLabel.Speaks] using hl
    have hne : rest ≠ [] := List.ne_nil_of_length_pos (by omega)
    simp [proxyStep, Proxy.written, hses, hpc, hne]
  | writeFailed j =>
    obtain rfl : j = i := by simpa [ProxyLabel.Serves, ProxyLabel.Speaks] using hl
    simp [proxyStep, Proxy.writeFailed, hpc, hstage]
  | deliver j =>
    obtain rfl : j = i := by simpa [ProxyLabel.Serves, ProxyLabel.Speaks] using hl
    simp only [proxyStep, Proxy.deliver, hses, Option.bind_eq_bind, Option.bind_some]
    split
    · rw [if_neg]
      omega
    · rfl
  | read j n =>
    obtain rfl : j = i := by simpa [ProxyLabel.Serves, ProxyLabel.Speaks] using hl
    simp [proxyStep, Proxy.read, h.emit_disabled]
  | produce j msg =>
    obtain rfl : j = i := by simpa [ProxyLabel.Serves, ProxyLabel.Speaks] using hl
    simp [proxyStep, Proxy.produce, h.emit_disabled]
  | hangup j msg =>
    obtain rfl : j = i := by simpa [ProxyLabel.Serves, ProxyLabel.Speaks] using hl
    simp [proxyStep, Proxy.hangup, h.emit_disabled]

end Stuck

section Choke

variable {lim : SshLimits} {s : Proxy} {i : SessionId}

theorem Proxy.Choked.setShell (h : s.Choked lim i) {x : Shell} (stage : x.stage = .open)
    (unfed : ¬x.Fed lim) : (s.setShell i x).Choked lim i :=
  ⟨by simpa using stage, h.alive, by simpa using unfed⟩

theorem Proxy.Choked.writes (h : s.Choked lim i) (queue : lim.queue ≤ (s.shells i).queue.length)
    (link : lim.link ≤ (s.shells i).link.length) :
    Leads (proxyStep lim) (fun l => l.Serves i ∨ l.Speaks i) (·.Deadlocked lim i) s := by
  by_cases hzero : (s.shells i).window = 0
  · exact .here ⟨h, hzero, queue, link⟩
  · obtain ⟨ses, hses, ha, -⟩ := h.alive
    obtain ⟨rest, hpc, hlt⟩ := Shell.unfed_writing h.unfed
    have hwrite : proxyStep lim s (.write i (s.shells i).window) =
        some (s.setShell i ((s.shells i).hand rest (s.shells i).window)) :=
      write_enabled hses ha (by simp [h.stage]) hpc (Nat.pos_of_ne_zero hzero) hlt.le le_rfl
    have hchoked : (s.setShell i ((s.shells i).hand rest (s.shells i).window)).Choked lim i :=
      h.setShell h.stage ((Shell.fed_hand hpc hlt.le le_rfl).not.mpr h.unfed)
    refine .step (l := .write i (s.shells i).window) (Or.inl rfl) hwrite (.here ⟨hchoked, ?_, ?_, ?_⟩)
    · simp [Shell.hand]
    · simpa [Shell.hand] using queue
    · simpa [Shell.hand] using link

theorem Proxy.Choked.fills_link (h : s.Choked lim i)
    (queue : lim.queue ≤ (s.shells i).queue.length) :
    Leads (proxyStep lim) (fun l => l.Serves i ∨ l.Speaks i) (·.Deadlocked lim i) s := by
  induction hn : lim.link - (s.shells i).link.length generalizing s with
  | zero => exact h.writes queue (by omega)
  | succ n ih =>
    obtain ⟨ses, hses, -⟩ := h.alive
    refine .step (l := .produce i .other) (Or.inr rfl) (produce_enabled hses h.stage (by omega)) (ih ?_ ?_ ?_)
    · exact h.setShell h.stage (Shell.fed_other.not.mpr h.unfed)
    · simpa using queue
    · simp only [Proxy.setShell_self, List.length_append, List.length_singleton]
      omega

theorem Proxy.Choked.fills_queue (h : s.Choked lim i) :
    Leads (proxyStep lim) (fun l => l.Serves i ∨ l.Speaks i) (·.Deadlocked lim i) s := by
  induction hn : lim.queue - (s.shells i).queue.length generalizing s with
  | zero => exact h.fills_link (by omega)
  | succ n ih =>
    have deliver : ∀ t : Proxy, t.Choked lim i → (t.shells i).queue = (s.shells i).queue →
        (t.shells i).link ≠ [] →
        Leads (proxyStep lim) (fun l => l.Serves i ∨ l.Speaks i) (·.Deadlocked lim i) t := by
      intro t ht hqueue hlink
      obtain ⟨ses, hses, -⟩ := ht.alive
      obtain ⟨msg, rest, hlink⟩ := List.exists_cons_of_ne_nil hlink
      have hroom : (t.shells i).queue.length < lim.queue := by
        rw [hqueue]
        omega
      refine .step (l := .deliver i) (Or.inl rfl)
        (deliver_enabled hses (by simp [ht.stage]) hlink hroom) (ih ?_ ?_)
      · exact ht.setShell ht.stage ((Shell.fed_put hlink hroom).not.mpr ht.unfed)
      · simp only [Proxy.setShell_self, Shell.put, List.length_append, List.length_singleton,
          hqueue]
        omega
    by_cases hlink : (s.shells i).link = []
    · obtain ⟨ses, hses, -⟩ := h.alive
      have hroom : (s.shells i).link.length < lim.link := by
        rw [hlink]
        exact lim.link_pos
      refine .step (l := .produce i .other) (Or.inr rfl) (produce_enabled hses h.stage hroom) (deliver _ ?_ ?_ ?_)
      · exact h.setShell h.stage (Shell.fed_other.not.mpr h.unfed)
      · simp
      · simp
    · exact deliver s h rfl hlink

theorem leads_choked {ses : Session} (hses : s.gateway.sessions i = some ses)
    (ha : ses.actor = true) (hingest : ses.ingest = true) (hstage : (s.shells i).stage = .open)
    (unfed : ¬(s.shells i).Fed lim) :
    Leads (proxyStep lim) (fun l => l.Serves i ∨ l.Speaks i) (·.Choked lim i) s := by
  induction hout : ses.output generalizing s ses with
  | nil => exact .here ⟨hstage, ⟨ses, hses, ha, hout⟩, unfed⟩
  | cons bytes rest ih =>
    let ses' := { ses with
      inner := ses.inner.append .exact bytes
      output := rest
      produced := ses.produced ++ bytes }
    have hses' : (s.gateway.setSession i ses').sessions i = some ses' := by
      simp
    refine .step (l := .gateway (.ingest i)) (Or.inl rfl) (ingest_enabled hses hingest hout) ?_
    exact ih hses' ha hingest hstage unfed rfl

end Choke

/-- While every write that the actors of open channels take up is covered, something always moves on
as long as a channel is open and anything waits on it; one that is not covered can end in a
deadlock. -/
theorem actor_progresses {lim : SshLimits} {maxScrollback : Nat} {s : Proxy} {i : SessionId}
    {ses : Session} (h : Reach (proxy lim maxScrollback) (WritesCovered lim) s)
    (hses : s.gateway.sessions i = some ses) (alive : ses.actor = true)
    (stage : (s.shells i).stage = .open) :
    (s.Pending i → ∃ l s', l.Serves i ∧ proxyStep lim s l = some s') ∧
    ∀ s', proxyStep lim s (.take i) = some s' → ¬WritesCovered lim s (.take i) →
      ∃ ls t, (∀ l ∈ ls, l.Serves i ∨ l.Speaks i) ∧ exec (proxyStep lim) s' ls = some t ∧
        t.Pending i ∧ ∀ l, l.Serves i ∨ l.Speaks i → proxyStep lim t l = none := by
  have sound := gateway_sound (proxy_gateway h)
  have hingest := sound.wf.ingest_of_actor hses alive
  refine ⟨progress_of_fed (proxy_fed h i stage) hses alive hingest stage, fun s' hs hcovered => ?_⟩
  simp only [WritesCovered, not_forall] at hcovered
  obtain ⟨-, ses', hses', command, hcommand, hnot⟩ := hcovered
  obtain rfl : ses = ses' := Option.some.inj (hses.symm.trans hses')
  obtain ⟨rest, hinput⟩ := List.head?_eq_some_iff.mp hcommand
  have hpc : (s.shells i).pc = .select := by
    obtain ⟨_, -, hs⟩ := Option.bind_eq_some_iff.mp hs
    exact (Option.ite_none_right_eq_some.mp hs).1
  obtain rfl := Option.some.inj ((take_enabled hses alive hpc hinput).symm.trans hs)
  have hstage : ((s.shells i).begin command).stage = .open := by
    cases command <;> exact stage
  have unfed : ¬((s.shells i).begin command).Fed lim := Shell.fed_begin.not.mpr hnot
  let s' : Proxy := { s with gateway := s.gateway.setSession i { ses with input := rest } }
  have hses' : (s'.setShell i ((s.shells i).begin command)).gateway.sessions i =
      some { ses with input := rest } := by
    simp [s']
  obtain ⟨ls, t, hall, run, hdead⟩ := (leads_choked hses' alive hingest (by simpa using hstage)
    (by simpa using unfed)).trans fun t ht => ht.fills_queue
  exact ⟨ls, t, hall, run, hdead.pending, fun l hl => hdead.stuck hl⟩

/-- A client types a byte, which the window covers. -/
theorem actor_progresses_typing : ∃ s,
    Reach (proxy .narrow defaultScrollbackBytes) (WritesCovered .narrow) s ∧
    (s.shells 5).pc = .write [97] ∧ ∃ l s', l.Serves 5 ∧ proxyStep .narrow s l = some s' := by
  obtain ⟨s, hs, ⟨halive, hstage⟩, hpc⟩ :=
    exists_reach_of_execWhere (.init .narrow defaultScrollbackBytes)
      (proxyStep .narrow) (WritesCovered .narrow)
      ((opening 0 none .unlimited 5 [1]).map .gateway ++
        [.gateway (.recv 0 (.ok (.data [97]))), .gateway (.forward 0), .top 5, .take 5])
      (fun s => ((s.gateway.sessions 5).any Session.actor = true ∧ (s.shells 5).stage = .open) ∧
        (s.shells 5).pc = .write [97])
      (by decide +kernel)
  obtain ⟨ses, hses, ha⟩ := (Option.any_eq_true _ _).mp halive
  have hbusy : (s.shells 5).pc ≠ .select := by
    rw [hpc]
    simp
  exact ⟨s, hs, hpc, (actor_progresses hs hses ha hstage).1 (Or.inl hbusy)⟩

/-- A client pastes two bytes where the window is one, at a target that sends output all the while:
the actor waits for a grant that nobody can bring it. -/
theorem actor_deadlocks : ∃ s, Reachable (proxy .narrow defaultScrollbackBytes) s ∧
    ((s.gateway.sessions 5).any Session.actor = true ∧ (s.shells 5).stage = .open) ∧
    (s.shells 5).pc = .write [98] ∧ s.Pending 5 ∧
    ∀ l, l.Serves 5 ∨ l.Speaks 5 → proxyStep .narrow s l = none := by
  obtain ⟨s, hs, ⟨halive, hstage⟩, hpc, hfed, hwindow, hqueue, hlink⟩ :=
    exists_reachable_of_exec (.init .narrow defaultScrollbackBytes)
      (proxyStep .narrow)
      ((opening 0 none .unlimited 5 [1]).map .gateway ++
        [.gateway (.recv 0 (.ok (.data [97, 98]))), .gateway (.forward 0), .top 5, .take 5,
          .write 5 1] ++
        (List.replicate 101 [.produce 5 (.data [120]), .deliver 5]).flatten ++
        [.produce 5 (.data [120])])
      (fun s => ((s.gateway.sessions 5).any (fun ses => ses.actor && ses.output.isEmpty) = true ∧
        (s.shells 5).stage = .open) ∧ (s.shells 5).pc = .write [98] ∧ ¬(s.shells 5).Fed .narrow ∧
        (s.shells 5).window = 0 ∧ (s.shells 5).queue.length = 101 ∧ (s.shells 5).link.length = 1)
      (by decide +kernel)
  obtain ⟨ses, hses, ha⟩ := (Option.any_eq_true _ _).mp halive
  obtain ⟨ha, hout⟩ := Bool.and_eq_true_iff.mp ha
  have hdead : s.Deadlocked .narrow 5 :=
    ⟨⟨hstage, ⟨ses, hses, ha, List.isEmpty_iff.mp hout⟩, hfed⟩, hwindow, hqueue.ge, hlink.ge⟩
  exact ⟨s, hs, ⟨(Option.any_eq_true _ _).mpr ⟨ses, hses, ha⟩, hstage⟩, hpc, hdead.pending,
    fun l hl => hdead.stuck hl⟩

end TtyGateway
