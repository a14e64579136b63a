import TtyGateway.Account

namespace TtyGateway

open Transition

/-- The payload bytes of the frames sent to the connections of an account in the window of length
`len` that begins at time `t`. -/
def State.sentWithin (s : State) (account : Option Bytes) (t len : ℚ) : Nat :=
  ((s.wire.filter fun m => (s.conns m.conn).accountToken = account ∧ t ≤ m.time ∧
    m.time ≤ t + len).map fun m => m.frame.payload.length).sum

theorem Sent.payload_of_spent_none {m : Sent} (h : m.spent = none) : m.frame.payload = [] := by
  unfold Sent.spent at h
  cases hf : m.frame with
  | data bytes => simp [hf, ServerFrame.output] at h
  | _ => rfl

theorem Sent.payload_of_spent {m : Sent} {e : ℚ × ℚ} (h : m.spent = some e) :
    e = (m.time, (m.frame.payload.length : ℚ)) := by
  unfold Sent.spent at h
  cases hf : m.frame <;> simp [hf, ServerFrame.output, ServerFrame.payload] at h ⊢
  exact h.symm

theorem State.within_spentBy {s : State} {account : Option Bytes} (t len : ℚ) :
    Limiter.within t len (s.spentBy account) = s.sentWithin account t len := by
  unfold State.spentBy State.sentWithin Limiter.within
  induction s.wire with
  | nil => simp
  | cons m ms ih =>
    simp only [List.filterMap_cons, List.filter_cons]
    by_cases hc : (s.conns m.conn).accountToken = account
    · cases hm : m.spent with
      | none =>
        have hpay := Sent.payload_of_spent_none hm
        by_cases hin : t ≤ m.time ∧ m.time ≤ t + len
        · simpa [hc, hin, hpay] using ih
        · simpa [hc, hin] using ih
      | some e =>
        obtain rfl := Sent.payload_of_spent hm
        by_cases hin : t ≤ m.time ∧ m.time ≤ t + len
        · simpa [hc, hin] using ih
        · simpa [hc, hin] using ih
    · simpa [hc] using ih

/-- A client resumes a session and is sent at once what its first poll returns. -/
def replaying (c : ConnId) (account : Option Bytes) (entitlement : Entitlement) (token : Bytes) :
    List Label :=
  resuming c account entitlement token ++ [.pollReader c, .throttle c, .addOut c, .written c true]

theorem State.exec_replaying {s : State} {c : ConnId} {session : SessionRef} {ses : Session}
    {bytes : Bytes} {reader : SessionReader} {left : TokenBucket} {rate : Nat}
    (account : Option Bytes) (hc : s.conns c = .init)
    (hr : s.registry.resume session.resumeToken = some session)
    (hi : s.sessions session.id = some ses)
    (hp : SessionReader.poll .exact ⟨0⟩ ses.inner = some (.chunk bytes, reader))
    (hn : ((TokenBucket.new rate bandwidthBurst).refill 0).tryConsume bytes.length = (true, left)) :
    ∃ x, x.accountToken = account ∧
      exec step s (replaying c account ⟨some rate, none⟩ session.resumeToken) = some { s with
        conns := Function.update s.conns c x
        accepted := s.accepted ++ [c]
        calls := s.calls ++ [.authorize "client" account (.ok ⟨some rate, none⟩)]
        wire := s.wire ++ [
          ⟨c, s.clock, .hello protocolVersion session.id true ⟨session.resumeToken⟩⟩,
          ⟨c, s.clock, .status .live⟩, ⟨c, s.clock, .data bytes⟩] } := by
  refine ⟨_, ?_, by
    simp [exec, replaying, resuming, step, State.accept, State.recvHello, State.authorized,
      State.lookup, State.helloSent, State.statusSent, State.senderStart, State.pollReader,
      State.throttle, State.addOut, State.written, State.setConn, State.call, State.put, hc, hr,
      hi, hp, hn, Conn.init]; rfl⟩
  rfl

/-- Clients `1` to `n` have each been sent the whole output of the session, all at once. -/
structure State.Replayed (s : State) (account : Option Bytes) (rate : Nat) (session : SessionRef)
    (bytes : Bytes) (n : Nat) : Prop where
  reachable : Reachable (gateway defaultScrollbackBytes) s
  clock : s.clock = 0
  entitled : s.Entitled account rate
  listed : s.registry.resume session.resumeToken = some session
  holds : ∃ ses reader, s.sessions session.id = some ses ∧
    SessionReader.poll .exact ⟨0⟩ ses.inner = some (.chunk bytes, reader)
  unused : ∀ c, n < c → s.conns c = .init ∧ ∀ m ∈ s.wire, m.conn ≠ c
  sent : s.sentWithin account 0 0 = n * bytes.length

section Replay

variable {account : Option Bytes} {rate n : Nat} {session : SessionRef} {bytes : Bytes}

theorem State.sentWithin_append {s s' : State} {c : ConnId} {x : Conn} {ms : List Sent} {t len : ℚ}
    (conns : s'.conns = Function.update s.conns c x) (hx : x.accountToken = account)
    (hold : ∀ m ∈ s.wire, m.conn ≠ c) (wire : s'.wire = s.wire ++ ms)
    (hms : ∀ m ∈ ms, m.conn = c ∧ t ≤ m.time ∧ m.time ≤ t + len) :
    s'.sentWithin account t len =
      s.sentWithin account t len + (ms.map fun m => m.frame.payload.length).sum := by
  unfold State.sentWithin
  rw [wire, conns, List.filter_append, List.map_append, List.sum_append]
  congr 1
  · congr 2
    apply List.filter_congr
    intro m hm
    rw [Function.update_of_ne (hold m hm)]
  · congr 2
    apply List.filter_eq_self.mpr
    intro m hm
    obtain ⟨hc, hin⟩ := hms m hm
    rw [hc, Function.update_self]
    exact decide_eq_true ⟨hx, hin⟩

theorem TokenBucket.tryConsume_new (hrate : 1 ≤ rate) {amount : Nat}
    (h : amount ≤ bandwidthBurst) : ∃ left,
      ((TokenBucket.new rate bandwidthBurst).refill 0).tryConsume amount = (true, left) := by
  have henough : (amount : ℚ) ≤ ((TokenBucket.new rate bandwidthBurst).refill 0).tokens := by
    rw [TokenBucket.new_eq hrate]
    simpa [TokenBucket.refill] using h
  exact ⟨_, by rw [TokenBucket.tryConsume, if_pos henough]⟩

theorem State.Replayed.next {s : State} (h : s.Replayed account rate session bytes n)
    (hrate : 1 ≤ rate) (hlen : bytes.length ≤ bandwidthBurst) :
    ∃ s', State.Replayed s' account rate session bytes (n + 1) := by
  obtain ⟨hconn, hwire⟩ := h.unused (n + 1) (Nat.lt_succ_self n)
  obtain ⟨ses, reader, hses, hpoll⟩ := h.holds
  obtain ⟨left, hleft⟩ := TokenBucket.tryConsume_new hrate hlen
  obtain ⟨x, hx, hrun⟩ := State.exec_replaying account hconn h.listed hses hpoll hleft
  refine ⟨_, reachable_exec h.reachable hrun, h.clock, ?_, h.listed, ⟨ses, reader, hses, hpoll⟩, ?_, ?_⟩
  · intro a ha
    rcases List.mem_append.mp ha with ha | ha
    · exact h.entitled a ha
    · simp [List.mem_singleton.mp ha, HookCall.allows]
  · intro c hc
    obtain ⟨hinit, hnone⟩ := h.unused c (by omega)
    refine ⟨?_, fun m hm => ?_⟩
    · simp [Function.update_of_ne (Nat.ne_of_gt hc), hinit]
    · rcases List.mem_append.mp hm with hm | hm
      · exact hnone m hm
      · simp at hm
        rcases hm with rfl | rfl | rfl <;> exact Nat.ne_of_lt hc
  · rw [State.sentWithin_append rfl hx hwire rfl]
    · rw [h.sent, Nat.succ_mul]
      simp [ServerFrame.payload]
    · simp [h.clock]

theorem SessionInner.poll_first {maxBytes : Nat} (hne : bytes ≠ []) (hlen : bytes.length ≤ maxBytes) :
    SessionReader.poll .exact ⟨0⟩ ((SessionInner.new maxBytes).append .exact bytes) =
      some (.chunk bytes, ⟨bytes.length⟩) := by
  have hholds := (SessionInner.holds_new maxBytes).append bytes
  have hstart := hholds.start_eq
  have hpos := List.length_pos_iff.mpr hne
  simp only [List.nil_append, SessionInner.append_maxBytes] at hholds hstart
  have hzero : max 0 ((SessionInner.new maxBytes).append .exact bytes).startOffset = 0 := by
    rw [hstart]
    simp only [SessionInner.new]
    omega
  rw [SessionReader.poll_eq hholds (Nat.zero_le _), hzero, if_pos hpos, List.drop_zero]

theorem State.exec_opening (account : Option Bytes) (rate : Nat) (bytes : Bytes) : ∃ x ses,
    ses.inner = (SessionInner.new defaultScrollbackBytes).append .exact bytes ∧
    exec step (.init defaultScrollbackBytes) (opening 0 account ⟨some rate, none⟩ 5 [1] ++
      [.actorOutput 5 bytes, .ingest 5]) = some { State.init defaultScrollbackBytes with
        registry := Registry.default.create ⟨5, [1]⟩
        sessions := Function.update (fun _ => none) 5 (some ses)
        conns := Function.update (fun _ => .init) 0 x
        accepted := [0]
        minted := [⟨5, [1]⟩]
        calls := [.authorize "client" account (.ok ⟨some rate, none⟩),
          .sessionOpen account 5 "client" (.ok ())]
        wire := [⟨0, 0, .hello protocolVersion 5 false ⟨[1]⟩⟩, ⟨0, 0, .status .live⟩] } := by
  refine ⟨_, _, ?_, by
    simp [exec, opening, step, State.accept, State.recvHello, State.authorized, State.lookup,
      State.recvOpen, AuthIntent.refused, State.loggedIn, State.sessionOpened, State.helloSent,
      State.statusSent, State.senderStart, State.actorOutput, State.ingest, Session.spawn,
      State.setConn, State.setSession, State.call, State.put, State.init, Conn.init]
    exact ⟨rfl, rfl⟩⟩
  rfl

theorem State.replayed_start (account : Option Bytes) (rate : Nat) (hne : bytes ≠ [])
    (hlen : bytes.length ≤ defaultScrollbackBytes) :
    ∃ s, State.Replayed s account rate ⟨5, [1]⟩ bytes 0 := by
  obtain ⟨x, ses, hinner, hrun⟩ := State.exec_opening account rate bytes
  have hlisted : (Registry.default.create ⟨5, [1]⟩).resume [1] = some ⟨5, [1]⟩ := by decide
  have hpoll : SessionReader.poll .exact ⟨0⟩ ses.inner = some (.chunk bytes, ⟨bytes.length⟩) :=
    hinner ▸ SessionInner.poll_first hne hlen
  refine ⟨_, reachable_exec .init hrun, rfl, ?_, hlisted, ⟨ses, _, rfl, hpoll⟩, ?_, ?_⟩
  · simp [State.Entitled, HookCall.allows]
  · intro c hc
    simp [Nat.ne_of_gt hc, Nat.ne_of_lt hc]
  · by_cases hx : x.accountToken = account <;>
      simp [State.sentWithin, ServerFrame.payload, hx]

/-- No plan bounds what an account is sent at once: each new connection starts with a full bucket. -/
theorem bandwidth_unbounded (account : Option Bytes) (hrate : 1 ≤ rate) (hne : bytes ≠ [])
    (hlen : bytes.length ≤ defaultScrollbackBytes) (n : Nat) :
    ∃ s, Reachable (gateway defaultScrollbackBytes) s ∧ s.Entitled account rate ∧
      s.sentWithin account 0 0 = n * bytes.length := by
  have hburst : bytes.length ≤ bandwidthBurst := hlen.trans (by decide)
  have hrun : ∃ s, State.Replayed s account rate ⟨5, [1]⟩ bytes n := by
    induction n with
    | zero => exact State.replayed_start account rate hne hlen
    | succ n ih =>
      obtain ⟨s, hs⟩ := ih
      exact hs.next hrate hburst
  obtain ⟨s, hs⟩ := hrun
  exact ⟨s, hs.reachable, hs.entitled, hs.sent⟩

end Replay

/-- Where a limiter is only started once the account's others have ended and filled up again, the
account is sent no more than its plan allows, whatever its connections. -/
theorem bandwidth_within_plan {maxScrollback rate : Nat} {account : Option Bytes} {s : State}
    (h : Reach (gateway maxScrollback) (FreshLimiter account) s) (hrate : 1 ≤ rate)
    (entitled : s.Entitled account rate) (t : ℚ) {len : ℚ} (hlen : 0 ≤ len) :
    (s.sentWithin account t len : ℚ) ≤ bandwidthBurst + rate * len := by
  have metered := (gateway_throttled h).metered rate hrate entitled
  rw [← State.within_spentBy]
  exact metered.within_le t hlen

/-- A client that is sent two bytes, drops, and resumes two seconds later is sent them again. -/
theorem bandwidth_within_plan_resumed : ∃ s,
    Reach (gateway defaultScrollbackBytes) (FreshLimiter (some [7])) s ∧
    s.Entitled (some [7]) 1 ∧ s.sentWithin (some [7]) 0 2 = 4 ∧
    (s.sentWithin (some [7]) 0 2 : ℚ) ≤ bandwidthBurst + (1 : Nat) * 2 := by
  obtain ⟨s, hs, hsent, hcalls⟩ := exists_reach_of_execWhere (.init defaultScrollbackBytes) step
    (FreshLimiter (some [7])) (opening 0 (some [7]) ⟨some 1, none⟩ 5 [1] ++
      [.actorOutput 5 [104, 105], .ingest 5, .pollReader 0, .throttle 0, .addOut 0,
        .written 0 true] ++ ending 0 (.error "connection lost") ++ [.tick 2] ++
      replaying 1 (some [7]) ⟨some 1, none⟩ [1])
    (fun s => s.sentWithin (some [7]) 0 2 = 4 ∧ ∀ x ∈ s.calls, x.allows (some [7]) 1 = true)
    (by decide +kernel)
  exact ⟨s, hs, hcalls, hsent, bandwidth_within_plan hs le_rfl hcalls 0 (by norm_num)⟩

/-- Five clients of an account that may have one byte per second resume a session with 256 KiB of
output, and get 1.25 MiB in the same instant. -/
theorem bandwidth_exceeded : ∃ s, Reachable (gateway defaultScrollbackBytes) s ∧
    s.Entitled (some [7]) 1 ∧
    ¬ (s.sentWithin (some [7]) 0 0 : ℚ) ≤ bandwidthBurst + (1 : Nat) * 0 := by
  have hlen : (List.replicate defaultScrollbackBytes (0 : UInt8)).length = defaultScrollbackBytes :=
    List.length_replicate
  have hne : List.replicate defaultScrollbackBytes (0 : UInt8) ≠ [] := by
    rw [← List.length_pos_iff, hlen]
    decide
  obtain ⟨s, hs, hentitled, hsent⟩ := bandwidth_unbounded (some [7]) le_rfl hne hlen.le 5
  refine ⟨s, hs, hentitled, ?_⟩
  rw [hsent, hlen]
  norm_num [defaultScrollbackBytes, bandwidthBurst]

end TtyGateway
