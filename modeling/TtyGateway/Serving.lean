import TtyGateway.Refinement

namespace TtyGateway

open Transition

/-- Where `serve` stands: at `endpoint.accept`, in `accept_control` with a client whose handshake is
not done or whose control stream is not open, or past its loop. -/
inductive ServePc
  | accept
  | handshake (c : ConnId)
  | acceptBi (c : ConnId)
  | returned
  deriving DecidableEq

/-- The process that runs `serve`, with the clients that wait at its endpoint. `arrived` and
`failed` are history, the clients that came and those that were not accepted, each in order. -/
structure Serving where
  gateway : State
  pc : ServePc
  incoming : List ConnId
  closed : Bool
  arrived : List ConnId
  failed : List ConnId

def Serving.init (maxScrollback : Nat) : Serving := ⟨.init maxScrollback, .accept, [], false, [], []⟩

/-- `connected` and `opened` are what the handshake of a client and its first stream come to;
`close` is the end of the endpoint. -/
inductive ServeLabel
  | arrive (c : ConnId)
  | accept
  | connected (c : ConnId) (ok : Bool)
  | opened (c : ConnId) (ok : Bool)
  | close
  | finish
  | gateway (l : Label)

def Label.accepts : Label → Bool
  | .accept _ => true
  | _ => false

section Step

variable (s : Serving)

def Serving.arrive (c : ConnId) : Option Serving :=
  if s.closed = false ∧ c ∉ s.arrived then
    some { s with incoming := s.incoming ++ [c], arrived := s.arrived ++ [c] }
  else none

/-- `endpoint.accept().await` -/
def Serving.accept : Option Serving :=
  if s.pc = .accept then
    match s.incoming with
    | c :: rest => some { s with pc := .handshake c, incoming := rest }
    | [] => none
  else none

/-- `serve` logs the error and goes on. -/
def Serving.fail (c : ConnId) : Serving := { s with pc := .accept, failed := s.failed ++ [c] }

/-- `incoming.await?` -/
def Serving.connected (c : ConnId) (ok : Bool) : Option Serving :=
  if s.pc = .handshake c then some (if ok then { s with pc := .acceptBi c } else s.fail c) else none

/-- `conn.accept_bi().await?`, after which `serve` spawns the handler. -/
def Serving.opened (c : ConnId) (ok : Bool) : Option Serving :=
  if s.pc = .acceptBi c then
    if ok then (step s.gateway (.accept c)).map fun gateway => { s with gateway, pc := .accept }
    else some (s.fail c)
  else none

/-- `endpoint.accept` yields nothing more, and `serve` returns. -/
def Serving.finish : Option Serving :=
  if s.pc = .accept ∧ s.closed then some { s with pc := .returned } else none

/-- The handlers and their tasks run until the process ends, which it does as `serve` returns. -/
def Serving.run (l : Label) : Option Serving :=
  if s.pc ≠ .returned ∧ l.accepts = false then
    (step s.gateway l).map fun gateway => { s with gateway }
  else none

end Step

def serveStep (s : Serving) : ServeLabel → Option Serving
  | .arrive c => s.arrive c
  | .accept => s.accept
  | .connected c ok => s.connected c ok
  | .opened c ok => s.opened c ok
  | .close => some { s with closed := true }
  | .finish => s.finish
  | .gateway l => s.run l

def serving (maxScrollback : Nat) : System Serving ServeLabel :=
  machine (.init maxScrollback) serveStep

/-- The client that `accept_control` is about. -/
def ServePc.client : ServePc → Option ConnId
  | .handshake c | .acceptBi c => some c
  | _ => none

/-- The clients that have come and are not dealt with yet, in order. -/
def Serving.waiting (s : Serving) : List ConnId := s.pc.client.toList ++ s.incoming

theorem Move.accepted {s s' : State} {l : Label} (m : Move s l s') (h : l.accepts = false) :
    s'.accepted = s.accepted := by
  cases m with
  | accept => cases h
  | _ => rfl

/-- What one step does to the clients that wait, and to those that were accepted. -/
inductive ServeMove (s : Serving) : ServeLabel → Serving → Prop
  | arrive {c s'} : c ∉ s.arrived → s'.gateway = s.gateway → s'.waiting = s.waiting ++ [c] →
      s'.arrived = s.arrived ++ [c] → s'.failed = s.failed → ServeMove s (.arrive c) s'
  | same {l s'} : (s'.gateway = s.gateway ∨
        ∃ k, k.accepts = false ∧ step s.gateway k = some s'.gateway) →
      s'.waiting = s.waiting → s'.arrived = s.arrived → s'.failed = s.failed → ServeMove s l s'
  | failed {c l} : l = .connected c false ∨ l = .opened c false →
      s.waiting = c :: (s.fail c).waiting → ServeMove s l (s.fail c)
  | spawned {c gateway} : step s.gateway (.accept c) = some gateway →
      s.waiting = c :: s.incoming →
      ServeMove s (.opened c true) { s with gateway, pc := .accept }

section Steps

variable {s s' : Serving} {l : ServeLabel} {c : ConnId}

theorem serveStep_move (hs : serveStep s l = some s') : ServeMove s l s' := by
  cases l with
  | arrive c =>
    obtain ⟨⟨-, hc⟩, he⟩ := Option.ite_none_right_eq_some.mp hs
    cases he
    exact .arrive hc rfl (by simp [Serving.waiting]) rfl rfl
  | accept =>
    obtain ⟨hpc, he⟩ := Option.ite_none_right_eq_some.mp hs
    split at he
    next c rest hin =>
      cases he
      exact .same (Or.inl rfl) (by simp [Serving.waiting, hpc, hin, ServePc.client]) rfl rfl
    next => cases he
  | connected c ok =>
    obtain ⟨hpc, he⟩ := Option.ite_none_right_eq_some.mp hs
    cases he
    cases ok with
    | true => exact .same (Or.inl rfl) (by simp [Serving.waiting, hpc, ServePc.client]) rfl rfl
    | false =>
      refine .failed (Or.inl rfl) ?_
      simp [Serving.waiting, hpc, ServePc.client, Serving.fail]
  | opened c ok =>
    obtain ⟨hpc, he⟩ := Option.ite_none_right_eq_some.mp hs
    have hwaiting : s.waiting = c :: s.incoming := by
      simp [Serving.waiting, hpc, ServePc.client]
    cases ok with
    | true =>
      obtain ⟨gateway, hg, rfl⟩ := Option.map_eq_some_iff.mp he
      exact .spawned hg hwaiting
    | false =>
      cases he
      exact .failed (Or.inr rfl) hwaiting
  | close =>
    cases hs
    exact .same (Or.inl rfl) rfl rfl rfl
  | finish =>
    obtain ⟨⟨hpc, -⟩, he⟩ := Option.ite_none_right_eq_some.mp hs
    cases he
    exact .same (Or.inl rfl) (by simp [Serving.waiting, hpc, ServePc.client]) rfl rfl
  | gateway k =>
    obtain ⟨⟨-, hk⟩, he⟩ := Option.ite_none_right_eq_some.mp hs
    obtain ⟨gateway, hg, rfl⟩ := Option.map_eq_some_iff.mp he
    exact .same (Or.inr ⟨k, hk, hg⟩) rfl rfl rfl

theorem ServeMove.gateway (m : ServeMove s l s') :
    s'.gateway = s.gateway ∨ ∃ k, step s.gateway k = some s'.gateway := by
  cases m with
  | arrive _ h => exact Or.inl h
  | same h => exact h.imp_right fun ⟨k, _, hk⟩ => ⟨k, hk⟩
  | failed => exact Or.inl rfl
  | spawned hg => exact Or.inr ⟨_, hg⟩

theorem ServeMove.accepted (m : ServeMove s l s') : s'.gateway.accepted = s.gateway.accepted ∨
    ∃ c, s.waiting.head? = some c ∧ l = .opened c true ∧
      s'.gateway.accepted = s.gateway.accepted ++ [c] := by
  cases m with
  | arrive _ h => exact Or.inl (congrArg _ h)
  | same h =>
    rcases h with h | ⟨k, hk, hs⟩
    · exact Or.inl (congrArg _ h)
    · exact Or.inl ((step_move hs).accepted hk)
  | failed => exact Or.inl rfl
  | @spawned c gateway hg hw =>
    refine Or.inr ⟨c, by simp [hw], rfl, ?_⟩
    cases step_move hg with
    | accept => rfl

/-- The clients that have come are those that `serve` is through with, in the order in which it
accepted them or failed to, and behind them those that wait. -/
structure Serving.Ordered (s : Serving) : Prop where
  dealt : ∃ dealt : List (ConnId × Bool), s.arrived = dealt.map Prod.fst ++ s.waiting ∧
    s.gateway.accepted = (dealt.filter Prod.snd).map Prod.fst ∧
    s.failed = (dealt.filter fun d => !d.2).map Prod.fst
  once : s.arrived.Nodup

theorem ServeMove.ordered (m : ServeMove s l s') (h : s.Ordered) : s'.Ordered := by
  obtain ⟨dealt, harrived, haccepted, hfailed⟩ := h.dealt
  have hsame := m.accepted
  cases m with
  | arrive hnew hg hw ha hf =>
    refine ⟨⟨dealt, ?_, by rw [hg, haccepted], hf.trans hfailed⟩, ?_⟩
    · rw [ha, hw, harrived, List.append_assoc]
    · rw [ha, List.nodup_append]
      refine ⟨h.once, List.nodup_singleton _, fun a ha b hb => ?_⟩
      rintro rfl
      exact hnew (List.mem_singleton.mp hb ▸ ha)
  | same hg hw ha hf =>
    refine ⟨⟨dealt, ?_, ?_, hf.trans hfailed⟩, by rw [ha]; exact h.once⟩
    · rw [ha, hw, harrived]
    rcases hg with hg | ⟨k, hk, hs⟩
    · rw [hg, haccepted]
    · rw [(step_move hs).accepted hk, haccepted]
  | @failed c l hl hw =>
    refine ⟨⟨dealt ++ [(c, false)], ?_, ?_, ?_⟩, h.once⟩
    · rw [show (s.fail c).arrived = s.arrived from rfl, harrived, hw]
      simp
    · rw [show (s.fail c).gateway = s.gateway from rfl, haccepted]
      simp
    · rw [show (s.fail c).failed = s.failed ++ [c] from rfl, hfailed]
      simp
  | @spawned c gateway hg hw =>
    refine ⟨⟨dealt ++ [(c, true)], ?_, ?_, ?_⟩, h.once⟩
    · simp only [harrived, hw]
      simp [Serving.waiting, ServePc.client]
    · cases step_move hg with
      | accept => simp [haccepted]
    · simp [hfailed]

end Steps

section Runs

variable {maxScrollback : Nat} {s t : Serving} {c d : ConnId}

theorem serving_gateway (h : Reachable (serving maxScrollback) s) :
    Reachable (gateway maxScrollback) s.gateway := by
  refine h.invariant (P := fun s => Reachable (gateway maxScrollback) s.gateway) .init ?_
  intro s l s' _ ih _ hs
  rcases (serveStep_move hs).gateway with he | ⟨k, hk⟩
  · exact he ▸ ih
  · exact ih.step trivial hk

theorem serving_ordered (h : Reachable (serving maxScrollback) s) : s.Ordered := by
  refine h.invariant (P := Serving.Ordered) ⟨⟨[], rfl, rfl, rfl⟩, List.nodup_nil⟩ ?_
  exact fun s l s' _ ih _ hs => (serveStep_move hs).ordered ih

theorem Move.handled {s s' : State} {l : Label} (m : Move s l s')
    (h : ∀ c ∈ s.accepted, (s.conns c).pc ≠ .idle) : ∀ c ∈ s'.accepted, (s'.conns c).pc ≠ .idle := by
  intro c hc
  by_cases hl : l.conn = some c
  · cases m with
    | signIgnored | recvIgnored => exact h c hc
    | actorOutput | actorInput | actorEnd | actorNone | ingest | ingestEnd | tick => cases hl
    | senderStart | chunk | finished | parked | oob | oobClosed | unlimited | admitted | delayed
    | wake | addOut | written | unwritten | closedWritten | closedUnwritten | cancel =>
      cases hl
      simpa using h c hc
    | _ =>
      cases hl
      simp
  · rw [m.conns_of_ne hl]
    apply h
    cases m with
    | @accept d => simpa [show c ≠ d from fun he => hl (congrArg some he.symm)] using hc
    | _ => exact hc

theorem gateway_handled {C : State → Label → Prop} {s : State}
    (h : Reach (gateway maxScrollback) C s) : ∀ c ∈ s.accepted, (s.conns c).pc ≠ .idle := by
  refine h.invariant (P := fun s => ∀ c ∈ s.accepted, (s.conns c).pc ≠ .idle) nofun ?_
  exact fun s l s' _ ih _ hs => (step_move hs).handled ih

/-- Every client that comes is dealt with once, in the order in which they come, and each of them is
accepted, or was not, or is the one `accept_control` is about, or waits at the endpoint. Those that
were accepted have a handler, and no others, and what the handlers do is what those of the gateway
do. -/
theorem served_in_order (h : Reachable (serving maxScrollback) s) :
    Reachable (gateway maxScrollback) s.gateway ∧ s.arrived.Nodup ∧
    (∃ dealt : List (ConnId × Bool),
      s.arrived = dealt.map Prod.fst ++ s.pc.client.toList ++ s.incoming ∧
      s.gateway.accepted = (dealt.filter Prod.snd).map Prod.fst ∧
      s.failed = (dealt.filter fun d => !d.2).map Prod.fst) ∧
    (∀ c, c ∈ s.gateway.accepted ↔ (s.gateway.conns c).pc ≠ .idle) ∧
    ∀ c, c ∉ s.gateway.accepted → s.gateway.conns c = .init := by
  have hgate := serving_gateway h
  obtain ⟨⟨dealt, harrived, haccepted, hfailed⟩, once⟩ := serving_ordered h
  have wf := (gateway_sound hgate).wf
  refine ⟨hgate, once, ⟨dealt, ?_, haccepted, hfailed⟩,
    fun c => ⟨gateway_handled hgate c, wf.accepted_of_pc⟩, wf.idle⟩
  rw [harrived, Serving.waiting, List.append_assoc]

theorem Serving.Ordered.not_accepted (h : s.Ordered) (hc : c ∈ s.waiting) :
    c ∉ s.gateway.accepted := by
  obtain ⟨dealt, harrived, haccepted, -⟩ := h.dealt
  intro hm
  rw [haccepted] at hm
  obtain ⟨x, hx, rfl⟩ := List.mem_map.mp hm
  have hnodup := h.once
  rw [harrived, List.nodup_append] at hnodup
  exact hnodup.2.2 _ (List.mem_map_of_mem (List.mem_of_mem_filter hx)) _ hc rfl

/-- A step that is not up to a client of `silent`. -/
def ServeLabel.Heard (silent : ConnId → Prop) : ServeLabel → Prop
  | .connected c _ | .opened c _ => ¬silent c
  | _ => True

def Serving.ahead (s : Serving) (c : ConnId) : List ConnId := s.waiting.takeWhile (· ≠ c)

variable {silent : ConnId → Prop}

def Serving.Past (s : Serving) (maxScrollback : Nat) (c : ConnId) (rest : List ConnId) : Prop :=
  Reachable (serving maxScrollback) s ∧ s.pc = .accept ∧ s.waiting = rest ∧
    c ∈ s.gateway.accepted

theorem stream_opens (h : Reachable (serving maxScrollback) s) (hpc : s.pc = .acceptBi c)
    (hc : ¬silent c) :
    Leads serveStep (ServeLabel.Heard silent) (·.Past maxScrollback c s.incoming) s := by
  have hfresh : c ∉ s.gateway.accepted :=
    (serving_ordered h).not_accepted (by simp [Serving.waiting, hpc, ServePc.client])
  have hidle := (gateway_sound (serving_gateway h)).wf.idle c hfresh
  have hg : step s.gateway (.accept c) = some
      { s.gateway.setConn c { s.gateway.conns c with pc := .hello } with
        accepted := s.gateway.accepted ++ [c] } := by
    simp [step, State.accept, hidle, Conn.init]
  have hs : serveStep s (.opened c true) = some
      { s with
        gateway := { s.gateway.setConn c { s.gateway.conns c with pc := .hello } with
          accepted := s.gateway.accepted ++ [c] }
        pc := .accept } := by
    simp [serveStep, Serving.opened, hpc, hg]
  refine Leads.step (l := .opened c true) hc hs (Leads.here ⟨h.step trivial hs, rfl, ?_, ?_⟩)
  · simp [Serving.waiting, ServePc.client]
  · simp

theorem handshake_leads (h : Reachable (serving maxScrollback) s) (hpc : s.pc = .handshake c)
    (hc : ¬silent c) :
    Leads serveStep (ServeLabel.Heard silent) (·.Past maxScrollback c s.incoming) s := by
  have hs : serveStep s (.connected c true) = some { s with pc := .acceptBi c } := by
    simp [serveStep, Serving.connected, hpc]
  exact Leads.step (l := .connected c true) hc hs (stream_opens (h.step trivial hs) rfl hc)

theorem front_accepted {rest : List ConnId} (h : Reachable (serving maxScrollback) s)
    (hpc : s.pc ≠ .returned) (hw : s.waiting = c :: rest) (hc : ¬silent c) :
    Leads serveStep (ServeLabel.Heard silent) (·.Past maxScrollback c rest) s := by
  cases hp : s.pc with
  | returned => exact absurd hp hpc
  | acceptBi d =>
    obtain ⟨rfl, rfl⟩ : d = c ∧ s.incoming = rest := by
      simpa [Serving.waiting, hp, ServePc.client] using hw
    exact stream_opens h hp hc
  | handshake d =>
    obtain ⟨rfl, rfl⟩ : d = c ∧ s.incoming = rest := by
      simpa [Serving.waiting, hp, ServePc.client] using hw
    exact handshake_leads h hp hc
  | accept =>
    have hin : s.incoming = c :: rest := by simpa [Serving.waiting, hp, ServePc.client] using hw
    have hs : serveStep s .accept = some { s with pc := .handshake c, incoming := rest } := by
      simp [serveStep, Serving.accept, hp, hin]
    exact Leads.step (l := .accept) trivial hs (handshake_leads (h.step trivial hs) rfl hc)

theorem waiting_accepted (front : List ConnId) {rest : List ConnId}
    (h : Reachable (serving maxScrollback) s) (hpc : s.pc ≠ .returned)
    (hw : s.waiting = front ++ c :: rest) (heard : ∀ d ∈ front ++ [c], ¬silent d) :
    Leads serveStep (ServeLabel.Heard silent) (c ∈ ·.gateway.accepted) s := by
  induction front generalizing s with
  | nil =>
    refine (front_accepted h hpc hw (heard c (by simp))).trans fun t ht => ?_
    exact Leads.here ht.2.2.2
  | cons d front ih =>
    refine (front_accepted h hpc hw (heard d (by simp))).trans fun t ht => ?_
    obtain ⟨ht, htpc, htw, -⟩ := ht
    exact ih ht (by simp [htpc]) htw fun e he => heard e (List.mem_cons_of_mem _ he)

/-- A client that keeps silent stands in the way of `c`. -/
def Serving.Blocked (silent : ConnId → Prop) (c : ConnId) (s : Serving) : Prop :=
  c ∉ s.gateway.accepted ∧
  ∃ front d rest, s.waiting = front ++ d :: rest ∧ silent d ∧ c ∉ front

theorem Serving.Blocked.step {l : ServeLabel} (h : s.Blocked silent c)
    (hl : l.Heard silent) (hs : serveStep s l = some t) : t.Blocked silent c := by
  obtain ⟨hc, front, d, rest, hw, hd, hfront⟩ := h
  have m := serveStep_move hs
  have hshift : ∀ e, s.waiting.head? = some e → ¬silent e → e ≠ c ∧
      ∃ front', s.waiting = e :: (front' ++ d :: rest) ∧ c ∉ front' := by
    intro e he hheard
    cases front with
    | nil =>
      rw [hw] at he
      obtain rfl : d = e := by simpa using he
      exact absurd hd hheard
    | cons f front =>
      rw [hw] at he
      obtain rfl : f = e := by simpa using he
      obtain ⟨hne, hnot⟩ := not_or.mp (mt List.mem_cons.mpr hfront)
      exact ⟨fun h => hne h.symm, front, hw, hnot⟩
  have hcount := m.accepted
  cases m with
  | @arrive e _ _ hg hw' =>
    exact ⟨hg ▸ hc, front, d, rest ++ [e], by rw [hw', hw, List.append_assoc]; rfl, hd, hfront⟩
  | same hg hw' =>
    refine ⟨?_, front, d, rest, hw'.trans hw, hd, hfront⟩
    rcases hg with hg | ⟨k, hk, hk'⟩
    · rwa [hg]
    · rwa [(step_move hk').accepted hk]
  | @failed e l hfail hw' =>
    have hheard : ¬silent e := by rcases hfail with rfl | rfl <;> exact hl
    obtain ⟨-, front', hfront', hnot⟩ := hshift e (by simp [hw']) hheard
    exact ⟨hc, front', d, rest, List.cons.inj (hw'.symm.trans hfront') |>.2, hd, hnot⟩
  | @spawned e gateway hg hw' =>
    obtain ⟨hne, front', hfront', hnot⟩ := hshift e (by simp [hw']) hl
    refine ⟨?_, front', d, rest, ?_, hd, hnot⟩
    · cases step_move hg with
      | accept => simpa [hc] using hne.symm
    · simpa [Serving.waiting, ServePc.client] using
        (List.cons.inj (hw'.symm.trans hfront')).2

/-- A client that waits can be accepted without a word of the silent ones exactly if none of them is
ahead of it: one that keeps its connection and opens no stream holds up all that come after it. -/
theorem served_iff (h : Reachable (serving maxScrollback) s) (hpc : s.pc ≠ .returned)
    (hc : c ∈ s.waiting) :
    Leads serveStep (ServeLabel.Heard silent) (c ∈ ·.gateway.accepted) s ↔
      ¬silent c ∧ ∀ d ∈ s.ahead c, ¬silent d := by
  obtain ⟨front, rest, hw, hfront⟩ := List.eq_append_cons_of_mem hc
  have hahead : s.ahead c = front := by
    have hfirst : ∀ d ∈ front, decide (d ≠ c) = true := fun d hd =>
      decide_eq_true fun he => hfront (he ▸ hd)
    rw [Serving.ahead, hw, List.takeWhile_append_of_pos hfirst]
    simp
  rw [hahead]
  constructor
  · intro leads
    by_contra hblocked
    have hstuck : ∃ d ∈ front ++ [c], silent d := by
      by_contra hnone
      have hall : ∀ d ∈ front ++ [c], ¬silent d := fun d hd hs => hnone ⟨d, hd, hs⟩
      exact hblocked ⟨hall c (by simp), fun d hd => hall d (by simp [hd])⟩
    obtain ⟨d, hd, hsilent⟩ := hstuck
    have hstands : ∃ front' rest', s.waiting = front' ++ d :: rest' ∧ c ∉ front' := by
      rcases List.mem_append.mp hd with hd | hd
      · obtain ⟨front', back, rfl⟩ := List.append_of_mem hd
        exact ⟨front', back ++ c :: rest, by rw [hw]; simp,
          fun hm => hfront (List.mem_append_left _ hm)⟩
      · obtain rfl := List.mem_singleton.mp hd
        exact ⟨front, rest, hw, hfront⟩
    obtain ⟨front', rest', hw', hnot⟩ := hstands
    exact not_leads (I := Serving.Blocked silent c) (fun _ _ _ hb hl hs => hb.step hl hs)
      (fun _ hb => hb.1)
      ⟨(serving_ordered h).not_accepted hc, front', d, rest', hw', hsilent, hnot⟩ leads
  · rintro ⟨hheard, hall⟩
    refine waiting_accepted _ h hpc hw fun d hd => ?_
    rcases List.mem_append.mp hd with hd | hd
    · exact hall d hd
    · rwa [List.mem_singleton.mp hd]

end Runs

def visiting : List ServeLabel :=
  [.arrive 0, .arrive 1, .arrive 2, .accept, .connected 0 true]

theorem visiting_run : ∃ s, Reachable (serving defaultScrollbackBytes) s ∧
    s.pc = .acceptBi 0 ∧ s.incoming = [1, 2] :=
  exists_reachable_of_exec (Serving.init defaultScrollbackBytes) serveStep visiting
    (fun s => s.pc = .acceptBi 0 ∧ s.incoming = [1, 2]) (by decide +kernel)

theorem served_in_order_visiting : ∃ s, Reachable (serving defaultScrollbackBytes) s ∧
    s.pc = .acceptBi 0 ∧ ∃ dealt : List (ConnId × Bool),
      s.arrived = dealt.map Prod.fst ++ [0] ++ [1, 2] ∧
      s.gateway.accepted = (dealt.filter Prod.snd).map Prod.fst := by
  obtain ⟨s, hs, hpc, hin⟩ := visiting_run
  obtain ⟨-, -, ⟨dealt, harrived, haccepted, -⟩, -⟩ := served_in_order hs
  refine ⟨s, hs, hpc, dealt, ?_, haccepted⟩
  rw [harrived, hpc, hin]
  rfl

theorem served_iff_visiting : ∃ s, Reachable (serving defaultScrollbackBytes) s ∧
    s.pc = .acceptBi 0 ∧
    ¬Leads serveStep (ServeLabel.Heard (· = 0)) (1 ∈ ·.gateway.accepted) s ∧
    Leads serveStep (ServeLabel.Heard (· = 1)) (0 ∈ ·.gateway.accepted) s := by
  obtain ⟨s, hs, hpc, hin⟩ := visiting_run
  have hw : s.waiting = [0, 1, 2] := by simp [Serving.waiting, hpc, hin, ServePc.client]
  refine ⟨s, hs, hpc, ?_, ?_⟩
  · rw [served_iff hs (by simp [hpc]) (by simp [hw])]
    simp [Serving.ahead, hw]
  · rw [served_iff hs (by simp [hpc]) (by simp [hw])]
    simp [Serving.ahead, hw]

end TtyGateway
