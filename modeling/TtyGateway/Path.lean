import TtyGateway.Incoming
import TtyGateway.Relay
import TtyGateway.Stream

namespace TtyGateway

open Transition Interleaving Window

/-- The `recv` that returns in this step, and what it comes to. -/
def Label.reading : Label → Option (ConnId × Recv)
  | .recvHello c r | .recvOpen c r | .signRecv c r | .recv c r => some (c, r)
  | _ => none

def ClientFrame.input : ClientFrame → Option SshInput
  | .data bytes => some (.data bytes)
  | .resize cols rows => some (.resize cols.toUInt32 rows.toUInt32)
  | _ => none

/-- The gateway between its clients and the targets: below it the actors and their channels, and of
each control stream the bytes that went out and those that came in. -/
structure Path where
  proxy : Proxy
  stream : ConnId → Bytes
  part : ConnId → Nat
  broken : ConnId → Bool
  lines : ConnId → Line

def Path.init (lim : SshLimits) (maxScrollback : Nat) : Path :=
  ⟨.init lim maxScrollback, fun _ => [], fun _ => 0, fun _ => false, fun _ => .new⟩

def Path.wired (p : Path) : Wired := ⟨p.proxy.gateway, p.stream, p.part, p.broken⟩

inductive PathLabel
  | proxy (l : ProxyLabel)
  | push (c : ConnId) (n : Nat)
  | arrive (c : ConnId) (bytes : Bytes)
  | finish (c : ConnId)
  | lose (c : ConnId) (kept : Nat)

section Step

variable (lim : SshLimits) (text : TransportError → String)

/-- A `recv` returns, with an error as its `text`. -/
def Line.recv (x : Line) (r : Recv) : Option Line :=
  match FramedRecv.poll ClientFrame.codec x.fin x.unread with
  | some (.ok (frame, rest)) =>
    if r = .ok frame then
      some { x with
        taken := x.taken ++ x.unread.take (x.unread.length - rest.length), unread := rest }
    else none
  | some (.error e) => if r = .error (text e) then some x else none
  | none => none

def Path.listen (p : Path) (l : Label) : Option (ConnId → Line) :=
  match l.reading with
  | some (c, r) => ((p.lines c).recv text r).map (Function.update p.lines c)
  | none => some p.lines

def Path.gate (p : Path) (l : Label) : Option Path := do
  let proxy ← proxyStep lim p.proxy (.gateway l)
  let w ← p.wired.step (.gate l)
  let lines ← p.listen text l
  some ⟨proxy, w.stream, w.part, w.broken, lines⟩

/-- More of a stream arrives, it is finished, or it is lost, with what was not read but for the
first `kept` bytes. -/
def Path.setLine (p : Path) (c : ConnId) (f : Line → Line) : Option Path :=
  if (p.lines c).fin = none then
    some { p with lines := Function.update p.lines c (f (p.lines c)) }
  else none

def Path.step (p : Path) : PathLabel → Option Path
  | .proxy (.gateway l) => p.gate lim text l
  | .proxy l => (proxyStep lim p.proxy l).map fun proxy => { p with proxy }
  | .push c n => (p.wired.push c n).map fun w =>
      { p with stream := w.stream, part := w.part, broken := w.broken }
  | .arrive c bytes => p.setLine c fun x => { x with unread := x.unread ++ bytes }
  | .finish c => p.setLine c fun x => { x with fin := some false }
  | .lose c kept => p.setLine c fun x => { x with unread := x.unread.take kept, fin := some true }

end Step

def proxied (ls : List PathLabel) : List ProxyLabel :=
  ls.filterMap fun
    | .proxy l => some l
    | _ => none

def PathLabel.readings (c : ConnId) : PathLabel → List Recv
  | .proxy (.gateway l) => (l.reading.filter (·.1 = c)).toList.map Prod.snd
  | _ => []

def readings (c : ConnId) (ls : List PathLabel) : List Recv := ls.flatMap (PathLabel.readings c)

/-- The handler may still come to a `recv`. -/
def Pc.listening : Pc → Bool
  | .reject _ | .failed | .ending _ | .metering _ | .reporting _ | .deciding _ | .closing
  | .closeWait | .leaving | .done => false
  | _ => true

section Listening

variable {s s' : State} {l : Label} {c : ConnId}

theorem Label.conn_of_reading {r : Recv} (h : l.reading = some (c, r)) : l.conn = some c := by
  cases l <;> simp_all [Label.reading, Label.conn]

theorem Move.listening (m : Move s l s') (h : (s'.conns c).pc.listening = true) :
    (s.conns c).pc.listening = true := by
  by_cases hl : l.conn = some c
  · cases m with
    | actorOutput | actorInput | actorEnd | actorNone | ingest | ingestEnd | tick => cases hl
    | signIgnored | recvIgnored => exact h
    | accept hpc | helloLost hpc | hello hpc | helloRefused _ hpc | authorized hpc | denied hpc
    | resumed hpc | unresumed hpc | openLost hpc | openTarget hpc | openRefused _ hpc
    | loginFailed hpc | signAsked hpc | signSent hpc | signUnsent hpc | signed hpc
    | signRefused _ hpc | loggedIn hpc | slotTaken hpc | slotDenied hpc | helloSent hpc
    | helloUnsent hpc | statusSent hpc | statusUnsent hpc | recvData hpc | recvResize hpc
    | recvPing hpc | recvClose hpc | recvLost hpc | forwarded hpc | unforwarded hpc | ponged hpc
    | unponged hpc =>
      cases hl
      simp [hpc, Pc.listening]
    | rejectSent | rejectUnsent | abort | report | reported | ended | kept | closeCall
    | closeReturned | leave =>
      cases hl
      simp [Pc.listening] at h
    | _ =>
      cases hl
      simpa using h
  · rwa [m.conns_of_ne hl] at h

/-- A handler reads where it listens, and takes what is input in a frame for such, or stops. -/
theorem step_heard {frame : ClientFrame} (hs : step s l = some s')
    (hl : l.reading = some (c, .ok frame)) : (s.conns c).pc.listening = true ∧
      (l.typed c = frame.input.toList ∨ l.typed c = [] ∧ (s'.conns c).pc.listening = false) := by
  cases l with
  | recvHello d r =>
    cases hl
    simp only [step, State.recvHello] at hs
    obtain ⟨hpc, hs⟩ := Option.ite_none_right_eq_some.mp hs
    refine ⟨by simp [hpc, Pc.listening], ?_⟩
    cases frame with
    | hello => exact Or.inl rfl
    | _ =>
      cases hs
      simp [Label.typed, Pc.listening]
  | recvOpen d r =>
    cases hl
    simp only [step, State.recvOpen] at hs
    obtain ⟨hpc, hs⟩ := Option.ite_none_right_eq_some.mp hs
    refine ⟨by simp [hpc, Pc.listening], ?_⟩
    cases frame with
    | openTarget => exact Or.inl rfl
    | _ =>
      cases hs
      simp [Label.typed, Pc.listening]
  | signRecv d r =>
    cases hl
    simp only [step, State.signRecv] at hs
    split at hs
    next id hpc =>
      refine ⟨by simp [hpc, Pc.listening], ?_⟩
      cases frame with
      | signResponse | ping => exact Or.inl rfl
      | _ =>
        cases hs
        simp [Label.typed, Pc.listening]
    next => cases hs
  | recv d r =>
    cases hl
    obtain ⟨hpc, -⟩ := Option.ite_none_right_eq_some.mp hs
    refine ⟨by simp [hpc, Pc.listening], Or.inl ?_⟩
    cases frame <;> simp [Label.typed, ClientFrame.input]
  | _ => cases hl

theorem step_lost {e : String} (hs : step s l = some s') (hl : l.reading = some (c, .error e)) :
    (s.conns c).pc.listening = true ∧ l.typed c = [] ∧ (s'.conns c).pc.listening = false := by
  cases l with
  | recvHello d r =>
    cases hl
    obtain ⟨hpc, hs⟩ := Option.ite_none_right_eq_some.mp hs
    cases hs
    simp [hpc, Pc.listening, Label.typed]
  | recvOpen d r =>
    cases hl
    obtain ⟨hpc, hs⟩ := Option.ite_none_right_eq_some.mp hs
    cases hs
    simp [hpc, Pc.listening, Label.typed]
  | signRecv d r =>
    cases hl
    simp only [step, State.signRecv] at hs
    split at hs
    next id hpc =>
      cases hs
      simp [hpc, Pc.listening, Label.typed]
    next => cases hs
  | recv d r =>
    cases hl
    obtain ⟨hpc, hs⟩ := Option.ite_none_right_eq_some.mp hs
    cases hs
    simp [hpc, Pc.listening, Label.typed]
  | _ => cases hl

theorem Label.typed_of_unread (h : l.reading = none) : l.typed c = [] := by
  cases l <;> simp_all [Label.reading, Label.typed]

end Listening

/-- A `recv` that gives a frame takes the bytes of it; one that fails leaves all as it is. -/
theorem Line.recv_eq_some {text : TransportError → String} {x y : Line} {r : Recv}
    (h : x.recv text r = some y) : y.fin = x.fin ∧ ((∃ frame used, r = .ok frame ∧
      x.unread = used ++ y.unread ∧ y.taken = x.taken ++ used ∧
      ∀ lost more, FramedRecv.recv ClientFrame.codec lost (used ++ more) = .ok (frame, more)) ∨
    ∃ e, r = .error e ∧ y = x) := by
  unfold Line.recv at h
  split at h
  next frame rest hpoll =>
    obtain ⟨hr, hy⟩ := Option.ite_none_right_eq_some.mp h
    cases hy
    obtain ⟨used, hu, hused⟩ := FramedRecv.poll_ok hpoll
    refine ⟨rfl, Or.inl ⟨frame, used, hr, hu, ?_, hused⟩⟩
    simp [hu]
  next e hpoll =>
    obtain ⟨hr, hy⟩ := Option.ite_none_right_eq_some.mp h
    exact ⟨by rw [Option.some.inj hy], Or.inr ⟨_, hr, (Option.some.inj hy).symm⟩⟩
  next => cases h

inductive PathMove (lim : SshLimits) (text : TransportError → String) (p : Path) :
    PathLabel → Path → Prop
  | gate {l proxy w lines} : proxyStep lim p.proxy (.gateway l) = some proxy →
      p.wired.step (.gate l) = some w → p.listen text l = some lines →
      PathMove lim text p (.proxy (.gateway l)) ⟨proxy, w.stream, w.part, w.broken, lines⟩
  | actor {l proxy} : (∀ k, l ≠ .gateway k) → proxyStep lim p.proxy l = some proxy →
      PathMove lim text p (.proxy l) { p with proxy }
  | push {c n w} : p.wired.push c n = some w →
      PathMove lim text p (.push c n) { p with stream := w.stream, part := w.part, broken := w.broken }
  | line {l c x} : (∀ k, l ≠ .proxy k) → x.taken = (p.lines c).taken →
      PathMove lim text p l { p with lines := Function.update p.lines c x }

section Runs

variable {lim : SshLimits} {text : TransportError → String} {maxScrollback : Nat} {p p' : Path}
  {l : PathLabel} {ls : List PathLabel} {c : ConnId}

theorem Path.setLine_eq_some {f : Line → Line} (h : p.setLine c f = some p') :
    p' = { p with lines := Function.update p.lines c (f (p.lines c)) } := by
  obtain ⟨-, he⟩ := Option.ite_none_right_eq_some.mp h
  exact (Option.some.inj he).symm

theorem step_path (h : p.step lim text l = some p') : PathMove lim text p l p' := by
  cases l with
  | proxy l =>
    by_cases hl : ∃ k, l = .gateway k
    · obtain ⟨k, rfl⟩ := hl
      obtain ⟨proxy, hproxy, h⟩ := Option.bind_eq_some_iff.mp h
      obtain ⟨w, hw, h⟩ := Option.bind_eq_some_iff.mp h
      obtain ⟨lines, hlines, h⟩ := Option.bind_eq_some_iff.mp h
      cases h
      exact .gate hproxy hw hlines
    · rw [not_exists] at hl
      have hstep : (proxyStep lim p.proxy l).map (fun proxy => { p with proxy }) = some p' := by
        cases l with
        | gateway k => exact absurd rfl (hl k)
        | _ => exact h
      obtain ⟨proxy, hproxy, rfl⟩ := Option.map_eq_some_iff.mp hstep
      exact .actor hl hproxy
  | push c n =>
    obtain ⟨w, hw, rfl⟩ := Option.map_eq_some_iff.mp h
    exact .push hw
  | arrive c bytes | finish c | lose c kept =>
    rw [Path.step] at h
    obtain rfl := Path.setLine_eq_some h
    exact .line (fun _ => nofun) rfl

theorem Wired.step_actor {w : Wired} {s : State} {l : Label} (ha : l.actor = true)
    (h : TtyGateway.step w.gate l = some s) : w.step (.gate l) = some { w with gate := s } := by
  have hwire : s.wire = w.gate.wire := by
    cases step_move h with
    | actorOutput | actorInput | actorEnd | actorNone => rfl
    | _ => cases ha
  have hunsent : l.unsent = none := by
    cases l <;> first | rfl | cases ha
  simp [Wired.step, h, hwire, hunsent]

theorem ProxyMove.actor_step {s s' : Proxy} {l : ProxyLabel} (m : ProxyMove lim s l s')
    (hl : ∀ k, l ≠ .gateway k) :
    s'.gateway = s.gateway ∨ ∃ k, k.actor = true ∧ step s.gateway k = some s'.gateway := by
  cases m with
  | gateway => exact absurd rfl (hl _)
  | left hg | sent _ hg | taken _ _ _ hg | abandoned hg => exact Or.inr ⟨_, rfl, hg⟩
  | _ => exact Or.inl rfl

theorem PathMove.proxy (m : PathMove lim text p l p')
    (run : exec (proxyStep lim) (.init lim maxScrollback) (proxied ls) = some p.proxy) :
    exec (proxyStep lim) (.init lim maxScrollback) (proxied (ls ++ [l])) = some p'.proxy := by
  rw [proxied, List.filterMap_append]
  cases m with
  | gate hproxy => exact exec_concat run hproxy
  | actor _ hproxy => exact exec_concat run hproxy
  | push => simpa [proxied] using run
  | line hl =>
    cases l with
    | proxy k => exact absurd rfl (hl k)
    | _ => simpa [proxied] using run

theorem PathMove.wired (m : PathMove lim text p l p')
    (h : Reachable (TtyGateway.wired maxScrollback) p.wired) :
    Reachable (TtyGateway.wired maxScrollback) p'.wired := by
  cases m with
  | @gate k proxy w lines hproxy hw =>
    obtain ⟨-, g, hg, rfl⟩ := proxyStep_gateway hproxy
    obtain ⟨s, hs, hsends⟩ := Wired.step_gate hw
    obtain rfl := Option.some.inj (hg.symm.trans hs)
    have hgate : w.gate = g := by
      rcases hsends with ⟨sent, -, hcomplete⟩ | ⟨-, ⟨d, -, rfl⟩ | ⟨-, rfl⟩⟩
      · exact Wired.complete_gate hcomplete
      · exact Wired.fail_gate _ _ _
      · rfl
    have hwired : (⟨g, w.stream, w.part, w.broken⟩ : Wired) = w := by rw [← hgate]
    rw [Path.wired, hwired]
    exact h.step trivial hw
  | actor hl hproxy =>
    rcases (proxyStep_move hproxy).actor_step hl with he | ⟨k, ha, hk⟩
    · simpa [Path.wired, he] using h
    · exact h.step trivial (Wired.step_actor ha hk)
  | @push c n w hw =>
    have hwired : (⟨p.proxy.gateway, w.stream, w.part, w.broken⟩ : Wired) = w := by
      rw [← show w.gate = p.proxy.gateway from Wired.push_gate hw]
    rw [Path.wired, hwired]
    have hstep : p.wired.step (.push c n) = some w := hw
    exact Reach.step h trivial hstep
  | line => exact h

/-- What the handler of connection `c` has read: frames, and perhaps an error, after which it reads
no more. What of them is input it has taken, unless it has stopped. -/
structure Path.Listened (p : Path) (c : ConnId) (ls : List PathLabel) (frames : List ClientFrame)
    (errors : List String) : Prop where
  all : readings c ls = frames.map .ok ++ errors.map .error
  spelled : Spells ClientFrame.codec frames (p.lines c).taken
  once : errors.length ≤ 1
  stopped : errors ≠ [] → (p.proxy.gateway.conns c).pc.listening = false
  heard : typed c (proxied ls) <+: frames.filterMap ClientFrame.input
  taking : (p.proxy.gateway.conns c).pc.listening = true →
    typed c (proxied ls) = frames.filterMap ClientFrame.input

variable {frames : List ClientFrame} {errors : List String}

theorem readings_concat : readings c (ls ++ [l]) = readings c ls ++ l.readings c := by
  simp [readings]

theorem typed_proxied : typed c (proxied (ls ++ [l])) =
    typed c (proxied ls) ++ typed c (proxied [l]) := by
  simp [proxied, typed]

theorem Path.Listened.same (h : p.Listened c ls frames errors) (quiet : l.readings c = [])
    (untyped : typed c (proxied [l]) = []) (taken : (p'.lines c).taken = (p.lines c).taken)
    (listening : (p'.proxy.gateway.conns c).pc.listening = true →
      (p.proxy.gateway.conns c).pc.listening = true) :
    p'.Listened c (ls ++ [l]) frames errors := by
  have htyped : typed c (proxied (ls ++ [l])) = typed c (proxied ls) := by
    rw [typed_proxied, untyped, List.append_nil]
  refine ⟨?_, taken ▸ h.spelled, h.once, fun he => ?_, htyped ▸ h.heard, fun hl => ?_⟩
  · rw [readings_concat, quiet, List.append_nil]
    exact h.all
  · by_contra hl
    have hstopped := h.stopped he
    rw [listening (by simpa using hl)] at hstopped
    cases hstopped
  · rw [htyped]
    exact h.taking (listening hl)

theorem Path.Listened.unfailed (h : p.Listened c ls frames errors)
    (hl : (p.proxy.gateway.conns c).pc.listening = true) : errors = [] := by
  by_contra he
  simp [h.stopped he] at hl

theorem PathMove.listened (m : PathMove lim text p l p') (h : p.Listened c ls frames errors) :
    ∃ frames errors, p'.Listened c (ls ++ [l]) frames errors := by
  cases m with
  | @gate k proxy w lines hproxy hw hlines =>
    obtain ⟨-, g, hg, rfl⟩ := proxyStep_gateway hproxy
    have hlistening := fun d => (step_move hg).listening (c := d)
    have htyped : typed c (proxied [.proxy (.gateway k)]) = k.typed c := by
      simp [proxied, typed, ProxyLabel.typed]
    rw [Path.listen] at hlines
    cases hr : k.reading with
    | none =>
      simp only [hr, Option.some.injEq] at hlines
      subst hlines
      refine ⟨_, _, h.same ?_ ?_ rfl (hlistening c)⟩
      · simp [PathLabel.readings, hr]
      · rw [htyped, Label.typed_of_unread hr]
    | some found =>
      obtain ⟨d, r⟩ := found
      simp only [hr] at hlines
      obtain ⟨y, hy, rfl⟩ := Option.map_eq_some_iff.mp hlines
      by_cases hd : d = c
      · subst hd
        have hreads : PathLabel.readings d (.proxy (.gateway k)) = [r] := by
          simp [PathLabel.readings, hr]
        obtain ⟨-, ⟨frame, used, rfl, -, htaken, hused⟩ | ⟨e, rfl, rfl⟩⟩ := Line.recv_eq_some hy
        · obtain ⟨hlistens, hinput⟩ := step_heard hg hr
          have hheard := h.taking hlistens
          obtain rfl := h.unfailed hlistens
          have hone : [frame].filterMap ClientFrame.input = frame.input.toList := by
            cases hframe : frame.input <;> simp [hframe]
          refine ⟨frames ++ [frame], [], ?_, ?_, Nat.zero_le 1, absurd rfl, ?_, fun hl => ?_⟩
          · rw [readings_concat, hreads, h.all]
            simp
          · simp only [Function.update_self, htaken]
            exact h.spelled.concat hused
          · rw [typed_proxied, htyped, hheard, List.filterMap_append,
              List.prefix_append_right_inj]
            rcases hinput with he | ⟨he, -⟩
            · rw [he, hone]
            · rw [he]
              exact List.nil_prefix
          · rw [typed_proxied, htyped, hheard, List.filterMap_append]
            rcases hinput with he | ⟨-, hstop⟩
            · rw [he, hone]
            · simp [hstop] at hl
        · obtain ⟨hlistens, hinput, hstop⟩ := step_lost hg hr
          have hheard := h.taking hlistens
          obtain rfl := h.unfailed hlistens
          refine ⟨frames, [e], ?_, ?_, Nat.le_refl 1, fun _ => hstop, ?_, fun hl => ?_⟩
          · rw [readings_concat, hreads, h.all]
            simp
          · simp only [Function.update_self]
            exact h.spelled
          · rw [typed_proxied, htyped, hinput, List.append_nil]
            exact h.heard
          · simp [hstop] at hl
      · refine ⟨_, _, h.same ?_ ?_ ?_ (hlistening c)⟩
        · simp [PathLabel.readings, hr, hd]
        · rw [htyped, Label.typed_of_ne]
          rw [Label.conn_of_reading hr]
          simpa using hd
        · simp only [Function.update_of_ne (Ne.symm hd)]
  | @actor k proxy hl hproxy =>
    refine ⟨_, _, h.same ?_ ?_ rfl ?_⟩
    · cases k with
      | gateway k => exact absurd rfl (hl k)
      | _ => rfl
    · cases k with
      | gateway k => exact absurd rfl (hl k)
      | _ => rfl
    · rw [(proxyStep_move hproxy).conns hl]
      exact id
  | push => exact ⟨_, _, h.same rfl rfl rfl id⟩
  | @line _ d x hl htaken =>
    refine ⟨_, _, h.same ?_ ?_ ?_ id⟩
    · cases l with
      | proxy k => exact absurd rfl (hl k)
      | _ => rfl
    · cases l with
      | proxy k => exact absurd rfl (hl k)
      | _ => rfl
    · by_cases hd : c = d
      · subst hd
        simp only [Function.update_self, htaken]
      · simp only [Function.update_of_ne hd]

theorem exec_path (run : exec (Path.step lim text) (.init lim maxScrollback) ls = some p) :
    exec (proxyStep lim) (.init lim maxScrollback) (proxied ls) = some p.proxy ∧
    Reachable (TtyGateway.wired maxScrollback) p.wired ∧
    ∀ c, ∃ frames errors, p.Listened c ls frames errors := by
  refine exec_trace (P := fun ls p =>
    exec (proxyStep lim) (.init lim maxScrollback) (proxied ls) = some p.proxy ∧
    Reachable (TtyGateway.wired maxScrollback) p.wired ∧
    ∀ c, ∃ frames errors, p.Listened c ls frames errors) ?_ ?_ run
  · refine ⟨rfl, .init, fun c => ⟨[], [], rfl, .nil, Nat.zero_le 1, absurd rfl, ?_, fun _ => rfl⟩⟩
    exact List.prefix_rfl
  · rintro ms t l t' ⟨hproxy, hwired, hlistened⟩ hs
    have m := step_path hs
    refine ⟨m.proxy hproxy, m.wired hwired, fun c => ?_⟩
    obtain ⟨frames, errors, h⟩ := hlistened c
    exact m.listened h

/-- The results of a connection's `recv`s, in order: the frames that come of all the bytes that
arrived, from the first on, none left out or read twice, and at most one error, the last. If the
client sent its frames by `send`, they are the first of those. -/
theorem readings_in_order (run : exec (Path.step lim text) (.init lim maxScrollback) ls = some p)
    (c : ConnId) : ∃ (frames : List ClientFrame) (errors : List String),
      readings c ls = frames.map .ok ++ errors.map .error ∧ errors.length ≤ 1 ∧
      (∀ lost, frames <+: (recvAll ClientFrame.codec lost (p.lines c).arrived).1) ∧
      ∀ sent out, encodeStream ClientFrame.codec sent = .ok out → (p.lines c).arrived <+: out →
        frames <+: sent := by
  obtain ⟨frames, errors, h⟩ := (exec_path run).2.2 c
  refine ⟨frames, errors, h.all, h.once, fun lost => ?_, fun sent out hsent hout => ?_⟩
  · rw [Line.arrived, h.spelled]
    exact List.prefix_append _ _
  · exact h.spelled.prefix_sent hsent ((List.prefix_append _ _).trans hout)

/-- What an actor does to its channel is what the clients of its session have sent as input, each
in its order, nothing twice and nothing left out. -/
theorem input_end_to_end (run : exec (Path.step lim text) (.init lim maxScrollback) ls = some p)
    (i : SessionId) : ∃ parts merged, Interleaves parts merged ∧
      (p.proxy.shells i).applied <+: merged ∧
      ∀ c, (parts c ≠ [] → (p.proxy.gateway.conns c).belongs i = true) ∧
        ∀ sent out, encodeStream ClientFrame.codec sent = .ok out →
          (p.lines c).arrived <+: out → parts c <+: sent.filterMap ClientFrame.input := by
  obtain ⟨hproxy, -, hlistened⟩ := exec_path run
  obtain ⟨offered, merged, typing, interleaves, entered⟩ := exec_ordered hproxy i
  refine ⟨offered, merged, interleaves, (List.prefix_append _ _).trans entered.begun,
    fun c => ⟨fun hne => ?_, fun sent out hsent hout => ?_⟩⟩
  · by_contra hb
    have held := typing.held c
    rw [Proxy.typed, if_neg hb] at held
    exact hne (List.append_eq_nil_iff.mp held.symm).1
  · obtain ⟨frames, errors, h⟩ := hlistened c
    have hframes := h.spelled.prefix_sent hsent ((List.prefix_append _ _).trans hout)
    have hoffered : offered c <+: typed c (proxied ls) := by
      have hheld : offered c <+: p.proxy.typed i (proxied ls) c :=
        typing.held c ▸ List.prefix_append _ _
      refine hheld.trans ?_
      rw [Proxy.typed]
      split
      · exact List.prefix_rfl
      · exact List.nil_prefix
    exact hoffered.trans (h.heard.trans (hframes.filterMap _))

theorem State.frames_output (s : State) (c : ConnId) :
    (s.frames c).filterMap ServerFrame.output = s.completed c := by
  rw [State.frames, State.completed, List.filterMap_filterMap]
  congr 1
  funext sent
  by_cases hc : sent.conn = c <;> simp [Sent.frameTo, Sent.outputTo, hc]

/-- The peer reads the frames that were completed, and then comes to no other. -/
theorem Wired.Carries.received {w : Wired} (h : w.Carries c) (lost : Bool) :
    (recvAll ServerFrame.codec lost (w.stream c)).1 = w.gate.frames c := by
  obtain ⟨whole, rest, hwhole, hstream, hrest⟩ := h
  obtain ⟨e, he⟩ : ∃ e, FramedRecv.recv ServerFrame.codec lost rest = .error (.read e) := by
    rcases hrest with ⟨rfl, -⟩ | ⟨frame, framed, hf, hlt, rfl, -⟩
    · exact FramedRecv.recv_nil
    · refine FramedRecv.recv_begun ⟨framed, hf, List.take_prefix _ _, fun heq => ?_⟩
      have hlen := congrArg List.length heq
      rw [List.length_take] at hlen
      omega
  rw [hstream, recvAll_encodeStream hwhole, recvAll_error he, List.append_nil]

theorem produced_arrived {ls : List ProxyLabel} {s : Proxy}
    (run : exec (proxyStep lim) (.init lim maxScrollback) ls = some s) {i : SessionId}
    {ses : Session} (hi : s.gateway.sessions i = some ses) :
    ses.produced <+: outputs (upToEnd (arrived lim maxScrollback i ls)) := by
  have haccounted := exec_accounted run i
  simp only [Proxy.Accounted, hi] at haccounted
  obtain ⟨passed, rest, he, hpassed⟩ := haccounted
  rw [he, upToEnd_passed hpassed.open_, outputs_append, ← hpassed.flow]
  simp only [List.append_assoc]
  exact List.prefix_append _ _

/-- What a client gets of the output, from whatever has come through of its stream: pieces of what
the target has sent, in order, none twice, and with nothing missing in front of them or between but
what the scrollback has trimmed. -/
theorem output_end_to_end (run : exec (Path.step lim text) (.init lim maxScrollback) ls = some p)
    {session : SessionRef} (hs : (p.proxy.gateway.conns c).session = some session) {got : Bytes}
    (hgot : got <+: p.stream c) (lost : Bool) : ∃ ses pieces,
      p.proxy.gateway.sessions session.id = some ses ∧
      (recvAll ServerFrame.codec lost got).1.filterMap ServerFrame.output = pieces.map Prod.snd ∧
      Pieces (outputs (upToEnd (arrived lim maxScrollback session.id (proxied ls))))
        (ses.produced.length - maxScrollback) (lastEnd pieces) pieces := by
  obtain ⟨hproxy, hwired, -⟩ := exec_path run
  have hgate : Reachable (gateway maxScrollback) p.proxy.gateway := wired_gateway hwired
  obtain ⟨delivers, hmax⟩ := gateway_delivers hgate
  obtain ⟨ses, hi⟩ := (gateway_sound hgate).wf.session_known hs
  obtain ⟨hholds, hbytes⟩ := delivers.buffered _ _ hi
  have hstart := hholds.start_eq
  rw [hbytes, hmax] at hstart
  -- what has come through is the beginning of what was taken from the reader
  obtain ⟨more, hmore⟩ := hgot
  have hall : (recvAll ServerFrame.codec lost (p.stream c)).1 = p.proxy.gateway.frames c :=
    (wired_carries hwired c).received lost
  have hframes : (recvAll ServerFrame.codec lost got).1 <+: p.proxy.gateway.frames c := by
    rw [← hall, ← hmore]
    exact recvAll_append lost lost got more
  obtain ⟨rest, hyielded, -⟩ := delivers.accounts c
  have hpayloads : (recvAll ServerFrame.codec lost got).1.filterMap ServerFrame.output <+:
      (p.proxy.gateway.conns c).yielded.map Prod.snd := by
    rw [← hyielded, ← State.frames_output]
    exact (hframes.filterMap _).trans (List.prefix_append _ _)
  obtain ⟨pieces, ⟨later, hsplit⟩, hpieces⟩ := List.prefix_map_iff.mp hpayloads
  have hyields := (delivers.tracks c).pieces session ses hs hi
  rw [← hsplit, hstart] at hyields
  obtain ⟨unread, hunread⟩ := produced_arrived hproxy hi
  exact ⟨ses, pieces, hi, hpieces, hunread ▸ hyields.first.append unread⟩

end Runs

def typing : List ClientFrame :=
  [.hello protocolVersion "client" none none,
    .openTarget ⟨"target", 22, "user"⟩ (.password "secret") 80 24, .data [97]]

/-- The client logs in and its letter goes to the target, which answers. -/
def answering : List ProxyLabel :=
  (opening 0 none .unlimited 5 [1] ++ [.recv 0 (.ok (.data [97])), .forward 0] : List Label).map
      .gateway ++
    [.top 5, .take 5, .write 5 1, .written 5, .produce 5 (.data [98, 99]), .deliver 5, .top 5,
      .wait 5, .send 5] ++
    ([.ingest 5, .pollReader 0, .throttle 0, .addOut 0, .written 0 true] : List Label).map .gateway

/-- The same with the bytes, which arrive in two parts. -/
def conversing : List PathLabel :=
  let bytes := (encodeStream ClientFrame.codec typing).toOption.getD []
  [.arrive 0 (bytes.take 20), .arrive 0 (bytes.drop 20)] ++ answering.map .proxy

theorem conversing_run : ∃ p, exec (Path.step .narrow fun _ => "")
      (.init .narrow defaultScrollbackBytes) conversing = some p ∧
    (readings 0 conversing = typing.map .ok ∧ (p.proxy.shells 5).applied = [.data [97]]) ∧
    (p.proxy.gateway.conns 0).session = some ⟨5, [1]⟩ ∧
    encodeStream ClientFrame.codec typing = .ok (p.lines 0).arrived :=
  exists_exec (by decide +kernel)

theorem readings_in_order_answered : ∃ p, exec (Path.step .narrow fun _ => "")
      (.init .narrow defaultScrollbackBytes) conversing = some p ∧
    ∃ (frames : List ClientFrame) (errors : List String),
      readings 0 conversing = frames.map .ok ++ errors.map .error ∧ frames <+: typing := by
  obtain ⟨p, run, -, -, harrived⟩ := conversing_run
  obtain ⟨frames, errors, hall, -, -, hsent⟩ := readings_in_order run 0
  exact ⟨p, run, frames, errors, hall, hsent typing _ harrived List.prefix_rfl⟩

theorem input_end_to_end_answered : ∃ p, exec (Path.step .narrow fun _ => "")
      (.init .narrow defaultScrollbackBytes) conversing = some p ∧
    (p.proxy.shells 5).applied = [.data [97]] ∧
    ∃ parts merged, Interleaves parts merged ∧ (p.proxy.shells 5).applied <+: merged ∧
      parts (0 : ConnId) <+: [.data [97]] := by
  obtain ⟨p, run, ⟨-, happlied⟩, -, harrived⟩ := conversing_run
  obtain ⟨parts, merged, hmerged, hprefix, hparts⟩ := input_end_to_end run 5
  exact ⟨p, run, happlied, parts, merged, hmerged, hprefix,
    (hparts 0).2 typing _ harrived List.prefix_rfl⟩

theorem output_end_to_end_answered : ∃ p, exec (Path.step .narrow fun _ => "")
      (.init .narrow defaultScrollbackBytes) conversing = some p ∧
    ∃ pieces : List (Nat × Bytes),
      (recvAll ServerFrame.codec false (p.stream 0)).1.filterMap ServerFrame.output =
        pieces.map Prod.snd := by
  obtain ⟨p, run, -, hsession, -⟩ := conversing_run
  obtain ⟨ses, pieces, -, hpieces, -⟩ := output_end_to_end run hsession List.prefix_rfl false
  exact ⟨p, run, pieces, hpieces⟩

end TtyGateway
