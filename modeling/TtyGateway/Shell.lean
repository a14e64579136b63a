import TtyGateway.Moves
import Mathlib.Algebra.Order.Field.Basic

namespace TtyGateway

open Transition

/-- What russh puts into a channel's queue. A `windowAdjusted` says by how much the window grew. -/
inductive ChannelMsg
  | data (bytes : Bytes)
  | extendedData (bytes : Bytes)
  | windowAdjusted (n : Nat)
  | eof
  | close
  | other
  deriving DecidableEq

def ChannelMsg.output : ChannelMsg → Option Bytes
  | .data bytes | .extendedData bytes => some bytes
  | _ => none

/-- The messages at which the actor leaves its loop. -/
def ChannelMsg.ends : ChannelMsg → Bool
  | .eof | .close => true
  | _ => false

def ChannelMsg.grant : ChannelMsg → Nat
  | .windowAdjusted n => n
  | _ => 0

/-- How many messages fit in a channel's queue and on the way from the target to the gateway, and
the window a channel starts with. `queue` counts the message in the hands of russh's connection task
as well: it enlarges the window by a grant before it waits for room. On the way from an actor to
that task there is room for all that the actor hands over. -/
structure SshLimits where
  queue : Nat
  link : Nat
  window : Nat
  queue_pos : 0 < queue
  link_pos : 0 < link

/-- A queue of a hundred messages and one in hand, and a target that takes one byte and keeps one
message. -/
def SshLimits.narrow : SshLimits := ⟨101, 1, 1, by decide, by decide⟩

/-- Where an actor stands: at the top of its loop, in its `select!`, or in a branch of it with
output to send or input to write. -/
inductive ActorPc
  | top
  | select
  | send (bytes : Bytes)
  | write (rest : Bytes)
  deriving DecidableEq

/-- The channel is open, the target has ended it, or the connection to the target is gone. -/
inductive ChannelStage
  | open
  | ended
  | lost
  deriving DecidableEq

/-- An actor and its channel: the window left for writing, the channel's queue, what is on its way
into it, and what was written and not yet read by the target. `applied` is history, the writes
begun and the window changes made, in order. -/
structure Shell where
  pc : ActorPc
  pendingResize : Option (UInt32 × UInt32)
  window : Nat
  queue : List ChannelMsg
  link : List ChannelMsg
  inbox : Bytes
  stage : ChannelStage
  applied : List SshInput
  deriving DecidableEq

def Shell.spawn (lim : SshLimits) : Shell := ⟨.top, none, lim.window, [], [], [], .open, []⟩

/-- The top of the loop: a resize that is pending is applied. -/
def Shell.resize (x : Shell) : Shell :=
  match x.pendingResize with
  | some (cols, rows) =>
    { x with pc := .select, pendingResize := none, applied := x.applied ++ [.resize cols rows] }
  | none => { x with pc := .select }

/-- The branch of `channel.wait()`, for a message that does not end the loop. -/
def Shell.receive (x : Shell) (msg : ChannelMsg) : Shell :=
  match msg.output with
  | some bytes => { x with pc := .send bytes }
  | none => { x with pc := .top }

/-- The branch of `input_rx.recv()`, for a command. -/
def Shell.begin (x : Shell) : SshInput → Shell
  | .data bytes => { x with pc := .write bytes, applied := x.applied ++ [.data bytes] }
  | .resize cols rows => { x with pc := .top, pendingResize := some (cols, rows) }

/-- `write_all` hands over the first `n` of the bytes it has left. -/
def Shell.hand (x : Shell) (rest : Bytes) (n : Nat) : Shell :=
  { x with
    pc := .write (rest.drop n), window := x.window - n, inbox := x.inbox ++ rest.take n }

/-- The connection task puts the first message on its way into the queue. -/
def Shell.put (x : Shell) (msg : ChannelMsg) (rest : List ChannelMsg) : Shell :=
  { x with window := x.window + msg.grant, queue := x.queue ++ [msg], link := rest }

/-- The gateway with the actor and the channel of every session. -/
structure Proxy where
  gateway : State
  shells : SessionId → Shell

def Proxy.init (lim : SshLimits) (maxScrollback : Nat) : Proxy :=
  ⟨.init maxScrollback, fun _ => .spawn lim⟩

def Proxy.setShell (s : Proxy) (i : SessionId) (x : Shell) : Proxy :=
  { s with shells := Function.update s.shells i x }

inductive ProxyLabel
  | gateway (l : Label)
  | top (i : SessionId)
  | wait (i : SessionId)
  | send (i : SessionId)
  | take (i : SessionId)
  | write (i : SessionId) (n : Nat)
  | written (i : SessionId)
  | writeFailed (i : SessionId)
  | deliver (i : SessionId)
  | read (i : SessionId) (n : Nat)
  | produce (i : SessionId) (msg : ChannelMsg)
  | hangup (i : SessionId) (msg : ChannelMsg)
  | lose (i : SessionId)

def Label.actor : Label → Bool
  | .actorOutput _ _ | .actorInput _ | .actorEnd _ | .actorNone _ => true
  | _ => false

section Actor

variable (s : Proxy) (i : SessionId)

def Proxy.run (l : Label) : Option Proxy :=
  if l.actor then none else (step s.gateway l).map fun g => { s with gateway := g }

def Proxy.top : Option Proxy := do
  let x := s.shells i
  let ses ← s.gateway.sessions i
  if ses.actor ∧ x.pc = .top then some (s.setShell i x.resize) else none

def Proxy.leaveLoop (x : Shell) : Option Proxy :=
  (step s.gateway (.actorEnd i)).map fun g => { s with gateway := g }.setShell i x

def Proxy.wait : Option Proxy := do
  let x := s.shells i
  let ses ← s.gateway.sessions i
  if ses.actor ∧ x.pc = .select then
    match x.queue with
    | msg :: rest =>
      let x := { x with queue := rest }
      if msg.ends then s.leaveLoop i x else some (s.setShell i (x.receive msg))
    | [] => if x.stage = .lost then s.leaveLoop i x else none
  else none

/-- `output_tx.send`, which waits for room. -/
def Proxy.send : Option Proxy :=
  let x := s.shells i
  match x.pc with
  | .send bytes => (step s.gateway (.actorOutput i bytes)).map fun g =>
      { s with gateway := g }.setShell i { x with pc := .top }
  | _ => none

def Proxy.take : Option Proxy := do
  let x := s.shells i
  let ses ← s.gateway.sessions i
  if x.pc = .select then
    match ses.input with
    | command :: _ => (step s.gateway (.actorInput i)).map fun g =>
        { s with gateway := g }.setShell i (x.begin command)
    | [] => (step s.gateway (.actorNone i)).map fun g => { s with gateway := g }
  else none

/-- `write_all` hands `n` more bytes over, as the window allows. -/
def Proxy.write (n : Nat) : Option Proxy := do
  let x := s.shells i
  let ses ← s.gateway.sessions i
  match x.pc with
  | .write rest =>
    if ses.actor ∧ x.stage ≠ .lost ∧ 0 < n ∧ n ≤ rest.length ∧ n ≤ x.window then
      some (s.setShell i (x.hand rest n))
    else none
  | _ => none

/-- `write_all` and the `flush` after it return. -/
def Proxy.written : Option Proxy := do
  let x := s.shells i
  let ses ← s.gateway.sessions i
  if ses.actor ∧ x.pc = .write [] then some (s.setShell i { x with pc := .top }) else none

/-- `write_all` hands bytes over and finds the connection gone. While it has no window it waits for
some, and is not told. -/
def Proxy.writeFailed : Option Proxy :=
  let x := s.shells i
  match x.pc with
  | .write rest =>
    if rest ≠ [] ∧ x.stage = .lost ∧ 0 < x.window then s.leaveLoop i x else none
  | _ => none

end Actor

section Network

variable (lim : SshLimits) (s : Proxy) (i : SessionId)

/-- russh's connection task takes the next message that has arrived and puts it into the channel's
queue; while that is full it waits. -/
def Proxy.deliver : Option Proxy := do
  let x := s.shells i
  let _ ← s.gateway.sessions i
  match x.link with
  | msg :: rest =>
    if x.stage ≠ .lost ∧ x.queue.length < lim.queue then
      some (s.setShell i (x.put msg rest))
    else none
  | [] => none

/-- The target sends a message, while there is room for its output. -/
def Proxy.emit (msg : ChannelMsg) (f : Shell → Shell) : Option Proxy := do
  let x := s.shells i
  let _ ← s.gateway.sessions i
  if x.stage = .open ∧ x.link.length < lim.link then
    some (s.setShell i (f { x with link := x.link ++ [msg] }))
  else none

/-- The target reads input, and grants as much window. -/
def Proxy.read (n : Nat) : Option Proxy :=
  if 0 < n ∧ n ≤ (s.shells i).inbox.length then
    s.emit lim i (.windowAdjusted n) fun x => { x with inbox := x.inbox.drop n }
  else none

def Proxy.produce (msg : ChannelMsg) : Option Proxy :=
  if msg.ends = false ∧ msg.grant = 0 then s.emit lim i msg id else none

def Proxy.hangup (msg : ChannelMsg) : Option Proxy :=
  if msg.ends then s.emit lim i msg fun x => { x with stage := .ended } else none

def Proxy.lose : Option Proxy := do
  let _ ← s.gateway.sessions i
  some (s.setShell i { s.shells i with stage := .lost, link := [] })

end Network

def proxyStep (lim : SshLimits) (s : Proxy) : ProxyLabel → Option Proxy
  | .gateway l => s.run l
  | .top i => s.top i
  | .wait i => s.wait i
  | .send i => s.send i
  | .take i => s.take i
  | .write i n => s.write i n
  | .written i => s.written i
  | .writeFailed i => s.writeFailed i
  | .deliver i => s.deliver lim i
  | .read i n => s.read lim i n
  | .produce i msg => s.produce lim i msg
  | .hangup i msg => s.hangup lim i msg
  | .lose i => s.lose i

def proxy (lim : SshLimits) (maxScrollback : Nat) : System Proxy ProxyLabel :=
  machine (.init lim maxScrollback) (proxyStep lim)

theorem Proxy.setShell_shells (s : Proxy) (i j : SessionId) (x : Shell) :
    (s.setShell i x).shells j = if j = i then x else s.shells j := by
  simp [Proxy.setShell, Function.update_apply]

@[simp] theorem Proxy.setShell_self (s : Proxy) (i : SessionId) (x : Shell) :
    (s.setShell i x).shells i = x := by
  simp [Proxy.setShell_shells]

@[simp] theorem Proxy.setShell_gateway (s : Proxy) (i : SessionId) (x : Shell) :
    (s.setShell i x).gateway = s.gateway := rfl

/-- What one step can do to the gateway and the actor or channel it is about. -/
inductive ProxyMove (lim : SshLimits) (s : Proxy) : ProxyLabel → Proxy → Prop
  | gateway {l g} : l.actor = false → step s.gateway l = some g →
      ProxyMove lim s (.gateway l) { s with gateway := g }
  | top {i ses} : s.gateway.sessions i = some ses → ses.actor = true → (s.shells i).pc = .top →
      ProxyMove lim s (.top i) (s.setShell i (s.shells i).resize)
  | received {i ses msg rest} : s.gateway.sessions i = some ses → ses.actor = true →
      (s.shells i).pc = .select → (s.shells i).queue = msg :: rest → msg.ends = false →
      ProxyMove lim s (.wait i) (s.setShell i (Shell.receive { s.shells i with queue := rest } msg))
  | left {i l g x} : step s.gateway (.actorEnd i) = some g → x.applied = (s.shells i).applied →
      (l = .wait i ∧ (s.shells i).pc = .select ∧ x.pc = .select ∨
        l = .writeFailed i ∧ ((s.shells i).stage = .lost ∧ 0 < (s.shells i).window) ∧
          x = s.shells i) →
      x.stage = (s.shells i).stage → x.link = (s.shells i).link →
      ProxyMove lim s l ({ s with gateway := g }.setShell i x)
  | sent {i bytes g} : (s.shells i).pc = .send bytes →
      step s.gateway (.actorOutput i bytes) = some g →
      ProxyMove lim s (.send i)
        ({ s with gateway := g }.setShell i { s.shells i with pc := .top })
  | taken {i ses command rest g} : s.gateway.sessions i = some ses →
      (s.shells i).pc = .select → ses.input = command :: rest →
      step s.gateway (.actorInput i) = some g →
      ProxyMove lim s (.take i)
        ({ s with gateway := g }.setShell i ((s.shells i).begin command))
  | abandoned {i g} : step s.gateway (.actorNone i) = some g →
      ProxyMove lim s (.take i) { s with gateway := g }
  | wrote {i ses rest n} : s.gateway.sessions i = some ses → ses.actor = true →
      (s.shells i).pc = .write rest → n ≤ rest.length → n ≤ (s.shells i).window →
      (s.shells i).stage ≠ .lost →
      ProxyMove lim s (.write i n) (s.setShell i ((s.shells i).hand rest n))
  | written {i ses} : s.gateway.sessions i = some ses → ses.actor = true →
      (s.shells i).pc = .write [] →
      ProxyMove lim s (.written i) (s.setShell i { s.shells i with pc := .top })
  | delivered {i msg rest} : (s.shells i).link = msg :: rest →
      (s.shells i).queue.length < lim.queue → (s.shells i).stage ≠ .lost →
      ProxyMove lim s (.deliver i) (s.setShell i ((s.shells i).put msg rest))
  | emitted {i l x} (msg : ChannelMsg) :
      (∃ n, l = .read i n) ∨ l = .produce i msg ∨ l = .hangup i msg →
      x.pc = (s.shells i).pc → x.window = (s.shells i).window →
      x.queue = (s.shells i).queue → x.link = (s.shells i).link ++ [msg] →
      (s.shells i).stage = .open → x.stage ≠ .lost →
      ProxyMove lim s l (s.setShell i x)
  | lost {i} :
      ProxyMove lim s (.lose i) (s.setShell i { s.shells i with stage := .lost, link := [] })

section Inversion

variable {lim : SshLimits} {s s' : Proxy} {i : SessionId}

theorem wait_move (h : s.wait i = some s') : ProxyMove lim s (.wait i) s' := by
  obtain ⟨ses, hses, h⟩ := Option.bind_eq_some_iff.mp h
  obtain ⟨⟨ha, hpc⟩, h⟩ := Option.ite_none_right_eq_some.mp h
  split at h
  next msg rest hq =>
    split at h
    next hends =>
      obtain ⟨g, hg, rfl⟩ := Option.map_eq_some_iff.mp h
      exact .left hg rfl (Or.inl ⟨rfl, hpc, hpc⟩) rfl rfl
    next hends =>
      cases h
      exact .received hses ha hpc hq (by simpa using hends)
  next hq =>
    obtain ⟨-, h⟩ := Option.ite_none_right_eq_some.mp h
    obtain ⟨g, hg, rfl⟩ := Option.map_eq_some_iff.mp h
    exact .left hg rfl (Or.inl ⟨rfl, hpc, hpc⟩) rfl rfl

theorem take_move (h : s.take i = some s') : ProxyMove lim s (.take i) s' := by
  obtain ⟨ses, hses, h⟩ := Option.bind_eq_some_iff.mp h
  obtain ⟨hpc, h⟩ := Option.ite_none_right_eq_some.mp h
  split at h
  next command rest hinput =>
    obtain ⟨g, hg, rfl⟩ := Option.map_eq_some_iff.mp h
    exact .taken hses hpc hinput hg
  next =>
    obtain ⟨g, hg, rfl⟩ := Option.map_eq_some_iff.mp h
    exact .abandoned hg

theorem emit_move {msg : ChannelMsg} {f : Shell → Shell} (h : s.emit lim i msg f = some s') :
    (s.shells i).stage = .open ∧ (s.shells i).link.length < lim.link ∧
      s' = s.setShell i (f { s.shells i with link := (s.shells i).link ++ [msg] }) := by
  obtain ⟨ses, -, h⟩ := Option.bind_eq_some_iff.mp h
  obtain ⟨⟨hstage, hroom⟩, h⟩ := Option.ite_none_right_eq_some.mp h
  exact ⟨hstage, hroom, (Option.some.inj h).symm⟩

theorem proxyStep_move {l : ProxyLabel} (h : proxyStep lim s l = some s') :
    ProxyMove lim s l s' := by
  cases l with
  | gateway l =>
    simp only [proxyStep, Proxy.run] at h
    split at h
    next => cases h
    next hl =>
      obtain ⟨g, hg, rfl⟩ := Option.map_eq_some_iff.mp h
      exact .gateway (by simpa using hl) hg
  | top i =>
    obtain ⟨ses, hses, h⟩ := Option.bind_eq_some_iff.mp h
    obtain ⟨⟨ha, hpc⟩, h⟩ := Option.ite_none_right_eq_some.mp h
    cases h
    exact .top hses ha hpc
  | wait i => exact wait_move h
  | send i =>
    simp only [proxyStep, Proxy.send] at h
    split at h
    next bytes hpc =>
      obtain ⟨g, hg, rfl⟩ := Option.map_eq_some_iff.mp h
      exact .sent hpc hg
    next => cases h
  | take i => exact take_move h
  | write i n =>
    obtain ⟨ses, hses, h⟩ := Option.bind_eq_some_iff.mp h
    split at h
    next rest hpc =>
      obtain ⟨⟨ha, hstage, -, hn, hw⟩, h⟩ := Option.ite_none_right_eq_some.mp h
      cases h
      exact .wrote hses ha hpc hn hw hstage
    next => cases h
  | written i =>
    obtain ⟨ses, hses, h⟩ := Option.bind_eq_some_iff.mp h
    obtain ⟨⟨ha, hpc⟩, h⟩ := Option.ite_none_right_eq_some.mp h
    cases h
    exact .written hses ha hpc
  | writeFailed i =>
    simp only [proxyStep, Proxy.writeFailed] at h
    split at h
    next rest hpc =>
      obtain ⟨⟨-, hlost⟩, h⟩ := Option.ite_none_right_eq_some.mp h
      obtain ⟨g, hg, rfl⟩ := Option.map_eq_some_iff.mp h
      exact .left hg rfl (Or.inr ⟨rfl, hlost, rfl⟩) rfl rfl
    next => cases h
  | deliver i =>
    obtain ⟨ses, -, h⟩ := Option.bind_eq_some_iff.mp h
    split at h
    next msg rest hlink =>
      obtain ⟨⟨hstage, hroom⟩, h⟩ := Option.ite_none_right_eq_some.mp h
      cases h
      exact .delivered hlink hroom hstage
    next => cases h
  | read i n =>
    obtain ⟨-, h⟩ := Option.ite_none_right_eq_some.mp h
    obtain ⟨hstage, -, rfl⟩ := emit_move h
    exact .emitted (.windowAdjusted n) (Or.inl ⟨n, rfl⟩) rfl rfl rfl rfl hstage (by simp [hstage])
  | produce i msg =>
    obtain ⟨-, h⟩ := Option.ite_none_right_eq_some.mp h
    obtain ⟨hstage, -, rfl⟩ := emit_move h
    exact .emitted msg (Or.inr (Or.inl rfl)) rfl rfl rfl rfl hstage (by simp [hstage])
  | hangup i msg =>
    obtain ⟨-, h⟩ := Option.ite_none_right_eq_some.mp h
    obtain ⟨hstage, -, rfl⟩ := emit_move h
    exact .emitted msg (Or.inr (Or.inr rfl)) rfl rfl rfl rfl hstage (by simp)
  | lose i =>
    obtain ⟨ses, -, h⟩ := Option.bind_eq_some_iff.mp h
    cases h
    exact .lost

theorem ProxyMove.gateway_step {l : ProxyLabel} (m : ProxyMove lim s l s') :
    s'.gateway = s.gateway ∨ ∃ l', step s.gateway l' = some s'.gateway := by
  cases m with
  | gateway _ hg | left hg | sent _ hg | taken _ _ _ hg | abandoned hg => exact Or.inr ⟨_, hg⟩
  | _ => exact Or.inl rfl

end Inversion

theorem proxy_gateway {lim : SshLimits} {maxScrollback : Nat} {C : Proxy → ProxyLabel → Prop}
    {s : Proxy} (h : Reach (proxy lim maxScrollback) C s) :
    Reachable (gateway maxScrollback) s.gateway := by
  refine h.invariant (P := fun s => Reachable (gateway maxScrollback) s.gateway) .init ?_
  intro s l s' _ ih _ hs
  rcases (proxyStep_move hs).gateway_step with he | ⟨l', hl⟩
  · exact he ▸ ih
  · exact ih.step trivial hl

section Enabled

variable {lim : SshLimits} {s : Proxy} {i : SessionId} {ses : Session}

theorem top_enabled (hses : s.gateway.sessions i = some ses) (ha : ses.actor = true)
    (hpc : (s.shells i).pc = .top) :
    proxyStep lim s (.top i) = some (s.setShell i (s.shells i).resize) := by
  simp [proxyStep, Proxy.top, hses, ha, hpc]

theorem send_enabled {bytes : Bytes} (hses : s.gateway.sessions i = some ses)
    (ha : ses.actor = true) (hpc : (s.shells i).pc = .send bytes)
    (hroom : ses.output.length < 256) :
    proxyStep lim s (.send i) = some ({ s with
      gateway := s.gateway.setSession i { ses with output := ses.output ++ [bytes] } }.setShell i
        { s.shells i with pc := .top }) := by
  simp [proxyStep, Proxy.send, hpc, step, State.actorOutput, hses, ha, hroom]

theorem take_enabled {command : SshInput} {rest : List SshInput}
    (hses : s.gateway.sessions i = some ses) (ha : ses.actor = true)
    (hpc : (s.shells i).pc = .select) (hinput : ses.input = command :: rest) :
    proxyStep lim s (.take i) = some ({ s with
      gateway := s.gateway.setSession i { ses with input := rest } }.setShell i
        ((s.shells i).begin command)) := by
  simp [proxyStep, Proxy.take, hses, hpc, hinput, step, State.actorInput, ha]

theorem write_enabled {rest : Bytes} {n : Nat} (hses : s.gateway.sessions i = some ses)
    (ha : ses.actor = true) (hstage : (s.shells i).stage ≠ .lost)
    (hpc : (s.shells i).pc = .write rest) (hpos : 0 < n) (hn : n ≤ rest.length)
    (hw : n ≤ (s.shells i).window) :
    proxyStep lim s (.write i n) = some (s.setShell i ((s.shells i).hand rest n)) := by
  simp [proxyStep, Proxy.write, hses, hpc, ha, hstage, hpos, hn, hw]

theorem written_enabled (hses : s.gateway.sessions i = some ses) (ha : ses.actor = true)
    (hpc : (s.shells i).pc = .write []) :
    proxyStep lim s (.written i) = some (s.setShell i { s.shells i with pc := .top }) := by
  simp [proxyStep, Proxy.written, hses, ha, hpc]

theorem deliver_enabled {msg : ChannelMsg} {rest : List ChannelMsg}
    (hses : s.gateway.sessions i = some ses) (hstage : (s.shells i).stage ≠ .lost)
    (hlink : (s.shells i).link = msg :: rest) (hroom : (s.shells i).queue.length < lim.queue) :
    proxyStep lim s (.deliver i) = some (s.setShell i ((s.shells i).put msg rest)) := by
  simp [proxyStep, Proxy.deliver, hses, hlink, hstage, hroom]

theorem ingest_enabled {bytes : Bytes} {rest : List Bytes}
    (hses : s.gateway.sessions i = some ses) (hingest : ses.ingest = true)
    (hout : ses.output = bytes :: rest) :
    proxyStep lim s (.gateway (.ingest i)) = some { s with
      gateway := s.gateway.setSession i { ses with
        inner := ses.inner.append .exact bytes
        output := rest
        produced := ses.produced ++ bytes } } := by
  simp [proxyStep, Proxy.run, Label.actor, step, State.ingest, hses, hout, hingest]

theorem produce_enabled (hses : s.gateway.sessions i = some ses)
    (hstage : (s.shells i).stage = .open) (hroom : (s.shells i).link.length < lim.link) :
    proxyStep lim s (.produce i .other) =
      some (s.setShell i { s.shells i with link := (s.shells i).link ++ [.other] }) := by
  simp [proxyStep, Proxy.produce, Proxy.emit, ChannelMsg.ends, ChannelMsg.grant, hses, hstage, hroom]

theorem wait_enabled (hses : s.gateway.sessions i = some ses) (ha : ses.actor = true)
    (hpc : (s.shells i).pc = .select) (hq : (s.shells i).queue ≠ []) :
    ∃ s', proxyStep lim s (.wait i) = some s' := by
  obtain ⟨msg, rest, hq⟩ := List.exists_cons_of_ne_nil hq
  simp only [proxyStep, Proxy.wait, hses, hpc, ha, hq, Option.bind_eq_bind, Option.bind_some,
    and_self, if_true]
  split
  · simp [Proxy.leaveLoop, step, State.actorEnd, hses, ha]
  · exact ⟨_, rfl⟩

theorem read_enabled (hses : s.gateway.sessions i = some ses)
    (hstage : (s.shells i).stage = .open) (hlink : (s.shells i).link = [])
    (hinbox : (s.shells i).inbox ≠ []) : ∃ s', proxyStep lim s (.read i 1) = some s' := by
  have hpos : 1 ≤ (s.shells i).inbox.length := List.length_pos_iff.mpr hinbox
  have hroom := lim.link_pos
  simp [proxyStep, Proxy.read, Proxy.emit, hses, hstage, hlink, hpos, hroom]

end Enabled

def ActorPc.unwritten : ActorPc → Nat
  | .write rest => rest.length
  | _ => 0

/-- The window grants that still get into the queue while nobody takes anything out of it. -/
def Shell.incoming (lim : SshLimits) (x : Shell) : Nat :=
  ((x.link.take (lim.queue - x.queue.length)).map ChannelMsg.grant).sum

/-- A write of `n` bytes is allowed by the window, with the grants that still come in. -/
def Shell.Covers (lim : SshLimits) (x : Shell) (n : Nat) : Prop :=
  n ≤ x.window + x.incoming lim

instance (lim : SshLimits) (x : Shell) (n : Nat) : Decidable (x.Covers lim n) :=
  inferInstanceAs (Decidable (_ ≤ _))

def Shell.Fed (lim : SshLimits) (x : Shell) : Prop := x.Covers lim x.pc.unwritten

instance (lim : SshLimits) (x : Shell) : Decidable (x.Fed lim) :=
  inferInstanceAs (Decidable (x.Covers lim _))

section Fed

variable {lim : SshLimits} {x y : Shell} {msg : ChannelMsg} {rest : List ChannelMsg}

theorem Shell.incoming_put (hlink : x.link = msg :: rest) (hroom : x.queue.length < lim.queue) :
    msg.grant + (x.put msg rest).incoming lim = x.incoming lim := by
  have hleft : lim.queue - x.queue.length = lim.queue - (x.queue.length + 1) + 1 := by omega
  simp [Shell.incoming, Shell.put, hlink, hleft]

theorem Shell.incoming_emit (queue : y.queue = x.queue) (link : y.link = x.link ++ [msg]) :
    x.incoming lim ≤ y.incoming lim := by
  simp [Shell.incoming, queue, link, List.take_append]

theorem Shell.fed_of_pc (h : x.pc.unwritten = 0) : x.Fed lim := by
  unfold Shell.Fed
  rw [h]
  exact Nat.zero_le _

theorem Shell.fed_put (hlink : x.link = msg :: rest) (hroom : x.queue.length < lim.queue) :
    (x.put msg rest).Fed lim ↔ x.Fed lim := by
  have hin := Shell.incoming_put hlink hroom
  have hwindow : (x.put msg rest).window = x.window + msg.grant := rfl
  have hpc : (x.put msg rest).pc = x.pc := rfl
  unfold Shell.Fed Shell.Covers
  rw [hwindow, hpc]
  omega

theorem Shell.fed_hand {bytes : Bytes} {n : Nat} (hpc : x.pc = .write bytes)
    (hn : n ≤ bytes.length) (hw : n ≤ x.window) : (x.hand bytes n).Fed lim ↔ x.Fed lim := by
  have hwindow : (x.hand bytes n).window = x.window - n := rfl
  have hleft : (x.hand bytes n).pc.unwritten = bytes.length - n := List.length_drop
  have hbytes : x.pc.unwritten = bytes.length := by rw [hpc]; rfl
  have hin : (x.hand bytes n).incoming lim = x.incoming lim := rfl
  unfold Shell.Fed Shell.Covers
  rw [hwindow, hleft, hbytes, hin]
  omega

theorem Shell.fed_emit (h : x.Fed lim) (pc : y.pc = x.pc) (window : y.window = x.window)
    (queue : y.queue = x.queue) (link : y.link = x.link ++ [msg]) : y.Fed lim := by
  have hin : x.incoming lim ≤ y.incoming lim := Shell.incoming_emit queue link
  unfold Shell.Fed Shell.Covers at h ⊢
  rw [pc, window]
  omega

theorem Shell.fed_other : ({ x with link := x.link ++ [.other] } : Shell).Fed lim ↔ x.Fed lim := by
  have hin : ({ x with link := x.link ++ [.other] } : Shell).incoming lim = x.incoming lim := by
    have hnone : ∀ k, (([.other] : List ChannelMsg).take k).map ChannelMsg.grant = [] ∨
        (([.other] : List ChannelMsg).take k).map ChannelMsg.grant = [0] := by
      rintro (- | k)
      · exact Or.inl rfl
      · exact Or.inr (by simp [ChannelMsg.grant])
    simp only [Shell.incoming, List.take_append, List.map_append, List.sum_append]
    rcases hnone (lim.queue - x.queue.length - x.link.length) with he | he <;> simp [he]
  unfold Shell.Fed Shell.Covers
  rw [hin]

theorem Shell.fed_begin {command : SshInput} :
    (x.begin command).Fed lim ↔ x.Covers lim command.size := by
  cases command with
  | data bytes => exact Iff.rfl
  | resize cols rows => exact iff_of_true (Shell.fed_of_pc rfl) (Nat.zero_le _)

theorem Shell.resize_pc (x : Shell) : x.resize.pc = .select := by
  unfold Shell.resize
  split <;> rfl

theorem Shell.receive_unwritten (x : Shell) (msg : ChannelMsg) :
    (x.receive msg).pc.unwritten = 0 := by
  unfold Shell.receive
  split <;> rfl

theorem Shell.unfed_writing (h : ¬x.Fed lim) :
    ∃ rest, x.pc = .write rest ∧ x.window < rest.length := by
  cases hpc : x.pc with
  | write rest =>
    refine ⟨rest, rfl, ?_⟩
    have hlt := Nat.lt_of_not_le h
    rw [hpc] at hlt
    simp only [ActorPc.unwritten] at hlt
    omega
  | top | select | send => exact absurd (Shell.fed_of_pc (by rw [hpc]; rfl)) h

/-- While a write is covered that the window does not allow, a grant is about to come in. -/
theorem Shell.Fed.grant_comes (h : x.Fed lim) (hpc : x.window < x.pc.unwritten) :
    ∃ msg rest, x.link = msg :: rest ∧ x.queue.length < lim.queue := by
  have hle : x.pc.unwritten ≤ x.window + x.incoming lim := h
  cases hlink : x.link with
  | nil =>
    simp [Shell.incoming, hlink] at hle
    omega
  | cons msg rest =>
    refine ⟨msg, rest, rfl, ?_⟩
    by_contra hfull
    have hzero : lim.queue - x.queue.length = 0 := by omega
    simp [Shell.incoming, hzero] at hle
    omega

end Fed

theorem Shell.resize_same (x : Shell) : x.resize.stage = x.stage ∧ x.resize.link = x.link := by
  unfold Shell.resize
  split <;> exact ⟨rfl, rfl⟩

theorem Shell.receive_same (x : Shell) (msg : ChannelMsg) :
    (x.receive msg).stage = x.stage ∧ (x.receive msg).link = x.link := by
  unfold Shell.receive
  split <;> exact ⟨rfl, rfl⟩

theorem Shell.begin_same (x : Shell) (command : SshInput) :
    (x.begin command).stage = x.stage ∧ (x.begin command).link = x.link := by
  cases command <;> exact ⟨rfl, rfl⟩

/-- What a step does to the write of session `i`'s actor. -/
inductive WriteMove (lim : SshLimits) (s : Proxy) (i : SessionId) : ProxyLabel → Shell → Prop
  | same {l} : WriteMove lim s i l (s.shells i)
  | idle {l x} : x.pc.unwritten = 0 → (x.stage = .lost → (s.shells i).stage = .lost) →
      (x.link = (s.shells i).link) → WriteMove lim s i l x
  | begun {ses command} : s.gateway.sessions i = some ses → command ∈ ses.input.head? →
      WriteMove lim s i (.take i) ((s.shells i).begin command)
  | going {l x} : (s.shells i).stage ≠ .lost → x.stage ≠ .lost →
      (x.stage = .open → (s.shells i).stage = .open) →
      ((s.shells i).Fed lim → x.Fed lim) → WriteMove lim s i l x
  | lost : WriteMove lim s i (.lose i) { s.shells i with stage := .lost, link := [] }

theorem ProxyMove.write {lim : SshLimits} {s s' : Proxy} {l : ProxyLabel}
    (m : ProxyMove lim s l s') (i : SessionId) : WriteMove lim s i l (s'.shells i) := by
  have set : ∀ (t : Proxy) j x, t.shells = s.shells → WriteMove lim s j l x →
      WriteMove lim s i l ((t.setShell j x).shells i) := by
    intro t j x ht hx
    rw [Proxy.setShell_shells]
    split
    next hi => exact hi ▸ hx
    next => exact ht ▸ .same
  cases m with
  | gateway | abandoned => exact .same
  | @top j =>
    obtain ⟨hstage, hlink⟩ := Shell.resize_same (s.shells j)
    exact set s _ _ rfl (.idle (by rw [Shell.resize_pc]; rfl) (fun h => hstage ▸ h) hlink)
  | @received j ses msg rest =>
    obtain ⟨hstage, hlink⟩ := Shell.receive_same { s.shells j with queue := rest } msg
    exact set s _ _ rfl (.idle (Shell.receive_unwritten _ _) (fun h => hstage ▸ h) hlink)
  | @left j _ g x hg _ hcase hstage hlink =>
    apply set _ _ _ rfl
    rcases hcase with ⟨-, -, hpc⟩ | ⟨-, -, hsame⟩
    · exact .idle (by rw [hpc]; rfl) (fun h => hstage ▸ h) hlink
    · exact hsame ▸ .same
  | sent | written => exact set _ _ _ rfl (.idle rfl id rfl)
  | taken hses hpc hinput hg => exact set _ _ _ rfl (.begun hses (by simp [hinput]))
  | wrote hses ha hpc hn hw hstage =>
    exact set s _ _ rfl (.going hstage hstage id (Shell.fed_hand hpc hn hw).mpr)
  | delivered hlink hroom hstage =>
    exact set s _ _ rfl (.going hstage hstage id (Shell.fed_put hlink hroom).mpr)
  | emitted msg _ hpc hwindow hqueue hlink hopen hstage =>
    exact set s _ _ rfl (.going (by simp [hopen]) hstage (fun _ => hopen)
      fun h => Shell.fed_emit h hpc hwindow hqueue hlink)
  | lost => exact set s _ _ rfl .lost

/-- What the actor of an open channel takes off its input is covered. -/
def WritesCovered (lim : SshLimits) (s : Proxy) : ProxyLabel → Prop
  | .take i => (s.shells i).stage = .open → ∀ ses ∈ s.gateway.sessions i,
      ∀ command ∈ ses.input.head?, (s.shells i).Covers lim command.size
  | _ => True

instance (lim : SshLimits) (s : Proxy) : ∀ l, Decidable (WritesCovered lim s l)
  | .take i => inferInstanceAs (Decidable (_ → ∀ ses ∈ s.gateway.sessions i, _))
  | .gateway _ | .top _ | .wait _ | .send _ | .write _ _ | .written _ | .writeFailed _
  | .deliver _ | .read _ _ | .produce _ _ | .hangup _ _ | .lose _ =>
    inferInstanceAs (Decidable True)

theorem WriteMove.fed {lim : SshLimits} {s : Proxy} {i : SessionId} {l : ProxyLabel} {x : Shell}
    (m : WriteMove lim s i l x) (covered : WritesCovered lim s l)
    (h : (s.shells i).stage = .open → (s.shells i).Fed lim) (hopen : x.stage = .open) :
    x.Fed lim := by
  cases m with
  | same => exact h hopen
  | idle hpc => exact Shell.fed_of_pc hpc
  | begun hses hcommand =>
    rw [(Shell.begin_same _ _).1] at hopen
    exact Shell.fed_begin.mpr (covered hopen _ hses _ hcommand)
  | going _ _ hstage hfed => exact hfed (h (hstage hopen))
  | lost => cases hopen

theorem proxy_fed {lim : SshLimits} {maxScrollback : Nat} {s : Proxy}
    (h : Reach (proxy lim maxScrollback) (WritesCovered lim) s) (i : SessionId)
    (hopen : (s.shells i).stage = .open) : (s.shells i).Fed lim := by
  revert i
  refine h.invariant
    (P := fun s => ∀ i, (s.shells i).stage = .open → (s.shells i).Fed lim) ?_ ?_
  · exact fun i _ => Shell.fed_of_pc rfl
  · exact fun s l s' _ ih hc hs i => ((proxyStep_move hs).write i).fed hc (ih i)

end TtyGateway
