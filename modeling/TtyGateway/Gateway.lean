import TtyGateway.Connection
import TtyGateway.Transition
import Mathlib.Logic.Function.Basic

namespace TtyGateway

open Transition

/-- What a `recv` on the control stream came to: a frame, or the text of the error. -/
abbrev Recv := Except String ClientFrame

def defaultScrollbackBytes : Nat := 256 * 1024

def bandwidthBurst : Nat := 2 ^ 20

/-- A frame completed on a connection's control stream. -/
structure Sent where
  conn : ConnId
  time : ℚ
  frame : ServerFrame
  deriving DecidableEq

/-- The gateway process. `accepted`, `minted`, `calls` and `wire` are history: the connections
spawned, the sessions ever created, the hook calls made and the frames sent, each in order. -/
structure State where
  registry : Registry
  maxScrollback : Nat
  sessions : SessionId → Option Session
  conns : ConnId → Conn
  clock : ℚ
  accepted : List ConnId
  minted : List SessionRef
  calls : List HookCall
  wire : List Sent

def State.init (maxScrollback : Nat) : State where
  registry := .default
  maxScrollback := maxScrollback
  sessions := fun _ => none
  conns := fun _ => .init
  clock := 0
  accepted := []
  minted := []
  calls := []
  wire := []

def State.setConn (s : State) (c : ConnId) (x : Conn) : State :=
  { s with conns := Function.update s.conns c x }

def State.setSession (s : State) (i : SessionId) (ses : Session) : State :=
  { s with sessions := Function.update s.sessions i (some ses) }

def State.call (s : State) (x : HookCall) : State := { s with calls := s.calls ++ [x] }

def State.put (s : State) (c : ConnId) (time : ℚ) (frame : ServerFrame) : State :=
  { s with wire := s.wire ++ [⟨c, time, frame⟩] }

def State.registered (s : State) (i : SessionId) : Prop := i ∈ s.registry.byId

instance (s : State) (i : SessionId) : Decidable (s.registered i) :=
  inferInstanceAs (Decidable (i ∈ s.registry.byId))

/-- Someone still holds an `Arc` of session `i`, and with it the only `Sender` of its input
channel: the registry, a handler, a `SessionReader` in a sender task, or the ingest task. -/
def State.inputAlive (s : State) (i : SessionId) : Bool :=
  decide (s.registered i) ||
  s.accepted.any (fun c => (s.conns c).attached i || (s.conns c).streaming i) ||
  (s.sessions i).any (·.ingest)

section Negotiate

variable (s : State) (c : ConnId)

/-- `serve` spawns `handle_connection` for a client that connected. -/
def State.accept : Option State :=
  let x := s.conns c
  if x.pc = .idle then
    some { s.setConn c { x with pc := .hello } with accepted := s.accepted ++ [c] }
  else none

def State.recvHello (r : Recv) : Option State :=
  let x := s.conns c
  if x.pc = .hello then
    match r with
    | .error _ => some (s.setConn c { x with pc := .failed })
    | .ok (.hello version clientName resume accountToken) =>
      if version = protocolVersion then
        some (s.setConn c { x with pc := .authorize, clientName, resume, accountToken })
      else some (s.setConn c { x with pc := .reject (versionMismatch version) })
    | .ok _ => some (s.setConn c { x with pc := .reject "expected Hello" })
  else none

def State.authorized (answer : Except Denied Entitlement) : Option State :=
  let x := s.conns c
  let s := s.call (.authorize x.clientName x.accountToken answer)
  if x.pc = .authorize then
    match answer with
    | .ok entitlement => some (s.setConn c { x with pc := .lookup, entitlement })
    | .error denied => some (s.setConn c { x with pc := .reject denied.toString })
  else none

def State.lookup : Option State :=
  let x := s.conns c
  if x.pc = .lookup then
    match x.resume.bind (fun token => s.registry.resume token.val) with
    | some existing =>
      some (s.setConn c { x with pc := .greet, session := some existing, resumed := true })
    | none => some (s.setConn c { x with pc := .openTarget })
  else none

def State.recvOpen (r : Recv) : Option State :=
  let x := s.conns c
  if x.pc = .openTarget then
    match r with
    | .error _ => some (s.setConn c { x with pc := .failed })
    | .ok (.openTarget _ auth _ _) =>
      match auth.refused with
      | none => some (s.setConn c { x with pc := .login, auth := some auth })
      | some error => some (s.setConn c { x with pc := .reject ("connect failed: " ++ error) })
    | .ok _ => some (s.setConn c { x with pc := .reject "expected Open" })
  else none

/-- Connecting, authenticating or opening the shell failed, for a reason of the target's or of
russh's. -/
def State.loginFailed (error : String) : Option State :=
  let x := s.conns c
  if x.pc = .login then
    some (s.setConn c { x with pc := .reject ("connect failed: " ++ error) })
  else none

/-- russh asks the `DelegatedSigner` for a signature. -/
def State.signAsked (publicKey data : Bytes) : Option State :=
  let x := s.conns c
  if x.pc = .login ∧ x.auth.any AuthIntent.delegated then
    some (s.setConn c { x with pc := .signSend x.nextId publicKey data, nextId := x.nextId + 1 })
  else none

def State.signSent (result : Except String Unit) : Option State :=
  let x := s.conns c
  match x.pc with
  | .signSend id publicKey data =>
    match result with
    | .ok () =>
      some ((s.put c s.clock (.signRequest id publicKey data)).setConn c { x with pc := .signWait id })
    | .error e => some (s.setConn c { x with pc := .reject (signFailed e) })
  | _ => none

def State.signRecv (r : Recv) : Option State :=
  let x := s.conns c
  match x.pc with
  | .signWait id =>
    match r with
    | .error e => some (s.setConn c { x with pc := .reject (signFailed e) })
    | .ok (.signResponse rid _) =>
      if rid = id then some (s.setConn c { x with pc := .login }) else some s
    | .ok .ping => some s
    | .ok other =>
      let error := "unexpected frame during signing: " ++ other.debug
      some (s.setConn c { x with pc := .reject (signFailed error) })
  | _ => none

/-- The login went through: `SshSession::spawn` and `SessionManager::create`. The id and the token
are random, so none that was drawn before comes up again. -/
def State.loggedIn (id : SessionId) (token : Bytes) : Option State :=
  let x := s.conns c
  let session : SessionRef := ⟨id, token⟩
  if x.pc = .login ∧ id ∉ s.minted.map SessionRef.id ∧ token ∉ s.minted.map SessionRef.resumeToken then
    some { (s.setSession id (.spawn s.maxScrollback)).setConn c
        { x with pc := .sessionOpen, session := some session, resumed := false } with
      registry := s.registry.create session, minted := s.minted ++ [session] }
  else none

def State.sessionOpened (answer : Except Denied Unit) : Option State := do
  let x := s.conns c
  let session ← x.session
  let s := s.call (.sessionOpen x.accountToken session.id x.clientName answer)
  if x.pc = .sessionOpen then
    match answer with
    | .ok () => some (s.setConn c { x with pc := .greet })
    | .error denied =>
      some { s.setConn c { x with pc := .reject denied.toString } with
        registry := s.registry.remove session.id }
  else none

def State.rejectSent (ok : Bool) : Option State :=
  let x := s.conns c
  match x.pc with
  | .reject message =>
    let s := if ok then s.put c s.clock (.error message) else s
    some (s.setConn c { x with pc := .failed })
  | _ => none

def State.helloSent (ok : Bool) : Option State := do
  let x := s.conns c
  let session ← x.session
  if x.pc = .greet then
    if ok then
      some ((s.put c s.clock
        (.hello protocolVersion session.id x.resumed ⟨session.resumeToken⟩)).setConn c
          { x with pc := .status })
    else some (s.setConn c { x with pc := .failed })
  else none

/-- The last send of `negotiate`; after it the handler spawns `sender_task` and enters
`receiver_loop`. -/
def State.statusSent (ok : Bool) : Option State :=
  let x := s.conns c
  if x.pc = .status then
    if ok then
      some ((s.put c s.clock (.status .live)).setConn c { x with pc := .live, sender := .spawned })
    else some (s.setConn c { x with pc := .failed })
  else none

end Negotiate

section Handler

variable (s : State) (c : ConnId)

def State.recv (r : Recv) : Option State :=
  let x := s.conns c
  if x.pc = .live then
    match r with
    | .ok (.data bytes) =>
      some (s.setConn c { x with meter := x.meter.addIn bytes.length, pc := .forward (.data bytes) })
    | .ok (.resize cols rows) =>
      some (s.setConn c { x with pc := .forward (.resize cols.toUInt32 rows.toUInt32) })
    | .ok .ping => some (s.setConn c { x with pc := .pong })
    | .ok .close => some (s.setConn c { x with pc := .ending .closed })
    | .ok (.hello _ _ _ _) | .ok (.openTarget _ _ _ _) | .ok (.signResponse _ _) => some s
    | .error _ => some (s.setConn c { x with pc := .ending .detached })
  else none

/-- `send_input`: waits for room in the channel, or fails once the actor has dropped it. -/
def State.forward : Option State := do
  let x := s.conns c
  let session ← x.session
  let ses ← s.sessions session.id
  match x.pc with
  | .forward input =>
    if ses.actor then
      if ses.input.length < 64 then
        some ((s.setSession session.id { ses with input := ses.input ++ [input] }).setConn c
          { x with pc := .live })
      else none
    else some (s.setConn c { x with pc := .live })
  | _ => none

/-- `oob.send(Pong)`, in the same way. -/
def State.pong : Option State :=
  let x := s.conns c
  if x.pc = .pong then
    if x.sender.alive then
      if x.oob.length < 16 then some (s.setConn c { x with pc := .live, oob := x.oob ++ [.pong] })
      else none
    else some (s.setConn c { x with pc := .live })
  else none

def State.abort : Option State :=
  let x := s.conns c
  match x.pc with
  | .ending outcome => some (s.setConn c { x with pc := .metering outcome, aborted := true })
  | _ => none

def State.report : Option State := do
  let x := s.conns c
  let session ← x.session
  match x.pc with
  | .metering outcome =>
    some ((s.call (.reportUsage x.accountToken session.id x.meter.bytesIn x.meter.bytesOut)).setConn c
      { x with pc := .reporting outcome })
  | _ => none

def State.reported : Option State :=
  let x := s.conns c
  match x.pc with
  | .reporting outcome => some (s.setConn c { x with pc := .deciding outcome })
  | _ => none

/-- `matches!(outcome, Closed) || session.is_closed()` -/
def State.checkClosed : Option State := do
  let x := s.conns c
  let session ← x.session
  let ses ← s.sessions session.id
  match x.pc with
  | .deciding outcome =>
    if outcome = .closed ∨ ses.inner.closed then some (s.setConn c { x with pc := .closing })
    else some (s.setConn c { x with pc := .leaving })
  | _ => none

def State.closeCall : Option State := do
  let x := s.conns c
  let session ← x.session
  if x.pc = .closing then
    some ((s.call (.sessionClose x.accountToken session.id)).setConn c { x with pc := .closeWait })
  else none

/-- `session_close` returned; `SessionManager::remove` follows at once. -/
def State.closeReturned : Option State := do
  let x := s.conns c
  let session ← x.session
  if x.pc = .closeWait then
    some { s.setConn c { x with pc := .leaving } with registry := s.registry.remove session.id }
  else none

def State.leave : Option State :=
  let x := s.conns c
  if x.pc = .leaving then some (s.setConn c { x with pc := .done }) else none

end Handler

section Sender

variable (s : State) (c : ConnId)

def State.senderStart : Option State :=
  let x := s.conns c
  if x.sender = .spawned then
    some (s.setConn c { x with
      sender := .select
      limiter := x.entitlement.maxBytesPerSec.map fun rate =>
        (TokenBucket.new rate bandwidthBurst, s.clock) })
  else none

/-- `select!` polls the `reader.next()` branch. Parking leaves the loop where it is, and with the
future dropped nothing but the cursor has been touched. -/
def State.pollReader : Option State := do
  let x := s.conns c
  let session ← x.session
  let ses ← s.sessions session.id
  if x.sender = .select then
    let (p, reader) ← x.reader.poll .exact ses.inner
    match p with
    | .chunk bytes =>
      some (s.setConn c { x with
        reader
        sender := .throttle bytes
        yielded := x.yielded ++ [(reader.cursor - bytes.length, bytes)] })
    | .finished => some (s.setConn c { x with reader, sender := .writeClosed })
    | .parked => some (s.setConn c { x with reader })
  else none

/-- `select!` polls the `oob.recv()` branch. -/
def State.pollOob : Option State :=
  let x := s.conns c
  if x.sender = .select ∧ x.oobOpen then
    match x.oob with
    | frame :: rest => some (s.setConn c { x with oob := rest, sender := .write frame s.clock })
    | [] => if x.pc.looping then none else some (s.setConn c { x with oobOpen := false })
  else none

/-- One round of `throttle`. -/
def State.throttle : Option State :=
  let x := s.conns c
  match x.sender with
  | .throttle bytes =>
    match x.limiter with
    | none => some (s.setConn c { x with sender := .count bytes s.clock })
    | some (bucket, last) =>
      match (bucket.refill (s.clock - last)).tryConsume bytes.length with
      | (true, bucket) =>
        some (s.setConn c { x with limiter := some (bucket, s.clock), sender := .count bytes s.clock })
      | (false, bucket) =>
        some (s.setConn c { x with
          limiter := some (bucket, s.clock)
          sender := .sleep bytes (s.clock + bucket.timeUntil bytes.length) })
  | _ => none

def State.wake : Option State :=
  let x := s.conns c
  match x.sender with
  | .sleep bytes until_ =>
    if until_ ≤ s.clock then some (s.setConn c { x with sender := .throttle bytes }) else none
  | _ => none

def State.addOut : Option State :=
  let x := s.conns c
  match x.sender with
  | .count bytes time =>
    some (s.setConn c { x with
      meter := x.meter.addOut bytes.length
      sender := .write (.data bytes) time })
  | _ => none

def State.written (ok : Bool) : Option State :=
  let x := s.conns c
  match x.sender with
  | .write frame time =>
    if ok then some ((s.put c time frame).setConn c { x with sender := .select })
    else some (s.setConn c { x with sender := .ended })
  | .writeClosed =>
    let s := if ok then s.put c s.clock .closed else s
    some (s.setConn c { x with sender := .ended })
  | _ => none

/-- The abort that was asked for takes effect. -/
def State.cancel : Option State :=
  let x := s.conns c
  if x.aborted ∧ x.sender.atAwait then some (s.setConn c { x with sender := .ended }) else none

end Sender

section Tasks

variable (s : State) (i : SessionId)

/-- The actor passes on output of the target. -/
def State.actorOutput (bytes : Bytes) : Option State := do
  let ses ← s.sessions i
  if ses.actor ∧ ses.output.length < 256 then
    some (s.setSession i { ses with output := ses.output ++ [bytes] })
  else none

/-- The actor takes one command off its input channel. -/
def State.actorInput : Option State := do
  let ses ← s.sessions i
  match ses.input with
  | _ :: rest => if ses.actor then some (s.setSession i { ses with input := rest }) else none
  | [] => none

/-- The actor leaves its loop because the target ended the channel, or a write to it failed. -/
def State.actorEnd : Option State := do
  let ses ← s.sessions i
  if ses.actor then some (s.setSession i { ses with actor := false, input := [] }) else none

/-- The actor leaves its loop because `input_rx.recv()` yields `None`. -/
def State.actorNone : Option State := do
  let ses ← s.sessions i
  if ses.actor ∧ ses.input = [] ∧ s.inputAlive i = false then
    some (s.setSession i { ses with actor := false })
  else none

/-- The ingest task appends one message of the output channel. -/
def State.ingest : Option State := do
  let ses ← s.sessions i
  match ses.output with
  | bytes :: rest =>
    if ses.ingest then
      some (s.setSession i { ses with
        inner := ses.inner.append .exact bytes
        output := rest
        produced := ses.produced ++ bytes })
    else none
  | [] => none

/-- The output channel has run dry and its sender is gone: the ingest task marks the session
closed and ends. -/
def State.ingestEnd : Option State := do
  let ses ← s.sessions i
  if ses.ingest ∧ ses.actor = false ∧ ses.output = [] then
    some (s.setSession i { ses with inner := ses.inner.close, ingest := false })
  else none

end Tasks

inductive Label
  | accept (c : ConnId)
  | recvHello (c : ConnId) (r : Recv)
  | authorized (c : ConnId) (answer : Except Denied Entitlement)
  | lookup (c : ConnId)
  | recvOpen (c : ConnId) (r : Recv)
  | loginFailed (c : ConnId) (error : String)
  | signAsked (c : ConnId) (publicKey data : Bytes)
  | signSent (c : ConnId) (result : Except String Unit)
  | signRecv (c : ConnId) (r : Recv)
  | loggedIn (c : ConnId) (id : SessionId) (token : Bytes)
  | sessionOpened (c : ConnId) (answer : Except Denied Unit)
  | rejectSent (c : ConnId) (ok : Bool)
  | helloSent (c : ConnId) (ok : Bool)
  | statusSent (c : ConnId) (ok : Bool)
  | recv (c : ConnId) (r : Recv)
  | forward (c : ConnId)
  | pong (c : ConnId)
  | abort (c : ConnId)
  | report (c : ConnId)
  | reported (c : ConnId)
  | checkClosed (c : ConnId)
  | closeCall (c : ConnId)
  | closeReturned (c : ConnId)
  | leave (c : ConnId)
  | senderStart (c : ConnId)
  | pollReader (c : ConnId)
  | pollOob (c : ConnId)
  | throttle (c : ConnId)
  | wake (c : ConnId)
  | addOut (c : ConnId)
  | written (c : ConnId) (ok : Bool)
  | cancel (c : ConnId)
  | actorOutput (i : SessionId) (bytes : Bytes)
  | actorInput (i : SessionId)
  | actorEnd (i : SessionId)
  | actorNone (i : SessionId)
  | ingest (i : SessionId)
  | ingestEnd (i : SessionId)
  | tick (elapsed : ℚ)

/-- The connection whose handler or sender task takes the step. -/
def Label.conn : Label → Option ConnId
  | .accept c | .recvHello c _ | .authorized c _ | .lookup c | .recvOpen c _ | .loginFailed c _
  | .signAsked c _ _ | .signSent c _ | .signRecv c _ | .loggedIn c _ _ | .sessionOpened c _
  | .rejectSent c _ | .helloSent c _ | .statusSent c _ | .recv c _ | .forward c | .pong c
  | .abort c | .report c | .reported c | .checkClosed c | .closeCall c | .closeReturned c
  | .leave c | .senderStart c | .pollReader c | .pollOob c | .throttle c | .wake c | .addOut c
  | .written c _ | .cancel c => some c
  | .actorOutput _ _ | .actorInput _ | .actorEnd _ | .actorNone _ | .ingest _ | .ingestEnd _
  | .tick _ => none

/-- One step of one task, or the passing of time. Labels carry what the environment decides: the
frames received, the hook's answers, the outcome of logins and writes, the target's output. -/
def step (s : State) : Label → Option State
  | .accept c => s.accept c
  | .recvHello c r => s.recvHello c r
  | .authorized c answer => s.authorized c answer
  | .lookup c => s.lookup c
  | .recvOpen c r => s.recvOpen c r
  | .loginFailed c error => s.loginFailed c error
  | .signAsked c publicKey data => s.signAsked c publicKey data
  | .signSent c result => s.signSent c result
  | .signRecv c r => s.signRecv c r
  | .loggedIn c id token => s.loggedIn c id token
  | .sessionOpened c answer => s.sessionOpened c answer
  | .rejectSent c ok => s.rejectSent c ok
  | .helloSent c ok => s.helloSent c ok
  | .statusSent c ok => s.statusSent c ok
  | .recv c r => s.recv c r
  | .forward c => s.forward c
  | .pong c => s.pong c
  | .abort c => s.abort c
  | .report c => s.report c
  | .reported c => s.reported c
  | .checkClosed c => s.checkClosed c
  | .closeCall c => s.closeCall c
  | .closeReturned c => s.closeReturned c
  | .leave c => s.leave c
  | .senderStart c => s.senderStart c
  | .pollReader c => s.pollReader c
  | .pollOob c => s.pollOob c
  | .throttle c => s.throttle c
  | .wake c => s.wake c
  | .addOut c => s.addOut c
  | .written c ok => s.written c ok
  | .cancel c => s.cancel c
  | .actorOutput i bytes => s.actorOutput i bytes
  | .actorInput i => s.actorInput i
  | .actorEnd i => s.actorEnd i
  | .actorNone i => s.actorNone i
  | .ingest i => s.ingest i
  | .ingestEnd i => s.ingestEnd i
  | .tick elapsed => if 0 ≤ elapsed then some { s with clock := s.clock + elapsed } else none

def gateway (maxScrollback : Nat) : System State Label := machine (.init maxScrollback) step

section Clients

variable (c : ConnId) (account : Option Bytes) (entitlement : Entitlement)

/-- A client logs in to a target, up to the start of its sender task. -/
def opening (id : SessionId) (token : Bytes) : List Label :=
  [.accept c, .recvHello c (.ok (.hello protocolVersion "client" none account)),
    .authorized c (.ok entitlement), .lookup c,
    .recvOpen c (.ok (.openTarget ⟨"target", 22, "user"⟩ (.password "secret") 80 24)),
    .loggedIn c id token, .sessionOpened c (.ok ()), .helloSent c true, .statusSent c true,
    .senderStart c]

/-- A client comes back to a session by its token. -/
def resuming (token : Bytes) : List Label :=
  [.accept c, .recvHello c (.ok (.hello protocolVersion "client" (some ⟨token⟩) account)),
    .authorized c (.ok entitlement), .lookup c, .helloSent c true, .statusSent c true,
    .senderStart c]

/-- A client drops, or asks to close: the handler up to its look at the session. -/
def ending (r : Recv) : List Label :=
  [.recv c r, .abort c, .cancel c, .report c, .reported c, .checkClosed c]

end Clients

end TtyGateway
