import TtyGateway.Scrollback
import TtyGateway.Quota
import TtyGateway.Registry

namespace TtyGateway

inductive SshInput
  | data (bytes : Bytes)
  | resize (cols rows : UInt32)
  deriving DecidableEq

def SshInput.size : SshInput → Nat
  | .data bytes => bytes.length
  | .resize _ _ => 0

/-- The part of a `Session` that changes, with its actor and ingest task: the two bounded channels
between them and the rest, and whether each task is still in its loop. `produced` is history, all
output the ingest task has ever appended. -/
structure Session where
  inner : SessionInner
  input : List SshInput
  output : List Bytes
  actor : Bool
  ingest : Bool
  produced : Bytes
  deriving DecidableEq

def Session.spawn (maxBytes : Nat) : Session := ⟨.new maxBytes, [], [], true, true, []⟩

inductive Outcome
  | detached
  | closed
  deriving DecidableEq

/-- Where `handle_connection` stands: the await it is suspended at, or the step it takes next.
From `live` on it is past `negotiate`; `live`, `forward` and `pong` are `receiver_loop`. -/
inductive Pc
  | idle
  | hello
  | authorize
  | lookup
  | openTarget
  | login
  | signSend (id : UInt64) (publicKey data : Bytes)
  | signWait (id : UInt64)
  | sessionOpen
  | reject (message : String)
  | greet
  | status
  | failed
  | live
  | forward (input : SshInput)
  | pong
  | ending (outcome : Outcome)
  | metering (outcome : Outcome)
  | reporting (outcome : Outcome)
  | deciding (outcome : Outcome)
  | closing
  | closeWait
  | leaving
  | done
  deriving DecidableEq

/-- `handle_connection` is over: `negotiate` did not produce a session, or it ran to the end. -/
def Pc.returned : Pc → Bool
  | .failed | .done => true
  | _ => false

/-- `receiver_loop` has not returned, so the sending half of the out-of-band queue is there. -/
def Pc.looping : Pc → Bool
  | .live | .forward _ | .pong => true
  | _ => false

/-- Where `sender_task` stands. A chunk it has taken from the reader is carried along until its
write is over; `time` is the clock reading at which the limiter admitted the frame. -/
inductive SenderPc
  | idle
  | spawned
  | select
  | throttle (bytes : Bytes)
  | sleep (bytes : Bytes) (until_ : ℚ)
  | count (bytes : Bytes) (time : ℚ)
  | write (frame : ServerFrame) (time : ℚ)
  | writeClosed
  | ended
  deriving DecidableEq

def SenderPc.alive : SenderPc → Bool
  | .idle | .ended => false
  | _ => true

/-- The task is suspended at an await, where an abort takes effect. -/
def SenderPc.atAwait : SenderPc → Bool
  | .spawned | .select | .sleep _ _ | .write _ _ | .writeClosed => true
  | _ => false

/-- One accepted client: the locals of its handler and of its sender task, and what they share.
`yielded` is history, every chunk its reader has returned with the offset of the first byte. -/
structure Conn where
  pc : Pc
  clientName : String
  resume : Option ResumeToken
  accountToken : Option Bytes
  entitlement : Entitlement
  auth : Option AuthIntent
  nextId : UInt64
  session : Option SessionRef
  resumed : Bool
  meter : UsageMeter
  oob : List ServerFrame
  aborted : Bool
  sender : SenderPc
  reader : SessionReader
  limiter : Option (TokenBucket × ℚ)
  oobOpen : Bool
  yielded : List (Nat × Bytes)
  deriving DecidableEq

def Conn.init : Conn where
  pc := .idle
  clientName := ""
  resume := none
  accountToken := none
  entitlement := .unlimited
  auth := none
  nextId := 1
  session := none
  resumed := false
  meter := .new
  oob := []
  aborted := false
  sender := .idle
  reader := ⟨0⟩
  limiter := none
  oobOpen := true
  yielded := []

/-- The handler holds an `Arc` of session `i`. -/
def Conn.attached (x : Conn) (i : SessionId) : Bool :=
  x.session.any (·.id = i) && !x.pc.returned

/-- The sender task is there, and with it a `SessionReader` of session `i`. -/
def Conn.streaming (x : Conn) (i : SessionId) : Bool :=
  x.session.any (·.id = i) && x.sender.alive

/-- The errors `open_for_auth` returns before it connects anywhere. -/
def AuthIntent.refused : AuthIntent → Option String
  | .gatewayKey _ => some "gateway-stored keys not yet implemented"
  | .delegatedKey publicKey =>
    if ByteArray.validateUTF8 ⟨publicKey.toArray⟩ then none
    else some "delegated public key is not OpenSSH text"
  | _ => none

def AuthIntent.delegated : AuthIntent → Bool
  | .delegatedKey _ => true
  | _ => false

section Debug

def debugBytes (bytes : Bytes) : String := toString (bytes.map UInt8.toNat)

def debugOption {α : Type} (f : α → String) : Option α → String
  | some a => "Some(" ++ f a ++ ")"
  | none => "None"

def debugFields (name : String) (fields : List (String × String)) : String :=
  name ++ " \x7b " ++ ", ".intercalate (fields.map fun f => f.1 ++ ": " ++ f.2) ++ " \x7d"

def AuthIntent.debug : AuthIntent → String
  | .delegatedKey publicKey => debugFields "DelegatedKey" [("public_key", debugBytes publicKey)]
  | .password secret => debugFields "Password" [("secret", secret.quote)]
  | .privateKey pem passphrase =>
    debugFields "PrivateKey" [("pem", pem.quote), ("passphrase", debugOption String.quote passphrase)]
  | .gatewayKey keyId => debugFields "GatewayKey" [("key_id", keyId.quote)]

/-- The derived `Debug` text of a frame, up to the escapes of unprintable characters. -/
def ClientFrame.debug : ClientFrame → String
  | .hello version clientName resume accountToken =>
    debugFields "Hello" [("version", toString version), ("client_name", clientName.quote),
      ("resume", debugOption (fun t => "ResumeToken(" ++ debugBytes t.val ++ ")") resume),
      ("account_token", debugOption debugBytes accountToken)]
  | .openTarget target auth cols rows =>
    debugFields "Open" [("target", debugFields "TargetSpec" [("host", target.host.quote),
        ("port", toString target.port), ("user", target.user.quote)]),
      ("auth", auth.debug), ("cols", toString cols), ("rows", toString rows)]
  | .data bytes => "Data(" ++ debugBytes bytes ++ ")"
  | .resize cols rows => debugFields "Resize" [("cols", toString cols), ("rows", toString rows)]
  | .signResponse id signature =>
    debugFields "SignResponse" [("id", toString id), ("signature", debugBytes signature)]
  | .ping => "Ping"
  | .close => "Close"

end Debug

def versionMismatch (version : UInt16) : String :=
  s!"protocol version mismatch: client {version}, server {protocolVersion}"

/-- The `Error` text of a `sign` that failed, through the adapters between it and the client. -/
def signFailed (error : String) : String :=
  "connect failed: delegated auth: remote signer: " ++ error

end TtyGateway
