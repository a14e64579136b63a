import Mathlib.Init

namespace TtyGateway

abbrev Bytes := List UInt8

/-- The `u128` of a v4 uuid. -/
abbrev SessionId := BitVec 128

/-- A client that connected, by number. -/
abbrev ConnId := Nat

def protocolVersion : UInt16 := 1

structure ResumeToken where
  val : Bytes
  deriving DecidableEq

structure TargetSpec where
  host : String
  port : UInt16
  user : String
  deriving DecidableEq

inductive AuthIntent
  | delegatedKey (publicKey : Bytes)
  | password (secret : String)
  | privateKey (pem : String) (passphrase : Option String)
  | gatewayKey (keyId : String)
  deriving DecidableEq

/-- Frames sent client → gateway. `openTarget` is the source's `Open`, a keyword here. -/
inductive ClientFrame
  | hello (version : UInt16) (clientName : String) (resume : Option ResumeToken)
      (accountToken : Option Bytes)
  | openTarget (target : TargetSpec) (auth : AuthIntent) (cols rows : UInt16)
  | data (bytes : Bytes)
  | resize (cols rows : UInt16)
  | signResponse (id : UInt64) (signature : Bytes)
  | ping
  | close
  deriving DecidableEq

inductive SessionStatus
  | connecting | authenticating | live | detached | closed
  deriving DecidableEq

/-- Frames sent gateway → client. -/
inductive ServerFrame
  | hello (version : UInt16) (sessionId : SessionId) (resumed : Bool) (resume : ResumeToken)
  | data (bytes : Bytes)
  | signRequest (id : UInt64) (publicKey : Bytes) (data : Bytes)
  | status (status : SessionStatus)
  | pong
  | error (message : String)
  | closed
  deriving DecidableEq

/-- The bytes of terminal output a frame carries: the payload of a `Data`, nothing otherwise. -/
def ServerFrame.payload : ServerFrame → Bytes
  | .data bytes => bytes
  | _ => []

end TtyGateway
