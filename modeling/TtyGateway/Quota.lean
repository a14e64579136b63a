import TtyGateway.Frame
import Mathlib.Data.Rat.Defs
import Mathlib.Algebra.Order.Ring.Rat

namespace TtyGateway

structure Entitlement where
  maxBytesPerSec : Option Nat
  maxSessions : Option Nat
  deriving DecidableEq

def Entitlement.unlimited : Entitlement := ⟨none, none⟩

/-- Why the control plane refused, as `Denied(reason)`. -/
structure Denied where
  reason : String
  deriving DecidableEq

def Denied.toString (d : Denied) : String := "authorization denied: " ++ d.reason

/-- One call of an `AuthHook` method, with the answer where the method has one. -/
inductive HookCall
  | authorize (clientName : String) (accountToken : Option Bytes)
      (answer : Except Denied Entitlement)
  | sessionOpen (accountToken : Option Bytes) (sessionId : SessionId) (clientName : String)
      (answer : Except Denied Unit)
  | sessionClose (accountToken : Option Bytes) (sessionId : SessionId)
  | reportUsage (accountToken : Option Bytes) (sessionId : SessionId) (bytesIn bytesOut : Nat)
  deriving DecidableEq

/-- Time and token amounts are exact rationals here, seconds and bytes. -/
structure TokenBucket where
  capacity : ℚ
  tokens : ℚ
  rate : ℚ
  deriving DecidableEq

def TokenBucket.new (ratePerSec burst : Nat) : TokenBucket :=
  let capacity : ℚ := (max burst 1 : Nat)
  ⟨capacity, capacity, (max ratePerSec 1 : Nat)⟩

def TokenBucket.refill (b : TokenBucket) (elapsed : ℚ) : TokenBucket :=
  { b with tokens := min (b.tokens + elapsed * b.rate) b.capacity }

def TokenBucket.tryConsume (b : TokenBucket) (amount : Nat) : Bool × TokenBucket :=
  if (amount : ℚ) ≤ b.tokens then (true, { b with tokens := b.tokens - amount }) else (false, b)

def TokenBucket.timeUntil (b : TokenBucket) (amount : Nat) : ℚ :=
  let amount := min (amount : ℚ) b.capacity
  if amount ≤ b.tokens then 0 else (amount - b.tokens) / b.rate

structure UsageMeter where
  bytesIn : Nat
  bytesOut : Nat
  deriving DecidableEq

def UsageMeter.new : UsageMeter := ⟨0, 0⟩

def UsageMeter.addIn (m : UsageMeter) (n : Nat) : UsageMeter := { m with bytesIn := m.bytesIn + n }

def UsageMeter.addOut (m : UsageMeter) (n : Nat) : UsageMeter := { m with bytesOut := m.bytesOut + n }

end TtyGateway
