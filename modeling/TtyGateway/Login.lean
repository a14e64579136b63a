import TtyGateway.Admission
import TtyGateway.Interaction
import TtyGateway.Delegation

namespace TtyGateway

open Transition Interaction

structure SshTarget where
  host : String
  port : UInt16
  user : String
  deriving DecidableEq

/-- The credentials that the gateway holds. -/
inductive Auth
  | password (secret : String)
  | privateKey (pem : String) (passphrase : Option String)
  deriving DecidableEq

/-- russh's keys: what it reads from a PEM text and from an authorized_keys line, and the line that
it writes for a public key. -/
structure SshKeys (Secret Public : Type) where
  decodeSecretKey : String → Option String → Except String Secret
  fromOpenssh : String → Except String Public
  toOpenssh : Public → Except String String

/-- A call of russh that waits for the target. -/
inductive SshCall (Secret Public : Type)
  | connect (host : String) (port : UInt16)
  | authenticatePassword (user secret : String)
  | authenticatePublickey (user : String) (key : Secret)
  | authenticatePublickeyWith (user : String) (key : Public)
  | channelOpenSession
  | requestPty (term : String) (cols rows : UInt32)
  | requestShell
  deriving DecidableEq

/-- What a call comes to. Only an authentication is ever answered with `false`. -/
abbrev SshAnswer := Except String Bool

section Program

variable {Secret Public : Type}

/-- What `open` returns in the end, the error as the text it displays. -/
abbrev SshProgram (Secret Public α : Type) :=
  ExceptT String (Program (SshCall Secret Public) SshAnswer) α

def SshCall.send (call : SshCall Secret Public) : SshProgram Secret Public SshAnswer :=
  ExceptT.lift (.request call)

/-- `.context(text)?`: of an error, only its context is displayed. -/
def context {α : Type} (text : String) : Except String α → SshProgram Secret Public α
  | .ok a => pure a
  | .error _ => throw text

def connect (target : SshTarget) : SshProgram Secret Public Unit := do
  let _ ← context ("ssh connect " ++ target.host ++ ":" ++ toString target.port)
    (← (SshCall.connect target.host target.port).send)

def finishOpen (cols rows : UInt32) : SshProgram Secret Public Unit := do
  let _ ← context "open session" (← SshCall.channelOpenSession.send)
  let _ ← context "request pty" (← (SshCall.requestPty "xterm-256color" cols rows).send)
  let _ ← context "request shell" (← SshCall.requestShell.send)

variable (keys : SshKeys Secret Public)

def SshSession.open (target : SshTarget) (auth : Auth) (cols rows : UInt32) :
    SshProgram Secret Public Unit := do
  connect target
  let ok ← match auth with
    | .password secret => do
      context "password auth" (← (SshCall.authenticatePassword target.user secret).send)
    | .privateKey pem passphrase => do
      let key ← context "decode private key" (keys.decodeSecretKey pem passphrase)
      context "publickey auth" (← (SshCall.authenticatePublickey target.user key).send)
  if !ok then
    throw ("authentication failed for " ++ target.user)
  finishOpen cols rows

def SshSession.openDelegated (target : SshTarget) (publicKeyOpenssh : String) (cols rows : UInt32) :
    SshProgram Secret Public Unit := do
  connect target
  let publicKey ← context "parse delegated public key" (keys.fromOpenssh publicKeyOpenssh)
  let ok ← match ← (SshCall.authenticatePublickeyWith target.user publicKey).send with
    | .ok ok => pure ok
    | .error e => throw ("delegated auth: " ++ e)
  if !ok then
    throw ("delegated authentication failed for " ++ target.user)
  finishOpen cols rows

def openForAuth (target : TargetSpec) (auth : AuthIntent) (cols rows : UInt16) :
    SshProgram Secret Public Unit :=
  let sshTarget : SshTarget := ⟨target.host, target.port, target.user⟩
  match auth with
  | .password secret =>
    SshSession.open keys sshTarget (.password secret) cols.toUInt32 rows.toUInt32
  | .privateKey pem passphrase =>
    SshSession.open keys sshTarget (.privateKey pem passphrase) cols.toUInt32 rows.toUInt32
  | .delegatedKey publicKey =>
    match String.fromUTF8? ⟨publicKey.toArray⟩ with
    | some openssh =>
      SshSession.openDelegated keys sshTarget openssh cols.toUInt32 rows.toUInt32
    | none => throw "delegated public key is not OpenSSH text"
  | .gatewayKey _ => throw "gateway-stored keys not yet implemented"

abbrev SshStage (Secret Public : Type) := Attempt (SshCall Secret Public) SshAnswer String

def stage (call : SshCall Secret Public) (text : String) : SshStage Secret Public where
  call := call
  error
    | .ok _ => none
    | .error _ => some text

def authStage (call : SshCall Secret Public) (failed : String → String) (refused : String) :
    SshStage Secret Public where
  call := call
  error
    | .ok true => none
    | .ok false => some refused
    | .error e => some (failed e)

def connectStage (target : TargetSpec) : SshStage Secret Public :=
  stage (.connect target.host target.port)
    ("ssh connect " ++ target.host ++ ":" ++ toString target.port)

def finishStages (cols rows : UInt16) : List (SshStage Secret Public) :=
  [stage .channelOpenSession "open session",
    stage (.requestPty "xterm-256color" cols.toUInt32 rows.toUInt32) "request pty",
    stage .requestShell "request shell"]

def loginStages (target : TargetSpec) (auth : AuthIntent) (cols rows : UInt16) :
    Except String Unit × List (SshStage Secret Public) :=
  match auth with
  | .password secret =>
    (.ok (), connectStage target ::
      authStage (.authenticatePassword target.user secret) (fun _ => "password auth")
        ("authentication failed for " ++ target.user) :: finishStages cols rows)
  | .privateKey pem passphrase =>
    match keys.decodeSecretKey pem passphrase with
    | .ok key =>
      (.ok (), connectStage target ::
        authStage (.authenticatePublickey target.user key) (fun _ => "publickey auth")
          ("authentication failed for " ++ target.user) :: finishStages cols rows)
    | .error _ => (.error "decode private key", [connectStage target])
  | .delegatedKey publicKey =>
    match String.fromUTF8? ⟨publicKey.toArray⟩ with
    | some openssh =>
      match keys.fromOpenssh openssh with
      | .ok key =>
        (.ok (), connectStage target ::
          authStage (.authenticatePublickeyWith target.user key) ("delegated auth: " ++ ·)
            ("delegated authentication failed for " ++ target.user) :: finishStages cols rows)
      | .error _ => (.error "parse delegated public key", [connectStage target])
    | none => (.error "delegated public key is not OpenSSH text", [])
  | .gatewayKey _ => (.error "gateway-stored keys not yet implemented", [])

section Chain

variable {keys} {call : SshCall Secret Public}

theorem call_congr
    {p q : SshAnswer → Program (SshCall Secret Public) SshAnswer (Except String Unit)}
    (failed : ∀ e, p (.error e) = q (.error e)) (answered : ∀ ok, p (.ok ok) = q (.ok ok)) :
    Program.call call p = .call call q := by
  congr 1
  funext r
  cases r with
  | error e => exact failed e
  | ok ok => exact answered ok

theorem finishOpen_eq_chain (cols rows : UInt16) :
    (finishOpen cols.toUInt32 rows.toUInt32 : SshProgram Secret Public Unit).run =
      chain (.ok ()) (finishStages cols rows) :=
  call_congr (fun _ => rfl) fun _ => call_congr (fun _ => rfl) fun _ =>
    call_congr (fun _ => rfl) fun _ => rfl

theorem openForAuth_eq_chain (target : TargetSpec) (auth : AuthIntent) (cols rows : UInt16) :
    (openForAuth keys target auth cols rows).run =
      chain (loginStages keys target auth cols rows).1
        (loginStages keys target auth cols rows).2 := by
  cases auth with
  | password secret =>
    refine call_congr (fun _ => rfl) fun _ => call_congr (fun _ => rfl) fun ok => ?_
    cases ok with
    | false => rfl
    | true => exact finishOpen_eq_chain cols rows
  | privateKey pem passphrase =>
    simp only [openForAuth, SshSession.open, loginStages]
    cases keys.decodeSecretKey pem passphrase with
    | error e => exact call_congr (fun _ => rfl) fun _ => rfl
    | ok key =>
      refine call_congr (fun _ => rfl) fun _ => call_congr (fun _ => rfl) fun ok => ?_
      cases ok with
      | false => rfl
      | true => exact finishOpen_eq_chain cols rows
  | delegatedKey publicKey =>
    simp only [openForAuth, loginStages]
    cases String.fromUTF8? ⟨publicKey.toArray⟩ with
    | none => rfl
    | some openssh =>
      simp only [SshSession.openDelegated]
      cases keys.fromOpenssh openssh with
      | error e => exact call_congr (fun _ => rfl) fun _ => rfl
      | ok key =>
        refine call_congr (fun _ => rfl) fun _ => call_congr (fun _ => rfl) fun ok => ?_
        cases ok with
        | false => rfl
        | true => exact finishOpen_eq_chain cols rows
  | gatewayKey keyId => rfl

end Chain

end Program

end TtyGateway
