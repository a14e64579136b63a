import TtyGateway.Signing
import TtyGateway.Codec

namespace TtyGateway

open Transition

/-- `RemoteSigner::sign`: its result, if it comes to one, and the signer it leaves. -/
abbrev RemoteSigner (σ : Type) :=
  σ → String → Option String → Bytes → Option (Except String Bytes) × σ

def ControlSigner.remote (write : Except String Unit) : RemoteSigner ControlSigner :=
  fun x publicKey _algorithm toSign => x.sign ⟨publicKey.toUTF8.data.toList, toSign, write⟩

/-- russh's algorithms, with one for those it may still come to have. -/
inductive HashAlg
  | sha256
  | sha512
  | other

def hashAlgName : HashAlg → String
  | .sha256 => "rsa-sha2-256"
  | .sha512 => "rsa-sha2-512"
  | .other => "rsa-sha2-512"

inductive SignerError
  | send
  | key (message : String)
  | remote (message : String)

def SignerError.toString : SignerError → String
  | .send => "ssh send error"
  | .key message => "public key: " ++ message
  | .remote message => "remote signer: " ++ message

section Adapter

variable {κ σ : Type}

/-- `toOpenssh` is russh's text of a public key. -/
def authPublickeySign (toOpenssh : κ → Except String String) (remote : RemoteSigner σ) (x : σ)
    (key : κ) (hashAlg : Option HashAlg) (toSign : Bytes) :
    Option (Except SignerError Bytes) × σ :=
  match toOpenssh key with
  | .error e => (some (.error (.key e)), x)
  | .ok openssh =>
    let answer := remote x openssh (hashAlg.map hashAlgName) toSign
    (answer.1.map (Except.mapError SignerError.remote), answer.2)

end Adapter

def sshString (bytes : Bytes) : Bytes := toBeBytes (UInt32.ofNat bytes.length) ++ bytes

/-- What russh asks of a signer that is given `buffer`: to return it with the signature after it. -/
def Signs (buffer signature returned : Bytes) : Prop := returned = buffer ++ sshString signature

/-- What russh sends of the buffer a signer returned: what follows the session id, where there is
that much of it. -/
def transmitted (sessionId returned : Bytes) : Option Bytes :=
  if sessionId.length ≤ returned.length then some (returned.drop sessionId.length) else none

section Message

variable {sessionId request signature returned : Bytes}

/-- The message of a signer that keeps to the contract, as the key held by the gateway does. -/
theorem Signs.transmitted (h : Signs (sessionId ++ request) signature returned) :
    transmitted sessionId returned = some (request ++ sshString signature) := by
  rw [Signs] at h
  subst h
  simp [TtyGateway.transmitted]

/-- A signature by itself is too short to be the message. -/
theorem transmitted_signature_ne :
    transmitted sessionId signature ≠ some (request ++ sshString signature) := by
  intro h
  simp only [transmitted, Option.ite_none_right_eq_some, Option.some.injEq] at h
  have hlength := congrArg List.length h.2
  simp [sshString, length_toBeBytes, lenPrefix] at hlength
  omega

end Message

section Answer

variable {κ : Type} {toOpenssh : κ → Except String String} {key : κ} {openssh : String}
  {x : ControlSigner} {write : Except String Unit} {hashAlg : Option HashAlg} {toSign : Bytes}

theorem authPublickeySign_control (h : toOpenssh key = .ok openssh) :
    authPublickeySign toOpenssh (ControlSigner.remote write) x key hashAlg toSign =
      ((x.sign ⟨openssh.toUTF8.data.toList, toSign, write⟩).1.map
        (Except.mapError SignerError.remote),
       (x.sign ⟨openssh.toUTF8.data.toList, toSign, write⟩).2) := by
  simp only [authPublickeySign, h, ControlSigner.remote]

theorem ControlSigner.sign_answered {publicKey signature : Bytes} {skipped rest : List Recv}
    (hunread : x.unread = skipped ++ .ok (.signResponse x.nextId signature) :: rest)
    (hskip : ∀ f ∈ skipped, Skips x.nextId f) :
    (x.sign ⟨publicKey, toSign, .ok ()⟩).1 = some (.ok signature) := by
  have hawait : awaitSignature x.nextId x.unread = (some (.ok signature), rest) :=
    awaitSignature_eq_some.mpr ⟨skipped, _, hunread, hskip, signVerdict_eq_ok.mpr rfl⟩
  exact ((ControlSigner.sign_written rfl).mpr hawait).1

end Answer

/-- The challenge goes out to the client as it is and its answer comes back to russh as it is, where
the challenge should come back with the answer after it: the message of the held key, which the
target asks for, is never sent. -/
theorem delegated_message {κ : Type} {toOpenssh : κ → Except String String} {key : κ}
    {openssh : String} (hkey : toOpenssh key = .ok openssh) (hashAlg : Option HashAlg)
    {x : ControlSigner} {skipped rest : List Recv} (sessionId request : Bytes) {signature : Bytes}
    (hunread : x.unread = skipped ++ .ok (.signResponse x.nextId signature) :: rest)
    (hskip : ∀ f ∈ skipped, Skips x.nextId f) :
    let signed := authPublickeySign toOpenssh (ControlSigner.remote (.ok ())) x key hashAlg
      (sessionId ++ request)
    signed.2.sends = x.sends ++
      [(.signRequest x.nextId openssh.toUTF8.data.toList (sessionId ++ request), .ok ())] ∧
    signed.1 = some (.ok signature) ∧
    (∀ held, Signs (sessionId ++ request) signature held →
      transmitted sessionId held = some (request ++ sshString signature)) ∧
    ¬∃ returned, signed.1 = some (.ok returned) ∧
      transmitted sessionId returned = some (request ++ sshString signature) := by
  intro signed
  have hanswer : signed.1 = some (.ok signature) := by
    simp only [signed, authPublickeySign_control hkey, ControlSigner.sign_answered hunread hskip]
    rfl
  refine ⟨?_, hanswer, fun held hheld => hheld.transmitted, ?_⟩
  · simp only [signed, authPublickeySign_control hkey, ControlSigner.sign_sends]
  · rintro ⟨returned, hreturned, hsent⟩
    rw [hanswer] at hreturned
    cases hreturned
    exact transmitted_signature_ne hsent

theorem delegated_message_unsent :
    let signed := authPublickeySign (fun (_ : Unit) => .ok "ssh-ed25519 AAAA")
      (ControlSigner.remote (.ok ()))
      (ControlSigner.new [.ok .ping, .ok (.signResponse 1 [7, 8, 9])]) () none ([1, 2] ++ [50, 3, 4])
    ¬∃ returned, signed.1 = some (.ok returned) ∧
      transmitted [1, 2] returned = some ([50, 3, 4] ++ sshString [7, 8, 9]) := by
  refine (@delegated_message Unit (fun _ => .ok "ssh-ed25519 AAAA") () "ssh-ed25519 AAAA" rfl none
    (ControlSigner.new [.ok .ping, .ok (.signResponse 1 [7, 8, 9])]) [.ok .ping] [] [1, 2]
    [50, 3, 4] [7, 8, 9] rfl ?_).2.2.2
  intro f hf
  exact Or.inl (List.mem_singleton.mp hf)

/-- A client that answers as it should, and a target that is sent the end of the signature. -/
theorem delegated_message_cut :
    let signed := authPublickeySign (fun (_ : Unit) => .ok "ssh-ed25519 AAAA")
      (ControlSigner.remote (.ok ())) (ControlSigner.new [.ok (.signResponse 1 [7, 8, 9])]) () none
      ([1, 2] ++ [50, 3, 4])
    signed.1 = some (.ok [7, 8, 9]) ∧ transmitted [1, 2] [7, 8, 9] = some [9] ∧
      transmitted [1, 2] ([1, 2] ++ [50, 3, 4] ++ sshString [7, 8, 9]) =
        some [50, 3, 4, 0, 0, 0, 3, 7, 8, 9] :=
  ⟨rfl, rfl, rfl⟩

section Steps

variable {κ : Type} {toOpenssh : κ → Except String String} {key : κ} {openssh : String}
  {s : State} {c : ConnId} {x y : ControlSigner} {write : Except String Unit}
  {hashAlg : Option HashAlg} {toSign : Bytes} {signed : Except SignerError Bytes}

/-- russh goes on with what the adapter returns, or reports why it did not. -/
def Pc.answered : Except SignerError Bytes → Pc
  | .ok _ => .login
  | .error e => .reject ("connect failed: delegated auth: " ++ e.toString)

theorem answered_signed (result : Except String Bytes) :
    Pc.answered (result.mapError SignerError.remote) = Pc.signed result := by
  cases result with
  | ok => rfl
  | error e =>
    have htext : "connect failed: delegated auth: " ++ "remote signer: " =
        "connect failed: delegated auth: remote signer: " := by decide
    change Pc.reject (_ ++ (_ ++ e)) = Pc.reject (_ ++ e)
    rw [← String.append_assoc, htext]

/-- A signature that russh asks for is a run of the handler. -/
theorem authPublickeySign_steps (hpc : (s.conns c).pc = .login)
    (hauth : (s.conns c).auth.any AuthIntent.delegated = true)
    (hid : (s.conns c).nextId = x.nextId) (hkey : toOpenssh key = .ok openssh)
    (h : authPublickeySign toOpenssh (ControlSigner.remote write) x key hashAlg toSign =
      (some signed, y)) :
    ∃ consumed s', x.unread = consumed ++ y.unread ∧
      exec step s (.signAsked c openssh.toUTF8.data.toList toSign :: .signSent c write ::
        consumed.map (.signRecv c)) = some s' ∧
      (s'.conns c).pc = Pc.answered signed ∧ (s'.conns c).nextId = y.nextId := by
  rw [authPublickeySign_control hkey, Prod.mk.injEq, Option.map_eq_some_iff] at h
  obtain ⟨⟨result, hresult, rfl⟩, hy⟩ := h
  have hsign : x.sign ⟨openssh.toUTF8.data.toList, toSign, write⟩ = (some result, y) := by
    rw [← hresult, ← hy]
  obtain ⟨consumed, s', hread, run, hpc', hid', -⟩ := sign_steps hpc hauth hid hsign
  exact ⟨consumed, s', hread, run, by rw [hpc', answered_signed], hid'⟩

end Steps

end TtyGateway
