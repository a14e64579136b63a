import TtyGateway.Conversation
import TtyGateway.ControlPlane
import TtyGateway.Intake
import TtyGateway.Mailing

namespace TtyGateway

open Transition Mailing

section Text

/-- The bytes that may follow `b` in a character, one after the other. -/
def utf8Tail (b : UInt8) : List (UInt8 × UInt8) :=
  if 0xC2 ≤ b ∧ b ≤ 0xDF then [(0x80, 0xBF)]
  else if b = 0xE0 then [(0xA0, 0xBF), (0x80, 0xBF)]
  else if b = 0xED then [(0x80, 0x9F), (0x80, 0xBF)]
  else if 0xE1 ≤ b ∧ b ≤ 0xEF then [(0x80, 0xBF), (0x80, 0xBF)]
  else if b = 0xF0 then [(0x90, 0xBF), (0x80, 0xBF), (0x80, 0xBF)]
  else if 0xF1 ≤ b ∧ b ≤ 0xF3 then [(0x80, 0xBF), (0x80, 0xBF), (0x80, 0xBF)]
  else if b = 0xF4 then [(0x80, 0x8F), (0x80, 0xBF), (0x80, 0xBF)]
  else []

/-- How many of the bytes are as the ranges have them, up to the first that is not. -/
def inRanges : List (UInt8 × UInt8) → Bytes → Nat
  | (lo, hi) :: ranges, b :: bytes => if lo ≤ b ∧ b ≤ hi then inRanges ranges bytes + 1 else 0
  | _, _ => 0

/-- The characters of `bytes` behind the first `skip`, with U+FFFD for each longest beginning of a
character that does not go on as one, and for each byte that begins none. -/
def lossyChars : Nat → Bytes → List Char
  | _, [] => []
  | skip + 1, _ :: bytes => lossyChars skip bytes
  | 0, b :: bytes =>
    match ByteArray.utf8DecodeChar? ⟨(b :: bytes).toArray⟩ 0 with
    | some c => c :: lossyChars (c.utf8Size - 1) bytes
    | none => '\uFFFD' :: lossyChars (inRanges (utf8Tail b) bytes) bytes

def fromUtf8Lossy (bytes : Bytes) : String := String.ofList (lossyChars 0 bytes)

def HttpAuthHook.tokenString (accountToken : Option Bytes) : String :=
  (accountToken.map fromUtf8Lossy).getD ""

theorem lossyChars_skip (skip : Nat) (bytes : Bytes) :
    lossyChars skip bytes = lossyChars 0 (bytes.drop skip) := by
  induction bytes generalizing skip with
  | nil => simp [lossyChars]
  | cons b bytes ih =>
    cases skip with
    | zero => rfl
    | succ skip => exact ih skip

theorem utf8Encode_cons_bytes (c : Char) (cs : List Char) :
    (c :: cs).utf8Encode.data.toList = String.utf8EncodeChar c ++ cs.utf8Encode.data.toList := by
  simp [List.utf8Encode]

theorem lossyChars_utf8Encode (cs : List Char) : lossyChars 0 cs.utf8Encode.data.toList = cs := by
  induction cs with
  | nil => rfl
  | cons c cs ih =>
    have hdecode :
        ByteArray.utf8DecodeChar? ⟨(c :: cs).utf8Encode.data.toList.toArray⟩ 0 = some c := by
      rw [Array.toArray_toList, List.utf8Encode_cons]
      exact List.utf8DecodeChar?_utf8Encode_singleton_append
    rw [utf8Encode_cons_bytes] at hdecode ⊢
    have hlen := String.length_utf8EncodeChar c
    cases hbytes : String.utf8EncodeChar c with
    | nil =>
      have hpos := c.utf8Size_pos
      simp [hbytes] at hlen
      omega
    | cons b bytes =>
      rw [hbytes, List.cons_append] at hdecode
      have hskip : c.utf8Size - 1 = bytes.length := by
        rw [← hlen, hbytes]
        rfl
      simp only [List.cons_append, lossyChars, hdecode]
      rw [hskip, lossyChars_skip, List.drop_left, ih]

/-- What is text already stays as it is. -/
theorem fromUtf8Lossy_text (s : String) : fromUtf8Lossy s.toUTF8.data.toList = s := by
  have h := lossyChars_utf8Encode s.toList
  rw [String.utf8Encode_toList] at h
  rw [fromUtf8Lossy, show s.toUTF8 = s.toByteArray from rfl, h, String.ofList_toList]

example : fromUtf8Lossy [0x61, 0xE2, 0x82, 0x62, 0xFF] = "a\uFFFDb\uFFFD" := by decide +kernel

end Text

structure EntitlementDto where
  maxBytesPerSec : Option UInt64
  maxSessions : Option UInt32
  deriving DecidableEq

structure AuthorizeResponse where
  allowed : Bool
  reason : Option String
  entitlement : EntitlementDto
  deriving DecidableEq

/-- A response to `/v1/authorize`, as `HttpResponse` is one to `/v1/sessions/open`. -/
structure AuthorizeReply where
  status : Nat
  statusText : String
  body : Except String AuthorizeResponse
  deriving DecidableEq

def AuthorizeReply.isSuccess (reply : AuthorizeReply) : Bool :=
  decide (200 ≤ reply.status ∧ reply.status < 300)

/-- `HttpAuthHook::authorize`, from the outcome of sending its request. -/
def HttpAuthHook.authorize (outcome : Except String AuthorizeReply) :
    Except Denied Entitlement := do
  let response ← outcome.mapError fun e => ⟨"control plane unreachable: " ++ e⟩
  if !response.isSuccess then
    throw ⟨"control plane returned " ++ response.statusText⟩
  let parsed ← response.body.mapError fun e => ⟨"bad control-plane response: " ++ e⟩
  if !parsed.allowed then
    throw ⟨parsed.reason.getD "authorization denied"⟩
  pure ⟨parsed.entitlement.maxBytesPerSec.map UInt64.toNat,
    parsed.entitlement.maxSessions.map UInt32.toNat⟩

structure UsageReport where
  accountToken : String
  sessionId : SessionId
  bytesIn : Nat
  bytesOut : Nat
  deriving DecidableEq

/-- A request of `authorize` or `report_usage`. Those about slots are `SlotRequest`. -/
inductive WebhookRequest
  | authorize (clientName : String) (accountToken : Option String)
  | usage (report : UsageReport)
  deriving DecidableEq

/-- The request of `HttpAuthHook::report_usage`, if the call is one and makes any. -/
def HookCall.usage : HookCall → Option UsageReport
  | .reportUsage accountToken sessionId bytesIn bytesOut =>
    if bytesIn = 0 ∧ bytesOut = 0 then none
    else some ⟨HttpAuthHook.tokenString accountToken, sessionId, bytesIn, bytesOut⟩
  | _ => none

/-- The gateway with its webhook, and the control plane's answers to `authorize` on their way back.
`asked` are the connections whose hook has sent that request. -/
structure Webhook where
  gateway : State
  asked : List ConnId
  mail : Mail (ConnId × WebhookRequest)
  replies : List (ConnId × AuthorizeReply)

def Webhook.init (maxScrollback : Nat) : Webhook := ⟨.init maxScrollback, [], .empty, []⟩

inductive WebhookLabel
  | gateway (l : Label)
  | ask (c : ConnId)
  | serve (n : Nat) (reply : AuthorizeReply)
  | lose (n : Nat)
  | loseReply (n : Nat)
  | answered (c : ConnId) (outcome : Except String AuthorizeReply)

def Label.admits : Label → Bool
  | .authorized _ _ => true
  | _ => false

section Steps

variable (s : Webhook)

def Webhook.reports (c : ConnId) (l : Label) : List (ConnId × WebhookRequest) :=
  ((s.gateway.asks c l).filterMap HookCall.usage).map fun report => (c, .usage report)

def Webhook.run (l : Label) : Option Webhook :=
  if l.admits then none
  else do
    let g ← step s.gateway l
    some { s with gateway := g, mail := s.mail.post (l.conn.elim [] (s.reports · l)) }

def Webhook.ask (c : ConnId) : Option Webhook :=
  let x := s.gateway.conns c
  if x.pc = .authorize ∧ c ∉ s.asked then
    some { s with
      asked := s.asked ++ [c]
      mail := s.mail.post [(c, .authorize x.clientName (x.accountToken.map fromUtf8Lossy))] }
  else none

/-- A request reaches the control plane, which answers what it was asked. -/
def Webhook.serve (n : Nat) (reply : AuthorizeReply) : Option Webhook := do
  let (request, mail) ← s.mail.deliver n
  match request with
  | (c, .authorize _ _) => some { s with mail, replies := s.replies ++ [(c, reply)] }
  | (_, .usage _) => some { s with mail }

def Webhook.lose (n : Nat) : Option Webhook := (s.mail.lose n).map ({ s with mail := · })

/-- A response reaches the hook, or the hook gives the request up. -/
def Webhook.answered (c : ConnId) (outcome : Except String AuthorizeReply) : Option Webhook := do
  let g ← step s.gateway (.authorized c (HttpAuthHook.authorize outcome))
  match outcome with
  | .ok reply =>
    if (c, reply) ∈ s.replies then
      some { s with gateway := g, replies := s.replies.erase (c, reply) }
    else none
  | .error _ => some { s with gateway := g }

end Steps

def webhookStep (s : Webhook) : WebhookLabel → Option Webhook
  | .gateway l => s.run l
  | .ask c => s.ask c
  | .serve n reply => s.serve n reply
  | .lose n => s.lose n
  | .loseReply n => some { s with replies := s.replies.eraseIdx n }
  | .answered c outcome => s.answered c outcome

def WebhookLabel.base : WebhookLabel → Option Label
  | .gateway l => some l
  | .answered c outcome => some (.authorized c (HttpAuthHook.authorize outcome))
  | _ => none

def hooked (ls : List WebhookLabel) : List Label := ls.filterMap WebhookLabel.base

inductive WebhookMove (s : Webhook) : WebhookLabel → Webhook → Prop
  | gateway {l g} : l.admits = false → step s.gateway l = some g →
      WebhookMove s (.gateway l)
        { s with gateway := g, mail := s.mail.post (l.conn.elim [] (s.reports · l)) }
  | ask {c} : (s.gateway.conns c).pc = .authorize → c ∉ s.asked →
      WebhookMove s (.ask c)
        { s with
          asked := s.asked ++ [c]
          mail := s.mail.post [(c, .authorize (s.gateway.conns c).clientName
            ((s.gateway.conns c).accountToken.map fromUtf8Lossy))] }
  | asked {n reply c clientName accountToken mail} :
      s.mail.deliver n = some ((c, .authorize clientName accountToken), mail) →
      WebhookMove s (.serve n reply) { s with mail, replies := s.replies ++ [(c, reply)] }
  | told {n reply c report mail} : s.mail.deliver n = some ((c, .usage report), mail) →
      WebhookMove s (.serve n reply) { s with mail }
  | lost {n mail} : s.mail.lose n = some mail → WebhookMove s (.lose n) { s with mail }
  | unanswered {n} : WebhookMove s (.loseReply n) { s with replies := s.replies.eraseIdx n }
  | answered {c reply g} :
      step s.gateway (.authorized c (HttpAuthHook.authorize (.ok reply))) = some g →
      (c, reply) ∈ s.replies →
      WebhookMove s (.answered c (.ok reply))
        { s with gateway := g, replies := s.replies.erase (c, reply) }
  | gaveUp {c e g} : step s.gateway (.authorized c (HttpAuthHook.authorize (.error e))) = some g →
      WebhookMove s (.answered c (.error e)) { s with gateway := g }

theorem webhook_move {s s' : Webhook} {l : WebhookLabel} (h : webhookStep s l = some s') :
    WebhookMove s l s' := by
  cases l with
  | gateway l =>
    simp only [webhookStep, Webhook.run] at h
    split at h
    next => cases h
    next hadmits =>
      obtain ⟨g, hg, he⟩ := Option.bind_eq_some_iff.mp h
      cases he
      exact .gateway (by simpa using hadmits) hg
  | ask c =>
    obtain ⟨⟨hpc, hasked⟩, he⟩ := Option.ite_none_right_eq_some.mp h
    cases he
    exact .ask hpc hasked
  | serve n reply =>
    obtain ⟨⟨⟨c, request⟩, mail⟩, hmail, h⟩ := Option.bind_eq_some_iff.mp h
    cases request with
    | authorize clientName accountToken =>
      cases h
      exact .asked hmail
    | usage report =>
      cases h
      exact .told hmail
  | lose n =>
    obtain ⟨mail, hmail, rfl⟩ := Option.map_eq_some_iff.mp h
    exact .lost hmail
  | loseReply n =>
    cases h
    exact .unanswered
  | answered c outcome =>
    obtain ⟨g, hg, h⟩ := Option.bind_eq_some_iff.mp h
    cases outcome with
    | ok reply =>
      obtain ⟨hmem, he⟩ := Option.ite_none_right_eq_some.mp h
      cases he
      exact .answered hg hmem
    | error e =>
      cases h
      exact .gaveUp hg

/-- Access is granted only by a response that is a success and says so. -/
theorem HttpAuthHook.authorize_eq_ok {outcome : Except String AuthorizeReply}
    {entitlement : Entitlement} (h : HttpAuthHook.authorize outcome = .ok entitlement) :
    ∃ reply parsed, outcome = .ok reply ∧ reply.isSuccess = true ∧ reply.body = .ok parsed ∧
      parsed.allowed = true ∧ entitlement = ⟨parsed.entitlement.maxBytesPerSec.map UInt64.toNat,
        parsed.entitlement.maxSessions.map UInt32.toNat⟩ := by
  cases outcome with
  | error e => cases h
  | ok reply =>
    simp only [authorize, Except.mapError, bind, Except.bind, throw, throwThe, MonadExceptOf.throw,
      pure, Except.pure] at h
    cases hsuccess : reply.isSuccess with
    | false => simp [hsuccess] at h
    | true =>
      cases hbody : reply.body with
      | error e => simp [hsuccess, hbody] at h
      | ok parsed =>
        cases hallowed : parsed.allowed with
        | false => simp [hsuccess, hbody, hallowed] at h
        | true =>
          simp only [hsuccess, hbody, hallowed, Bool.not_true, Bool.false_eq_true, if_false,
            Except.ok.injEq] at h
          exact ⟨reply, parsed, rfl, hsuccess, hbody, hallowed, h.symm⟩

end TtyGateway
