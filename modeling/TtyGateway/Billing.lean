import TtyGateway.Webhook

namespace TtyGateway

open Transition Mailing

/-- The bytes that connection `c` takes from its client in a run. -/
def typedBytes (c : ConnId) (ls : List Label) : Nat := inputBytes (ls.flatMap (Label.typed c))

/-- The bytes of output that the connection's reader has returned. -/
def Conn.yieldedBytes (x : Conn) : Nat := (x.yielded.map fun piece => piece.2.length).sum

def Pc.reported (pc : Pc) : Prop := pc.talk = .accounted ∨ pc.talk = .closing ∨ pc.talk = .ended

section Reports

variable {s s' : State} {c : ConnId} {l : Label} {ls : List Label} {maxScrollback : Nat}

theorem typedBytes_append (l : Label) :
    typedBytes c (ls ++ [l]) = typedBytes c ls + inputBytes (l.typed c) := by
  simp [typedBytes, inputBytes_append]

theorem exec_typedBytes (run : exec step (.init maxScrollback) ls = some s) :
    (s.conns c).meter.bytesIn = typedBytes c ls := by
  refine exec_trace (P := fun ls (s : State) => (s.conns c).meter.bytesIn = typedBytes c ls)
    rfl ?_ run
  intro ms t l t' h hs
  rw [typedBytes_append, step_bytesIn hs c, h]

theorem Move.keeps_reported (m : Move s l s') (h : (s.conns c).pc.reported) :
    (s'.conns c).pc.reported := by
  by_cases hl : l.conn = some c
  · cases m with
    | reported hpc | ended hpc | kept hpc | closeCall hpc | closeReturned hpc | leave hpc =>
      cases hl
      simp [Pc.reported, Pc.talk]
    | senderStart | chunk | finished | parked | oob | oobClosed | unlimited | admitted | delayed
    | wake | addOut | written | unwritten | closedWritten | closedUnwritten | cancel =>
      cases hl
      simpa using h
    | signIgnored | recvIgnored => exact h
    | actorOutput | actorInput | actorEnd | actorNone | ingest | ingestEnd | tick => cases hl
    | accept hpc | helloLost hpc | hello hpc | helloRefused _ hpc | authorized hpc | denied hpc
    | resumed hpc | unresumed hpc | openLost hpc | openTarget hpc | openRefused _ hpc
    | loginFailed hpc | signAsked hpc | signSent hpc | signUnsent hpc | signed hpc
    | signRefused _ hpc | loggedIn hpc | slotTaken hpc | slotDenied hpc | rejectSent hpc
    | rejectUnsent hpc | helloSent hpc | helloUnsent hpc | statusSent hpc | statusUnsent hpc
    | recvData hpc | recvResize hpc | recvPing hpc | recvClose hpc | recvLost hpc | ponged hpc
    | unponged hpc | forwarded hpc | unforwarded hpc | abort hpc | report hpc =>
      cases hl
      simp [Pc.reported, hpc, Pc.talk] at h
  · rw [m.conns_of_ne hl]
    exact h

theorem Move.bytesOut_mono (m : Move s l s') :
    (s.conns c).meter.bytesOut ≤ (s'.conns c).meter.bytesOut := by
  by_cases hl : l = .addOut c
  · subst hl
    cases m with
    | addOut => simp [UsageMeter.addOut]
  · exact (m.bytesOut_of_ne hl).ge

theorem Move.yieldedBytes_mono (m : Move s l s') :
    (s.conns c).yieldedBytes ≤ (s'.conns c).yieldedBytes := by
  by_cases hl : l.conn = some c
  · cases m with
    | chunk =>
      cases hl
      simp [Conn.yieldedBytes]
    | signIgnored | recvIgnored => exact le_rfl
    | actorOutput | actorInput | actorEnd | actorNone | ingest | ingestEnd | tick => cases hl
    | _ =>
      cases hl
      simp [Conn.yieldedBytes]
  · rw [m.conns_of_ne hl]

theorem Move.counted (m : Move s l s') (delivers : s.Delivers)
    (metered : (s.conns c).Metered (s.delivered c))
    (h : (s.conns c).meter.bytesOut ≤ (s.conns c).yieldedBytes) :
    (s'.conns c).meter.bytesOut ≤ (s'.conns c).yieldedBytes := by
  by_cases hl : l = .addOut c
  · subst hl
    cases m with
    | @addOut _ bytes time hpc =>
      obtain ⟨rest, hyielded, -, hrest⟩ := delivers.accounts c
      have hsum : (s.conns c).yieldedBytes = s.delivered c + bytes.length := by
        have hlen := congrArg (fun ds => (ds.map List.length).sum) hyielded
        rw [hrest (by simp [hpc]), hpc] at hlen
        simpa [Conn.yieldedBytes, State.delivered, SenderPc.inFlight, Function.comp_def] using
          hlen.symm
      have hrun := metered.running (by simp [hpc])
      simp only [hpc, SenderPc.counted] at hrun
      simp only [State.setConn_conns_self, UsageMeter.addOut, Conn.yieldedBytes] at hsum ⊢
      omega
  · rw [m.bytesOut_of_ne hl]
    exact h.trans m.yieldedBytes_mono

/-- A report is made by the handler that has come to it, of its meter as it stands. -/
theorem Move.usage_of_call {account : Option Bytes} {id : SessionId} {bytesIn bytesOut : Nat}
    (m : Move s l s')
    (h : .reportUsage account id bytesIn bytesOut ∈ s'.calls.drop s.calls.length)
    (hl : l.conn = some c) : l = .report c ∧ (s'.conns c).pc.reported ∧
      bytesIn = (s'.conns c).meter.bytesIn ∧ bytesOut = (s'.conns c).meter.bytesOut := by
  cases m with
  | report hpc hsession =>
    cases hl
    simp only [State.setConn_calls, State.call_calls, List.drop_left, List.mem_singleton] at h
    cases h
    simp [Pc.reported, Pc.talk]
  | _ => simp at h

end Reports

/-- What a connection has reported, and what that is of what it used. -/
structure Conn.Accounted (x : Conn) (calls : List HookCall) : Prop where
  reported : ∀ account id bytesIn bytesOut, .reportUsage account id bytesIn bytesOut ∈ calls →
    x.pc.reported ∧ bytesIn = x.meter.bytesIn ∧ bytesOut ≤ x.meter.bytesOut
  counted : x.meter.bytesOut ≤ x.yieldedBytes

section Accounted

variable {s s' : State} {c : ConnId} {l : Label} {ls : List Label} {maxScrollback : Nat}

theorem exec_usage (run : exec step (.init maxScrollback) ls = some s) :
    (s.conns c).Accounted (conversation c (.init maxScrollback) ls) := by
  have trace : exec step (.init maxScrollback) ls = some s ∧
      (s.conns c).Accounted (conversation c (.init maxScrollback) ls) := by
    refine exec_trace (P := fun ls s => exec step (.init maxScrollback) ls = some s ∧
      (s.conns c).Accounted (conversation c (.init maxScrollback) ls))
      ⟨rfl, fun _ _ _ _ hm => ?_, le_rfl⟩ ?_ run
    · exact absurd hm List.not_mem_nil
    · rintro ms t l t' ⟨hrun, h⟩ hs
      have m := step_move hs
      have reach := reachable_exec .init hrun
      refine ⟨exec_concat hrun hs, fun account id bytesIn bytesOut hm => ?_,
        m.counted (gateway_delivers reach).1 (gateway_metered reach c) h.counted⟩
      rw [conversation_concat hrun hs] at hm
      rcases List.mem_append.mp hm with hm | hm
      · obtain ⟨hreported, hin, hout⟩ := h.reported account id bytesIn bytesOut hm
        have htyped : l.typed c = [] := by
          by_contra hne
          simp [typed_live hs hne, Pc.reported, Pc.talk] at hreported
        refine ⟨m.keeps_reported hreported, ?_, hout.trans m.bytesOut_mono⟩
        rw [step_bytesIn hs c, htyped]
        exact hin
      · split at hm
        next hl =>
          obtain ⟨-, hreported, hin, hout⟩ := m.usage_of_call hm hl
          exact ⟨hreported, hin, hout.le⟩
        next => exact absurd hm List.not_mem_nil
  exact trace.2

end Accounted

/-- The report of connection `c` in a piece of mail, if it is one. -/
def usageOf (c : ConnId) : ConnId × WebhookRequest → Option UsageReport
  | (d, .usage report) => if d = c then some report else none
  | (_, .authorize _ _) => none

structure Webhook.Holds (s : Webhook) (maxScrollback : Nat) (ls : List WebhookLabel) : Prop where
  run : exec step (.init maxScrollback) (hooked ls) = some s.gateway
  posted : ∀ c, (s.mail.posted.filterMap (usageOf c)).Perm
    ((conversation c (.init maxScrollback) (hooked ls)).filterMap HookCall.usage)
  asked : ∀ c clientName accountToken, (c, .authorize clientName accountToken) ∈ s.mail.posted →
    (s.gateway.conns c).pc ≠ .idle ∧ (s.gateway.conns c).pc ≠ .hello ∧
      clientName = (s.gateway.conns c).clientName ∧
      accountToken = (s.gateway.conns c).accountToken.map fromUtf8Lossy
  answered : ∀ c reply, (c, reply) ∈ s.replies →
    ∃ clientName accountToken, (c, .authorize clientName accountToken) ∈ s.mail.arrived
  granted : ∀ c clientName accountToken entitlement,
    .authorize clientName accountToken (.ok entitlement) ∈
      conversation c (.init maxScrollback) (hooked ls) →
    ∃ reply, .answered c (.ok reply) ∈ ls ∧
      HttpAuthHook.authorize (.ok reply) = .ok entitlement ∧
      ∃ clientName accountToken, (c, .authorize clientName accountToken) ∈ s.mail.arrived

section Holds

variable {s s' : Webhook} {l : WebhookLabel} {ls : List WebhookLabel} {c : ConnId}
  {maxScrollback : Nat}

theorem hooked_append (l : WebhookLabel) : hooked (ls ++ [l]) = hooked ls ++ l.base.toList := by
  rw [hooked, List.filterMap_append]
  cases h : l.base <;> simp [hooked, h]

theorem usageOf_reports (s : Webhook) (c d : ConnId) (l : Label) :
    (s.reports d l).filterMap (usageOf c) =
      if d = c then (s.gateway.asks c l).filterMap HookCall.usage else [] := by
  unfold Webhook.reports
  by_cases hd : d = c
  · subst hd
    simp [List.filterMap_map, Function.comp_def, usageOf]
  · simp [List.filterMap_map, Function.comp_def, usageOf, hd]

theorem Move.keeps_hello {s s' : State} {l : Label} (m : Move s l s')
    (h : (s.conns c).pc ≠ .idle ∧ (s.conns c).pc ≠ .hello) :
    (s'.conns c).pc ≠ .idle ∧ (s'.conns c).pc ≠ .hello ∧
      (s'.conns c).clientName = (s.conns c).clientName ∧
      (s'.conns c).accountToken = (s.conns c).accountToken := by
  obtain ⟨hidle, hhello⟩ := h
  by_cases hl : l.conn = some c
  · cases m with
    | accept hpc | helloLost hpc | hello hpc | helloRefused _ hpc =>
      cases hl
      simp [hpc] at hidle hhello
    | senderStart | chunk | finished | parked | oob | oobClosed | unlimited | admitted | delayed
    | wake | addOut | written | unwritten | closedWritten | closedUnwritten | cancel =>
      cases hl
      simp [hidle, hhello]
    | signIgnored | recvIgnored => exact ⟨hidle, hhello, rfl, rfl⟩
    | actorOutput | actorInput | actorEnd | actorNone | ingest | ingestEnd | tick => cases hl
    | _ =>
      cases hl
      simp
  · rw [m.conns_of_ne hl]
    exact ⟨hidle, hhello, rfl, rfl⟩

theorem conversation_asks {s : State} {ks : List Label} {k : Label}
    (run : exec step (.init maxScrollback) ks = some s) :
    conversation c (.init maxScrollback) (ks ++ [k]) =
      conversation c (.init maxScrollback) ks ++ s.asks c k :=
  emitted_concat run

/-- Only the return of `authorize` is on record as a call of it, and it is no report. -/
theorem asks_authorized {s g : State} {k : Label} {c : ConnId} (hs : step s k = some g) :
    (k.admits = false → ∀ clientName accountToken answer,
      .authorize clientName accountToken answer ∉ s.asks c k) ∧
    ∀ d answer, k = .authorized d answer → (s.asks c k).filterMap HookCall.usage = [] ∧
      ∀ clientName accountToken answer', .authorize clientName accountToken answer' ∈ s.asks c k →
        d = c ∧ answer' = answer := by
  refine ⟨fun hk clientName accountToken answer hm => ?_, fun d answer hk => ?_⟩
  · unfold State.asks at hm
    split at hm
    next =>
      rw [hs, Option.elim_some] at hm
      cases step_move hs with
      | authorized | denied => cases hk
      | _ => simp at hm
    next => exact absurd hm List.not_mem_nil
  · subst hk
    unfold State.asks
    split
    next hd =>
      obtain rfl : d = c := Option.some.inj hd
      rw [hs, Option.elim_some]
      cases step_move hs with
      | authorized | denied => simp [HookCall.usage]
    next => simp

theorem Webhook.Holds.relay (h : s.Holds maxScrollback ls) (base : l.base = none)
    (gateway : s'.gateway = s.gateway)
    (posted : ∀ c,
      (s'.mail.posted.filterMap (usageOf c)).Perm (s.mail.posted.filterMap (usageOf c)))
    (asked : ∀ c clientName accountToken,
      (c, .authorize clientName accountToken) ∈ s'.mail.posted →
      (c, .authorize clientName accountToken) ∈ s.mail.posted ∨
        (s.gateway.conns c).pc = .authorize ∧ clientName = (s.gateway.conns c).clientName ∧
          accountToken = (s.gateway.conns c).accountToken.map fromUtf8Lossy)
    (arrived : ∀ x ∈ s.mail.arrived, x ∈ s'.mail.arrived)
    (replies : ∀ c reply, (c, reply) ∈ s'.replies → (c, reply) ∈ s.replies ∨
      ∃ clientName accountToken, (c, .authorize clientName accountToken) ∈ s'.mail.arrived) :
    s'.Holds maxScrollback (ls ++ [l]) := by
  have hhooked : hooked (ls ++ [l]) = hooked ls := by
    rw [hooked_append, base]
    simp
  refine ⟨by rw [hhooked, gateway]; exact h.run, fun c => ?_,
    fun c clientName accountToken hm => ?_, fun c reply hm => ?_,
    fun c clientName accountToken entitlement hm => ?_⟩
  · rw [hhooked]
    exact (posted c).trans (h.posted c)
  · rw [gateway]
    rcases asked c clientName accountToken hm with hm | ⟨hpc, hname, htoken⟩
    · exact h.asked c clientName accountToken hm
    · exact ⟨by simp [hpc], by simp [hpc], hname, htoken⟩
  · rcases replies c reply hm with hm | hm
    · obtain ⟨clientName, accountToken, hin⟩ := h.answered c reply hm
      exact ⟨clientName, accountToken, arrived _ hin⟩
    · exact hm
  · rw [hhooked] at hm
    obtain ⟨reply, hreply, hok, name, token, hin⟩ :=
      h.granted c clientName accountToken entitlement hm
    exact ⟨reply, List.mem_append_left _ hreply, hok, name, token, arrived _ hin⟩

theorem Webhook.Holds.admit {d : ConnId} {answer : Except Denied Entitlement} {g : State}
    {replies : List (ConnId × AuthorizeReply)} (h : s.Holds maxScrollback ls)
    (base : l.base = some (.authorized d answer))
    (hg : step s.gateway (.authorized d answer) = some g)
    (subset : ∀ x ∈ replies, x ∈ s.replies)
    (ok : ∀ entitlement, answer = .ok entitlement → ∃ reply, l = .answered d (.ok reply) ∧
      HttpAuthHook.authorize (.ok reply) = .ok entitlement ∧ (d, reply) ∈ s.replies) :
    Webhook.Holds { s with gateway := g, replies } maxScrollback (ls ++ [l]) := by
  refine ⟨?_, fun c => ?_, fun c clientName accountToken hm => ?_,
    fun c reply hm => h.answered c reply (subset _ hm),
    fun c clientName accountToken entitlement hm => ?_⟩
  · rw [hooked_append, base]
    exact exec_concat h.run hg
  · rw [hooked_append, base, Option.toList_some, conversation_asks h.run, List.filterMap_append,
      ((asks_authorized hg).2 d answer rfl).1, List.append_nil]
    exact h.posted c
  · obtain ⟨hidle, hhello, hname, htoken⟩ := h.asked c clientName accountToken hm
    obtain ⟨hidle, hhello, hname', htoken'⟩ := (step_move hg).keeps_hello ⟨hidle, hhello⟩
    exact ⟨hidle, hhello, hname.trans hname'.symm, by rw [htoken, htoken']⟩
  · rw [hooked_append, base, Option.toList_some, conversation_asks h.run] at hm
    rcases List.mem_append.mp hm with hm | hm
    · obtain ⟨reply, hreply, hok, hasked⟩ := h.granted c clientName accountToken entitlement hm
      exact ⟨reply, List.mem_append_left _ hreply, hok, hasked⟩
    · obtain ⟨rfl, hanswer⟩ := ((asks_authorized hg).2 d answer rfl).2 _ _ _ hm
      obtain ⟨reply, rfl, hok, hreply⟩ := ok entitlement hanswer.symm
      exact ⟨reply, by simp, hok, h.answered d reply hreply⟩

theorem WebhookMove.holds (m : WebhookMove s l s') (h : s.Holds maxScrollback ls) :
    s'.Holds maxScrollback (ls ++ [l]) := by
  cases m with
  | @gateway l g hadmits hg =>
    have m := step_move hg
    refine ⟨?_, fun c => ?_, fun c clientName accountToken hm => ?_, h.answered,
      fun c clientName accountToken entitlement hm => ?_⟩
    · rw [hooked_append]
      exact exec_concat h.run hg
    · rw [hooked_append, Mail.post_posted, List.filterMap_append]
      simp only [WebhookLabel.base, Option.toList_some]
      rw [conversation_asks h.run, List.filterMap_append]
      refine (h.posted c).append ?_
      cases hl : l.conn with
      | none => simp [State.asks, hl]
      | some d =>
        rw [Option.elim_some, usageOf_reports]
        by_cases hd : d = c
        · rw [if_pos hd]
        · simp [State.asks, hl, hd]
    · rw [Mail.post_posted] at hm
      have hm : (c, .authorize clientName accountToken) ∈ s.mail.posted := by
        rcases List.mem_append.mp hm with hm | hm
        · exact hm
        · cases hl : l.conn with
          | none => simp [hl] at hm
          | some d => simp [hl, Webhook.reports] at hm
      obtain ⟨hidle, hhello, hname, htoken⟩ := h.asked c clientName accountToken hm
      obtain ⟨hidle, hhello, hname', htoken'⟩ := m.keeps_hello ⟨hidle, hhello⟩
      exact ⟨hidle, hhello, hname.trans hname'.symm, by rw [htoken, htoken']⟩
    · rw [hooked_append] at hm
      simp only [WebhookLabel.base, Option.toList_some] at hm
      rw [conversation_asks h.run] at hm
      rcases List.mem_append.mp hm with hm | hm
      · obtain ⟨reply, hreply, hok, hasked⟩ := h.granted c clientName accountToken entitlement hm
        exact ⟨reply, List.mem_append_left _ hreply, hok, hasked⟩
      · exact absurd hm ((asks_authorized hg).1 hadmits _ _ _)
  | @ask d hpc =>
    refine h.relay rfl rfl (fun c => ?_) (fun c clientName accountToken hm => ?_) (fun x hx => hx)
      (fun c reply hm => Or.inl hm)
    · rw [Mail.post_posted, List.filterMap_append]
      exact .of_eq (List.append_nil _)
    · rw [Mail.post_posted] at hm
      rcases List.mem_append.mp hm with hm | hm
      · exact Or.inl hm
      · cases List.mem_singleton.mp hm
        exact Or.inr ⟨hpc, rfl, rfl⟩
  | @asked n reply d clientName accountToken mail hmail =>
    obtain ⟨hposted, harrived, -⟩ := Mail.deliver_posted hmail
    refine h.relay rfl rfl (fun c => hposted.filterMap _)
      (fun _ _ _ hm => Or.inl (hposted.subset hm)) (fun x hx => by simp [harrived, hx])
      (fun c found hm => ?_)
    rcases List.mem_append.mp hm with hm | hm
    · exact Or.inl hm
    · cases List.mem_singleton.mp hm
      exact Or.inr ⟨clientName, accountToken, by simp [harrived]⟩
  | @told n reply d report mail hmail =>
    obtain ⟨hposted, harrived, -⟩ := Mail.deliver_posted hmail
    exact h.relay rfl rfl (fun c => hposted.filterMap _)
      (fun _ _ _ hm => Or.inl (hposted.subset hm)) (fun x hx => by simp [harrived, hx])
      (fun _ _ hm => Or.inl hm)
  | @lost n mail hmail =>
    obtain ⟨hposted, harrived⟩ := Mail.lose_posted hmail
    exact h.relay rfl rfl (fun c => hposted.filterMap _)
      (fun _ _ _ hm => Or.inl (hposted.subset hm)) (fun x hx => harrived ▸ hx)
      (fun _ _ hm => Or.inl hm)
  | @unanswered n =>
    exact h.relay rfl rfl (fun c => .refl _) (fun _ _ _ hm => Or.inl hm) (fun x hx => hx)
      (fun _ _ hm => Or.inl ((List.eraseIdx_sublist _ _).subset hm))
  | @answered d reply g hg hmem =>
    exact h.admit rfl hg (fun x hx => List.mem_of_mem_erase hx)
      fun entitlement he => ⟨reply, rfl, he, hmem⟩
  | @gaveUp d e g hg =>
    refine h.admit rfl hg (fun x hx => hx) fun entitlement he => ?_
    cases he

theorem webhook_holds (run : exec webhookStep (.init maxScrollback) ls = some s) :
    s.Holds maxScrollback ls := by
  refine exec_trace (P := fun ls (s : Webhook) => s.Holds maxScrollback ls) ?_
    (fun _ _ _ _ h hs => (webhook_move hs).holds h) run
  refine ⟨rfl, fun c => .refl _, ?_, ?_, ?_⟩ <;>
    simp [Webhook.init, Mail.empty, Mail.posted, hooked, conversation, emitted]

end Holds

section Calls

variable {x : Conn} {calls word : List HookCall}

theorem Conn.Dialogue.one_report (h : x.Dialogue word) :
    (word.filterMap HookCall.usage).length ≤ 1 := by
  cases h with
  | denied | failed | refused => simp [HookCall.usage, List.filterMap_cons]
  | opened bytesIn bytesOut | resumed bytesIn bytesOut =>
    by_cases hzero : bytesIn = 0 ∧ bytesOut = 0 <;>
      simp [HookCall.usage, List.filterMap_cons, hzero]

theorem Conn.Dialogue.usage {account : Option Bytes} {id : SessionId} {bytesIn bytesOut : Nat}
    (h : x.Dialogue word) (hm : .reportUsage account id bytesIn bytesOut ∈ word) :
    account = x.accountToken ∧ ∃ session, x.session = some session ∧ id = session.id := by
  cases h with
  | denied | failed | refused => simp at hm
  | opened _ _ hsession | resumed _ _ hsession =>
    simp only [List.mem_cons, List.not_mem_nil, or_false, reduceCtorEq, false_or,
      HookCall.reportUsage.injEq] at hm
    exact ⟨hm.1, _, hsession, hm.2.1⟩

theorem Conn.Conversed.granted (h : x.Conversed calls) (hpc : x.pc.authorized = true) :
    .authorize x.clientName x.accountToken (.ok x.entitlement) ∈ calls := by
  cases h with
  | unasked talk | failed talk =>
    cases hx : x.pc <;> simp [hx, Pc.talk, Pc.authorized] at talk hpc
  | asked _ all => simp [all]
  | admitted _ session _ all => simp [all, Conn.admission]
  | reported _ session _ _ _ all => simp [all, Conn.admission]
  | closed _ session _ _ _ all => simp [all, Conn.admission]

end Calls

/-- Whoever is let through was let through by the control plane, which got the request with this
client's name and token and answered it so; the answer's rate is the one that applies. -/
theorem admission_decided {maxScrollback : Nat} {ls : List WebhookLabel} {s : Webhook} {c : ConnId}
    (run : exec webhookStep (.init maxScrollback) ls = some s)
    (authorized : (s.gateway.conns c).pc.authorized = true) :
    (c, .authorize (s.gateway.conns c).clientName
      ((s.gateway.conns c).accountToken.map fromUtf8Lossy)) ∈ s.mail.arrived ∧
    ∃ reply parsed, .answered c (.ok reply) ∈ ls ∧ reply.isSuccess = true ∧
      reply.body = .ok parsed ∧ parsed.allowed = true ∧
      (s.gateway.conns c).entitlement = ⟨parsed.entitlement.maxBytesPerSec.map UInt64.toNat,
        parsed.entitlement.maxSessions.map UInt32.toNat⟩ := by
  have h := webhook_holds run
  have hcall := ((exec_conversed h.run).1 c).granted authorized
  obtain ⟨reply, hreply, hok, name, token, harrived⟩ := h.granted _ _ _ _ hcall
  obtain ⟨_, parsed, he, hsuccess, hbody, hallowed, hentitlement⟩ :=
    HttpAuthHook.authorize_eq_ok hok
  cases he
  obtain ⟨-, -, rfl, rfl⟩ := h.asked c name token (List.mem_append_left _ harrived)
  exact ⟨harrived, reply, parsed, hreply, hsuccess, hbody, hallowed, hentitlement⟩

theorem usage_mem {report : UsageReport} {calls : List HookCall}
    (h : report ∈ calls.filterMap HookCall.usage) : ∃ account, report.accountToken =
      HttpAuthHook.tokenString account ∧
      .reportUsage account report.sessionId report.bytesIn report.bytesOut ∈ calls := by
  obtain ⟨call, hcall, he⟩ := List.mem_filterMap.mp h
  cases call with
  | reportUsage account id bytesIn bytesOut =>
    obtain ⟨-, hreport⟩ := Option.ite_none_left_eq_some.mp he
    obtain rfl := Option.some.inj hreport
    exact ⟨account, rfl, hcall⟩
  | _ => cases he

theorem reported_at {maxScrollback : Nat} {ls : List Label} {c : ConnId}
    {account : Option Bytes} {id : SessionId} {bytesIn bytesOut : Nat}
    (h : .reportUsage account id bytesIn bytesOut ∈ conversation c (.init maxScrollback) ls) :
    ∃ before after t, ls = before ++ .report c :: after ∧
      exec step (.init maxScrollback) before = some t ∧ t.delivered c ≤ bytesOut := by
  obtain ⟨before, l, after, t, rfl, run, hm⟩ := mem_emitted.mp h
  unfold State.asks at hm
  split at hm
  next hl =>
    cases hs : step t l with
    | none => simp [hs] at hm
    | some t' =>
      rw [hs, Option.elim_some] at hm
      obtain ⟨rfl, -, -, hout⟩ := (step_move hs).usage_of_call hm hl
      have reach := reachable_exec .init run
      refine ⟨before, after, t, rfl, run, ?_⟩
      rw [hout, (step_move hs).bytesOut_of_ne (by simp)]
      exact (gateway_metered reach c).least
  next => exact absurd hm List.not_mem_nil

/-- The control plane bills a connection once at most, to the account and for the session that are
its own, for all the bytes of its client, and for no less output than was delivered when it left and
no more than was taken from the session for it. If no mail is lost it bills whoever typed. -/
theorem usage_billed {maxScrollback : Nat} {ls : List WebhookLabel} {s : Webhook}
    (run : exec webhookStep (.init maxScrollback) ls = some s) (c : ConnId) :
    (s.mail.arrived.filterMap (usageOf c)).length ≤ 1 ∧
    (∀ report, (c, .usage report) ∈ s.mail.arrived →
      report.accountToken = HttpAuthHook.tokenString (s.gateway.conns c).accountToken ∧
      (∃ session, (s.gateway.conns c).session = some session ∧ report.sessionId = session.id) ∧
      report.bytesIn = typedBytes c (hooked ls) ∧
      report.bytesOut ≤ (s.gateway.conns c).yieldedBytes ∧
      ∃ before after t, hooked ls = before ++ .report c :: after ∧
        exec step (.init maxScrollback) before = some t ∧ t.delivered c ≤ report.bytesOut) ∧
    (s.mail.underway = [] → s.mail.lost = [] → (s.gateway.conns c).pc = .done →
      typedBytes c (hooked ls) ≠ 0 → ∃ report, (c, .usage report) ∈ s.mail.arrived) := by
  have h := webhook_holds run
  have hconversed := (exec_conversed h.run).1 c
  have haccounted := exec_usage (c := c) h.run
  obtain ⟨word, hword, hpre⟩ := hconversed.word
  refine ⟨?_, fun report hreport => ?_, fun hunderway hlost hpc htyped => ?_⟩
  · calc (s.mail.arrived.filterMap (usageOf c)).length
        ≤ (s.mail.posted.filterMap (usageOf c)).length :=
          ((List.sublist_append_left _ _).filterMap _).length_le
      _ = ((conversation c (.init maxScrollback) (hooked ls)).filterMap HookCall.usage).length :=
          (h.posted c).length_eq
      _ ≤ (word.filterMap HookCall.usage).length := (hpre.filterMap _).length_le
      _ ≤ 1 := hword.one_report
  · have hposted : report ∈ s.mail.posted.filterMap (usageOf c) :=
      List.mem_filterMap.mpr ⟨_, List.mem_append_left _ hreport, by simp [usageOf]⟩
    obtain ⟨account, htoken, hcall⟩ := usage_mem ((h.posted c).subset hposted)
    obtain ⟨haccount, hsession⟩ := hword.usage (hpre.subset hcall)
    obtain ⟨-, hin, hout⟩ := haccounted.reported _ _ _ _ hcall
    refine ⟨by rw [htoken, haccount], hsession, ?_, hout.trans haccounted.counted,
      reported_at hcall⟩
    rw [hin, exec_typedBytes h.run]
  · obtain ⟨session, bytesIn, bytesOut, -, hcall⟩ := hconversed.of_ended (by rw [hpc]; rfl)
    obtain ⟨-, hin, -⟩ := haccounted.reported _ _ _ _ hcall
    rw [exec_typedBytes h.run] at hin
    have hmem : (⟨HttpAuthHook.tokenString (s.gateway.conns c).accountToken, session.id, bytesIn,
        bytesOut⟩ : UsageReport) ∈ s.mail.posted.filterMap (usageOf c) := by
      refine (h.posted c).symm.subset (List.mem_filterMap.mpr ⟨_, hcall, ?_⟩)
      simp [HookCall.usage, hin, htyped]
    obtain ⟨⟨d, request⟩, hposted, he⟩ := List.mem_filterMap.mp hmem
    cases request with
    | authorize => cases he
    | usage report =>
      obtain ⟨rfl, -⟩ := Option.ite_none_right_eq_some.mp he
      exact ⟨report, by simpa [Mail.posted, hunderway, hlost] using hposted⟩

/-- A client that was let in types a byte and closes. -/
def attending : List Label :=
  (opening 0 none .unlimited 5 [1]).drop 3 ++ [.recv 0 (.ok (.data [104])), .forward 0] ++
    ending 0 (.ok .close) ++ [.closeCall 0, .closeReturned 0, .leave 0]

/-- The control plane lets the client in, and gets its report. -/
def billing : List WebhookLabel :=
  [.gateway (.accept 0),
    .gateway (.recvHello 0 (.ok (.hello protocolVersion "client" none (some [97])))), .ask 0,
    .serve 0 ⟨200, "200 OK", .ok ⟨true, none, ⟨some 1000, none⟩⟩⟩,
    .answered 0 (.ok ⟨200, "200 OK", .ok ⟨true, none, ⟨some 1000, none⟩⟩⟩)] ++
  attending.map .gateway ++ [.serve 0 ⟨204, "204 No Content", .error "no body"⟩]

theorem billing_run : ∃ s, exec webhookStep (.init defaultScrollbackBytes) billing = some s ∧
    (s.gateway.conns 0).pc = .done ∧ s.mail.underway = [] ∧ s.mail.lost = [] ∧
    (s.gateway.conns 0).accountToken = some [97] :=
  exists_exec (by decide +kernel)

theorem billing_typed : typedBytes 0 (hooked billing) = 1 := by decide +kernel

theorem admission_decided_billing : ∃ s,
    exec webhookStep (.init defaultScrollbackBytes) billing = some s ∧
    ∃ reply parsed, .answered 0 (.ok reply) ∈ billing ∧ reply.body = .ok parsed ∧
      parsed.allowed = true := by
  obtain ⟨s, run, hpc, -⟩ := billing_run
  obtain ⟨-, reply, parsed, hreply, -, hbody, hallowed, -⟩ :=
    admission_decided run (c := 0) (by rw [hpc]; rfl)
  exact ⟨s, run, reply, parsed, hreply, hbody, hallowed⟩

theorem usage_billed_billing : ∃ s,
    exec webhookStep (.init defaultScrollbackBytes) billing = some s ∧
    ∃ report, (0, .usage report) ∈ s.mail.arrived ∧ report.accountToken = "a" ∧
      report.bytesIn = 1 := by
  obtain ⟨s, run, hpc, hunderway, hlost, htoken⟩ := billing_run
  obtain ⟨-, hbilled, hcomplete⟩ := usage_billed run 0
  obtain ⟨report, hreport⟩ := hcomplete hunderway hlost hpc (by simp [billing_typed])
  obtain ⟨haccount, -, hin, -⟩ := hbilled report hreport
  refine ⟨s, run, report, hreport, ?_, hin.trans billing_typed⟩
  rw [haccount, htoken]
  decide +kernel

end TtyGateway
