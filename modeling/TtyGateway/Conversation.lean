import TtyGateway.Slots
import TtyGateway.Interleaving

namespace TtyGateway

open Transition Interleaving

/-- What connection `c` calls of the hook in this step. -/
def State.asks (c : ConnId) (s : State) (l : Label) : List HookCall :=
  if l.conn = some c then (step s l).elim [] fun s' => s'.calls.drop s.calls.length else []

/-- The calls that connection `c` makes in a run, in order. -/
def conversation (c : ConnId) (init : State) (ls : List Label) : List HookCall :=
  emitted step (State.asks c) init ls

/-- The calls of connection `x` from first to last, all for the client and the account of its
`Hello` and for the session it has in the end. It is turned away at once, or fails on its way to a
session, or opens one and is refused that; otherwise its bytes are reported when it ends, and the
session, if that ends too, is reported closed after them. -/
inductive Conn.Dialogue (x : Conn) : List HookCall → Prop
  | denied (denied : Denied) :
      x.Dialogue [.authorize x.clientName x.accountToken (.error denied)]
  | failed : x.Dialogue [.authorize x.clientName x.accountToken (.ok x.entitlement)]
  | refused {session : SessionRef} (denied : Denied) : x.session = some session →
      x.Dialogue [.authorize x.clientName x.accountToken (.ok x.entitlement),
        .sessionOpen x.accountToken session.id x.clientName (.error denied)]
  | opened {session : SessionRef} (bytesIn bytesOut : Nat) : x.session = some session →
      x.resumed = false →
      x.Dialogue [.authorize x.clientName x.accountToken (.ok x.entitlement),
        .sessionOpen x.accountToken session.id x.clientName (.ok ()),
        .reportUsage x.accountToken session.id bytesIn bytesOut,
        .sessionClose x.accountToken session.id]
  | resumed {session : SessionRef} (bytesIn bytesOut : Nat) : x.session = some session →
      x.resumed = true →
      x.Dialogue [.authorize x.clientName x.accountToken (.ok x.entitlement),
        .reportUsage x.accountToken session.id bytesIn bytesOut,
        .sessionClose x.accountToken session.id]

/-- The calls by which a connection came to its session. -/
def Conn.admission (x : Conn) (id : SessionId) : List HookCall :=
  .authorize x.clientName x.accountToken (.ok x.entitlement) ::
    if x.resumed then [] else [.sessionOpen x.accountToken id x.clientName (.ok ())]

/-- How much of its dialogue with the hook a handler has behind it. In `ended` there are two ways
it can have gone. -/
inductive Talk
  | unasked | asked | failed | admitted | accounted | closing | ended
  deriving DecidableEq

def Pc.talk : Pc → Talk
  | .idle | .hello | .authorize => .unasked
  | .lookup | .openTarget | .login | .signSend _ _ _ | .signWait _ | .sessionOpen => .asked
  | .reject _ | .failed => .failed
  | .greet | .status | .live | .forward _ | .pong | .ending _ | .metering _ => .admitted
  | .reporting _ | .deciding _ | .closing => .accounted
  | .closeWait => .closing
  | .leaving | .done => .ended

/-- The calls of a connection so far, by where its handler stands. -/
inductive Conn.Conversed (x : Conn) (calls : List HookCall) : Prop
  | unasked (talk : x.pc.talk = .unasked) (none : calls = [])
  | failed (talk : x.pc.talk = .failed) (word : ∃ word, x.Dialogue word ∧ calls <+: word)
  | asked (talk : x.pc.talk = .asked)
      (all : calls = [.authorize x.clientName x.accountToken (.ok x.entitlement)])
  | admitted (talk : x.pc.talk = .admitted) (session : SessionRef)
      (held : x.session = some session) (all : calls = x.admission session.id)
  | reported (talk : x.pc.talk = .accounted ∨ x.pc.talk = .ended) (session : SessionRef)
      (bytesIn bytesOut : Nat) (held : x.session = some session)
      (all : calls = x.admission session.id ++
        [.reportUsage x.accountToken session.id bytesIn bytesOut])
  | closed (talk : x.pc.talk = .closing ∨ x.pc.talk = .ended) (session : SessionRef)
      (bytesIn bytesOut : Nat) (held : x.session = some session)
      (all : calls = x.admission session.id ++
        [.reportUsage x.accountToken session.id bytesIn bytesOut,
          .sessionClose x.accountToken session.id])

section Conversed

variable {x y : Conn} {calls : List HookCall}

theorem Conn.admission_dialogue {session : SessionRef} (hs : x.session = some session)
    (bytesIn bytesOut : Nat) :
    x.Dialogue (x.admission session.id ++
      [.reportUsage x.accountToken session.id bytesIn bytesOut,
        .sessionClose x.accountToken session.id]) := by
  unfold Conn.admission
  split
  next hr => exact .resumed bytesIn bytesOut hs hr
  next hr => exact .opened bytesIn bytesOut hs (by simpa using hr)

theorem Conn.Conversed.word (h : x.Conversed calls) :
    ∃ word, x.Dialogue word ∧ calls <+: word := by
  cases h with
  | unasked _ none => exact ⟨_, .denied ⟨""⟩, none ▸ List.nil_prefix⟩
  | failed _ word => exact word
  | asked _ all => exact ⟨_, .failed, all ▸ List.prefix_rfl⟩
  | admitted _ session held all =>
    exact ⟨_, Conn.admission_dialogue held 0 0, all ▸ List.prefix_append _ _⟩
  | reported _ session bytesIn bytesOut held all =>
    refine ⟨_, Conn.admission_dialogue held bytesIn bytesOut, all ▸ ?_⟩
    rw [List.prefix_append_right_inj]
    exact List.prefix_append [_] _
  | closed _ session bytesIn bytesOut held all =>
    exact ⟨_, Conn.admission_dialogue held bytesIn bytesOut, all ▸ List.prefix_rfl⟩

/-- The two connections are the same to the hook. -/
structure Conn.Alike (x y : Conn) : Prop where
  clientName : y.clientName = x.clientName
  account : y.accountToken = x.accountToken
  entitlement : y.entitlement = x.entitlement
  session : y.session = x.session
  resumed : y.resumed = x.resumed

theorem Conn.Alike.dialogue {word : List HookCall} (h : x.Alike y) (hd : x.Dialogue word) :
    y.Dialogue word := by
  obtain ⟨hname, haccount, hentitlement, hsession, hresumed⟩ := h
  cases hd with
  | denied denied =>
    rw [← hname, ← haccount]
    exact .denied denied
  | failed =>
    rw [← hname, ← haccount, ← hentitlement]
    exact .failed
  | refused denied hs =>
    rw [← hname, ← haccount, ← hentitlement]
    exact .refused denied (hsession.trans hs)
  | opened bytesIn bytesOut hs hr =>
    rw [← hname, ← haccount, ← hentitlement]
    exact .opened bytesIn bytesOut (hsession.trans hs) (hresumed.trans hr)
  | resumed bytesIn bytesOut hs hr =>
    rw [← hname, ← haccount, ← hentitlement]
    exact .resumed bytesIn bytesOut (hsession.trans hs) (hresumed.trans hr)

theorem Conn.Conversed.same (h : x.Conversed calls) (alike : x.Alike y)
    (talk : y.pc.talk = x.pc.talk) : y.Conversed calls := by
  have hadmission : ∀ id, y.admission id = x.admission id := fun id => by
    simp [Conn.admission, alike.clientName, alike.account, alike.entitlement, alike.resumed]
  cases h with
  | unasked ht none => exact .unasked (talk.trans ht) none
  | failed ht word =>
    obtain ⟨word, hd, hp⟩ := word
    exact .failed (talk.trans ht) ⟨word, alike.dialogue hd, hp⟩
  | asked ht all =>
    exact .asked (talk.trans ht) (by rwa [alike.clientName, alike.account, alike.entitlement])
  | admitted ht session held all =>
    exact .admitted (talk.trans ht) session (alike.session.trans held) (by rwa [hadmission])
  | reported ht session bytesIn bytesOut held all =>
    exact .reported (by rwa [talk]) session bytesIn bytesOut (alike.session.trans held)
      (by rwa [hadmission, alike.account])
  | closed ht session bytesIn bytesOut held all =>
    exact .closed (by rwa [talk]) session bytesIn bytesOut (alike.session.trans held)
      (by rwa [hadmission, alike.account])

theorem Conn.Conversed.give_up (h : x.Conversed calls) (alike : x.Alike y)
    (talk : y.pc.talk = .failed) : y.Conversed calls := by
  obtain ⟨word, hd, hp⟩ := h.word
  exact .failed talk ⟨word, alike.dialogue hd, hp⟩

theorem Conn.Conversed.of_unasked (h : x.Conversed calls) (talk : x.pc.talk = .unasked) :
    calls = [] := by
  cases h with
  | unasked _ none => exact none
  | failed ht | asked ht | admitted ht => simp [talk] at ht
  | reported ht | closed ht => simp [talk] at ht

theorem Conn.Conversed.of_asked (h : x.Conversed calls) (talk : x.pc.talk = .asked) :
    calls = [.authorize x.clientName x.accountToken (.ok x.entitlement)] := by
  cases h with
  | asked _ all => exact all
  | unasked ht | failed ht | admitted ht => simp [talk] at ht
  | reported ht | closed ht => simp [talk] at ht

theorem Conn.Conversed.of_admitted (h : x.Conversed calls) (talk : x.pc.talk = .admitted)
    {session : SessionRef} (hs : x.session = some session) :
    calls = x.admission session.id := by
  cases h with
  | admitted _ found held all =>
    obtain rfl := Option.some.inj (held.symm.trans hs)
    exact all
  | unasked ht | failed ht | asked ht => simp [talk] at ht
  | reported ht | closed ht => simp [talk] at ht

theorem Conn.Conversed.of_accounted (h : x.Conversed calls) (talk : x.pc.talk = .accounted) :
    ∃ session bytesIn bytesOut, x.session = some session ∧
      calls = x.admission session.id ++
        [.reportUsage x.accountToken session.id bytesIn bytesOut] := by
  cases h with
  | reported _ session bytesIn bytesOut held all =>
    exact ⟨session, bytesIn, bytesOut, held, all⟩
  | unasked ht | failed ht | asked ht | admitted ht | closed ht => simp [talk] at ht

theorem Conn.Conversed.of_closing (h : x.Conversed calls) (talk : x.pc.talk = .closing) :
    ∃ session bytesIn bytesOut, x.session = some session ∧
      calls = x.admission session.id ++
        [.reportUsage x.accountToken session.id bytesIn bytesOut,
          .sessionClose x.accountToken session.id] := by
  cases h with
  | closed _ session bytesIn bytesOut held all =>
    exact ⟨session, bytesIn, bytesOut, held, all⟩
  | unasked ht | failed ht | asked ht | admitted ht | reported ht => simp [talk] at ht

/-- Of a connection that ran to its end the bytes are on record. -/
theorem Conn.Conversed.of_ended (h : x.Conversed calls) (talk : x.pc.talk = .ended) :
    ∃ session bytesIn bytesOut, x.session = some session ∧
      .reportUsage x.accountToken session.id bytesIn bytesOut ∈ calls := by
  cases h with
  | reported _ session bytesIn bytesOut held all =>
    exact ⟨session, bytesIn, bytesOut, held, by simp [all]⟩
  | closed _ session bytesIn bytesOut held all =>
    exact ⟨session, bytesIn, bytesOut, held, by simp [all]⟩
  | unasked ht | failed ht | asked ht | admitted ht => simp [talk] at ht

end Conversed

/-- The dialogue of the connection that takes the step goes on by what is called in it. -/
theorem Move.conversed {s s' : State} {l : Label} (m : Move s l s') (sound : s.Sound) {c : ConnId}
    (hl : l.conn = some c) {calls : List HookCall} (h : (s.conns c).Conversed calls) :
    (s'.conns c).Conversed (calls ++ s'.calls.drop s.calls.length) := by
  cases m with
  | @hello d clientName resume accountToken hpc =>
    cases hl
    rw [h.of_unasked (by simp [hpc, Pc.talk])]
    simp only [State.setConn_conns_self, State.setConn_calls, List.drop_length, List.append_nil]
    exact .unasked rfl rfl
  | @authorized d entitlement hpc =>
    cases hl
    rw [h.of_unasked (by simp [hpc, Pc.talk])]
    simp only [State.setConn_conns_self, State.setConn_calls, State.call_calls, List.drop_left]
    exact .asked rfl rfl
  | @denied d denied hpc =>
    cases hl
    rw [h.of_unasked (by simp [hpc, Pc.talk])]
    simp only [State.setConn_conns_self, State.setConn_calls, State.call_calls, List.drop_left]
    exact .failed rfl ⟨_, .denied denied, List.prefix_rfl⟩
  | @resumed d token session hpc =>
    cases hl
    rw [h.of_asked (by simp [hpc, Pc.talk])]
    simp only [State.setConn_conns_self, State.setConn_calls, List.drop_length, List.append_nil]
    exact .admitted rfl session rfl (by simp [Conn.admission])
  | @loggedIn d id token hpc =>
    cases hl
    rw [h.of_asked (by simp [hpc, Pc.talk])]
    simp only [State.setConn_conns_self, State.setConn_calls, State.setSession_calls,
      List.drop_length, List.append_nil]
    exact .asked rfl rfl
  | @slotTaken d session hpc hs =>
    cases hl
    rw [h.of_asked (by simp [hpc, Pc.talk])]
    have hr : (s.conns c).resumed = false := (sound.owned.ok c).holding (Pc.stage_holding.mpr hpc)
    simp only [State.setConn_conns_self, State.setConn_calls, State.call_calls, List.drop_left]
    exact .admitted rfl session hs (by simp [Conn.admission, hr])
  | @slotDenied d session denied hpc hs =>
    cases hl
    rw [h.of_asked (by simp [hpc, Pc.talk])]
    simp only [State.setConn_conns_self, State.setConn_calls, State.call_calls, List.drop_left]
    exact .failed rfl ⟨_, .refused denied hs, List.prefix_rfl⟩
  | @report d session outcome hpc hs =>
    cases hl
    rw [h.of_admitted (by simp [hpc, Pc.talk]) hs]
    simp only [State.setConn_conns_self, State.setConn_calls, State.call_calls, List.drop_left]
    exact .reported (Or.inl rfl) session _ _ hs rfl
  | @closeCall d session hpc hs =>
    cases hl
    obtain ⟨found, bytesIn, bytesOut, held, rfl⟩ := h.of_accounted (by simp [hpc, Pc.talk])
    obtain rfl := Option.some.inj (held.symm.trans hs)
    simp only [State.setConn_conns_self, State.setConn_calls, State.call_calls, List.drop_left,
      List.append_assoc]
    exact .closed (Or.inl rfl) found bytesIn bytesOut hs rfl
  | @kept d session ses outcome hpc =>
    cases hl
    obtain ⟨found, bytesIn, bytesOut, held, rfl⟩ := h.of_accounted (by simp [hpc, Pc.talk])
    simp only [State.setConn_conns_self, State.setConn_calls, List.drop_length, List.append_nil]
    exact .reported (Or.inr rfl) found bytesIn bytesOut held rfl
  | @closeReturned d session hpc =>
    cases hl
    obtain ⟨found, bytesIn, bytesOut, held, rfl⟩ := h.of_closing (by simp [hpc, Pc.talk])
    simp only [State.setConn_conns_self, State.setConn_calls, List.drop_length, List.append_nil]
    exact .closed (Or.inr rfl) found bytesIn bytesOut held rfl
  | helloLost hpc | helloRefused _ hpc | openLost hpc | openRefused _ hpc | loginFailed hpc
  | signUnsent hpc | signRefused _ hpc | rejectSent hpc | rejectUnsent hpc | helloUnsent hpc
  | statusUnsent hpc =>
    cases hl
    simp only [State.setConn_conns_self, State.setConn_calls, State.put_calls, List.drop_length,
      List.append_nil]
    exact h.give_up ⟨rfl, rfl, rfl, rfl, rfl⟩ rfl
  | accept hpc | unresumed hpc | openTarget hpc | signAsked hpc | signSent hpc
  | signed hpc | helloSent hpc | statusSent hpc | recvData hpc | recvResize hpc | recvPing hpc
  | recvClose hpc | recvLost hpc | forwarded hpc | unforwarded hpc | ponged hpc | unponged hpc
  | abort hpc | reported hpc | ended hpc | leave hpc =>
    cases hl
    simp only [State.setConn_conns_self, State.setConn_calls, State.put_calls,
      State.setSession_calls, List.drop_length, List.append_nil]
    exact h.same ⟨rfl, rfl, rfl, rfl, rfl⟩ (by simp [hpc, Pc.talk])
  | signIgnored | recvIgnored => simpa using h
  | actorOutput | actorInput | actorEnd | actorNone | ingest | ingestEnd | tick => cases hl
  | _ =>
    cases hl
    simp only [State.setConn_conns_self, State.setConn_calls, State.put_calls, List.drop_length,
      List.append_nil]
    exact h.same ⟨rfl, rfl, rfl, rfl, rfl⟩ rfl

section Runs

variable {init s s' : State} {c : ConnId} {ls : List Label} {l : Label}

theorem conversation_concat (run : exec step init ls = some s) (hs : step s l = some s') :
    conversation c init (ls ++ [l]) = conversation c init ls ++
      if l.conn = some c then s'.calls.drop s.calls.length else [] := by
  rw [conversation, emitted_concat run, State.asks, hs]
  rfl

theorem Move.calls_append (m : Move s l s') : s'.calls = s.calls ++ s'.calls.drop s.calls.length ∧
    (l.conn = none → s'.calls = s.calls) := by
  cases m <;> simp [Label.conn]

theorem exec_conversed {maxScrollback : Nat} (run : exec step (.init maxScrollback) ls = some s) :
    (∀ c, (s.conns c).Conversed (conversation c (.init maxScrollback) ls)) ∧
      Interleaves (fun c => conversation c (.init maxScrollback) ls) s.calls := by
  have trace : exec step (.init maxScrollback) ls = some s ∧
      (∀ c, (s.conns c).Conversed (conversation c (.init maxScrollback) ls)) ∧
      Interleaves (fun c => conversation c (.init maxScrollback) ls) s.calls := by
    refine exec_trace (P := fun ls s => exec step (.init maxScrollback) ls = some s ∧
      (∀ c, (s.conns c).Conversed (conversation c (.init maxScrollback) ls)) ∧
      Interleaves (fun c => conversation c (.init maxScrollback) ls) s.calls) ?_ ?_ run
    · exact ⟨rfl, fun c => .unasked rfl rfl, interleaves_nil⟩
    · rintro ms t l t' ⟨hrun, hconversed, hmerged⟩ hs
      have m := step_move hs
      have sound := gateway_sound (reachable_exec .init hrun)
      obtain ⟨hgrows, hquiet⟩ := m.calls_append
      refine ⟨exec_concat hrun hs, fun c => ?_, ?_⟩
      · rw [conversation_concat hrun hs]
        by_cases hl : l.conn = some c
        · rw [if_pos hl]
          exact m.conversed sound hl (hconversed c)
        · rw [if_neg hl, List.append_nil, m.conns_of_ne hl]
          exact hconversed c
      · cases hl : l.conn with
        | none =>
          rw [hquiet hl]
          convert hmerged using 2 with c
          rw [conversation_concat hrun hs, hl]
          simp
        | some c =>
          rw [hgrows]
          refine hmerged.append (k := c) (fun d hd => ?_) ?_
          · rw [conversation_concat hrun hs, hl, if_neg (by simp [Ne.symm hd]), List.append_nil]
          · rw [conversation_concat hrun hs, hl, if_pos rfl]
  exact trace.2

/-- What the hook is called is a merge of one dialogue for each connection, and no connection ends
that had a session and did not report its bytes. -/
theorem hook_dialogues {maxScrollback : Nat} (run : exec step (.init maxScrollback) ls = some s) :
    Interleaves (fun c => conversation c (.init maxScrollback) ls) s.calls ∧
    ∀ c, (∃ word, (s.conns c).Dialogue word ∧ conversation c (.init maxScrollback) ls <+: word) ∧
      ((s.conns c).pc = .done → ∃ session bytesIn bytesOut, (s.conns c).session = some session ∧
        .reportUsage (s.conns c).accountToken session.id bytesIn bytesOut ∈
          conversation c (.init maxScrollback) ls) := by
  obtain ⟨hconversed, hmerged⟩ := exec_conversed run
  refine ⟨hmerged, fun c => ⟨(hconversed c).word, fun hpc => ?_⟩⟩
  exact (hconversed c).of_ended (by rw [hpc]; rfl)

end Runs

/-- Two clients at once: one opens a session and closes it, the other is turned away. -/
def dialogues : List Label :=
  [.accept 1, .recvHello 1 (.ok (.hello protocolVersion "other" none none))] ++
    opening 0 (some [7]) .unlimited 5 [1] ++ [.authorized 1 (.error ⟨"no credit"⟩)] ++
    ending 0 (.ok .close) ++ [.closeCall 0, .closeReturned 0, .leave 0]

theorem hook_dialogues_two : ∃ s, exec step (.init defaultScrollbackBytes) dialogues = some s ∧
    ((s.conns 0).pc = .done ∧ conversation 0 (.init defaultScrollbackBytes) dialogues =
      [.authorize "client" (some [7]) (.ok .unlimited), .sessionOpen (some [7]) 5 "client" (.ok ()),
        .reportUsage (some [7]) 5 0 0, .sessionClose (some [7]) 5]) ∧
    Interleaves (fun c => conversation c (.init defaultScrollbackBytes) dialogues) s.calls := by
  have hrun : ∃ s, exec step (.init defaultScrollbackBytes) dialogues = some s ∧
      ((s.conns 0).pc = .done ∧ conversation 0 (.init defaultScrollbackBytes) dialogues =
        [.authorize "client" (some [7]) (.ok .unlimited),
          .sessionOpen (some [7]) 5 "client" (.ok ()), .reportUsage (some [7]) 5 0 0,
          .sessionClose (some [7]) 5]) := exists_exec (by decide +kernel)
  obtain ⟨s, hs, hdone⟩ := hrun
  exact ⟨s, hs, hdone, (hook_dialogues hs).1⟩

end TtyGateway
