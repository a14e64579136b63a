import TtyGateway.Holding
import TtyGateway.Account

namespace TtyGateway

open Transition

structure SessionOpenResponse where
  allowed : Bool
  reason : Option String
  deriving DecidableEq

/-- A response of the control plane: its status, with the text `StatusCode` displays, and what its
body parses to, or the error of parsing it. -/
structure HttpResponse where
  status : Nat
  statusText : String
  body : Except String SessionOpenResponse
  deriving DecidableEq

def HttpResponse.isSuccess (response : HttpResponse) : Bool :=
  decide (200 ≤ response.status ∧ response.status < 300)

/-- `HttpAuthHook::session_open`, from the outcome of sending its request. -/
def HttpAuthHook.sessionOpen (outcome : Except String HttpResponse) : Except Denied Unit := do
  let response ← outcome.mapError fun e => ⟨"control plane unreachable: " ++ e⟩
  if !response.isSuccess then
    throw ⟨"control plane returned " ++ response.statusText⟩
  let parsed ← response.body.mapError fun e => ⟨"bad control-plane response: " ++ e⟩
  if parsed.allowed then pure () else throw ⟨parsed.reason.getD "session refused"⟩

def HttpResponse.verdict (response : HttpResponse) : Option Bool :=
  if response.isSuccess then response.body.toOption.map SessionOpenResponse.allowed else none

/-- A request about a concurrency slot; the hook of connection `c` waits for what comes of the
first. -/
inductive SlotRequest
  | sessionOpen (c : ConnId) (id : SessionId)
  | sessionClose (id : SessionId)
  deriving DecidableEq

/-- The gateway and its control plane, with the requests and responses on their way between them.
`posted` are the connections whose hook has sent its request, `recorded` the sessions the control
plane has as open. -/
structure Managed where
  gateway : State
  posted : List ConnId
  requests : List SlotRequest
  replies : List (ConnId × HttpResponse)
  recorded : List SessionId

def Managed.init (maxScrollback : Nat) : Managed := ⟨.init maxScrollback, [], [], [], []⟩

inductive ManagedLabel
  | gateway (l : Label)
  | post (c : ConnId)
  | serve (n : Nat) (allowed : Bool) (response : HttpResponse)
  | lose (n : Nat)
  | loseReply (n : Nat)
  | answered (c : ConnId) (outcome : Except String HttpResponse)

def Label.opened : Label → Bool
  | .sessionOpened _ _ => true
  | _ => false

section Steps

variable (s : Managed)

def Managed.closing : Label → List SlotRequest
  | .closeCall c => (s.gateway.conns c).session.toList.map fun session => .sessionClose session.id
  | _ => []

def Managed.run (l : Label) : Option Managed :=
  if l.opened then none
  else do
    let g ← step s.gateway l
    some { s with gateway := g, requests := s.requests ++ s.closing l }

def Managed.post (c : ConnId) : Option Managed := do
  let x := s.gateway.conns c
  let session ← x.session
  if x.pc = .sessionOpen ∧ c ∉ s.posted then
    some { s with
      posted := s.posted ++ [c], requests := s.requests ++ [.sessionOpen c session.id] }
  else none

/-- A request reaches the control plane. What it answers is a response that says what it did, or
one that says nothing. -/
def Managed.serve (n : Nat) (allowed : Bool) (response : HttpResponse) : Option Managed :=
  match s.requests[n]? with
  | some (.sessionOpen c id) =>
    if response.verdict.all (· = allowed) then
      some { s with
        requests := s.requests.eraseIdx n
        replies := s.replies ++ [(c, response)]
        recorded := if allowed then s.recorded.insert id else s.recorded }
    else none
  | some (.sessionClose id) =>
    some { s with
      requests := s.requests.eraseIdx n, recorded := s.recorded.filter (· ≠ id) }
  | none => none

/-- A response reaches the hook, or the hook gives the request up. -/
def Managed.answered (c : ConnId) (outcome : Except String HttpResponse) : Option Managed := do
  let g ← step s.gateway (.sessionOpened c (HttpAuthHook.sessionOpen outcome))
  match outcome with
  | .ok response =>
    if (c, response) ∈ s.replies then
      some { s with gateway := g, replies := s.replies.erase (c, response) }
    else none
  | .error _ => some { s with gateway := g }

end Steps

def managedStep (s : Managed) : ManagedLabel → Option Managed
  | .gateway l => s.run l
  | .post c => s.post c
  | .serve n allowed response => s.serve n allowed response
  | .lose n => some { s with requests := s.requests.eraseIdx n }
  | .loseReply n => some { s with replies := s.replies.eraseIdx n }
  | .answered c outcome => s.answered c outcome

def managed (maxScrollback : Nat) : System Managed ManagedLabel :=
  machine (.init maxScrollback) managedStep

def Life.Refused (v : Life) (i : SessionId) : Prop := ∃ account, .refused account i ∈ v.calls

def SlotRequest.opens : SlotRequest → Option SessionId
  | .sessionOpen _ i => some i
  | .sessionClose _ => none

/-- The control plane has session `i` as open, or may come to: the request is on its way. -/
def Managed.Claimed (s : Managed) (i : SessionId) : Prop :=
  i ∈ s.recorded ∨ some i ∈ s.requests.map SlotRequest.opens

instance (s : Managed) (i : SessionId) : Decidable (s.Claimed i) :=
  inferInstanceAs (Decidable (_ ∨ _))

/-- The gateway owes the control plane no word about session `i`. -/
def Managed.Settled (s : Managed) (i : SessionId) : Prop := s.gateway.Closed i ∨ ¬s.Claimed i

instance (s : Managed) (i : SessionId) : Decidable (s.Settled i) :=
  inferInstanceAs (Decidable (_ ∨ _))

/-- If the control plane has session `i` as open, the session is registered, or it was closed. -/
def Managed.Kept (s : Managed) (i : SessionId) : Prop :=
  i ∈ s.recorded → s.gateway.registered i ∨ s.gateway.Closed i

/-- Where the answer to `session_open` is `Denied`, the control plane has not recorded the session
and will not, unless `session_close` has been called already. -/
def DeniesSettled (s : Managed) : ManagedLabel → Prop
  | .answered c outcome => (HttpAuthHook.sessionOpen outcome).isOk = false →
      ∀ session ∈ (s.gateway.conns c).session, s.Settled session.id
  | _ => True

instance (s : Managed) : ∀ l, Decidable (DeniesSettled s l)
  | .answered _ _ => inferInstanceAs (Decidable (_ → _))
  | .gateway _ | .post _ | .serve _ _ _ | .lose _ | .loseReply _ => inferInstanceAs (Decidable True)

section Preservation

variable {s s' : Managed} {l : ManagedLabel} {i : SessionId}

theorem managedStep_gateway (hs : managedStep s l = some s') : s'.gateway = s.gateway ∨
    ∃ l', step s.gateway l' = some s'.gateway ∧ (l'.opened = false ∨ ∃ c outcome,
      l = .answered c outcome ∧ l' = .sessionOpened c (HttpAuthHook.sessionOpen outcome)) := by
  cases l with
  | gateway l' =>
    simp only [managedStep, Managed.run] at hs
    split at hs
    next => cases hs
    next hopen =>
      obtain ⟨g, hg, hs⟩ := Option.bind_eq_some_iff.mp hs
      cases hs
      exact Or.inr ⟨l', hg, Or.inl (by simpa using hopen)⟩
  | post c =>
    obtain ⟨session, -, hs⟩ := Option.bind_eq_some_iff.mp hs
    obtain ⟨-, hs⟩ := Option.ite_none_right_eq_some.mp hs
    cases hs
    exact Or.inl rfl
  | serve n allowed response =>
    simp only [managedStep, Managed.serve] at hs
    split at hs
    next =>
      obtain ⟨-, hs⟩ := Option.ite_none_right_eq_some.mp hs
      cases hs
      exact Or.inl rfl
    next =>
      cases hs
      exact Or.inl rfl
    next => cases hs
  | lose n | loseReply n =>
    cases hs
    exact Or.inl rfl
  | answered c outcome =>
    obtain ⟨g, hg, hs⟩ := Option.bind_eq_some_iff.mp hs
    refine Or.inr ⟨_, ?_, Or.inr ⟨c, outcome, rfl, rfl⟩⟩
    cases outcome with
    | ok response =>
      obtain ⟨-, hs⟩ := Option.ite_none_right_eq_some.mp hs
      cases hs
      exact hg
    | error e =>
      cases hs
      exact hg

theorem Managed.Claimed.of_subset (hi : s'.Claimed i)
    (recorded : ∀ j ∈ s'.recorded, s.Claimed j)
    (requests : ∀ r ∈ s'.requests, r ∈ s.requests ∨ r.opens = none) : s.Claimed i := by
  rcases hi with hi | hi
  · exact recorded i hi
  · obtain ⟨r, hr, he⟩ := List.mem_map.mp hi
    rcases requests r hr with hr | hn
    · exact Or.inr (List.mem_map.mpr ⟨r, hr, he⟩)
    · simp [hn] at he

theorem Managed.closing_opens {l' : Label} {r : SlotRequest} (hr : r ∈ s.closing l') :
    r.opens = none := by
  unfold Managed.closing at hr
  split at hr
  · obtain ⟨session, -, rfl⟩ := List.mem_map.mp hr
    rfl
  · simp at hr

/-- A session comes to be claimed by the request of its own connection only. -/
theorem managedStep_claimed (hs : managedStep s l = some s') (hi : s'.Claimed i) :
    s.Claimed i ∨ ∃ c, l = .post c ∧ (s.gateway.conns c).pc = .sessionOpen ∧
      s.gateway.onSession c i := by
  cases l with
  | gateway l' =>
    simp only [managedStep, Managed.run] at hs
    split at hs
    next => cases hs
    next hopen =>
      obtain ⟨g, -, hs⟩ := Option.bind_eq_some_iff.mp hs
      cases hs
      refine Or.inl (hi.of_subset (fun j => Or.inl) fun r hr => ?_)
      exact (List.mem_append.mp hr).imp_right Managed.closing_opens
  | post c =>
    obtain ⟨session, hsession, hs⟩ := Option.bind_eq_some_iff.mp hs
    obtain ⟨⟨hpc, -⟩, hs⟩ := Option.ite_none_right_eq_some.mp hs
    cases hs
    rcases hi with hi | hi
    · exact Or.inl (Or.inl hi)
    · rw [List.map_append, List.mem_append] at hi
      rcases hi with hi | hi
      · exact Or.inl (Or.inr hi)
      · have hid : i = session.id := by simpa [SlotRequest.opens] using hi
        exact Or.inr ⟨c, rfl, hpc, by simp [State.onSession, hsession, hid]⟩
  | serve n allowed response =>
    simp only [managedStep, Managed.serve] at hs
    split at hs
    next c j hn =>
      obtain ⟨-, hs⟩ := Option.ite_none_right_eq_some.mp hs
      cases hs
      refine Or.inl (hi.of_subset (fun k hk => ?_) fun r hr => ?_)
      · have hj : s.Claimed j :=
          Or.inr (List.mem_map.mpr ⟨_, List.mem_of_getElem? hn, rfl⟩)
        cases allowed with
        | false => exact Or.inl hk
        | true =>
          rcases List.mem_insert_iff.mp hk with rfl | hk
          · exact hj
          · exact Or.inl hk
      · exact Or.inl ((List.eraseIdx_sublist _ _).subset hr)
    next j hn =>
      cases hs
      refine Or.inl (hi.of_subset (fun k hk => Or.inl ?_) fun r hr => Or.inl ?_)
      · exact List.mem_of_mem_filter hk
      · exact (List.eraseIdx_sublist _ _).subset hr
    next => cases hs
  | lose n =>
    cases hs
    refine Or.inl (hi.of_subset (fun k => Or.inl) fun r hr => Or.inl ?_)
    exact (List.eraseIdx_sublist _ _).subset hr
  | loseReply n =>
    cases hs
    exact Or.inl hi
  | answered c outcome =>
    obtain ⟨g, -, hs⟩ := Option.bind_eq_some_iff.mp hs
    cases outcome with
    | ok response =>
      obtain ⟨-, hs⟩ := Option.ite_none_right_eq_some.mp hs
      cases hs
      exact Or.inl hi
    | error e =>
      cases hs
      exact Or.inl hi

end Preservation

section Refusal

variable {s s' : State} {l : Label} {i : SessionId}

theorem LifeStep.session_of_refuse {v v' : Life} {c : ConnId} (h : LifeStep v (.refuse c i) v') :
    (v.client c).session = some i := by
  cases h with
  | refuse _ hsession => exact hsession

theorem Move.closed (m : Move s l s') (h : s.Closed i) : s'.Closed i := by
  obtain ⟨account, ha⟩ := h
  exact ⟨account, m.calls ha⟩

/-- A session is refused in the return of its own connection's `session_open`. -/
theorem Move.refused_cases (m : Move s l s') (sound : s.Sound) (h : s'.life.Refused i) :
    s.life.Refused i ∨ ∃ c denied, l = .sessionOpened c (.error denied) ∧ s.onSession c i := by
  obtain ⟨account, ha⟩ := h
  obtain ⟨al, hstep, hex⟩ := m.seen sound.wf sound.framed
  rcases hstep.call_cases ha with ha | ⟨_, _, _, he⟩ | ⟨c, j, rfl, he⟩ | ⟨_, _, _, he⟩
  · exact Or.inl ⟨account, ha⟩
  · cases he
  · cases he
    obtain ⟨denied, hl⟩ := hex
    exact Or.inr ⟨c, denied, hl, State.life_session.mp hstep.session_of_refuse⟩
  · cases he

theorem Move.refused (m : Move s l s') (sound : s.Sound) (h : s.life.Refused i) :
    s'.life.Refused i := by
  obtain ⟨account, ha⟩ := h
  obtain ⟨al, hstep, -⟩ := m.seen sound.wf sound.framed
  exact ⟨account, hstep.calls_mono ha⟩

theorem State.Sound.unanswered (sound : s.Sound) {c : ConnId} (hpc : (s.conns c).pc = .sessionOpen)
    (hc : s.onSession c i) : ¬s.life.Refused i := by
  rintro ⟨account, ha⟩
  have hsession : (s.life.client c).session = some i := State.life_session.mpr hc
  have hholding : (s.life.client c).stage = .holding := Pc.stage_holding.mpr hpc
  exact (sound.billed.answered account i ha).2 c hsession ((sound.owned.ok c).holding hholding)
    hholding

/-- A `Denied` takes the session off the registry, without a close. -/
theorem Move.denied_session {c : ConnId} {denied : Denied}
    (m : Move s (.sessionOpened c (.error denied)) s') (hc : s.onSession c i) :
    s'.life.Refused i ∧ ¬s'.registered i ∧ (s'.Closed i → s.Closed i) := by
  cases m with
  | @slotDenied _ session _ hpc hsession =>
    have hid : session.id = i := by simpa [State.onSession, hsession] using hc
    subst hid
    refine ⟨⟨(s.conns c).accountToken, ?_⟩, ?_, ?_⟩
    · exact State.mem_life_calls.mpr ⟨.sessionOpen (s.conns c).accountToken session.id
        (s.conns c).clientName (.error denied), by simp, rfl⟩
    · simp [State.registered, Registry.mem_remove]
    · rintro ⟨account, ha⟩
      exact ⟨account, by simpa using ha⟩

end Refusal

section Safe

variable {s s' : Managed} {l : ManagedLabel} {i : SessionId}

/-- A session the control plane has or may come to have was created, and if it was refused then
`session_close` was called for it. -/
def Managed.Safe (s : Managed) (i : SessionId) : Prop :=
  s.Claimed i → s.gateway.life.ssh i ≠ none ∧ (s.gateway.life.Refused i → s.gateway.Closed i)

theorem managedStep_sound (hs : managedStep s l = some s') (sound : s.gateway.Sound) :
    s'.gateway.Sound := by
  rcases managedStep_gateway hs with he | ⟨l', hl, -⟩
  · exact he ▸ sound
  · exact (step_move hl).sound sound

theorem managedStep_closed (hs : managedStep s l = some s') (h : s.gateway.Closed i) :
    s'.gateway.Closed i := by
  rcases managedStep_gateway hs with he | ⟨l', hl, -⟩
  · exact he ▸ h
  · exact (step_move hl).closed h

theorem managedStep_refused (hs : managedStep s l = some s') (sound : s.gateway.Sound)
    (h : s.gateway.life.Refused i) : s'.gateway.life.Refused i := by
  rcases managedStep_gateway hs with he | ⟨l', hl, -⟩
  · exact he ▸ h
  · exact (step_move hl).refused sound h

theorem managedStep_created (hs : managedStep s l = some s') (sound : s.gateway.Sound)
    (h : s.gateway.life.ssh i ≠ none) : s'.gateway.life.ssh i ≠ none := by
  rcases managedStep_gateway hs with he | ⟨l', hl, -⟩
  · exact he ▸ h
  · obtain ⟨al, hstep, -⟩ := (step_move hl).seen sound.wf sound.framed
    exact hstep.ssh_ne_none h

theorem managedStep_refused_cases (hs : managedStep s l = some s') (sound : s.gateway.Sound)
    (h : s'.gateway.life.Refused i) : s.gateway.life.Refused i ∨ ∃ c outcome,
      l = .answered c outcome ∧ (HttpAuthHook.sessionOpen outcome).isOk = false ∧
      s.gateway.onSession c i := by
  rcases managedStep_gateway hs with he | ⟨l', hl, hcases⟩
  · exact Or.inl (he ▸ h)
  · rcases (step_move hl).refused_cases sound h with h | ⟨c, denied, rfl, hc⟩
    · exact Or.inl h
    · rcases hcases with hopen | ⟨d, outcome, rfl, he⟩
      · cases hopen
      · injection he with hd he
        subst hd
        exact Or.inr ⟨_, outcome, rfl, by simp [← he, Except.isOk, Except.toBool], hc⟩

theorem managedStep_unclaimed (hs : managedStep s l = some s') (sound : s.gateway.Sound)
    (h : s.gateway.life.Refused i) (hi : s'.Claimed i) : s.Claimed i := by
  rcases managedStep_claimed hs hi with hi | ⟨c, -, hpc, hc⟩
  · exact hi
  · exact absurd h (sound.unanswered hpc hc)

theorem Managed.Safe.step (h : s.Safe i) (hs : managedStep s l = some s') (sound : s.gateway.Sound)
    (hc : DeniesSettled s l) : s'.Safe i := by
  intro hi
  rcases managedStep_claimed hs hi with hi | ⟨c, rfl, hpc, hon⟩
  · obtain ⟨hcreated, hclosed⟩ := h hi
    refine ⟨managedStep_created hs sound hcreated, fun hr => managedStep_closed hs ?_⟩
    rcases managedStep_refused_cases hs sound hr with hr | ⟨c, outcome, rfl, hdenied, hon⟩
    · exact hclosed hr
    · obtain ⟨session, hsession, hid⟩ := (Option.any_eq_true _ _).mp hon
      obtain rfl := of_decide_eq_true hid
      exact (hc hdenied session hsession).resolve_right fun hn => hn hi
  · have hsession : (s.gateway.life.client c).session = some i := State.life_session.mpr hon
    refine ⟨managedStep_created hs sound (sound.owned.known c i hsession), fun hr => ?_⟩
    rcases managedStep_refused_cases hs sound hr with hr | ⟨_, _, he, -⟩
    · exact absurd hr (sound.unanswered hpc hon)
    · cases he

theorem Managed.Safe.kept (h : s.Safe i) (sound : s.gateway.Sound) : s.Kept i := by
  intro hi
  obtain ⟨hcreated, hclosed⟩ := h (Or.inl hi)
  by_cases hr : i ∈ s.gateway.life.registered
  · exact Or.inl hr
  · right
    rcases sound.billed.removed i hcreated hr with hrefused | ⟨account, ha⟩
    · exact hclosed hrefused
    · exact ⟨account, State.closed_mem_life.mp ha⟩

theorem answered_move {c : ConnId} {outcome : Except String HttpResponse}
    (hs : managedStep s (.answered c outcome) = some s')
    (hdenied : (HttpAuthHook.sessionOpen outcome).isOk = false) :
    (∃ denied, Move s.gateway (.sessionOpened c (.error denied)) s'.gateway) ∧
      s'.recorded = s.recorded ∧ s'.requests = s.requests := by
  obtain ⟨g, hg, hs⟩ := Option.bind_eq_some_iff.mp hs
  have hmove : ∃ denied, Move s.gateway (.sessionOpened c (.error denied)) g := by
    cases ha : HttpAuthHook.sessionOpen outcome with
    | ok u => simp [ha, Except.isOk, Except.toBool] at hdenied
    | error denied => exact ⟨denied, step_move (ha ▸ hg)⟩
  cases outcome with
  | ok response =>
    obtain ⟨-, hs⟩ := Option.ite_none_right_eq_some.mp hs
    cases hs
    exact ⟨hmove, rfl, rfl⟩
  | error e =>
    cases hs
    exact ⟨hmove, rfl, rfl⟩

end Safe

theorem managed_gateway {maxScrollback : Nat} {C : Managed → ManagedLabel → Prop} {s : Managed}
    (h : Reach (managed maxScrollback) C s) : Reachable (gateway maxScrollback) s.gateway := by
  refine h.invariant (P := fun s => Reachable (gateway maxScrollback) s.gateway) .init ?_
  intro s l s' _ ih _ hs
  rcases managedStep_gateway hs with he | ⟨l', hl, -⟩
  · exact he ▸ ih
  · exact ih.step trivial hl

/-- After a session was refused, what the control plane has of it is settled for good. -/
theorem settled_stays {s s' : Managed} {ls : List ManagedLabel} {i : SessionId}
    (sound : s.gateway.Sound) (hr : s.gateway.life.Refused i) (h : s.Settled i)
    (run : exec managedStep s ls = some s') : s'.Settled i := by
  refine (exec_keeps (P := fun t => t.gateway.Sound ∧ t.gateway.life.Refused i ∧ t.Settled i) ?_
    ⟨sound, hr, h⟩ run).2.2
  rintro t l t' ⟨hsound, hrefused, hsettled⟩ hs
  refine ⟨managedStep_sound hs hsound, managedStep_refused hs hsound hrefused, ?_⟩
  exact hsettled.imp (managedStep_closed hs)
    fun hn hi => hn (managedStep_unclaimed hs hsound hrefused hi)

/-- A request that is on its way may be granted, whatever becomes of the response. -/
theorem Managed.serve_silent {s : Managed} {n : Nat} {c : ConnId} {i : SessionId}
    {response : HttpResponse} (hn : s.requests[n]? = some (.sessionOpen c i))
    (silent : response.verdict = none) : ∃ s', s.serve n true response = some s' ∧
      s'.gateway = s.gateway ∧ i ∈ s'.recorded := by
  refine ⟨{ s with
    requests := s.requests.eraseIdx n
    replies := s.replies ++ [(c, response)]
    recorded := s.recorded.insert i }, ?_, rfl, List.mem_insert_self⟩
  simp only [Managed.serve, hn, silent, Option.all_none, if_true]

/-- A refusal that leaves something unsettled leaks the session, now or once the request arrives. -/
theorem unsettled_leaks {s s' : Managed} {i : SessionId} (h : ¬s.Settled i)
    (dropped : ¬s'.gateway.registered i) (closed : s'.gateway.Closed i → s.gateway.Closed i)
    (recorded : s'.recorded = s.recorded) (requests : s'.requests = s.requests) :
    ∃ ls s'', exec managedStep s' ls = some s'' ∧ ¬s''.Kept i := by
  obtain ⟨hclosed, hi⟩ := not_or.mp h
  have lost : ¬(s'.gateway.registered i ∨ s'.gateway.Closed i) :=
    not_or.mpr ⟨dropped, fun hc => hclosed (closed hc)⟩
  rcases not_not.mp hi with hi | hi
  · exact ⟨[], s', rfl, fun hk => lost (hk (recorded ▸ hi))⟩
  · obtain ⟨r, hr, he⟩ := List.mem_map.mp hi
    obtain ⟨n, hn⟩ := List.getElem?_of_mem hr
    cases r with
    | sessionClose j => cases he
    | sessionOpen c j =>
      cases he
      let response : HttpResponse := ⟨504, "504 Gateway Timeout", .error "EOF"⟩
      have silent : response.verdict = none := by decide
      obtain ⟨s'', hs, hgateway, hrecorded⟩ := Managed.serve_silent (requests ▸ hn) silent
      refine ⟨[.serve n true response], s'', by simp [exec, managedStep, hs], fun hk => lost ?_⟩
      rw [← hgateway]
      exact hk hrecorded

/-- While every `Denied` finds the control plane settled, no session it has as open is dropped from
the registry unclosed; a `Denied` that does not, drops one or comes to it. -/
theorem slots_not_leaked {maxScrollback : Nat} {s : Managed}
    (h : Reach (managed maxScrollback) DeniesSettled s) :
    (∀ i, s.Kept i) ∧ ∀ c outcome session s', managedStep s (.answered c outcome) = some s' →
      (s.gateway.conns c).session = some session →
      (HttpAuthHook.sessionOpen outcome).isOk = false →
      (s.Settled session.id ↔
        ∀ ls s'', exec managedStep s' ls = some s'' → s''.Kept session.id) := by
  have safe : ∀ i, s.Safe i := by
    refine h.invariant (P := fun s => ∀ i, s.Safe i) (fun i hi => ?_) ?_
    · simp [managed, machine, Managed.init, Managed.Claimed] at hi
    · exact fun s l s' hr ih hc hs i =>
        (ih i).step hs (gateway_sound (managed_gateway hr)) hc
  have sound := gateway_sound (managed_gateway h)
  refine ⟨fun i => (safe i).kept sound, fun c outcome session s' hs hsession hdenied => ?_⟩
  have hon : s.gateway.onSession c session.id := by simp [State.onSession, hsession]
  obtain ⟨⟨denied, hmove⟩, hrecorded, hrequests⟩ := answered_move hs hdenied
  obtain ⟨hrefused, hdropped, hclosed⟩ := hmove.denied_session hon
  constructor
  · intro hsettled ls s'' run hi
    have hsettled' : s'.Settled session.id := by
      refine hsettled.imp (managedStep_closed hs) fun hn hi' => hn ?_
      exact hi'.of_subset (fun j hj => Or.inl (hrecorded ▸ hj)) fun r hr => Or.inl (hrequests ▸ hr)
    rcases settled_stays (managedStep_sound hs sound) hrefused hsettled' run with hc | hn
    · exact Or.inr hc
    · exact absurd (Or.inl hi) hn
  · intro hkept
    by_contra hn
    obtain ⟨ls, s'', run, hlost⟩ := unsettled_leaks hn hdropped hclosed hrecorded hrequests
    exact hlost (hkept ls s'' run)

/-- The control plane refuses, and says so. -/
theorem slots_not_leaked_refused : ∃ s, Reach (managed defaultScrollbackBytes) DeniesSettled s ∧
    5 ∈ s.gateway.minted.map SessionRef.id ∧ ¬s.gateway.registered 5 ∧ s.Kept 5 := by
  obtain ⟨s, hs, hminted, hdropped⟩ :=
    exists_reach_of_execWhere (.init defaultScrollbackBytes) managedStep
      DeniesSettled
      (((opening 0 none .unlimited 5 [1]).take 6).map .gateway ++
        [.post 0, .serve 0 false ⟨200, "200 OK", .ok ⟨false, some "no slot left"⟩⟩,
          .answered 0 (.ok ⟨200, "200 OK", .ok ⟨false, some "no slot left"⟩⟩)])
      (fun s => 5 ∈ s.gateway.minted.map SessionRef.id ∧ ¬s.gateway.registered 5)
      (by decide +kernel)
  exact ⟨s, hs, hminted, hdropped, (slots_not_leaked hs).1 5⟩

/-- The control plane grants the slot, and the response is lost. -/
theorem slots_leaked : ∃ s, Reachable (managed defaultScrollbackBytes) s ∧
    (5 ∈ s.recorded ∧ 5 ∈ s.gateway.minted.map SessionRef.id) ∧ ¬s.gateway.registered 5 ∧
    ¬s.gateway.Closed 5 := by
  obtain ⟨s, hs, hp⟩ := exists_reachable_of_exec (.init defaultScrollbackBytes) managedStep
    (((opening 0 none .unlimited 5 [1]).take 6).map .gateway ++
      [.post 0, .serve 0 true ⟨200, "200 OK", .ok ⟨true, none⟩⟩, .loseReply 0,
        .answered 0 (.error "connection closed before message completed")])
    (fun s => (5 ∈ s.recorded ∧ 5 ∈ s.gateway.minted.map SessionRef.id) ∧
      ¬s.gateway.registered 5 ∧ ¬s.gateway.Closed 5) (by decide +kernel)
  exact ⟨s, hs, hp⟩

end TtyGateway
