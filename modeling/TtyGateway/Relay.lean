import TtyGateway.Interleaving
import TtyGateway.Admission
import TtyGateway.Intake
import TtyGateway.Pacing
import TtyGateway.Shell

namespace TtyGateway

open Transition Interleaving

/-- What connection `c` takes of its client's input in this step. -/
def ProxyLabel.typed (c : ConnId) : ProxyLabel → List SshInput
  | .gateway l => l.typed c
  | _ => []

def typed (c : ConnId) (ls : List ProxyLabel) : List SshInput := ls.flatMap (ProxyLabel.typed c)

/-- The connection is one of session `i`, or was. -/
def Conn.belongs (x : Conn) (i : SessionId) : Bool := x.session.any (·.id = i)

def Proxy.typed (s : Proxy) (i : SessionId) (ls : List ProxyLabel) (c : ConnId) : List SshInput :=
  if (s.gateway.conns c).belongs i then TtyGateway.typed c ls else []

/-- The message that comes into the queue of channel `i` in this step. -/
def Proxy.arriving (i : SessionId) (s : Proxy) : ProxyLabel → List ChannelMsg
  | .deliver j => if j = i then (s.shells i).link.take 1 else []
  | _ => []

def arrived (lim : SshLimits) (maxScrollback : Nat) (i : SessionId) (ls : List ProxyLabel) :
    List ChannelMsg :=
  emitted (proxyStep lim) (Proxy.arriving i) (.init lim maxScrollback) ls

def outputs (msgs : List ChannelMsg) : Bytes := (msgs.filterMap ChannelMsg.output).flatten

/-- The messages before the first `Eof` or `Close`. -/
def upToEnd (msgs : List ChannelMsg) : List ChannelMsg := msgs.takeWhile fun msg => !msg.ends

def Shell.pending (x : Shell) : List SshInput :=
  x.pendingResize.toList.map fun size => .resize size.1 size.2

def ActorPc.outgoing : ActorPc → Bytes
  | .send bytes => bytes
  | _ => []

/-- The output that the actor has in its hands or is still to find in the queue. -/
def Shell.unsent (x : Shell) : Bytes := x.pc.outgoing ++ outputs (upToEnd x.queue)

/-- What one step can do to session `i`, with its actor and its channel, while it is there. -/
inductive RelayMove (s : State) (i : SessionId) (x : Shell) (ses : Session) :
    ProxyLabel → Shell → Session → Prop
  | gateway {l ses'} : l.actor = false → l ≠ .ingest i → SessionMove s i ses l ses' →
      RelayMove s i x ses (.gateway l) x ses'
  | ingest {bytes rest} : ses.output = bytes :: rest → RelayMove s i x ses (.gateway (.ingest i)) x
      { ses with
        inner := ses.inner.append .exact bytes
        output := rest
        produced := ses.produced ++ bytes }
  | top : ses.actor = true → x.pc = .top → RelayMove s i x ses (.top i) x.resize ses
  | received {msg rest} : ses.actor = true → x.pc = .select → x.queue = msg :: rest →
      msg.ends = false →
      RelayMove s i x ses (.wait i) (Shell.receive { x with queue := rest } msg) ses
  | finished {msg rest} : ses.actor = true → x.pc = .select → x.queue = msg :: rest →
      msg.ends = true →
      RelayMove s i x ses (.wait i) { x with queue := rest }
        { ses with actor := false, input := [] }
  | hungUp : ses.actor = true → x.pc = .select → x.queue = [] → x.stage = .lost →
      RelayMove s i x ses (.wait i) x { ses with actor := false, input := [] }
  | writeFailed {rest} : ses.actor = true → x.pc = .write rest →
      RelayMove s i x ses (.writeFailed i) x { ses with actor := false, input := [] }
  | sent {bytes} : ses.actor = true → x.pc = .send bytes →
      RelayMove s i x ses (.send i) { x with pc := .top }
        { ses with output := ses.output ++ [bytes] }
  | taken {command rest} : ses.actor = true → x.pc = .select → ses.input = command :: rest →
      RelayMove s i x ses (.take i) (x.begin command) { ses with input := rest }
  | wrote {rest n} : x.pc = .write rest → RelayMove s i x ses (.write i n) (x.hand rest n) ses
  | written : x.pc = .write [] → RelayMove s i x ses (.written i) { x with pc := .top } ses
  | delivered {msg rest} : x.stage ≠ .lost → x.link = msg :: rest →
      RelayMove s i x ses (.deliver i) (x.put msg rest) ses
  | other {l y} : (∀ k, l ≠ .gateway k) → l ≠ .deliver i → y.pc = x.pc →
      y.pendingResize = x.pendingResize → y.queue = x.queue → y.applied = x.applied →
      (x.stage = .lost → y.stage = .lost) → RelayMove s i x ses l y ses

def ProxyLabel.session : ProxyLabel → Option SessionId
  | .gateway _ => none
  | .top i | .wait i | .send i | .take i | .write i _ | .written i | .writeFailed i | .deliver i
  | .read i _ | .produce i _ | .hangup i _ | .lose i => some i

section Inversion

variable {lim : SshLimits} {s s' : Proxy} {i j : SessionId} {l : ProxyLabel} {ses : Session}
  {g : State}

theorem step_actorEnd (h : step s.gateway (.actorEnd i) = some g) :
    ∃ old, s.gateway.sessions i = some old ∧ old.actor = true ∧
      g = s.gateway.setSession i { old with actor := false, input := [] } := by
  cases step_move h with
  | actorEnd hi ha => exact ⟨_, hi, ha, rfl⟩

theorem proxyStep_known (hs : proxyStep lim s l = some s') (hj : l.session = some j) :
    s.gateway.sessions j ≠ none := by
  intro hnone
  cases l with
  | gateway => cases hj
  | top | wait | take | write | written | deliver | lose =>
    cases hj
    obtain ⟨ses, hses, -⟩ := Option.bind_eq_some_iff.mp hs
    simp [hnone] at hses
  | send =>
    cases hj
    simp only [proxyStep, Proxy.send] at hs
    split at hs
    · simp [step, State.actorOutput, hnone] at hs
    · cases hs
  | writeFailed =>
    cases hj
    simp only [proxyStep, Proxy.writeFailed] at hs
    split at hs
    · simp [Proxy.leaveLoop, step, State.actorEnd, hnone] at hs
    · cases hs
  | read | produce | hangup =>
    cases hj
    obtain ⟨-, h⟩ := Option.ite_none_right_eq_some.mp hs
    obtain ⟨ses, hses, -⟩ := Option.bind_eq_some_iff.mp h
    simp [hnone] at hses

theorem ProxyMove.elsewhere (m : ProxyMove lim s l s') (hl : ∀ k, l ≠ .gateway k)
    (hi : l.session ≠ some i) : s'.shells i = s.shells i ∧
      s'.gateway.sessions i = s.gateway.sessions i := by
  have shell : ∀ (t : Proxy) x j, some j ≠ some i → t.shells = s.shells →
      (t.setShell j x).shells i = s.shells i := by
    intro t x j hj ht
    rw [Proxy.setShell_shells, if_neg fun he => hj (congrArg some he.symm), ht]
  have session : ∀ j new, some j ≠ some i →
      (s.gateway.setSession j new).sessions i = s.gateway.sessions i := by
    intro j new hj
    rw [State.setSession_sessions, if_neg fun he => hj (congrArg some he.symm)]
  cases m with
  | gateway => exact absurd rfl (hl _)
  | top | received | wrote | written | delivered | lost => exact ⟨shell s _ _ hi rfl, rfl⟩
  | emitted msg hcase =>
    rcases hcase with ⟨n, rfl⟩ | rfl | rfl <;> exact ⟨shell s _ _ hi rfl, rfl⟩
  | left hg _ hcase =>
    obtain ⟨old, -, -, rfl⟩ := step_actorEnd hg
    rcases hcase with ⟨rfl, -⟩ | ⟨rfl, -⟩ <;> exact ⟨shell _ _ _ hi rfl, session _ _ hi⟩
  | sent _ hg =>
    cases step_move hg with
    | actorOutput => exact ⟨shell _ _ _ hi rfl, session _ _ hi⟩
  | taken _ _ _ hg =>
    cases step_move hg with
    | actorInput => exact ⟨shell _ _ _ hi rfl, session _ _ hi⟩
  | abandoned hg =>
    cases step_move hg with
    | actorNone => exact ⟨rfl, session _ _ hi⟩

theorem relay_here {x : Shell} {t : Proxy} {ses' : Session}
    (hi : t.gateway.sessions i = some ses')
    (m : RelayMove s.gateway i (s.shells i) ses l x ses') :
    ∃ ses', (t.setShell i x).gateway.sessions i = some ses' ∧
      RelayMove s.gateway i (s.shells i) ses l ((t.setShell i x).shells i) ses' := by
  rw [Proxy.setShell_self]
  exact ⟨ses', hi, m⟩

theorem wait_relay (hs : s.wait i = some s') (hi : s.gateway.sessions i = some ses) :
    ∃ ses', s'.gateway.sessions i = some ses' ∧
      RelayMove s.gateway i (s.shells i) ses (.wait i) (s'.shells i) ses' := by
  obtain ⟨old, hold, h⟩ := Option.bind_eq_some_iff.mp hs
  obtain rfl := Option.some.inj (hold.symm.trans hi)
  obtain ⟨⟨ha, hpc⟩, h⟩ := Option.ite_none_right_eq_some.mp h
  have leave : ∀ x, s.leaveLoop i x = some s' →
      s' = { s with gateway := s.gateway.setSession i { old with actor := false, input := [] } }.setShell
        i x := by
    intro x h
    obtain ⟨g, hg, rfl⟩ := Option.map_eq_some_iff.mp h
    obtain ⟨found, hfound, -, rfl⟩ := step_actorEnd hg
    obtain rfl := Option.some.inj (hold.symm.trans hfound)
    rfl
  split at h
  next msg rest hq =>
    split at h
    next hends =>
      obtain rfl := leave _ h
      exact relay_here (State.setSession_sessions_self ..) (.finished ha hpc hq hends)
    next hends =>
      cases h
      exact relay_here hi (.received ha hpc hq (by simpa using hends))
  next hq =>
    obtain ⟨hlost, h⟩ := Option.ite_none_right_eq_some.mp h
    obtain rfl := leave _ h
    exact relay_here (State.setSession_sessions_self ..) (.hungUp ha hpc hq hlost)

theorem take_relay (hs : s.take i = some s') (wf : s.gateway.Wf)
    (hi : s.gateway.sessions i = some ses) : ∃ ses', s'.gateway.sessions i = some ses' ∧
      RelayMove s.gateway i (s.shells i) ses (.take i) (s'.shells i) ses' := by
  obtain ⟨old, hold, h⟩ := Option.bind_eq_some_iff.mp hs
  obtain rfl := Option.some.inj (hold.symm.trans hi)
  obtain ⟨hpc, h⟩ := Option.ite_none_right_eq_some.mp h
  split at h
  next command rest hinput =>
    obtain ⟨g, hg, rfl⟩ := Option.map_eq_some_iff.mp h
    simp only [step, State.actorInput, hold, Option.bind_eq_bind, Option.bind_some, hinput] at hg
    obtain ⟨ha, hg⟩ := Option.ite_none_right_eq_some.mp hg
    cases hg
    exact relay_here (State.setSession_sessions_self ..) (.taken ha hpc hinput)
  next =>
    -- The ingest task has a `Sender` of the channel for as long as the actor is there.
    obtain ⟨g, hg, rfl⟩ := Option.map_eq_some_iff.mp h
    cases step_move hg with
    | @actorNone _ found hfound ha hin =>
      have hingest : found.ingest = false := by
        simp [State.inputAlive, hfound] at hin
        exact hin.2
      simp [wf.actor i found hfound hingest] at ha

theorem emit_relay {msg : ChannelMsg} {f : Shell → Shell} (hs : s.emit lim i msg f = some s')
    (hl : ∀ k, l ≠ .gateway k) (hd : l ≠ .deliver i) (hi : s.gateway.sessions i = some ses)
    (same : ∀ x : Shell, (f x).pc = x.pc ∧ (f x).pendingResize = x.pendingResize ∧
      (f x).queue = x.queue ∧ (f x).applied = x.applied) :
    ∃ ses', s'.gateway.sessions i = some ses' ∧
      RelayMove s.gateway i (s.shells i) ses l (s'.shells i) ses' := by
  obtain ⟨hopen, -, rfl⟩ := emit_move hs
  obtain ⟨pc, pending, queue, applied⟩ :=
    same { s.shells i with link := (s.shells i).link ++ [msg] }
  exact relay_here hi (.other hl hd pc pending queue applied (by simp [hopen]))

theorem proxyStep_gateway {k : Label} (hs : proxyStep lim s (.gateway k) = some s') :
    k.actor = false ∧ ∃ g, step s.gateway k = some g ∧ s' = { s with gateway := g } := by
  simp only [proxyStep, Proxy.run] at hs
  split at hs
  next => cases hs
  next hk =>
    obtain ⟨g, hg, rfl⟩ := Option.map_eq_some_iff.mp hs
    exact ⟨by simpa using hk, g, hg, rfl⟩

theorem proxyStep_relay (hs : proxyStep lim s l = some s') (wf : s.gateway.Wf)
    (hi : s.gateway.sessions i = some ses) : ∃ ses', s'.gateway.sessions i = some ses' ∧
      RelayMove s.gateway i (s.shells i) ses l (s'.shells i) ses' := by
  by_cases hl : l.session = some i
  · cases l with
    | gateway => cases hl
    | top =>
      cases hl
      obtain ⟨old, hold, h⟩ := Option.bind_eq_some_iff.mp hs
      obtain rfl := Option.some.inj (hold.symm.trans hi)
      obtain ⟨⟨ha, hpc⟩, h⟩ := Option.ite_none_right_eq_some.mp h
      cases h
      exact relay_here hi (.top ha hpc)
    | wait =>
      cases hl
      exact wait_relay hs hi
    | send =>
      cases hl
      simp only [proxyStep, Proxy.send] at hs
      split at hs
      next bytes hpc =>
        obtain ⟨g, hg, rfl⟩ := Option.map_eq_some_iff.mp hs
        cases step_move hg with
        | actorOutput hold ha =>
          obtain rfl := Option.some.inj (hold.symm.trans hi)
          exact relay_here (State.setSession_sessions_self ..) (.sent ha hpc)
      next => cases hs
    | take =>
      cases hl
      exact take_relay hs wf hi
    | write _ n =>
      cases hl
      obtain ⟨old, hold, h⟩ := Option.bind_eq_some_iff.mp hs
      split at h
      next rest hpc =>
        obtain ⟨-, h⟩ := Option.ite_none_right_eq_some.mp h
        cases h
        exact relay_here hi (.wrote hpc)
      next => cases h
    | written =>
      cases hl
      obtain ⟨old, hold, h⟩ := Option.bind_eq_some_iff.mp hs
      obtain ⟨⟨ha, hpc⟩, h⟩ := Option.ite_none_right_eq_some.mp h
      cases h
      exact relay_here hi (.written hpc)
    | writeFailed =>
      cases hl
      simp only [proxyStep, Proxy.writeFailed] at hs
      split at hs
      next rest hpc =>
        obtain ⟨-, h⟩ := Option.ite_none_right_eq_some.mp hs
        obtain ⟨g, hg, rfl⟩ := Option.map_eq_some_iff.mp h
        obtain ⟨old, hold, ha, rfl⟩ := step_actorEnd hg
        obtain rfl := Option.some.inj (hold.symm.trans hi)
        exact relay_here (State.setSession_sessions_self ..) (.writeFailed ha hpc)
      next => cases hs
    | deliver =>
      cases hl
      obtain ⟨old, hold, h⟩ := Option.bind_eq_some_iff.mp hs
      split at h
      next msg rest hlink =>
        obtain ⟨⟨hstage, -⟩, h⟩ := Option.ite_none_right_eq_some.mp h
        cases h
        exact relay_here hi (.delivered hstage hlink)
      next => cases h
    | read | produce | hangup =>
      cases hl
      obtain ⟨-, h⟩ := Option.ite_none_right_eq_some.mp hs
      exact emit_relay h (by simp) (by simp) hi fun x => ⟨rfl, rfl, rfl, rfl⟩
    | lose =>
      cases hl
      obtain ⟨old, hold, h⟩ := Option.bind_eq_some_iff.mp hs
      cases h
      exact relay_here hi (.other (by simp) (by simp) rfl rfl rfl rfl fun _ => rfl)
  · by_cases hgate : ∃ k, l = .gateway k
    · obtain ⟨k, rfl⟩ := hgate
      obtain ⟨hk, g, hg, rfl⟩ := proxyStep_gateway hs
      by_cases hingest : k = .ingest i
      · subst hingest
        cases step_move hg with
        | ingest hfound hout =>
          obtain rfl := Option.some.inj (hfound.symm.trans hi)
          exact ⟨_, State.setSession_sessions_self .., .ingest hout⟩
      · obtain ⟨ses', hi', hmove⟩ := (step_move hg).session wf hi
        exact ⟨ses', hi', .gateway hk hingest hmove⟩
    · rw [not_exists] at hgate
      obtain ⟨hshell, hsession⟩ := (proxyStep_move hs).elsewhere hgate hl
      rw [hshell, hsession]
      refine ⟨ses, hi, .other hgate ?_ rfl rfl rfl rfl id⟩
      rintro rfl
      exact hl rfl

theorem Move.unborn {s s' : State} {l : Label} (m : Move s l s') (hi : s.sessions i = none) :
    s'.sessions i = none ∨ ∃ maxBytes, s'.sessions i = some (.spawn maxBytes) := by
  have other : ∀ j old new, s.sessions j = some old → (s.setSession j new).sessions i = none := by
    intro j old new hj
    rw [State.setSession_sessions, if_neg, hi]
    rintro rfl
    simp [hi] at hj
  cases m with
  | @loggedIn _ id =>
    by_cases he : i = id
    · exact Or.inr ⟨s.maxScrollback, by simp [he]⟩
    · exact Or.inl (by simp [State.setSession_sessions, he, hi])
  | forwarded _ _ hj | actorOutput hj | actorInput hj | actorEnd hj | actorNone hj | ingest hj
  | ingestEnd hj => exact Or.inl (other _ _ _ hj)
  | _ => exact Or.inl hi

/-- Nothing is done to a session that is not there, until a login puts it there. -/
theorem proxyStep_unborn (hs : proxyStep lim s l = some s') (hi : s.gateway.sessions i = none) :
    s'.shells i = s.shells i ∧ l ≠ .deliver i ∧ (s'.gateway.sessions i = none ∨
      ∃ maxBytes, s'.gateway.sessions i = some (.spawn maxBytes)) := by
  by_cases hgate : ∃ k, l = .gateway k
  · obtain ⟨k, rfl⟩ := hgate
    obtain ⟨-, g, hg, rfl⟩ := proxyStep_gateway hs
    exact ⟨rfl, by simp, (step_move hg).unborn hi⟩
  · rw [not_exists] at hgate
    have hl : l.session ≠ some i := fun hl => proxyStep_known hs hl hi
    obtain ⟨hshell, hsession⟩ := (proxyStep_move hs).elsewhere hgate hl
    refine ⟨hshell, ?_, Or.inl (hsession.trans hi)⟩
    rintro rfl
    exact hl rfl

end Inversion

/-- The input of connection `c` that is on its way into session `i`. -/
def State.inHand (s : State) (i : SessionId) (c : ConnId) : List SshInput :=
  if (s.conns c).belongs i then (s.conns c).pc.input else []

section Typed

variable {s s' : State} {c d : ConnId} {l : Label} {i : SessionId} {ses : Session}

theorem forward_entry (hs : step s (.forward c) = some s') (hi : s.sessions i = some ses) :
    s'.sessions i =
      some { ses with input := ses.input ++ if ses.actor then s.inHand i c else [] } := by
  cases step_move hs with
  | @forwarded _ session found input hpc hsession hfound ha =>
    by_cases he : session.id = i
    · subst he
      obtain rfl := Option.some.inj (hfound.symm.trans hi)
      simp [State.inHand, Conn.belongs, hsession, ha, hpc, Pc.input]
    · simp [State.setSession_sessions, State.inHand, Conn.belongs, hsession, he, Ne.symm he, hi]
  | @unforwarded _ session found input hpc hsession hfound ha =>
    by_cases he : session.id = i
    · subst he
      obtain rfl := Option.some.inj (hfound.symm.trans hi)
      rw [if_neg (by simp [ha]), List.append_nil]
      exact hi
    · simp [State.inHand, Conn.belongs, hsession, he, hi]

theorem State.Wf.inHand_unborn (wf : s.Wf) (hi : s.sessions i = none) : s.inHand i c = [] := by
  apply if_neg
  intro hb
  obtain ⟨session, hsession, he⟩ := (Option.any_eq_true _ _).mp hb
  obtain ⟨ses, hses⟩ := wf.session_known hsession
  rw [of_decide_eq_true he, hi] at hses
  cases hses

end Typed

/-- What of `c`'s input is offered to session `i` in this step. -/
def Proxy.handing (s : Proxy) (i : SessionId) (c : ConnId) : ProxyLabel → List SshInput
  | .gateway l => if (s.gateway.conns c).belongs i then s.gateway.handing c l else []
  | _ => []

/-- What the clients of session `i` have typed has been offered to it, but for what is in hand. -/
structure Proxy.Typing (s : Proxy) (i : SessionId) (ls : List ProxyLabel)
    (offered : ConnId → List SshInput) : Prop where
  held : ∀ c, s.typed i ls c = offered c ++ s.gateway.inHand i c
  unattached : ∀ c, (s.gateway.conns c).session = none → TtyGateway.typed c ls = []

/-- The session's commands are those that were offered to it, from the first on, as long as the
actor is there; a resize is parked only from one round of its loop to the next. -/
structure Shell.Entered (x : Shell) (ses : Option Session) (merged : List SshInput) : Prop where
  begun : x.applied ++ x.pending <+: merged
  waiting : ∀ found, ses = some found → found.actor = true →
    x.applied ++ x.pending ++ found.input = merged
  unborn : ses = none → x.applied ++ x.pending = merged
  parked : x.pendingResize ≠ none → x.pc = .top ∧ ∃ found, ses = some found ∧ found.actor = true

section Typing

variable {lim : SshLimits} {s s' : Proxy} {i : SessionId} {l : ProxyLabel} {ls : List ProxyLabel}
  {offered : ConnId → List SshInput} {x y : Shell} {ses ses' : Session} {merged : List SshInput}

theorem ProxyMove.conns (m : ProxyMove lim s l s') (hl : ∀ k, l ≠ .gateway k) :
    s'.gateway.conns = s.gateway.conns := by
  cases m with
  | gateway => exact absurd rfl (hl _)
  | left hg =>
    obtain ⟨old, -, -, rfl⟩ := step_actorEnd hg
    rfl
  | sent _ hg | taken _ _ _ hg | abandoned hg =>
    cases step_move hg
    rfl
  | _ => rfl

theorem typed_concat (c : ConnId) : typed c (ls ++ [l]) = typed c ls ++ l.typed c := by
  simp [typed]

theorem Proxy.Typing.next (h : s.Typing i ls offered) (hs : proxyStep lim s l = some s')
    (sound : s.gateway.Sound) :
    s'.Typing i (ls ++ [l]) fun c => offered c ++ s.handing i c l := by
  by_cases hgate : ∃ k, l = .gateway k
  · obtain ⟨k, rfl⟩ := hgate
    obtain ⟨-, g, hg, rfl⟩ := proxyStep_gateway hs
    have unattached : ∀ c, (s.gateway.conns c).session = none →
        k.typed c = [] ∧ (g.conns c).pc.input = [] := by
      intro c hnone
      have hloop : (s.gateway.conns c).pc.looping ≠ true := by
        intro hloop
        obtain ⟨session, -, hsession, -⟩ := sound.session_of_looping hloop
        simp [hnone] at hsession
      have htyped : k.typed c = [] := by
        by_contra hne
        exact hloop (by rw [typed_live hg hne]; rfl)
      have hin : (s.gateway.conns c).pc.input = [] := by
        cases hpc : (s.gateway.conns c).pc with
        | forward => exact absurd (by rw [hpc]; rfl) hloop
        | _ => rfl
      have hstep := step_typed hg c
      rw [htyped, hin] at hstep
      exact ⟨htyped, (List.append_eq_nil_iff.mp hstep.symm).2⟩
    refine ⟨fun c => ?_, fun c hc => ?_⟩
    · have hheld := h.held c
      cases hsession : (s.gateway.conns c).session with
      | none =>
        obtain ⟨htyped, hin⟩ := unattached c hsession
        have hb : (s.gateway.conns c).belongs i = false := by simp [Conn.belongs, hsession]
        simp only [Proxy.typed, State.inHand, hb, Bool.false_eq_true, if_false,
          List.append_nil] at hheld
        simp [Proxy.typed, Proxy.handing, State.inHand, typed_concat, h.unattached c hsession,
          ProxyLabel.typed, htyped, hb, hin, ← hheld]
      | some session =>
        have hb : (g.conns c).belongs i = (s.gateway.conns c).belongs i := by
          simp [Conn.belongs, hsession, (step_move hg).keeps_session sound hsession]
        by_cases hbelongs : (s.gateway.conns c).belongs i = true
        · simp only [Proxy.typed, Proxy.handing, State.inHand, hb, hbelongs, if_true] at hheld ⊢
          rw [typed_concat, hheld, List.append_assoc, List.append_assoc]
          exact congrArg _ (step_typed hg c)
        · simp only [Proxy.typed, Proxy.handing, State.inHand, hb, hbelongs] at hheld ⊢
          simpa using hheld
    · cases hsession : (s.gateway.conns c).session with
      | none =>
        rw [typed_concat, h.unattached c hsession]
        exact (unattached c hsession).1
      | some session =>
        have hkept : (g.conns c).session = some session :=
          (step_move hg).keeps_session sound hsession
        exact absurd (hc.symm.trans hkept) (by simp)
  · rw [not_exists] at hgate
    have hconns := (proxyStep_move hs).conns hgate
    have hnone : ∀ c, l.typed c = [] ∧ s.handing i c l = [] := by
      intro c
      cases l with
      | gateway k => exact absurd rfl (hgate k)
      | _ => exact ⟨rfl, rfl⟩
    refine ⟨fun c => ?_, fun c hc => ?_⟩
    · rw [Proxy.typed, typed_concat, (hnone c).1, (hnone c).2, List.append_nil, List.append_nil,
        State.inHand, hconns]
      exact h.held c
    · rw [typed_concat, (hnone c).1, List.append_nil]
      exact h.unattached c (hconns ▸ hc)

theorem Shell.pending_eq_nil (h : x.pendingResize = none) : x.pending = [] := by
  simp [Shell.pending, h]

theorem Shell.pending_of_some {cols rows : UInt32} (h : x.pendingResize = some (cols, rows)) :
    x.pending = [.resize cols rows] := by
  simp [Shell.pending, h]

/-- Parked away from the top of the loop there is nothing. -/
theorem Shell.Entered.unparked {o : Option Session} (h : x.Entered o merged) (hpc : x.pc ≠ .top) :
    x.pendingResize = none := by
  by_contra hne
  exact hpc (h.parked hne).1

theorem Shell.Entered.leave (h : x.Entered (some ses) merged) (hpc : x.pc ≠ .top)
    (dead : ses'.actor = false) (pending : y.pendingResize = x.pendingResize)
    (applied : y.applied = x.applied) : y.Entered (some ses') merged := by
  have hnone := pending.trans (h.unparked hpc)
  refine ⟨?_, fun found hf ha => ?_, by simp, by simp [hnone]⟩
  · rw [applied, Shell.pending, pending, ← Shell.pending]
    exact h.begun
  · cases hf
    simp [dead] at ha

theorem Shell.Entered.same (h : x.Entered (some ses) merged) (applied : y.applied = x.applied)
    (pending : y.pendingResize = x.pendingResize) (pc : y.pc = x.pc ∨ x.pendingResize = none)
    (actor : ses'.actor = ses.actor) (input : ses'.input = ses.input) :
    y.Entered (some ses') merged := by
  have hpending : y.pending = x.pending := by rw [Shell.pending, pending, Shell.pending]
  refine ⟨?_, fun found hf ha => ?_, by simp, fun hne => ?_⟩
  · rw [applied, hpending]
    exact h.begun
  · cases hf
    rw [applied, hpending, input]
    exact h.waiting ses rfl (actor ▸ ha)
  · rw [pending] at hne
    obtain ⟨htop, found, hf, ha⟩ := h.parked hne
    cases hf
    exact ⟨(pc.resolve_right hne).trans htop, ses', rfl, actor.trans ha⟩

theorem Shell.Entered.next (h : x.Entered (some ses) merged)
    (m : RelayMove s.gateway i x ses l y ses') (hl : ∀ c, l ≠ .gateway (.forward c)) :
    y.Entered (some ses') merged := by
  cases m with
  | gateway hactor hk hmove =>
    cases hmove with
    | same => exact h
    | forwarded => exact absurd rfl (hl _)
    | ingest => exact absurd rfl hk
    | ingestEnd => exact h.same rfl rfl (Or.inl rfl) rfl rfl
    | actorOutput | actorInput | actorEnd | actorNone => cases hactor
  | ingest => exact h.same rfl rfl (Or.inl rfl) rfl rfl
  | top ha hpc =>
    cases hp : x.pendingResize with
    | none =>
      have hresize : x.resize = { x with pc := .select } := by simp [Shell.resize, hp]
      rw [hresize]
      exact h.same rfl rfl (Or.inr hp) rfl rfl
    | some size =>
      obtain ⟨cols, rows⟩ := size
      have hresize : x.resize = { x with
          pc := .select, pendingResize := none, applied := x.applied ++ [.resize cols rows] } := by
        simp [Shell.resize, hp]
      rw [hresize]
      have hbegun := h.begun
      have hwaiting := h.waiting ses rfl ha
      rw [Shell.pending_of_some hp] at hbegun hwaiting
      refine ⟨by simpa [Shell.pending] using hbegun, fun found hf _ => ?_, by simp, by simp⟩
      cases hf
      simpa [Shell.pending] using hwaiting
  | received ha hpc hq hends =>
    have hnone := h.unparked (by simp [hpc])
    unfold Shell.receive
    split <;> exact h.same rfl rfl (Or.inr hnone) rfl rfl
  | finished ha hpc | hungUp ha hpc | writeFailed ha hpc => exact h.leave (by simp [hpc]) rfl rfl rfl
  | sent ha hpc => exact h.same rfl rfl (Or.inr (h.unparked (by simp [hpc]))) rfl rfl
  | @taken command rest ha hpc hinput =>
    have hnone := h.unparked (by simp [hpc])
    have hwaiting := h.waiting ses rfl ha
    rw [Shell.pending_eq_nil hnone, List.append_nil, hinput] at hwaiting
    subst hwaiting
    cases command with
    | data bytes =>
      refine ⟨?_, fun found hf _ => ?_, by simp, by simp [Shell.begin, hnone]⟩
      · simp [Shell.begin, Shell.pending, hnone]
      · cases hf
        simp [Shell.begin, Shell.pending, hnone]
    | resize cols rows =>
      refine ⟨?_, fun found hf _ => ?_, by simp, fun _ => ⟨rfl, _, rfl, ha⟩⟩
      · simp [Shell.begin, Shell.pending]
      · cases hf
        simp [Shell.begin, Shell.pending]
  | wrote hpc | written hpc =>
    exact h.same rfl rfl (Or.inr (h.unparked (by simp [hpc]))) rfl rfl
  | delivered => exact h.same rfl rfl (Or.inl rfl) rfl rfl
  | other _ _ hpc hpending _ happlied => exact h.same happlied hpending (Or.inl hpc) rfl rfl

theorem Shell.Entered.offer (h : x.Entered (some ses) merged) (more : List SshInput) :
    x.Entered (some { ses with input := ses.input ++ if ses.actor then more else [] })
      (merged ++ more) := by
  refine ⟨h.begun.trans (List.prefix_append _ _), fun found hf ha => ?_, by simp, fun hne => ?_⟩
  · cases hf
    have hwaiting := h.waiting ses rfl ha
    rw [if_pos ha, ← hwaiting, List.append_assoc]
    simp
  · obtain ⟨htop, found, hf, ha⟩ := h.parked hne
    cases hf
    exact ⟨htop, _, rfl, ha⟩

theorem Shell.Entered.born {o : Option Session} (h : x.Entered none merged)
    (new : o = none ∨ ∃ maxBytes, o = some (.spawn maxBytes)) : x.Entered o merged := by
  rcases new with rfl | ⟨maxBytes, rfl⟩
  · exact h
  · refine ⟨h.begun, fun found hf _ => ?_, by simp, fun hne => ?_⟩
    · cases hf
      simpa [Session.spawn] using h.unborn rfl
    · obtain ⟨-, found, hf, -⟩ := h.parked hne
      cases hf

end Typing

/-- What the actor has done, has still to do or was told in vain is what the clients of its session
have typed, each in its order. -/
structure Proxy.Ordered (s : Proxy) (i : SessionId) (ls : List ProxyLabel)
    (offered : ConnId → List SshInput) (merged : List SshInput) : Prop where
  typing : s.Typing i ls offered
  interleaves : Interleaves offered merged
  entered : (s.shells i).Entered (s.gateway.sessions i) merged

section Ordered

variable {lim : SshLimits} {maxScrollback : Nat} {s s' : Proxy} {i : SessionId} {l : ProxyLabel}
  {ls : List ProxyLabel} {offered : ConnId → List SshInput} {merged : List SshInput}

theorem Proxy.Ordered.next (h : s.Ordered i ls offered merged) (hs : proxyStep lim s l = some s')
    (sound : s.gateway.Sound) : ∃ offered' merged', s'.Ordered i (ls ++ [l]) offered' merged' := by
  by_cases hl : ∃ d, l = .gateway (.forward d)
  · obtain ⟨d, rfl⟩ := hl
    obtain ⟨-, g, hg, rfl⟩ := proxyStep_gateway hs
    refine ⟨_, merged ++ s.gateway.inHand i d, h.typing.next hs sound, ?_, ?_⟩
    · refine h.interleaves.append (k := d) (fun c hc => ?_) ?_
      · simp [Proxy.handing, State.handing, Ne.symm hc]
      · simp [Proxy.handing, State.handing, State.inHand]
    · cases hi : s.gateway.sessions i with
      | none =>
        rw [sound.wf.inHand_unborn hi, List.append_nil]
        exact (hi ▸ h.entered).born ((step_move hg).unborn hi)
      | some ses =>
        rw [forward_entry hg hi]
        exact (hi ▸ h.entered).offer _
  · rw [not_exists] at hl
    have hnone : ∀ c, s.handing i c l = [] := by
      intro c
      cases l with
      | gateway k =>
        cases k with
        | forward d => exact absurd rfl (hl d)
        | _ => exact ite_self _
      | _ => rfl
    refine ⟨_, merged, h.typing.next hs sound, by simpa [hnone] using h.interleaves, ?_⟩
    cases hi : s.gateway.sessions i with
    | none =>
      obtain ⟨hshell, -, hborn⟩ := proxyStep_unborn hs hi
      rw [hshell]
      exact (hi ▸ h.entered).born hborn
    | some ses =>
      obtain ⟨ses', hi', hmove⟩ := proxyStep_relay hs sound.wf hi
      rw [hi']
      exact (hi ▸ h.entered).next hmove hl

end Ordered

/-- The commands of a session, in the order in which they came, go on to those still in hand. -/
theorem exec_ordered {lim : SshLimits} {maxScrollback : Nat} {ls : List ProxyLabel} {s : Proxy}
    (run : exec (proxyStep lim) (.init lim maxScrollback) ls = some s) (i : SessionId) :
    ∃ offered merged, s.Ordered i ls offered merged := by
  have trace : Reachable (proxy lim maxScrollback) s ∧
      ∃ offered merged, s.Ordered i ls offered merged := by
    refine exec_trace (P := fun ls s => Reachable (proxy lim maxScrollback) s ∧
      ∃ offered merged, s.Ordered i ls offered merged) ⟨.init, fun _ => [], [], ?_⟩ ?_ run
    · have hnone : (State.init maxScrollback).sessions i = none := rfl
      refine ⟨⟨fun c => rfl, fun _ _ => rfl⟩, interleaves_nil, List.nil_prefix, ?_, fun _ => rfl, ?_⟩
      · intro found hf
        cases hnone.symm.trans hf
      · exact fun hne => absurd rfl hne
    · rintro ms t l t' ⟨hr, offered, merged, h⟩ hs
      exact ⟨hr.step trivial hs, h.next hs (gateway_sound (proxy_gateway hr))⟩
  exact trace.2

/-- What the actor has taken out of its channel's queue has gone on to the ingest task, and what has
arrived behind that is still in the queue; or the actor has left its loop, and why. -/
structure Shell.Passed (x : Shell) (ses : Session) (passed rest : List ChannelMsg) (failed : Prop) :
    Prop where
  open_ : ∀ msg ∈ passed, msg.ends = false
  flow : ses.produced ++ ses.output.flatten ++ x.pc.outgoing = outputs passed
  queued : ses.actor = true → x.queue = rest
  left : ses.actor = false → x.pc.outgoing = [] ∧
    (failed ∨ (∃ msg more, rest = msg :: more ∧ msg.ends = true) ∨ rest = [] ∧ x.stage = .lost)

/-- What has arrived for session `i` is as its actor and its scrollback show. -/
def Proxy.Accounted (s : Proxy) (i : SessionId) (arrived : List ChannelMsg) (failed : Prop) : Prop :=
  match s.gateway.sessions i with
  | none => arrived = [] ∧ (s.shells i).queue = [] ∧ (s.shells i).pc = .top
  | some ses => ∃ passed rest, arrived = passed ++ rest ∧ (s.shells i).Passed ses passed rest failed

section Accounted

variable {lim : SshLimits} {maxScrollback : Nat} {s s' : Proxy} {i : SessionId} {l : ProxyLabel}
  {ls : List ProxyLabel} {x y : Shell} {ses ses' : Session} {passed rest arrived : List ChannelMsg}
  {failed failed' : Prop} {msg : ChannelMsg}

theorem outputs_append (xs ys : List ChannelMsg) : outputs (xs ++ ys) = outputs xs ++ outputs ys := by
  simp [outputs]

theorem Shell.receive_outgoing : (x.receive msg).pc.outgoing = outputs [msg] := by
  unfold Shell.receive
  split
  next bytes ho => simp [ActorPc.outgoing, outputs, ho]
  next ho => simp [ActorPc.outgoing, outputs, ho]

theorem Shell.Passed.weaken (h : x.Passed ses passed rest failed) (hf : failed → failed') :
    x.Passed ses passed rest failed' :=
  ⟨h.open_, h.flow, h.queued, fun ha => ⟨(h.left ha).1, (h.left ha).2.imp_left hf⟩⟩

theorem Shell.Passed.same (h : x.Passed ses passed rest failed)
    (flow : ses'.produced ++ ses'.output.flatten ++ y.pc.outgoing =
      ses.produced ++ ses.output.flatten ++ x.pc.outgoing)
    (queue : y.queue = x.queue) (actor : ses'.actor = ses.actor)
    (outgoing : ses.actor = false → y.pc.outgoing = x.pc.outgoing)
    (stage : x.stage = .lost → y.stage = .lost) : y.Passed ses' passed rest failed := by
  refine ⟨h.open_, flow.trans h.flow, fun ha => queue.trans (h.queued (actor ▸ ha)), fun ha => ?_⟩
  obtain ⟨hnil, hleft⟩ := h.left (actor ▸ ha)
  refine ⟨(outgoing (actor ▸ ha)).trans hnil, hleft.imp_right (Or.imp_right ?_)⟩
  exact fun hr => ⟨hr.1, stage hr.2⟩

theorem Shell.Passed.leave (h : x.Passed ses passed rest failed) (outgoing : x.pc.outgoing = [])
    (pc : y.pc = x.pc)
    (left : failed' ∨ (∃ msg more, rest = msg :: more ∧ msg.ends = true) ∨
      rest = [] ∧ y.stage = .lost) :
    y.Passed { ses with actor := false, input := [] } passed rest failed' := by
  refine ⟨h.open_, ?_, by simp, fun _ => ⟨by rw [pc]; exact outgoing, left⟩⟩
  rw [pc]
  exact h.flow

theorem Proxy.arriving_of_ne (h : l ≠ .deliver i) : s.arriving i l = [] := by
  unfold Proxy.arriving
  split
  next j => exact if_neg fun hj => h (by rw [hj])
  next => rfl

theorem Shell.Passed.next (h : (s.shells i).Passed ses passed rest failed)
    (m : RelayMove s.gateway i (s.shells i) ses l y ses') :
    ∃ passed' rest', passed ++ rest ++ s.arriving i l = passed' ++ rest' ∧
      y.Passed ses' passed' rest' (failed ∨ l = .writeFailed i) := by
  have quiet : l ≠ .deliver i → y.Passed ses' passed rest (failed ∨ l = .writeFailed i) →
      ∃ passed' rest', passed ++ rest ++ s.arriving i l = passed' ++ rest' ∧
        y.Passed ses' passed' rest' (failed ∨ l = .writeFailed i) := by
    intro hl hp
    exact ⟨passed, rest, by rw [Proxy.arriving_of_ne hl, List.append_nil], hp⟩
  cases m with
  | gateway hactor hk hmove =>
    refine quiet (by simp) (Shell.Passed.weaken ?_ Or.inl)
    cases hmove with
    | same => exact h
    | forwarded | ingestEnd => exact h.same rfl rfl rfl (fun _ => rfl) id
    | ingest => exact absurd rfl hk
    | actorOutput | actorInput | actorEnd | actorNone => cases hactor
  | ingest hout =>
    refine quiet (by simp) (Shell.Passed.weaken ?_ Or.inl)
    exact h.same (by simp [hout]) rfl rfl (fun _ => rfl) id
  | top ha hpc =>
    refine quiet (by simp) (Shell.Passed.weaken ?_ Or.inl)
    have hqueue : (s.shells i).resize.queue = (s.shells i).queue := by
      unfold Shell.resize
      split <;> rfl
    refine h.same ?_ hqueue rfl (fun hdead => absurd (ha.symm.trans hdead) (by simp)) fun hlost => ?_
    · rw [Shell.resize_pc, hpc]
      rfl
    · unfold Shell.resize
      split <;> exact hlost
  | @received msg more ha hpc hq hends =>
    have hrest := (h.queued ha).symm.trans hq
    have hqueue : ∀ z : Shell, (z.receive msg).queue = z.queue := by
      intro z
      unfold Shell.receive
      split <;> rfl
    refine ⟨passed ++ [msg], more, by simp [hrest, Proxy.arriving], ?_, ?_, fun _ => hqueue _, ?_⟩
    · intro m hm
      rcases List.mem_append.mp hm with hm | hm
      · exact h.open_ m hm
      · rw [List.mem_singleton.mp hm]
        exact hends
    · have hflow := h.flow
      rw [hpc] at hflow
      rw [Shell.receive_outgoing, outputs_append, ← hflow]
      simp [ActorPc.outgoing]
    · exact fun hdead => absurd (ha.symm.trans hdead) (by simp)
  | @finished msg more ha hpc hq hends =>
    have hrest := (h.queued ha).symm.trans hq
    exact quiet (by simp) (h.leave (by simp [hpc, ActorPc.outgoing]) rfl
      (Or.inr (Or.inl ⟨msg, more, hrest, hends⟩)))
  | hungUp ha hpc hq hlost =>
    have hrest := (h.queued ha).symm.trans hq
    exact quiet (by simp) (h.leave (by simp [hpc, ActorPc.outgoing]) rfl
      (Or.inr (Or.inr ⟨hrest, hlost⟩)))
  | writeFailed ha hpc =>
    exact quiet (by simp) (h.leave (by simp [hpc, ActorPc.outgoing]) rfl (Or.inl (Or.inr rfl)))
  | sent ha hpc =>
    refine quiet (by simp) (Shell.Passed.weaken ?_ Or.inl)
    refine h.same ?_ rfl rfl (fun hdead => absurd (ha.symm.trans hdead) (by simp)) id
    rw [hpc]
    simp [ActorPc.outgoing]
  | @taken command _ ha hpc hinput =>
    refine quiet (by simp) (Shell.Passed.weaken ?_ Or.inl)
    have hdead : ses.actor = false → ∀ {p : Prop}, p := fun hdead => by simp [ha] at hdead
    cases command <;> exact h.same (by rw [hpc]; rfl) rfl rfl (fun ha => hdead ha) id
  | wrote hpc | written hpc =>
    refine quiet (by simp) (Shell.Passed.weaken ?_ Or.inl)
    exact h.same (by rw [hpc]; rfl) rfl rfl (fun _ => by rw [hpc]; rfl) id
  | @delivered msg more hstage hlink =>
    refine ⟨passed, rest ++ [msg], by simp [Proxy.arriving, hlink], h.open_, h.flow, fun ha => ?_,
      fun hdead => ?_⟩
    · exact congrArg (· ++ [msg]) (h.queued ha)
    · obtain ⟨hnil, hleft⟩ := h.left hdead
      refine ⟨hnil, ?_⟩
      rcases hleft with hf | ⟨first, others, rfl, hends⟩ | ⟨-, hlost⟩
      · exact Or.inl (Or.inl hf)
      · exact Or.inr (Or.inl ⟨first, others ++ [msg], rfl, hends⟩)
      · exact absurd hlost hstage
  | other _ hd hpc _ hqueue _ hstage =>
    refine quiet hd (Shell.Passed.weaken ?_ Or.inl)
    exact h.same (by rw [hpc]) hqueue rfl (fun _ => by rw [hpc]) hstage

theorem Proxy.Accounted.next (h : s.Accounted i arrived failed) (hs : proxyStep lim s l = some s')
    (wf : s.gateway.Wf) (hf : failed ∨ l = .writeFailed i → failed') :
    s'.Accounted i (arrived ++ s.arriving i l) failed' := by
  cases hi : s.gateway.sessions i with
  | none =>
    simp only [Proxy.Accounted, hi] at h
    obtain ⟨rfl, hqueue, hpc⟩ := h
    obtain ⟨hshell, hl, hborn⟩ := proxyStep_unborn hs hi
    rw [Proxy.arriving_of_ne hl]
    rcases hborn with hnone | ⟨maxBytes, hsome⟩
    · simp only [Proxy.Accounted, hnone, hshell]
      exact ⟨rfl, hqueue, hpc⟩
    · simp only [Proxy.Accounted, hsome, hshell]
      refine ⟨[], [], rfl, by simp, ?_, fun _ => hqueue, fun ha => by cases ha⟩
      rw [hpc]
      rfl
  | some ses =>
    simp only [Proxy.Accounted, hi] at h
    obtain ⟨passed, rest, rfl, hpassed⟩ := h
    obtain ⟨ses', hi', hmove⟩ := proxyStep_relay hs wf hi
    obtain ⟨passed', rest', he, hpassed'⟩ := hpassed.next hmove
    simp only [Proxy.Accounted, hi']
    exact ⟨passed', rest', he, hpassed'.weaken hf⟩

theorem upToEnd_passed (h : ∀ msg ∈ passed, msg.ends = false) :
    upToEnd (passed ++ rest) = passed ++ upToEnd rest := by
  rw [upToEnd, List.takeWhile_append_of_pos fun msg hm => by simp [h msg hm], upToEnd]

end Accounted

theorem exec_accounted {lim : SshLimits} {maxScrollback : Nat} {ls : List ProxyLabel} {s : Proxy}
    (run : exec (proxyStep lim) (.init lim maxScrollback) ls = some s) (i : SessionId) :
    s.Accounted i (arrived lim maxScrollback i ls) (.writeFailed i ∈ ls) := by
  have trace : exec (proxyStep lim) (.init lim maxScrollback) ls = some s ∧
      Reachable (proxy lim maxScrollback) s ∧
      s.Accounted i (arrived lim maxScrollback i ls) (.writeFailed i ∈ ls) := by
    refine exec_trace (P := fun ls s => exec (proxyStep lim) (.init lim maxScrollback) ls = some s ∧
      Reachable (proxy lim maxScrollback) s ∧
      s.Accounted i (arrived lim maxScrollback i ls) (.writeFailed i ∈ ls)) ?_ ?_ run
    · exact ⟨rfl, .init, rfl, rfl, rfl⟩
    · rintro ms t l t' ⟨ht, hr, h⟩ hs
      refine ⟨exec_concat ht hs, hr.step trivial hs, ?_⟩
      rw [arrived, emitted_concat ht]
      refine h.next hs (gateway_sound (proxy_gateway hr)).wf ?_
      rintro (hm | rfl) <;> simp [*]
  exact trace.2.2

theorem RelayMove.parked {s : State} {i : SessionId} {x y : Shell} {ses ses' : Session}
    {l : ProxyLabel} (m : RelayMove s i x ses l y ses') (hpc : x.pc = .top) :
    l = .top i ∧ y = x.resize ∨ y.applied = x.applied ∧ y.pendingResize = x.pendingResize ∧
      ses'.actor = ses.actor := by
  cases m with
  | top => exact Or.inl ⟨rfl, rfl⟩
  | gateway hactor _ hmove =>
    right
    cases hmove with
    | actorEnd | actorNone => cases hactor
    | _ => exact ⟨rfl, rfl, rfl⟩
  | ingest | delivered => exact Or.inr ⟨rfl, rfl, rfl⟩
  | other _ _ _ hpending _ happlied => exact Or.inr ⟨happlied, hpending, rfl⟩
  | received _ h | finished _ h | hungUp _ h | writeFailed _ h | sent _ h | taken _ h | wrote h
  | written h => simp [hpc] at h

/-- The actor applies what the clients of its session have typed, in an order that keeps theirs, and
nothing else; a resize that is parked is what it does next. The output of the target goes to the
scrollback in the order in which it arrives, up to the first `Eof` or `Close`, unless a write to the
target fails. -/
theorem input_in_order {lim : SshLimits} {maxScrollback : Nat} {ls : List ProxyLabel} {s : Proxy}
    (run : exec (proxyStep lim) (.init lim maxScrollback) ls = some s) (i : SessionId) :
    (∃ merged, Interleaves (s.typed i ls) merged ∧ (s.shells i).applied <+: merged) ∧
    (∀ cols rows, (s.shells i).pendingResize = some (cols, rows) →
      (∃ s', proxyStep lim s (.top i) = some s') ∧
      ∀ l s', proxyStep lim s l = some s' →
        l = .top i ∧ (s'.shells i).applied = (s.shells i).applied ++ [.resize cols rows] ∧
          (s'.shells i).pendingResize = none ∨
        (s'.shells i).applied = (s.shells i).applied ∧
          (s'.shells i).pendingResize = some (cols, rows) ∧
          ∃ ses, s'.gateway.sessions i = some ses ∧ ses.actor = true) ∧
    ∀ ses, s.gateway.sessions i = some ses →
      ses.produced <+: outputs (upToEnd (arrived lim maxScrollback i ls)) ∧
      (.writeFailed i ∉ ls → ses.produced ++ ses.output.flatten ++
          (if ses.actor then (s.shells i).unsent else []) =
        outputs (upToEnd (arrived lim maxScrollback i ls))) := by
  have sound := gateway_sound (proxy_gateway (reachable_exec .init run))
  obtain ⟨offered, merged, typing, interleaves, entered⟩ := exec_ordered run i
  refine ⟨?_, fun cols rows hparked => ?_, fun ses hi => ?_⟩
  · have htyped : s.typed i ls = fun c => offered c ++ s.gateway.inHand i c :=
      funext typing.held
    have hfinite : ∀ c, s.gateway.inHand i c ≠ [] → c ∈ s.gateway.accepted := by
      intro c hc
      by_contra hidle
      simp [State.inHand, sound.wf.idle c hidle, Conn.belongs, Conn.init] at hc
    obtain ⟨more, hmore⟩ := interleaves.extend s.gateway.accepted hfinite
    rw [htyped]
    exact ⟨_, hmore, (List.prefix_append _ _).trans
      (entered.begun.trans (List.prefix_append _ _))⟩
  · obtain ⟨htop, ses, hi, ha⟩ := entered.parked (by simp [hparked])
    refine ⟨⟨_, top_enabled hi ha htop⟩, fun l s' hs => ?_⟩
    obtain ⟨ses', hi', hmove⟩ := proxyStep_relay hs sound.wf hi
    rcases hmove.parked htop with ⟨rfl, hresize⟩ | ⟨happlied, hpending, hactor⟩
    · left
      rw [hresize]
      simp [Shell.resize, hparked]
    · exact Or.inr ⟨happlied, hpending.trans hparked, ses', hi', hactor.trans ha⟩
  · have haccounted := exec_accounted run i
    simp only [Proxy.Accounted, hi] at haccounted
    obtain ⟨passed, rest, he, hpassed⟩ := haccounted
    rw [he, upToEnd_passed hpassed.open_, outputs_append, ← hpassed.flow]
    refine ⟨by simp, fun hwritten => ?_⟩
    cases ha : ses.actor with
    | true => simp [Shell.unsent, hpassed.queued ha]
    | false =>
      obtain ⟨hnil, hleft⟩ := hpassed.left ha
      have hrest : upToEnd rest = [] := by
        rcases hleft with hfailed | ⟨msg, more, rfl, hends⟩ | ⟨rfl, -⟩
        · exact absurd hfailed hwritten
        · simp [upToEnd, hends]
        · rfl
      simp [hnil, hrest, outputs]

/-- A client resizes its terminal, and another one types. -/
theorem input_in_order_resized : ∃ ls s, exec (proxyStep .narrow) (.init .narrow
      defaultScrollbackBytes) ls = some s ∧
    (s.shells 5).applied = [.resize 100 40, .data [97]] ∧
    ∃ merged, Interleaves (s.typed 5 ls) merged ∧ (s.shells 5).applied <+: merged := by
  obtain ⟨s, run, happlied⟩ : ∃ s, exec (proxyStep .narrow) (.init .narrow defaultScrollbackBytes)
      ((opening 0 none .unlimited 5 [1] ++ resuming 1 none .unlimited [1]).map .gateway ++
        [.gateway (.recv 0 (.ok (.resize 100 40))), .gateway (.recv 1 (.ok (.data [97]))),
          .gateway (.forward 0), .gateway (.forward 1), .top 5, .take 5, .top 5, .take 5]) =
        some s ∧
      (s.shells 5).applied = [.resize 100 40, .data [97]] := exists_exec (by decide +kernel)
  exact ⟨_, s, run, happlied, (input_in_order run 5).1⟩

/-- The connection to the target is lost, and the write of what a client types fails before the
actor comes to what the target has sent: nobody will see it. -/
theorem output_unread : ∃ ls,
    upToEnd (arrived .narrow defaultScrollbackBytes 5 ls) = [.data [65]] ∧
    ∃ s, exec (proxyStep .narrow) (.init .narrow defaultScrollbackBytes) ls = some s ∧
      (s.gateway.sessions 5).map (fun ses => (ses.produced, ses.output, ses.inner.closed)) =
        some ([], [], true) := by
  refine ⟨(opening 0 none .unlimited 5 [1]).map .gateway ++ [.produce 5 (.data [65]), .deliver 5,
    .gateway (.recv 0 (.ok (.data [97]))), .gateway (.forward 0), .top 5, .take 5, .lose 5,
    .writeFailed 5, .gateway (.ingestEnd 5)], by decide +kernel, ?_⟩
  exact exists_exec (by decide +kernel)

end TtyGateway
