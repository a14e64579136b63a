import TtyGateway.Relay

namespace TtyGateway

open Transition

/-- What ends session `i` in a run: the control plane refuses it, a client on it asks for its end,
or the actor loses the target. -/
def State.EndedIn (s : State) (ls : List Label) (i : SessionId) : Prop :=
  (∃ account clientName denied, .sessionOpen account i clientName (.error denied) ∈ s.calls) ∨
  (∃ c, .recv c (.ok .close) ∈ ls ∧ s.onSession c i) ∨ .actorEnd i ∈ ls

/-- The handler is on its way to `session_close`, or back from it. -/
def Pc.quits : Pc → Bool
  | .ending .closed | .metering .closed | .reporting .closed | .deciding .closed | .closing
  | .closeWait => true
  | _ => false

section Steps

variable {s s' : State} {l : Label} {ls : List Label} {c : ConnId} {i : SessionId}

theorem Move.registered (m : Move s l s') (h : s.registered i) : s'.registered i ∨
    (∃ account clientName denied,
      .sessionOpen account i clientName (.error denied) ∈ s'.calls) ∨
    ∃ c session, (s.conns c).session = some session ∧ session.id = i ∧
      (s.conns c).pc = .closeWait := by
  cases m with
  | @slotDenied c session denied hpc hs =>
    by_cases hi : session.id = i
    · subst hi
      refine Or.inr (Or.inl ⟨(s.conns c).accountToken, (s.conns c).clientName, denied, ?_⟩)
      simp
    · exact Or.inl (Registry.mem_remove.mpr ⟨Ne.symm hi, h⟩)
  | @closeReturned c session hpc hs =>
    by_cases hi : session.id = i
    · exact Or.inr (Or.inr ⟨c, session, hs, hi, hpc⟩)
    · exact Or.inl (Registry.mem_remove.mpr ⟨Ne.symm hi, h⟩)
  | loggedIn => exact Or.inl (Finmap.mem_insert.mpr (Or.inr h))
  | _ => exact Or.inl h

theorem Move.quits (m : Move s l s') (h : (s'.conns c).pc.quits = true) :
    (s.conns c).pc.quits = true ∨ l = .recv c (.ok .close) ∨ ∃ session ses,
      (s.conns c).session = some session ∧ s.sessions session.id = some ses ∧
      ses.inner.closed = true := by
  by_cases hl : l.conn = some c
  · cases m with
    | @recvClose d hpc =>
      cases hl
      exact Or.inr (Or.inl rfl)
    | @ended d session ses outcome hpc hs hi hclosed =>
      cases hl
      rcases hclosed with rfl | hclosed
      · exact Or.inl (by rw [hpc]; rfl)
      · exact Or.inr (Or.inr ⟨session, ses, hs, hi, hclosed⟩)
    | @abort d outcome hpc | @report d session outcome hpc | @reported d outcome hpc =>
      cases hl
      cases outcome
      · simp [Pc.quits] at h
      · exact Or.inl (by rw [hpc]; rfl)
    | @closeCall d session hpc =>
      cases hl
      exact Or.inl (by rw [hpc]; rfl)
    | actorOutput | actorInput | actorEnd | actorNone | ingest | ingestEnd | tick => cases hl
    | signIgnored | recvIgnored => exact Or.inl h
    | accept | helloLost | hello | helloRefused | authorized | denied | resumed | unresumed
    | openLost | openTarget | openRefused | loginFailed | signAsked | signSent | signUnsent | signed
    | signRefused | loggedIn | slotTaken | slotDenied | rejectSent | rejectUnsent | helloSent
    | helloUnsent | statusSent | statusUnsent | recvData | recvResize | recvPing | recvLost
    | forwarded | unforwarded | ponged | unponged | kept | closeReturned | leave =>
      cases hl
      simp [Pc.quits] at h
    | _ =>
      cases hl
      exact Or.inl (by simpa using h)
  · rw [m.conns_of_ne hl] at h
    exact Or.inl h

theorem State.EndedIn.step (h : s.EndedIn ls i) (m : Move s l s') (sound : s.Sound) :
    s'.EndedIn (ls ++ [l]) i := by
  rcases h with ⟨account, clientName, denied, hcall⟩ | ⟨c, hrecv, hon⟩ | hend
  · exact Or.inl ⟨account, clientName, denied, m.calls hcall⟩
  · obtain ⟨session, hs, hid⟩ := (Option.any_eq_true _ _).mp hon
    refine Or.inr (Or.inl ⟨c, List.mem_append_left _ hrecv, ?_⟩)
    rw [State.onSession, m.keeps_session sound hs]
    exact hid
  · exact Or.inr (Or.inr (List.mem_append_left _ hend))

theorem State.Sound.session_of_quits (sound : s.Sound) (h : (s.conns c).pc.quits = true) :
    ∃ session, (s.conns c).session = some session := by
  refine Option.ne_none_iff_exists'.mp fun hsession => ?_
  have hplaced := (sound.owned.ok c).placed (by simp [State.life_client, Conn.client, hsession])
  simp only [State.life_client, Conn.client] at hplaced
  cases hpc : (s.conns c).pc <;> simp [hpc, Pc.quits, Pc.stage] at h hplaced

/-- A session is there, with its actor at work, as long as nothing has ended it. -/
structure State.Lasting (s : State) (ls : List Label) : Prop where
  registered : ∀ i ∈ s.minted.map SessionRef.id, s.registered i ∨ s.EndedIn ls i
  working : ∀ i ses, s.sessions i = some ses → ses.actor = true ∨ s.EndedIn ls i
  quitting : ∀ c session, (s.conns c).session = some session → (s.conns c).pc.quits = true →
    s.EndedIn ls session.id

theorem State.inputAlive_of_registered (h : s.registered i) : s.inputAlive i = true := by
  simp [State.inputAlive, h]

theorem Move.lasting (m : Move s l s') (sound : s.Sound) (h : s.Lasting ls) :
    s'.Lasting (ls ++ [l]) := by
  refine ⟨fun i hi => ?_, fun i ses' hi => ?_, fun c session hs hq => ?_⟩
  · by_cases hold : i ∈ s.minted.map SessionRef.id
    · rcases h.registered i hold with hreg | hended
      · rcases m.registered hreg with hreg | hrefused | ⟨c, session, hs, rfl, hpc⟩
        · exact Or.inl hreg
        · exact Or.inr (Or.inl hrefused)
        · exact Or.inr ((h.quitting c session hs (by rw [hpc]; rfl)).step m sound)
      · exact Or.inr (hended.step m sound)
    · cases m with
      | @loggedIn c id token =>
        have hid : i = id := by
          simp only [List.map_append, List.mem_append, hold, false_or] at hi
          simpa using hi
        subst hid
        exact Or.inl (Finmap.mem_insert.mpr (Or.inl rfl))
      | _ => exact absurd hi hold
  · cases hi' : s.sessions i with
    | none =>
      rcases m.unborn hi' with hnone | ⟨maxBytes, hnew⟩
      · simp [hnone] at hi
      · obtain rfl := Option.some.inj (hnew.symm.trans hi)
        exact Or.inl rfl
    | some ses =>
      obtain ⟨found, hfound, hmove⟩ := m.session sound.wf hi'
      obtain rfl := Option.some.inj (hfound.symm.trans hi)
      have before := (h.working i ses hi').imp_right fun he => he.step m sound
      cases hmove with
      | actorEnd => exact Or.inr (Or.inr (Or.inr (by simp)))
      | actorNone =>
        have hminted := (sound.wf.known i).mp (by simp [hi'])
        rcases h.registered i hminted with hreg | hended
        · cases m with
          | actorNone _ _ hdead =>
            rw [State.inputAlive_of_registered hreg] at hdead
            cases hdead
        · exact Or.inr (hended.step m sound)
      | _ => exact before
  · rcases m.quits hq with hold | rfl | ⟨found, ses, hfound, hses, hclosed⟩
    · obtain ⟨old, hold'⟩ := sound.session_of_quits hold
      obtain rfl := Option.some.inj ((m.keeps_session sound hold').symm.trans hs)
      exact (h.quitting c old hold' hold).step m sound
    · exact Or.inr (Or.inl ⟨c, by simp, by simp [State.onSession, hs]⟩)
    · obtain rfl := Option.some.inj ((m.keeps_session sound hfound).symm.trans hs)
      have hactor : ses.actor = false :=
        sound.wf.actor _ _ hses (by simpa [hclosed] using sound.wf.closed _ _ hses)
      rcases h.working _ ses hses with hworking | hended
      · simp [hactor] at hworking
      · exact hended.step m sound

end Steps

section Runs

variable {maxScrollback : Nat} {s : State} {ls : List Label} {session : SessionRef}

theorem lasting_init : (State.init maxScrollback).Lasting [] where
  registered i hi := by simp [State.init] at hi
  working i ses hi := by simp [State.init] at hi
  quitting c session hs := by simp [State.init, Conn.init] at hs

theorem exec_lasting (run : exec step (.init maxScrollback) ls = some s) : s.Lasting ls := by
  have trace : Reachable (gateway maxScrollback) s ∧ s.Lasting ls := by
    refine exec_trace (P := fun ls s => Reachable (gateway maxScrollback) s ∧ s.Lasting ls)
      ⟨.init, lasting_init⟩ ?_ run
    rintro ms t l t' ⟨hr, h⟩ hs
    exact ⟨hr.step trivial hs, (step_move hs).lasting (gateway_sound hr) h⟩
  exact trace.2

/-- However many clients come and drop, a session goes on until the control plane refuses it, one of
its clients asks for its end, or the target is lost: its shell is served, and its token resumes
it. -/
theorem session_kept_alive (run : exec step (.init maxScrollback) ls = some s)
    (hm : session ∈ s.minted) (h : ¬s.EndedIn ls session.id) :
    s.registry.resume session.resumeToken = some session ∧
    (∃ ses, s.sessions session.id = some ses ∧ ses.actor = true ∧ ses.inner.closed = false) ∧
    ∀ c s', (s.conns c).resume = some ⟨session.resumeToken⟩ → step s (.lookup c) = some s' →
      (s'.conns c).session = some session ∧ (s'.conns c).resumed = true := by
  have sound := gateway_sound (reachable_exec .init run)
  have lasting := exec_lasting run
  have hid := List.mem_map_of_mem (f := SessionRef.id) hm
  have hresume : s.registry.resume session.resumeToken = some session :=
    sound.wf.resume_of_registered hm ((lasting.registered _ hid).resolve_right h)
  refine ⟨hresume, ?_, fun c s' hc hs => ?_⟩
  · obtain ⟨ses, hi⟩ := Option.ne_none_iff_exists'.mp ((sound.wf.known _).mpr hid)
    have hactor := (lasting.working _ ses hi).resolve_right h
    refine ⟨ses, hi, hactor, ?_⟩
    rw [sound.wf.closed _ _ hi, sound.wf.ingest_of_actor hi hactor]
    rfl
  · cases step_move hs with
    | resumed _ ht hr =>
      obtain rfl := Option.some.inj (hc.symm.trans ht)
      obtain rfl := Option.some.inj (hresume.symm.trans hr)
      simp
    | unresumed _ hr => simp [hc, hresume] at hr

end Runs

def dropping : List Label :=
  opening 0 none .unlimited 5 [1] ++ ending 0 (.error "connection lost") ++ [.leave 0]

theorem session_kept_alive_dropped : ∃ s,
    exec step (.init defaultScrollbackBytes) dropping = some s ∧ (s.conns 0).pc = .done ∧
    s.registry.resume [1] = some ⟨5, [1]⟩ := by
  have hrun : ∃ s, exec step (.init defaultScrollbackBytes) dropping = some s ∧
      (s.conns 0).pc = .done ∧ ⟨5, [1]⟩ ∈ s.minted ∧ s.calls =
        [.authorize "client" none (.ok .unlimited), .sessionOpen none 5 "client" (.ok ()),
          .reportUsage none 5 0 0] := exists_exec (by decide +kernel)
  obtain ⟨s, run, hdone, hm, hcalls⟩ := hrun
  refine ⟨s, run, hdone, (session_kept_alive run hm ?_).1⟩
  rintro (⟨account, clientName, denied, hcall⟩ | ⟨c, hrecv, -⟩ | hend)
  · simp [hcalls] at hcall
  · simp [dropping, opening, ending] at hrecv
  · simp [dropping, opening, ending] at hend

end TtyGateway
