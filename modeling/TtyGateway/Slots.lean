import TtyGateway.Refinement

namespace TtyGateway

open Transition

theorem LifeStep.attached_cases {v v' : Life} {l : LifeLabel} (h : LifeStep v l v')
    (ok : ∀ c, (v.client c).Ok) {c : ConnId} {i : SessionId} (hc : (v'.client c).Attached i) :
    (v.client c).Attached i ∨ (l = .create c i ∧ v.ssh i = none) ∨
      (l = .attach c i ∧ i ∈ v.registered) := by
  rcases h.session_cases ok hc.1 with ⟨hs, -⟩ | ⟨rfl, hn, -⟩ | ⟨rfl, hi, -⟩
  · exact Or.inl ⟨hs, fun hg => hc.2 (h.stays_gone hg)⟩
  · exact Or.inr (Or.inl ⟨rfl, hn⟩)
  · exact Or.inr (Or.inr ⟨rfl, hi⟩)

theorem LifeStep.streaming_cases {v v' : Life} {l : LifeLabel} (h : LifeStep v l v')
    (ok : ∀ c, (v.client c).Ok) {c : ConnId} {i : SessionId} (hc : (v'.client c).Streaming i) :
    (v.client c).Streaming i ∨ (v.client c).session = some i ∧ (v.client c).stage = .greeting := by
  have hearly := (ok c).early
  have hfeed := (ok c).feed
  obtain ⟨hs, hf⟩ := hc
  simp only [Client.Streaming]
  cases h <;> grind

theorem LifeStep.after_report {v v' : Life} {l : LifeLabel} (h : LifeStep v l v') {c : ConnId}
    (hs : (v.client c).stage = .reported ∨ (v.client c).stage = .leaving) :
    (v'.client c).stage = .reported ∨ (v'.client c).stage = .leaving ∨
      (v'.client c).stage = .gone := by
  cases h <;> grind

/-- Where a session was reported closed only the handler that did so is left, on its way out. -/
structure Life.Freed (v : Life) : Prop where
  leaving : ∀ a i c, .closed a i ∈ v.calls → (v.client c).Attached i →
    (v.client c).stage = .reported ∨ (v.client c).stage = .leaving
  alone : ∀ a i c d, .closed a i ∈ v.calls → (v.client c).Attached i → (v.client d).Attached i →
    c = d
  silent : ∀ a i c, .closed a i ∈ v.calls → ¬(v.client c).Streaming i

theorem Life.freed_init : Life.init.Freed := by
  refine ⟨?_, ?_, ?_⟩ <;> simp [Life.init]

theorem LifeStep.closed_cases {v v' : Life} {l : LifeLabel} (h : LifeStep v l v')
    {a : Option Bytes} {i : SessionId} (hx : .closed a i ∈ v'.calls) :
    .closed a i ∈ v.calls ∨ ∃ c, l = .close c i ∧ (v.client c).session = some i ∧
      (v.client c).stage = .closing ∧ (v.client c).account = a ∧
      ∀ d, v'.client d = if d = c then { v.client c with stage := .reported } else v.client d := by
  rcases h.call_cases hx with hx | ⟨_, _, _, he⟩ | ⟨_, _, _, he⟩ | ⟨c, j, rfl, he⟩
  · exact Or.inl hx
  · cases he
  · cases he
  · cases he
    cases h with
    | close hs hc => exact Or.inr ⟨c, rfl, hc, hs, rfl, fun d => by simp [Life.setClient_client]⟩

/-- Unless during the call itself, a session that was reported closed is not resumed any more. -/
theorem LifeStep.attached_back {v v' : Life} {l : LifeLabel} (h : LifeStep v l v') (ho : v.Owned)
    (hb : v.Billed)
    (hattach : ∀ c i, l = .attach c i → ∀ d, (v.client d).session = some i →
      (v.client d).stage ≠ .reported) {a : Option Bytes} {i : SessionId} {c : ConnId}
    (hx : .closed a i ∈ v.calls) (hc : (v'.client c).Attached i) : (v.client c).Attached i := by
  obtain ⟨hknown, hgone⟩ := hb.closed a i hx
  rcases h.attached_cases ho.ok hc with hc | ⟨-, hn⟩ | ⟨hl, hi⟩
  · exact hc
  · exact absurd hn hknown
  · rcases hgone with hn | ⟨d, hd, hs⟩
    · exact absurd hi hn
    · exact absurd hs (hattach c i hl d hd)

theorem LifeStep.freed {v v' : Life} {l : LifeLabel} (h : LifeStep v l v') (ho : v.Owned)
    (hb : v.Billed) (hv : v.Freed)
    (hclose : ∀ c i, l = .close c i → ∀ d, (d ≠ c → ¬(v.client d).Attached i) ∧
      ¬(v.client d).Streaming i)
    (hattach : ∀ c i, l = .attach c i → ∀ d, (v.client d).session = some i →
      (v.client d).stage ≠ .reported) : v'.Freed := by
  have back := fun {a i c} => h.attached_back ho hb hattach (a := a) (i := i) (c := c)
  refine ⟨?_, ?_, ?_⟩
  · intro a i c hx hc
    rcases h.closed_cases hx with hx | ⟨e, rfl, he, hse, -, hall⟩
    · rcases h.after_report (hv.leaving a i c hx (back hx hc)) with hs | hs | hs
      · exact Or.inl hs
      · exact Or.inr hs
      · exact absurd hs hc.2
    · by_cases hce : c = e
      · exact Or.inl (by simp [hall, hce])
      · exact absurd (by simpa [hall, hce] using hc) ((hclose e i rfl c).1 hce)
  · intro a i c d hx hc hd
    rcases h.closed_cases hx with hx | ⟨e, rfl, he, hse, -, hall⟩
    · exact hv.alone a i c d hx (back hx hc) (back hx hd)
    · have closer : ∀ x, (v'.client x).Attached i → x = e := by
        intro x hx
        by_contra hxe
        exact absurd (by simpa [hall, hxe] using hx) ((hclose e i rfl x).1 hxe)
      rw [closer c hc, closer d hd]
  · intro a i c hx hc
    rcases h.closed_cases hx with hx | ⟨e, rfl, he, hse, -, hall⟩
    · rcases h.streaming_cases ho.ok hc with hc | ⟨hs, hg⟩
      · exact hv.silent a i c hx hc
      · rcases hv.leaving a i c hx ⟨hs, by simp [hg]⟩ with he | he <;> simp [hg] at he
    · refine (hclose e i rfl c).2 ?_
      by_cases hce : c = e
      · subst hce
        simpa [hall, Client.Streaming] using hc
      · simpa [hall, hce] using hc

/-- Every close reported so far follows the opening of the same session, and no other close. -/
def Life.Once (v : Life) : Prop := ∀ pre post a i, v.calls = pre ++ .closed a i :: post →
  (∃ b, .opened b i ∈ pre) ∧ ∀ b, .closed b i ∉ pre

theorem append_cons_concat {α : Type} {xs pre post : List α} {x y : α}
    (h : xs ++ [x] = pre ++ y :: post) : (xs = pre ∧ x = y) ∨ ∃ post', xs = pre ++ y :: post' := by
  rcases List.eq_nil_or_concat post with rfl | ⟨post', z, rfl⟩
  · obtain ⟨h1, h2⟩ := List.append_inj' h rfl
    exact Or.inl ⟨h1, List.singleton_inj.mp h2⟩
  · rw [List.concat_eq_append, ← List.cons_append, ← List.append_assoc] at h
    exact Or.inr ⟨post', (List.append_inj' h rfl).1⟩

theorem LifeStep.once {v v' : Life} {l : LifeLabel} (h : LifeStep v l v') (ho : v.Owned)
    (hb : v.Billed) (hv : v.Once)
    (hclose : ∀ c i, l = .close c i → i ∈ v.registered ∧ ∀ d, (v.client d).session = some i →
      (v.client d).stage ≠ .reported ∧ (v.client d).stage ≠ .holding) : v'.Once := by
  intro pre post a i hx
  rcases h.calls_cases with he | ⟨x, he, hl⟩
  · exact hv pre post a i (he ▸ hx)
  · rcases append_cons_concat (he ▸ hx) with ⟨rfl, rfl⟩ | ⟨post', hx'⟩
    · rcases hl with ⟨_, _, _, hl⟩ | ⟨_, _, _, hl⟩ | ⟨c, j, rfl, hl⟩
      · cases hl
      · cases hl
      · cases hl
        obtain ⟨hreg, hothers⟩ := hclose c i rfl
        obtain ⟨d, hd, rd⟩ := ho.origin i (ho.listed i hreg)
        refine ⟨⟨_, hb.granted d i hd rd (hothers d hd).2 hreg⟩, fun b hc => ?_⟩
        rcases (hb.closed b i hc).2 with hn | ⟨e, he, hs⟩
        · exact hn hreg
        · exact (hothers e he).1 hs
    · exact hv pre post' a i hx'

/-- Every close of a session was reported for the account that opened it. -/
def Life.SameAccount (v : Life) : Prop := ∀ a i c, .closed a i ∈ v.calls →
  (v.client c).session = some i → (v.client c).resumed = false → (v.client c).account = a

theorem LifeStep.sameAccount {v v' : Life} {l : LifeLabel} (h : LifeStep v l v') (ho : v.Owned)
    (hb : v.Billed) (hv : v.SameAccount)
    (hclose : ∀ c i, l = .close c i → ∀ d, (v.client d).session = some i →
      (v.client d).resumed = false → (v.client d).account = (v.client c).account) :
    v'.SameAccount := by
  intro a i c hx hc rc
  rcases h.session_cases ho.ok hc with ⟨hc, ec, ac⟩ | ⟨rfl, hn, -⟩ | ⟨-, -, ec⟩
  · rcases h.closed_cases hx with hx | ⟨e, hl, -, -, rfl, -⟩
    · exact ac.trans (hv a i c hx hc (ec ▸ rc))
    · exact ac.trans (hclose e i hl c hc (ec ▸ rc))
  · rcases h.closed_cases hx with hx | ⟨e, hl, -⟩
    · exact absurd hn (hb.closed a i hx).1
    · cases hl
  · simp [rc] at ec

def Label.closes : Label → Option ConnId
  | .closeCall c => some c
  | _ => none

def Label.looksUp : Label → Option ConnId
  | .lookup c => some c
  | _ => none

def State.onSession (s : State) (c : ConnId) (i : SessionId) : Prop :=
  (s.conns c).session.any (·.id = i) = true

/-- The session that the resume token of connection `c` stands for. -/
def State.resolves (s : State) (c : ConnId) : Option SessionRef :=
  (s.conns c).resume.bind fun token => s.registry.resume token.val

instance (s : State) (c : ConnId) (i : SessionId) : Decidable (s.onSession c i) :=
  inferInstanceAs (Decidable (_ = true))

/-- A session is reported closed only when no other handler and no sender task uses it, and none
is resumed while its close is under way. -/
def ClosesUnused (s : State) (l : Label) : Prop :=
  ∀ session ∈ s.minted, ∀ c ∈ s.accepted,
    (l.closes = some c → s.onSession c session.id → ∀ d ∈ s.accepted,
      (d ≠ c → (s.conns d).attached session.id = false) ∧
      (s.conns d).streaming session.id = false) ∧
    (l.looksUp = some c → s.resolves c = some session → ∀ d ∈ s.accepted,
      s.onSession d session.id → (s.conns d).pc ≠ .closeWait)

/-- A session is reported closed only while it is registered, and no other handler of it waits
for an answer to `session_open` or `session_close`. -/
def ClosesRegistered (s : State) (l : Label) : Prop :=
  ∀ session ∈ s.minted, ∀ c ∈ s.accepted, l.closes = some c → s.onSession c session.id →
    s.registered session.id ∧ ∀ d ∈ s.accepted, s.onSession d session.id →
      (s.conns d).pc ≠ .closeWait ∧ (s.conns d).pc ≠ .sessionOpen

/-- A session is reported closed by a connection of the account that opened it. -/
def ClosesOwn (s : State) (l : Label) : Prop :=
  ∀ session ∈ s.minted, ∀ c ∈ s.accepted, l.closes = some c → s.onSession c session.id →
    ∀ d ∈ s.accepted, s.onSession d session.id → (s.conns d).resumed = false →
      (s.conns d).accountToken = (s.conns c).accountToken

instance (s : State) (l : Label) : Decidable (ClosesUnused s l) :=
  inferInstanceAs (Decidable (∀ session ∈ s.minted, ∀ c ∈ s.accepted, _ ∧ _))

instance (s : State) (l : Label) : Decidable (ClosesRegistered s l) :=
  inferInstanceAs (Decidable (∀ session ∈ s.minted, ∀ c ∈ s.accepted, _ → _ → _ ∧ _))

instance (s : State) (l : Label) : Decidable (ClosesOwn s l) :=
  inferInstanceAs (Decidable (∀ session ∈ s.minted, ∀ c ∈ s.accepted, _ → _ → _))

section Seen

variable {s : State} {c : ConnId} {i : SessionId}

theorem State.life_session : (s.life.client c).session = some i ↔ s.onSession c i := by
  simp only [State.life_client, Conn.client, State.onSession, Option.map_eq_some_iff,
    Option.any_eq_true, decide_eq_true_eq]

theorem Pc.stage_reported {pc : Pc} : pc.stage = .reported ↔ pc = .closeWait := by
  cases pc <;> simp [Pc.stage]

theorem Pc.stage_leaving {pc : Pc} : pc.stage = .leaving ↔ pc = .leaving := by
  cases pc <;> simp [Pc.stage]

theorem Pc.stage_holding {pc : Pc} : pc.stage = .holding ↔ pc = .sessionOpen := by
  cases pc <;> simp [Pc.stage]

theorem State.Wf.accepted_of_onSession (h : s.Wf) (hc : s.onSession c i) : c ∈ s.accepted := by
  apply h.accepted_of_session
  intro hn
  simp [State.onSession, hn] at hc

theorem State.Wf.minted_of_onSession (h : s.Wf) (hc : s.onSession c i) :
    ∃ session ∈ s.minted, session.id = i := by
  obtain ⟨session, hs, hi⟩ := (Option.any_eq_true _ _).mp hc
  exact ⟨session, h.held c session hs, of_decide_eq_true hi⟩

end Seen

/-- What a close that is seen above says of the step below. -/
theorem State.Sound.closes {s : State} (sound : s.Sound) {l : Label} {v : Life} {c : ConnId}
    {i : SessionId} (hex : s.Explains l (.close c i)) (h : LifeStep s.life (.close c i) v) :
    ∃ session ∈ s.minted, session.id = i ∧ c ∈ s.accepted ∧ l.closes = some c ∧
      s.onSession c i := by
  cases h with
  | close _ hc =>
    have hon := State.life_session.mp hc
    obtain ⟨session, hm, hi⟩ := sound.wf.minted_of_onSession hon
    exact ⟨session, hm, hi, sound.wf.accepted_of_onSession hon, by rw [hex]; rfl, hon⟩

theorem ClosesUnused.close {s : State} {l : Label} (hc : ClosesUnused s l) (sound : s.Sound)
    {v : Life} {c : ConnId} {i : SessionId} (hex : s.Explains l (.close c i))
    (h : LifeStep s.life (.close c i) v) (d : ConnId) :
    (d ≠ c → ¬(s.life.client d).Attached i) ∧ ¬(s.life.client d).Streaming i := by
  obtain ⟨session, hm, rfl, hacc, hcl, hon⟩ := sound.closes hex h
  have hcond := (hc session hm c hacc).1 hcl hon
  refine ⟨?_, ?_⟩
  · intro hd ha
    have ha' := State.life_attached.mp ha
    simp [(hcond d (sound.wf.accepted_of_attached ha')).1 hd] at ha'
  · intro hst
    have hst' := State.life_streaming.mp hst
    simp [(hcond d (sound.wf.accepted_of_streaming hst')).2] at hst'

theorem ClosesUnused.attach {s : State} {l : Label} (hc : ClosesUnused s l) (sound : s.Sound)
    {c : ConnId} {i : SessionId} (hex : s.Explains l (.attach c i)) (d : ConnId)
    (hd : (s.life.client d).session = some i) : (s.life.client d).stage ≠ .reported := by
  intro hs
  obtain ⟨rfl, token, session, ht, hr, rfl⟩ := hex
  have hon := State.life_session.mp hd
  have hacc : c ∈ s.accepted := sound.wf.accepted fun hi => by simp [hi, Conn.init] at ht
  have hm := sound.wf.listed _ _ (sound.wf.paired.resume_eq_some.mp hr).1
  refine (hc session hm c hacc).2 rfl ?_ d (sound.wf.accepted_of_onSession hon) hon
    (Pc.stage_reported.mp hs)
  simpa [State.resolves, ht] using hr

theorem closesUnused_freed {maxScrollback : Nat} {s : State}
    (h : Reach (gateway maxScrollback) ClosesUnused s) : s.life.Freed := by
  refine life_invariant Life.freed_init ?_ h
  intro s l al v sound hc hex hstep hv
  refine hstep.freed sound.owned sound.billed hv (fun c i hl => ?_) (fun c i hl => ?_)
  · subst hl
    exact hc.close sound hex hstep
  · subst hl
    exact hc.attach sound hex

/-- Once `session_close` was reported, only the handler that reported it is left with the session,
and neither input nor output of it moves any more. -/
theorem freed_session_unused {maxScrollback : Nat} {s : State} {a : Option Bytes} {i : SessionId}
    (h : Reach (gateway maxScrollback) ClosesUnused s) (closed : .sessionClose a i ∈ s.calls) :
    (∀ c d, (s.conns c).attached i = true → (s.conns d).attached i = true → c = d) ∧
    (∀ c, (s.conns c).attached i = true →
      (s.conns c).pc = .closeWait ∨ (s.conns c).pc = .leaving) ∧
    (∀ c, (s.conns c).streaming i = false) ∧
    ∀ l s', ClosesUnused s l → step s l = some s' →
      (∀ c, (s'.conns c).attached i = true → (s.conns c).attached i = true) ∧
      (∀ ses ses', s.sessions i = some ses → s'.sessions i = some ses' →
        ses'.input <:+ ses.input) ∧
      ∀ sent, s'.wire = s.wire ++ [sent] → s.onSession sent.conn i → sent.frame.payload = [] := by
  have sound := gateway_sound h
  have freed := closesUnused_freed h
  have hcl := State.closed_mem_life.mpr closed
  have leaving : ∀ c, (s.conns c).attached i = true →
      (s.conns c).pc = .closeWait ∨ (s.conns c).pc = .leaving := by
    intro c hc
    exact (freed.leaving a i c hcl (State.life_attached.mpr hc)).imp Pc.stage_reported.mp
      Pc.stage_leaving.mp
  have silent : ∀ c, (s.conns c).streaming i = false := by
    intro c
    rw [← Bool.not_eq_true, ← State.life_streaming]
    exact freed.silent a i c hcl
  refine ⟨fun c d hc hd => ?_, leaving, silent, fun l s' hc hs => ⟨fun c ha => ?_, ?_, ?_⟩⟩
  · exact freed.alone a i c d hcl (State.life_attached.mpr hc) (State.life_attached.mpr hd)
  · obtain ⟨al, hstep, hex⟩ := (step_move hs).seen sound.wf sound.framed
    refine State.life_attached.mp (hstep.attached_back sound.owned sound.billed ?_ hcl
      (State.life_attached.mpr ha))
    intro d j hl
    subst hl
    exact hc.attach sound hex
  · intro ses ses' hi hi'
    obtain ⟨new, hnew, hsuf | ⟨c, session, input, hpc, hses, hid⟩⟩ :=
      (step_move hs).input sound.wf hi
    · obtain rfl := Option.some.inj (hi'.symm.trans hnew)
      exact hsuf
    · have hatt : (s.conns c).attached i = true := by
        simp [Conn.attached, hpc, hses, hid, Pc.returned]
      rcases leaving c hatt with he | he <;> simp [hpc] at he
  · intro sent hw hon
    rcases (step_move hs).wire with he | ⟨new, he, hnew⟩
    · simp [he] at hw
    · obtain rfl := List.singleton_inj.mp (List.append_cancel_left (hw.symm.trans he))
      apply hnew.resolve_right
      intro hpc
      have hst := silent sent.conn
      simp only [Conn.streaming, hpc, SenderPc.alive, Bool.and_true] at hst
      simp [State.onSession, hst] at hon

/-- Nobody else came to the session that is closed here. -/
theorem freed_session_unused_alone : ∃ s, Reach (gateway defaultScrollbackBytes) ClosesUnused s ∧
    .sessionClose none 5 ∈ s.calls ∧ ∀ c, (s.conns c).attached 5 = true →
      (s.conns c).pc = .closeWait ∨ (s.conns c).pc = .leaving := by
  obtain ⟨s, hs, hcl⟩ := exists_reach_of_execWhere (.init defaultScrollbackBytes) step ClosesUnused
    (opening 0 none .unlimited 5 [1] ++ ending 0 (.ok .close) ++ [.closeCall 0])
    (fun s => .sessionClose none 5 ∈ s.calls) (by decide +kernel)
  exact ⟨s, hs, hcl, (freed_session_unused hs hcl).2.1⟩

/-- A second client is on the session while the first closes it, and goes on typing. -/
theorem freed_session_used : ∃ s s', Reachable (gateway defaultScrollbackBytes) s ∧
    .sessionClose none 5 ∈ s.calls ∧ ¬s.registered 5 ∧ (s.conns 0).attached 5 = false ∧
    (s.conns 1).attached 5 = true ∧ step s (.forward 1) = some s' ∧
    (s.sessions 5).map Session.input = some [] ∧
    (s'.sessions 5).map Session.input = some [.data [100]] := by
  obtain ⟨s, hs, ⟨hcl, hreg, h0, h1, hin⟩, hstep⟩ :=
    exists_reachable_of_exec (.init defaultScrollbackBytes) step
      (opening 0 none .unlimited 5 [1] ++ resuming 1 none .unlimited [1] ++
        ending 0 (.ok .close) ++ [.closeCall 0, .closeReturned 0, .leave 0, .recv 1 (.ok (.data [100]))])
      (fun s => (.sessionClose none 5 ∈ s.calls ∧ ¬s.registered 5 ∧
        (s.conns 0).attached 5 = false ∧ (s.conns 1).attached 5 = true ∧
        (s.sessions 5).map Session.input = some []) ∧
        (step s (.forward 1)).any (fun s' => (s'.sessions 5).map Session.input = some [.data [100]]))
      (by decide +kernel)
  obtain ⟨s', hs', hin'⟩ := (Option.any_eq_true _ _).mp hstep
  exact ⟨s, s', hs, hcl, hreg, h0, h1, hs', hin, of_decide_eq_true hin'⟩

theorem ClosesRegistered.once {s : State} {l : Label} (hc : ClosesRegistered s l)
    (sound : s.Sound) {v : Life} {c : ConnId} {i : SessionId} (hex : s.Explains l (.close c i))
    (h : LifeStep s.life (.close c i) v) : i ∈ s.life.registered ∧
      ∀ d, (s.life.client d).session = some i →
        (s.life.client d).stage ≠ .reported ∧ (s.life.client d).stage ≠ .holding := by
  obtain ⟨session, hm, rfl, hacc, hcl, hon⟩ := sound.closes hex h
  obtain ⟨hreg, hothers⟩ := hc session hm c hacc hcl hon
  refine ⟨hreg, fun d hd => ?_⟩
  have hon' := State.life_session.mp hd
  obtain ⟨h1, h2⟩ := hothers d (sound.wf.accepted_of_onSession hon') hon'
  exact ⟨fun hs => h1 (Pc.stage_reported.mp hs), fun hs => h2 (Pc.stage_holding.mp hs)⟩

/-- `session_close` is called for a session at most once, and only after its `session_open` was
accepted. -/
theorem close_once {maxScrollback : Nat} {s : State}
    (h : Reach (gateway maxScrollback) ClosesRegistered s) {pre post : List HookCall}
    {a : Option Bytes} {i : SessionId} (hx : s.calls = pre ++ .sessionClose a i :: post) :
    (∃ b clientName, .sessionOpen b i clientName (.ok ()) ∈ pre) ∧
      ∀ b, .sessionClose b i ∉ pre := by
  have once : s.life.Once := by
    refine life_invariant (by simp [Life.Once, Life.init]) ?_ h
    intro s l al v sound hc hex hstep hv
    apply hstep.once sound.owned sound.billed hv
    intro c i hl
    subst hl
    exact hc.once sound hex hstep
  have hl : s.life.calls =
      pre.filterMap HookCall.slot ++ .closed a i :: post.filterMap HookCall.slot := by
    simp [State.life, hx, List.filterMap_append, HookCall.slot]
  obtain ⟨⟨b, hb⟩, hnot⟩ := once _ _ a i hl
  obtain ⟨x, hx, hslot⟩ := List.mem_filterMap.mp hb
  obtain ⟨n, rfl⟩ := HookCall.slot_opened.mp hslot
  exact ⟨⟨b, n, hx⟩, fun b hb => hnot b (List.mem_filterMap.mpr ⟨_, hb, rfl⟩)⟩

theorem close_once_alone : ∃ s pre post, Reach (gateway defaultScrollbackBytes) ClosesRegistered s ∧
    s.calls = pre ++ .sessionClose none 5 :: post ∧
    ∃ b clientName, .sessionOpen b 5 clientName (.ok ()) ∈ pre := by
  obtain ⟨s, hs, hp⟩ :=
    exists_reach_of_execWhere (.init defaultScrollbackBytes) step ClosesRegistered
      (opening 0 none .unlimited 5 [1] ++ ending 0 (.ok .close) ++ [.closeCall 0])
      (fun s => .sessionClose none 5 ∈ s.calls) (by decide +kernel)
  obtain ⟨pre, post, hx⟩ := List.append_of_mem hp
  exact ⟨s, pre, post, hs, hx, (close_once hs hx).1⟩

/-- Two clients on one session both close it: the slot is given back twice. -/
theorem close_twice : ∃ s pre post, Reachable (gateway defaultScrollbackBytes) s ∧
    s.calls = pre ++ .sessionClose none 5 :: post ∧ .sessionClose none 5 ∈ pre := by
  obtain ⟨s, hs, hlast, hmem⟩ := exists_reachable_of_exec (.init defaultScrollbackBytes) step
    (opening 0 none .unlimited 5 [1] ++ resuming 1 none .unlimited [1] ++
      ending 0 (.ok .close) ++ ending 1 (.ok .close) ++ [.closeCall 0, .closeCall 1])
    (fun s => s.calls.getLast? = some (.sessionClose none 5) ∧
      .sessionClose none 5 ∈ s.calls.dropLast) (by decide +kernel)
  refine ⟨s, s.calls.dropLast, [], hs, ?_, hmem⟩
  exact (List.dropLast_append_getLast? _ hlast).symm

theorem ClosesOwn.account {s : State} {l : Label} (hc : ClosesOwn s l) (sound : s.Sound)
    {v : Life} {c : ConnId} {i : SessionId} (hex : s.Explains l (.close c i))
    (h : LifeStep s.life (.close c i) v) {d : ConnId} (hd : (s.life.client d).session = some i)
    (rd : (s.life.client d).resumed = false) :
    (s.life.client d).account = (s.life.client c).account := by
  obtain ⟨session, hm, rfl, hacc, hcl, hon⟩ := sound.closes hex h
  have hon' := State.life_session.mp hd
  exact hc session hm c hacc hcl hon d (sound.wf.accepted_of_onSession hon') hon' rd

/-- The slot goes back to the account it was taken for. -/
theorem close_account {maxScrollback : Nat} {s : State} {a b : Option Bytes} {i : SessionId}
    {clientName : String} (h : Reach (gateway maxScrollback) ClosesOwn s)
    (closed : .sessionClose a i ∈ s.calls)
    (opened : .sessionOpen b i clientName (.ok ()) ∈ s.calls) : a = b := by
  have same : s.life.SameAccount := by
    refine life_invariant (by simp [Life.SameAccount, Life.init]) ?_ h
    intro s l al v sound hc hex hstep hv
    apply hstep.sameAccount sound.owned sound.billed hv
    intro c i hl d hd rd
    subst hl
    exact hc.account sound hex hstep hd rd
  have sound := gateway_sound h
  obtain ⟨c, hc, rc, rfl, -⟩ := sound.billed.opened b i (State.opened_mem_life.mpr ⟨_, opened⟩)
  exact (same a i c (State.closed_mem_life.mpr closed) hc rc).symm

theorem close_account_alone : ∃ s, Reach (gateway defaultScrollbackBytes) ClosesOwn s ∧
    ∃ a b, .sessionClose a 5 ∈ s.calls ∧ .sessionOpen b 5 "client" (.ok ()) ∈ s.calls ∧ a = b := by
  obtain ⟨s, hs, hcl, hop⟩ :=
    exists_reach_of_execWhere (.init defaultScrollbackBytes) step ClosesOwn
      (opening 0 (some [7]) .unlimited 5 [1] ++ resuming 1 (some [7]) .unlimited [1] ++
        ending 1 (.ok .close) ++ [.closeCall 1])
      (fun s => .sessionClose (some [7]) 5 ∈ s.calls ∧
        .sessionOpen (some [7]) 5 "client" (.ok ()) ∈ s.calls) (by decide +kernel)
  exact ⟨s, hs, some [7], some [7], hcl, hop, close_account hs hcl hop⟩

/-- A client of another account that has the resume token closes the session. -/
theorem close_other_account : ∃ s, Reachable (gateway defaultScrollbackBytes) s ∧
    .sessionOpen (some [7]) 5 "client" (.ok ()) ∈ s.calls ∧ .sessionClose (some [8]) 5 ∈ s.calls := by
  obtain ⟨s, hs, hop, hcl⟩ := exists_reachable_of_exec (.init defaultScrollbackBytes) step
    (opening 0 (some [7]) .unlimited 5 [1] ++ resuming 1 (some [8]) .unlimited [1] ++
      ending 1 (.ok .close) ++ [.closeCall 1])
    (fun s => .sessionOpen (some [7]) 5 "client" (.ok ()) ∈ s.calls ∧
      .sessionClose (some [8]) 5 ∈ s.calls) (by decide +kernel)
  exact ⟨s, hs, hop, hcl⟩

end TtyGateway
