import TtyGateway.Slots

namespace TtyGateway

open Transition

/-- `negotiate` has returned a session. -/
def Pc.past : Pc → Bool
  | .live | .forward _ | .pong | .ending _ | .metering _ | .reporting _ | .deciding _ | .closing
  | .closeWait | .leaving | .done => true
  | _ => false

theorem Pc.stage_of_past {pc : Pc} (h : pc.past = true) : pc.stage ≠ .early ∧
    pc.stage ≠ .refusing ∧ pc.stage ≠ .greeting ∧ pc ≠ .sessionOpen ∧ pc ≠ .failed := by
  cases pc <;> simp_all [Pc.past, Pc.stage]

/-- The hook granted connection `c` a slot for a new session, and then telling the client about the
session failed. -/
def Stranded (c : ConnId) (ls : List Label) : Prop :=
  .sessionOpened c (.ok ()) ∈ ls ∧ (.helloSent c false ∈ ls ∨ .statusSent c false ∈ ls)

/-- Each `session_open` accepted on the way from `s` to `t` was matched by a `session_close`. -/
def Matched (s t : State) : Prop :=
  ∀ a i clientName, .sessionOpen a i clientName (.ok ()) ∈ t.calls →
    .sessionOpen a i clientName (.ok ()) ∈ s.calls ∨ ∃ b, .sessionClose b i ∈ t.calls

/-- So far the negotiation has left no trace. -/
structure Clean (s : State) (c : ConnId) (ls : List Label) (t : State) : Prop where
  pc : (t.conns c).pc.stage = .early ∨ (t.conns c).pc.stage = .refusing ∨
    (t.conns c).pc.stage = .greeting ∨ (t.conns c).pc = .failed
  registry : t.registry = s.registry
  opened : ∀ a i clientName, .sessionOpen a i clientName (.ok ()) ∈ t.calls →
    .sessionOpen a i clientName (.ok ()) ∈ s.calls
  untaken : .sessionOpened c (.ok ()) ∉ ls

/-- The registry has a session more than when the negotiation began. -/
structure Added (s t : State) (session : SessionRef) : Prop where
  newId : session.id ∉ s.registry.byId
  newToken : session.resumeToken ∉ s.registry.byToken
  registry : t.registry = s.registry.create session

theorem Added.same {s t t' : State} {session : SessionRef} (h : Added s t session)
    (registry : t'.registry = t.registry) : Added s t' session :=
  ⟨h.newId, h.newToken, registry.trans h.registry⟩

/-- The session is there, the hook has not answered yet. -/
structure Waiting (s : State) (c : ConnId) (ls : List Label) (t : State) : Prop where
  pc : (t.conns c).pc = .sessionOpen
  added : ∃ session, (t.conns c).session = some session ∧ Added s t session
  opened : ∀ a i clientName, .sessionOpen a i clientName (.ok ()) ∈ t.calls →
    .sessionOpen a i clientName (.ok ()) ∈ s.calls
  untaken : .sessionOpened c (.ok ()) ∉ ls

/-- The hook has accepted the session. -/
structure Granted (s : State) (c : ConnId) (ls : List Label) (t : State) : Prop where
  pc : (t.conns c).pc.stage = .greeting
  added : ∃ session, Added s t session
  taken : .sessionOpened c (.ok ()) ∈ ls

/-- Where the negotiation of connection `c` has come to by the steps `ls` of its own, from `s`. -/
inductive Course (s : State) (c : ConnId) (ls : List Label) (t : State) : Prop
  | clean (h : Clean s c ls t)
  | waiting (h : Waiting s c ls t)
  | granted (h : Granted s c ls t)
  | stranded (pc : (t.conns c).pc = .failed) (added : ∃ session, Added s t session)
      (stranded : Stranded c ls)
  | past (pc : (t.conns c).pc.past = true)

section Course

variable {s t t' : State} {c : ConnId} {ls : List Label} {l : Label}

theorem Stranded.append (h : Stranded c ls) (l : Label) : Stranded c (ls ++ [l]) :=
  ⟨List.mem_append_left _ h.1, h.2.imp (List.mem_append_left _) (List.mem_append_left _)⟩

theorem Course.clean_of_early (h : Course s c ls t) (hpc : (t.conns c).pc.stage = .early) :
    Clean s c ls t := by
  cases h with
  | clean h => exact h
  | waiting h => simp [h.pc, Pc.stage] at hpc
  | granted h => simp [h.pc] at hpc
  | stranded pc => simp [pc, Pc.stage] at hpc
  | past pc => exact absurd hpc (Pc.stage_of_past pc).1

theorem Course.clean_of_refusing (h : Course s c ls t) (hpc : (t.conns c).pc.stage = .refusing) :
    Clean s c ls t := by
  cases h with
  | clean h => exact h
  | waiting h => simp [h.pc, Pc.stage] at hpc
  | granted h => simp [h.pc] at hpc
  | stranded pc => simp [pc, Pc.stage] at hpc
  | past pc => exact absurd hpc (Pc.stage_of_past pc).2.1

theorem Course.waiting_of_pc (h : Course s c ls t) (hpc : (t.conns c).pc = .sessionOpen) :
    Waiting s c ls t := by
  cases h with
  | clean h => rcases h.pc with pc | pc | pc | pc <;> simp [hpc, Pc.stage] at pc
  | waiting h => exact h
  | granted h =>
    have hg := h.pc
    simp [hpc, Pc.stage] at hg
  | stranded pc => simp [hpc] at pc
  | past pc => exact absurd hpc (Pc.stage_of_past pc).2.2.2.1

theorem Course.of_greeting (h : Course s c ls t) (hpc : (t.conns c).pc.stage = .greeting) :
    Clean s c ls t ∨ Granted s c ls t := by
  cases h with
  | clean h => exact Or.inl h
  | waiting h => simp [h.pc, Pc.stage] at hpc
  | granted h => exact Or.inr h
  | stranded pc => simp [pc, Pc.stage] at hpc
  | past pc => exact absurd hpc (Pc.stage_of_past pc).2.2.1

theorem Clean.next (h : Clean s c ls t)
    (pc : (t'.conns c).pc.stage = .early ∨ (t'.conns c).pc.stage = .refusing ∨
      (t'.conns c).pc.stage = .greeting ∨ (t'.conns c).pc = .failed)
    (registry : t'.registry = t.registry)
    (calls : ∀ a i clientName, .sessionOpen a i clientName (.ok ()) ∈ t'.calls →
      .sessionOpen a i clientName (.ok ()) ∈ t.calls)
    (hl : l ≠ .sessionOpened c (.ok ())) : Course s c (ls ++ [l]) t' :=
  .clean ⟨pc, registry.trans h.registry, fun a i n hx => h.opened a i n (calls a i n hx), by
    simpa [h.untaken] using hl.symm⟩

theorem Course.unmoved (h : Course s c ls t) (pc : (t'.conns c).pc = (t.conns c).pc)
    (session : (t'.conns c).session = (t.conns c).session) (registry : t'.registry = t.registry)
    (calls : t'.calls = t.calls) (hl : l ≠ .sessionOpened c (.ok ())) :
    Course s c (ls ++ [l]) t' := by
  have added : ∀ {session}, Added s t session → Added s t' session := fun ha => ha.same registry
  cases h with
  | clean h => exact h.next (by rw [pc]; exact h.pc) registry (fun _ _ _ hx => calls ▸ hx) hl
  | waiting h =>
    obtain ⟨found, hs, ha⟩ := h.added
    exact .waiting ⟨pc.trans h.pc, ⟨found, session.trans hs, added ha⟩,
      fun a i n hx => h.opened a i n (calls ▸ hx), by simpa [h.untaken] using hl.symm⟩
  | granted h =>
    exact .granted ⟨by rw [pc]; exact h.pc, h.added.imp fun _ => added,
      List.mem_append_left _ h.taken⟩
  | stranded hpc hadded hs => exact .stranded (pc.trans hpc) (hadded.imp fun _ => added) (hs.append l)
  | past hpc => exact .past (by rw [pc]; exact hpc)

theorem Course.step (h : Course s c ls t) (hw : t.Wf) (m : Move t l t') (hl : l.conn = some c) :
    Course s c (ls ++ [l]) t' := by
  cases m with
  | @accept d hpc | @hello d _ _ _ hpc | @resumed d _ _ hpc | @unresumed d hpc
  | @openTarget d _ _ _ _ hpc | @signAsked d _ _ hpc | @signed d _ _ hpc | @signSent d _ _ _ hpc
  | @authorized d _ hpc | @denied d _ hpc | @helloLost d _ hpc | @helloRefused d _ _ hpc
  | @openLost d _ hpc | @openRefused d _ _ hpc | @loginFailed d _ hpc | @signUnsent d _ _ _ _ hpc
  | @signRefused d _ _ _ hpc =>
    cases hl
    have hc := h.clean_of_early (by simp [hpc, Pc.stage])
    exact hc.next (by simp [Pc.stage]) rfl (by simp) (by simp)
  | @rejectSent d _ hpc | @rejectUnsent d _ hpc =>
    cases hl
    exact (h.clean_of_refusing (by simp [hpc, Pc.stage])).next (by simp) rfl (by simp) (by simp)
  | signIgnored | recvIgnored =>
    exact h.unmoved rfl rfl rfl rfl (by simp)
  | @loggedIn d id token hpc hid htoken =>
    cases hl
    have hc := h.clean_of_early (by simp [hpc, Pc.stage])
    refine .waiting ⟨by simp, ⟨⟨id, token⟩, by simp, ?_⟩, hc.opened, by simpa using hc.untaken⟩
    refine ⟨hc.registry ▸ hw.id_not_mem hid, hc.registry ▸ hw.token_not_mem htoken, ?_⟩
    rw [← hc.registry]
  | @slotTaken d session hpc hs =>
    cases hl
    have hc := h.waiting_of_pc hpc
    obtain ⟨found, -, ha⟩ := hc.added
    exact .granted ⟨by simp [Pc.stage], ⟨found, ha.same rfl⟩, by simp⟩
  | @slotDenied d session denied hpc hs =>
    cases hl
    have hc := h.waiting_of_pc hpc
    obtain ⟨found, hf, ha⟩ := hc.added
    obtain rfl := Option.some.inj (hs.symm.trans hf)
    refine .clean ⟨by simp [Pc.stage], ?_, fun a i n hx => hc.opened a i n (by simpa using hx),
      by simpa using hc.untaken⟩
    exact (congrArg (Registry.remove · session.id) ha.registry).trans
      (Registry.remove_create ha.newId ha.newToken)
  | @helloSent d session hpc hs =>
    cases hl
    rcases h.of_greeting (by simp [hpc, Pc.stage]) with hc | hc
    · exact hc.next (by simp [Pc.stage]) rfl (by simp) (by simp)
    · exact .granted ⟨by simp [Pc.stage], hc.added.imp fun _ ha => ha.same rfl,
        List.mem_append_left _ hc.taken⟩
  | @helloUnsent d _ hpc | @statusUnsent d hpc =>
    cases hl
    rcases h.of_greeting (by simp [hpc, Pc.stage]) with hc | hc
    · exact hc.next (by simp) rfl (by simp) (by simp)
    · exact .stranded (by simp) (hc.added.imp fun _ ha => ha.same rfl)
        ⟨List.mem_append_left _ hc.taken, by simp⟩
  | statusSent | recvData | recvResize | recvPing | recvClose | recvLost | forwarded | unforwarded
  | ponged | unponged | abort | report | reported | ended | kept | closeCall | closeReturned
  | leave =>
    cases hl
    exact .past (by simp [Pc.past])
  | senderStart | chunk | finished | parked | oob | oobClosed | unlimited | admitted | delayed
  | wake | addOut | written | unwritten | closedWritten | closedUnwritten | cancel =>
    cases hl
    exact h.unmoved (by simp) (by simp) rfl rfl (by simp)
  | _ => cases hl

end Course

/-- What the hook said about session `i` that connection `c` created, whoever else was at work. -/
def Answered (c : ConnId) (ls : List Label) (t : State) : Prop :=
  ∀ session, (t.conns c).session = some session → (t.conns c).resumed = false →
    (t.conns c).pc ≠ .sessionOpen → (∃ a, .refused a session.id ∈ t.life.calls) ∨
      .sessionOpened c (.ok ()) ∈ ls ∧ (t.conns c).pc.stage ≠ .refusing ∧
        ((t.conns c).pc = .failed → .helloSent c false ∈ ls ∨ .statusSent c false ∈ ls)

section Answered

variable {t t' : State} {c : ConnId} {ls : List Label} {l : Label}

theorem Answered.next (h : Answered c ls t) (calls : ∀ x ∈ t.life.calls, x ∈ t'.life.calls)
    (session : (t'.conns c).session = (t.conns c).session)
    (resumed : (t'.conns c).resumed = (t.conns c).resumed)
    (waited : (t.conns c).pc ≠ .sessionOpen)
    (pc : (t.conns c).pc.stage ≠ .refusing → (t'.conns c).pc.stage ≠ .refusing ∧
      ((t'.conns c).pc = .failed →
        (t.conns c).pc = .failed ∨ l = .helloSent c false ∨ l = .statusSent c false)) :
    Answered c (ls ++ [l]) t' := by
  intro found hs hr _
  rcases h found (session ▸ hs) (resumed ▸ hr) waited with ⟨a, ha⟩ | ⟨hok, href, hfail⟩
  · exact Or.inl ⟨a, calls _ ha⟩
  · obtain ⟨href', hfail'⟩ := pc href
    refine Or.inr ⟨List.mem_append_left _ hok, href', fun hpc => ?_⟩
    rcases hfail' hpc with hold | rfl | rfl
    · exact (hfail hold).imp (List.mem_append_left _) (List.mem_append_left _)
    · exact Or.inl (by simp)
    · exact Or.inr (by simp)

theorem Answered.step (h : Answered c ls t) (sound : t.Sound) (m : Move t l t') :
    Answered c (ls ++ [l]) t' := by
  obtain ⟨al, hstep, -⟩ := m.seen sound.wf sound.framed
  have calls : ∀ x ∈ t.life.calls, x ∈ t'.life.calls := fun _ => hstep.calls_mono
  by_cases hl : l.conn = some c
  · have none_of_early : (t.conns c).pc.stage = .early → (t.conns c).session = none := fun hs =>
      Option.map_eq_none_iff.mp ((sound.owned.ok c).early hs)
    cases m with
    | @accept d hpc | @hello d _ _ _ hpc | @unresumed d hpc | @openTarget d _ _ _ _ hpc
    | @signAsked d _ _ hpc | @signed d _ _ hpc | @signSent d _ _ _ hpc | @authorized d _ hpc
    | @denied d _ hpc | @helloLost d _ hpc | @helloRefused d _ _ hpc | @openLost d _ hpc
    | @openRefused d _ _ hpc | @loginFailed d _ hpc | @signUnsent d _ _ _ _ hpc
    | @signRefused d _ _ _ hpc =>
      cases hl
      intro found hs
      simp [none_of_early (by simp [hpc, Pc.stage])] at hs
    | @resumed d _ _ hpc =>
      cases hl
      intro found _ hr
      simp at hr
    | @loggedIn d id token hpc hid htoken =>
      cases hl
      intro found _ _ hpc'
      simp at hpc'
    | @slotTaken d session hpc hs =>
      cases hl
      exact fun found _ _ _ => Or.inr ⟨by simp, by simp [Pc.stage], by simp⟩
    | @slotDenied d session denied hpc hs =>
      cases hl
      intro found hf _ _
      obtain rfl := Option.some.inj (hs.symm.trans (by simpa using hf))
      let call : HookCall := .sessionOpen (t.conns c).accountToken session.id
        (t.conns c).clientName (.error denied)
      exact Or.inl ⟨_, State.mem_life_calls.mpr ⟨call, by simp [call], rfl⟩⟩
    | @rejectSent d _ hpc | @rejectUnsent d _ hpc =>
      cases hl
      exact h.next calls (by simp) (by simp) (by simp [hpc]) (by simp [hpc, Pc.stage])
    | signIgnored | recvIgnored =>
      intro found hs hr hpc
      exact h.next calls rfl rfl hpc (fun hn => ⟨hn, Or.inl⟩) found hs hr hpc
    | @helloSent d _ hpc | @helloUnsent d _ hpc | @statusUnsent d hpc =>
      cases hl
      exact h.next calls (by simp) (by simp) (by simp [hpc]) (by simp [Pc.stage])
    | statusSent hpc | recvData hpc | recvResize hpc | recvPing hpc | recvClose hpc | recvLost hpc
    | forwarded hpc | unforwarded hpc | ponged hpc | unponged hpc | abort hpc | report hpc
    | reported hpc | ended hpc | kept hpc | closeCall hpc | closeReturned hpc | leave hpc =>
      cases hl
      exact h.next calls (by simp) (by simp) (by simp [hpc]) (by simp [Pc.stage])
    | senderStart | chunk | finished | parked | oob | oobClosed | unlimited | admitted | delayed
    | wake | addOut | written | unwritten | closedWritten | closedUnwritten | cancel =>
      cases hl
      intro found hs hr hpc
      refine h.next calls (by simp) (by simp) (by simpa using hpc) (fun hn => ?_) found hs hr hpc
      exact ⟨by simpa using hn, fun hf => Or.inl (by simpa using hf)⟩
    | _ => cases hl
  · have hc : t'.conns c = t.conns c := m.conns_of_ne hl
    intro found hs hr hpc
    exact h.next calls (by rw [hc]) (by rw [hc]) (by rwa [← hc])
      (fun hn => ⟨by rwa [hc], fun hf => Or.inl (by rwa [← hc])⟩) found hs hr hpc

end Answered

/-- A negotiation that does not produce a session leaves nothing behind, unless the hook granted a
slot and the client could not be told. The first part is for steps of anyone in between. -/
theorem negotiation_leaves_nothing {maxScrollback : Nat} {s s' : State} {c : ConnId}
    {ls : List Label} (h : Reachable (gateway maxScrollback) s) (begun : (s.conns c).pc = .hello)
    (run : exec step s ls = some s') (failed : (s'.conns c).pc = .failed) :
    (¬Stranded c ls → ∀ session, (s'.conns c).session = some session →
      (s'.conns c).resumed = false → ¬s'.registered session.id ∧
        ∀ a clientName, .sessionOpen a session.id clientName (.ok ()) ∉ s'.calls) ∧
    ((∀ l ∈ ls, l.conn = some c) →
      (s'.registry = s.registry ∧ Matched s s' ↔ ¬Stranded c ls)) := by
  have sound := gateway_sound h
  have sound' := gateway_sound (reachable_exec h run)
  have hnone : (s.conns c).session = none :=
    Option.map_eq_none_iff.mp ((sound.owned.ok c).early (by simp [State.life_client, Conn.client,
      begun, Pc.stage]))
  refine ⟨?_, ?_⟩
  · intro hns session hs hr
    have answered : s'.Sound ∧ Answered c ls s' := by
      refine exec_trace (P := fun ls t => t.Sound ∧ Answered c ls t) ⟨sound, ?_⟩ ?_ run
      · intro found hf
        simp [hnone] at hf
      · rintro ms t l t' ⟨hsound, ha⟩ hstep
        exact ⟨(step_move hstep).sound hsound, ha.step hsound (step_move hstep)⟩
    rcases answered.2 session hs hr (by simp [failed]) with ⟨a, ha⟩ | ⟨hok, -, hunsent⟩
    · refine ⟨(sound'.billed.refused a _ ha).1, fun b clientName hb => ?_⟩
      exact (sound'.billed.answered a _ ha).1 b (State.opened_mem_life.mpr ⟨clientName, hb⟩)
    · exact absurd ⟨hok, hunsent failed⟩ hns
  · intro hown
    have course : s'.Sound ∧ ((∀ l ∈ ls, l.conn = some c) → Course s c ls s') := by
      refine exec_trace (P := fun ls t => t.Sound ∧ ((∀ l ∈ ls, l.conn = some c) →
        Course s c ls t)) ⟨sound, fun _ => ?_⟩ ?_ run
      · exact .clean ⟨by simp [begun, Pc.stage], rfl, fun _ _ _ hx => hx, by simp⟩
      · rintro ms t l t' ⟨hsound, hc⟩ hstep
        refine ⟨(step_move hstep).sound hsound, fun hall => ?_⟩
        exact (hc fun l hl => hall l (List.mem_append_left _ hl)).step hsound.wf (step_move hstep)
          (hall l (by simp))
    cases course.2 hown with
    | clean hc =>
      refine ⟨fun _ hst => hc.untaken hst.1, fun _ => ⟨hc.registry, fun a i n hx => ?_⟩⟩
      exact Or.inl (hc.opened a i n hx)
    | waiting hc => simp [hc.pc] at failed
    | granted hc =>
      have hg := hc.pc
      simp [failed, Pc.stage] at hg
    | stranded pc hadded hst =>
      refine ⟨fun hm => ?_, fun hn => absurd hst hn⟩
      have hreg := hm.1
      obtain ⟨session, ha⟩ := hadded
      have hmem : session.id ∈ s'.registry.byId := by
        rw [ha.registry]
        simp [Registry.create]
      exact absurd (hreg ▸ hmem) ha.newId
    | past pc => exact absurd failed (Pc.stage_of_past pc).2.2.2.2

/-- The hook denies the session. -/
theorem negotiation_leaves_nothing_denied : ∃ s s',
    Reachable (gateway defaultScrollbackBytes) s ∧ (s.conns 0).pc = .hello ∧
    (s'.conns 0).pc = .failed ∧ s'.calls ≠ s.calls ∧ s'.registry = s.registry ∧ Matched s s' := by
  let ls : List Label := ((opening 0 none .unlimited 5 [1]).drop 1).take 5 ++
    [.sessionOpened 0 (.error ⟨"no slot left"⟩), .rejectSent 0 true]
  obtain ⟨s, hs, hp⟩ := exists_reachable_of_exec (.init defaultScrollbackBytes) step
    ([.accept 0])
    (fun s => (s.conns 0).pc = .hello ∧ (exec step s ls).any fun s' =>
      (s'.conns 0).pc = .failed ∧ s'.calls ≠ s.calls)
    (by decide +kernel)
  obtain ⟨hpc, hrun⟩ := hp
  obtain ⟨s', hs', hp'⟩ := (Option.any_eq_true _ _).mp hrun
  obtain ⟨hfail, hcalls⟩ := of_decide_eq_true hp'
  refine ⟨s, s', hs, hpc, hfail, hcalls, ((negotiation_leaves_nothing hs hpc hs' hfail).2 ?_).mpr ?_⟩
  · simp [ls, opening, Label.conn]
  · simp [ls, opening, Stranded]

/-- The client is gone when its `Hello` is answered: the session stays, and so does its slot. -/
theorem negotiation_leaves_session : ∃ s s' ls,
    Reachable (gateway defaultScrollbackBytes) s ∧ (s.conns 0).pc = .hello ∧
    exec step s ls = some s' ∧ (s'.conns 0).pc = .failed ∧ s.registry.byId = ∅ ∧
    s'.registered 5 ∧ .sessionOpen none 5 "client" (.ok ()) ∈ s'.calls ∧
    (∀ a, .sessionClose a 5 ∉ s'.calls) ∧ s'.wire = [] := by
  let ls : List Label := ((opening 0 none .unlimited 5 [1]).drop 1).take 6 ++ [.helloSent 0 false]
  obtain ⟨s, hs, hp⟩ := exists_reachable_of_exec (.init defaultScrollbackBytes) step
    ([.accept 0])
    (fun s => ((s.conns 0).pc = .hello ∧ s.registry.byId = ∅) ∧ (exec step s ls).any fun s' =>
      ((s'.conns 0).pc = .failed ∧ s'.registered 5 ∧ s'.wire = []) ∧
      .sessionOpen none 5 "client" (.ok ()) ∈ s'.calls ∧
      ∀ x ∈ s'.calls, x.slot.all (fun b => b matches .opened _ _) = true)
    (by decide +kernel)
  obtain ⟨⟨hpc, hempty⟩, hrun⟩ := hp
  obtain ⟨s', hs', hp'⟩ := (Option.any_eq_true _ _).mp hrun
  obtain ⟨⟨hfail, hreg, hwire⟩, hopen, hcalls⟩ := of_decide_eq_true hp'
  refine ⟨s, s', ls, hs, hpc, hs', hfail, hempty, hreg, hopen, fun a ha => ?_, hwire⟩
  simpa [HookCall.slot] using hcalls _ ha

end TtyGateway
