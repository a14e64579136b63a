import TtyGateway.MutualWait
import TtyGateway.Path

namespace TtyGateway

open Transition Window

def State.Parting (s : State) (c : ConnId) : Prop :=
  (s.conns c).sender = .writeClosed ∨ .closed ∈ s.frames c

/-- The output of the session has come to its end, the reader of connection `c` has read up to it,
and every chunk is sent. -/
def State.Finished (s : State) (c : ConnId) : Prop := ∀ session ses,
  (s.conns c).session = some session → s.sessions session.id = some ses → ses.ingest = false ∧
    (s.conns c).reader.cursor = ses.produced.length ∧
    s.completed c = (s.conns c).yielded.map Prod.snd

section Frames

variable {fs word : List ServerFrame}

theorem Asked.not_closed (h : Asked fs) : .closed ∉ fs := by
  intro hm
  obtain ⟨k, hk⟩ := List.mem_iff_getElem?.mp hm
  obtain ⟨publicKey, data, he⟩ := h k _ hk
  cases he

theorem Flow.not_closed (h : Flow fs) : .closed ∉ fs := by
  intro hm
  rcases h _ hm with he | ⟨bytes, -, he⟩ <;> cases he

theorem Word.of_closed (h : Word word) (hm : .closed ∈ word) :
    ∃ front, word = front ++ [.closed] ∧ .closed ∉ front := by
  obtain ⟨asked, reply, rfl, hasked, hreply⟩ := h
  have hm := (List.mem_append.mp hm).resolve_left hasked.not_closed
  cases hreply with
  | error => simp at hm
  | live _ _ _ _ hflow => simp [hflow.not_closed] at hm
  | @closed version id resumed token flow hflow =>
    refine ⟨asked ++ .hello version id resumed token :: .status .live :: flow, ?_, ?_⟩
    · rw [List.append_assoc, List.cons_append, List.cons_append]
    · simp [hasked.not_closed, hflow.not_closed]

theorem Word.eq_of_closed (h : Word word) (hp : fs <+: word) (hm : .closed ∈ fs) : fs = word := by
  obtain ⟨front, rfl, hfront⟩ := h.of_closed (hp.subset hm)
  rcases List.prefix_concat_iff.mp hp with he | hp
  · exact he
  · exact absurd (hp.subset hm) hfront

theorem frames_of_closed {maxScrollback : Nat} {s : State} {c : ConnId}
    (h : Reachable (gateway maxScrollback) s) (hp : fs <+: s.frames c) (hm : .closed ∈ fs) :
    fs = s.frames c := by
  obtain ⟨⟨word, hword, hprefix⟩, -⟩ := frames_grammar h c
  have hall := hword.eq_of_closed hprefix (hp.subset hm)
  exact (hword.eq_of_closed (hp.trans hprefix) hm).trans hall.symm

end Frames

section Steps

variable {s s' : State} {l : Label} {c : ConnId} {i : SessionId}

theorem State.Sound.told (sound : s.Sound) (h : .closed ∈ s.frames c) :
    (s.conns c).sender = .ended := by
  obtain ⟨sent, hm, hsent⟩ := List.mem_filterMap.mp h
  have hsent : sent.conn = c ∧ sent.frame = .closed := by
    simpa [Sent.frameTo] using hsent
  have hfeed := (sound.billed.told c ⟨sent, hm, hsent⟩).1
  simp only [State.life_client, Conn.client] at hfeed
  cases hs : (s.conns c).sender <;> simp [hs, SenderPc.feed] at hfeed ⊢

theorem State.Sound.not_closed (sound : s.Sound) (h : (s.conns c).sender ≠ .ended) :
    .closed ∉ s.frames c := fun hm => h (sound.told hm)

theorem Move.parting_cases (m : Move s l s') (sound : s.Sound) (h : s'.Parting c) :
    s.Parting c ∧ (s'.conns c).reader = (s.conns c).reader ∧
      (s'.conns c).yielded = (s.conns c).yielded ∧ s'.completed c = s.completed c ∨
    ∃ session ses reader, (s.conns c).sender = .select ∧ (s.conns c).session = some session ∧
      s.sessions session.id = some ses ∧
      (s.conns c).reader.poll .exact ses.inner = some (.finished, reader) ∧
      s' = s.setConn c { s.conns c with reader, sender := .writeClosed } := by
  by_cases hl : l.conn = some c
  · have quiet : ∀ (t : ℚ) (f : ServerFrame), f.output = none →
        (s.put c t f).completed c = s.completed c := fun t f => State.completed_put_quiet t
    have unsaid : ∀ (t : ℚ) {f : ServerFrame}, f ≠ .closed → .closed ∈ (s.put c t f).frames c →
        .closed ∈ s.frames c := by
      intro t f hf hm
      rw [State.frames_put_self] at hm
      exact (List.mem_append.mp hm).resolve_right fun he => hf (List.mem_singleton.mp he).symm
    cases m with
    | @finished d session ses reader hpc hs hi hpoll =>
      cases hl
      exact Or.inr ⟨session, ses, reader, hpc, hs, hi, hpoll, rfl⟩
    | @chunk d _ _ _ _ hpc | @parked d _ _ _ hpc =>
      cases hl
      have hsilent := sound.not_closed (c := c) (by simp [hpc])
      simp [State.Parting, hpc, State.frames_setConn, hsilent] at h
    | @written d frame time hpc =>
      cases hl
      have hsilent := sound.not_closed (c := c) (by simp [hpc])
      have hframe : frame ≠ .closed := by
        rcases (sound.framed c).writing frame time hpc with rfl | ⟨bytes, rfl⟩ <;> simp
      have hm : .closed ∈ (s.put c time frame).frames c := by
        simpa [State.Parting, State.frames_setConn] using h
      exact absurd (unsaid time hframe hm) hsilent
    | @closedWritten d hpc =>
      cases hl
      exact Or.inl ⟨Or.inl hpc, by simp, by simp, quiet _ _ rfl⟩
    | @signSent d id publicKey data hpc | @rejectSent d message hpc | @helloSent d session hpc =>
      cases hl
      refine Or.inl ⟨?_, by simp, by simp, quiet _ _ rfl⟩
      rcases h with h | h
      · exact Or.inl (by simpa using h)
      · exact Or.inr (unsaid _ (by simp) h)
    | @statusSent d hpc =>
      cases hl
      have hm : .closed ∈ (s.put c s.clock (.status .live)).frames c := by
        simpa [State.Parting, State.frames_setConn] using h
      exact Or.inl ⟨Or.inr (unsaid _ (by simp) hm), by simp, by simp, quiet _ _ rfl⟩
    | senderStart | oob | unlimited | admitted | delayed | wake | addOut | unwritten
    | closedUnwritten | cancel =>
      cases hl
      have hm : .closed ∈ s.frames c := by simpa [State.Parting, State.frames_setConn] using h
      exact Or.inl ⟨Or.inr hm, by simp, by simp, rfl⟩
    | signIgnored | recvIgnored => exact Or.inl ⟨h, rfl, rfl, rfl⟩
    | actorOutput | actorInput | actorEnd | actorNone | ingest | ingestEnd | tick => cases hl
    | _ =>
      cases hl
      refine Or.inl ⟨?_, by simp, by simp, rfl⟩
      rcases h with h | h
      · exact Or.inl (by simpa using h)
      · exact Or.inr h
  · refine Or.inl ⟨?_, by rw [m.conns_of_ne hl], by rw [m.conns_of_ne hl],
      m.completed_of_ne hl⟩
    rwa [State.Parting, m.conns_of_ne hl, m.frames_of_ne hl] at h

theorem Move.over (m : Move s l s') (wf : s.Wf) {ses : Session} (hi : s.sessions i = some ses)
    (hover : ses.ingest = false) : ∃ ses', s'.sessions i = some ses' ∧ ses'.ingest = false ∧
      ses'.produced = ses.produced := by
  obtain ⟨ses', hi', hmove⟩ := m.session wf hi
  refine ⟨ses', hi', ?_⟩
  cases hmove with
  | ingest =>
    cases m with
    | ingest hold _ hing =>
      obtain rfl := Option.some.inj (hold.symm.trans hi)
      simp [hover] at hing
  | ingestEnd => exact ⟨rfl, rfl⟩
  | _ => exact ⟨hover, rfl⟩

theorem State.Sound.attached_of_parting (sound : s.Sound) (h : s.Parting c) :
    ∃ session ses, (s.conns c).session = some session ∧ s.sessions session.id = some ses := by
  apply sound.session_of_sender
  rcases h with h | h
  · simp [h]
  · simp [sound.told h]

theorem Move.finishes (m : Move s l s') (sound : s.Sound) (delivers : s.Delivers)
    (h : ∀ c, s.Parting c → s.Finished c) (hparting : s'.Parting c) : s'.Finished c := by
  rcases m.parting_cases sound hparting with ⟨hold, hreader, hyielded, hcompleted⟩ |
    ⟨session, ses, reader, hpc, hs, hi, hpoll, rfl⟩
  · intro session' ses' hs' hi'
    obtain ⟨session, ses, hs, hi⟩ := sound.attached_of_parting hold
    obtain rfl := Option.some.inj ((m.keeps_session sound hs).symm.trans hs')
    obtain ⟨hover, hcursor, hall⟩ := h c hold session ses hs hi
    obtain ⟨found, hfound, hover', hproduced⟩ := m.over sound.wf hi hover
    obtain rfl := Option.some.inj (hfound.symm.trans hi')
    rw [hreader, hyielded, hcompleted, hproduced]
    exact ⟨hover', hcursor, hall⟩
  · intro session' ses' hs' hi'
    obtain rfl : session = session' := by simpa [hs] using hs'
    obtain rfl := Option.some.inj (hi.symm.trans hi')
    have hbound := ((delivers.tracks c).pieces session ses hs hi).bound
    obtain ⟨rest, he, -, hrest⟩ := delivers.accounts c
    have hnone : rest = [] := by simpa [hpc, SenderPc.inFlight] using hrest (by simp [hpc])
    rw [SessionReader.poll_eq (delivers.buffered _ _ hi).1 hbound] at hpoll
    have hfinal : ses.inner.closed = true ∧ reader = ⟨ses.produced.length⟩ := by
      split at hpoll
      · simp at hpoll
      · split at hpoll
        next hclosed => exact ⟨hclosed, by simpa using hpoll.symm⟩
        next => simp at hpoll
    have hover := sound.wf.closed _ _ hi
    rw [hfinal.1] at hover
    refine ⟨by simpa using hover, by simp [hfinal.2], ?_⟩
    simpa [State.completed_setConn, hnone] using he

theorem step_drained (hs : step s l = some s') (sound : s.Sound)
    (h : ∀ i ses, s.sessions i = some ses → ses.ingest = false → ses.output = [])
    {ses' : Session} (hi' : s'.sessions i = some ses') (hover : ses'.ingest = false) :
    ses'.output = [] := by
  have m := step_move hs
  cases hi : s.sessions i with
  | none =>
    rcases m.unborn hi with hnone | ⟨maxBytes, hnew⟩
    · simp [hnone] at hi'
    · obtain rfl := Option.some.inj (hnew.symm.trans hi')
      simp [Session.spawn] at hover
  | some ses =>
    obtain ⟨found, hfound, hmove⟩ := m.session sound.wf hi
    obtain rfl := Option.some.inj (hfound.symm.trans hi')
    cases hmove with
    | actorOutput =>
      cases m with
      | actorOutput hold ha =>
        obtain rfl := Option.some.inj (hold.symm.trans hi)
        simp [sound.wf.actor _ _ hi hover] at ha
    | ingest =>
      cases m with
      | ingest hold _ hing =>
        obtain rfl := Option.some.inj (hold.symm.trans hi)
        rw [hing] at hover
        cases hover
    | ingestEnd =>
      obtain ⟨old, hold, hs⟩ := Option.bind_eq_some_iff.mp hs
      obtain rfl := Option.some.inj (hold.symm.trans hi)
      obtain ⟨⟨-, -, hempty⟩, -⟩ := Option.ite_none_right_eq_some.mp hs
      exact hempty
    | _ => exact h i ses hi hover

end Steps

theorem gateway_finishes {maxScrollback : Nat} {s : State}
    (h : Reachable (gateway maxScrollback) s) : (∀ c, s.Parting c → s.Finished c) ∧
      ∀ i ses, s.sessions i = some ses → ses.ingest = false → ses.output = [] := by
  refine h.invariant (P := fun s => (∀ c, s.Parting c → s.Finished c) ∧
    ∀ i ses, s.sessions i = some ses → ses.ingest = false → ses.output = []) ⟨?_, ?_⟩ ?_
  · intro c hparting
    simp [State.Parting, gateway, machine, State.init, Conn.init, State.frames] at hparting
  · intro i ses hi
    simp [gateway, machine, State.init] at hi
  · rintro s l s' hr ⟨hfinished, hdrained⟩ - hs
    have sound := gateway_sound hr
    have delivers := (gateway_delivers hr).1
    exact ⟨fun c => (step_move hs).finishes sound delivers hfinished,
      fun i ses => step_drained hs sound hdrained⟩

section Runs

variable {lim : SshLimits} {text : TransportError → String} {maxScrollback : Nat} {p p' : Path}
  {l : PathLabel} {ls : List PathLabel} {c : ConnId} {i : SessionId}

theorem PathMove.gateway_step (m : PathMove lim text p l p') :
    p'.proxy.gateway = p.proxy.gateway ∨ ∃ k, step p.proxy.gateway k = some p'.proxy.gateway := by
  cases m with
  | gate hproxy | actor _ hproxy => exact (proxyStep_move hproxy).gateway_step
  | push | line => exact Or.inl rfl

/-- A session whose ingest task is over stays as it is, and what was sent stays sent. -/
theorem exec_over {q : Path} {ms : List PathLabel} {ses : Session}
    (hr : Reachable (gateway maxScrollback) p.proxy.gateway)
    (hi : p.proxy.gateway.sessions i = some ses) (hover : ses.ingest = false)
    (run : exec (Path.step lim text) p ms = some q) :
    Reachable (gateway maxScrollback) q.proxy.gateway ∧
    p.proxy.gateway.frames c <+: q.proxy.gateway.frames c ∧
    ∃ ses', q.proxy.gateway.sessions i = some ses' ∧ ses'.ingest = false ∧
      ses'.produced = ses.produced := by
  refine exec_keeps (P := fun q : Path => Reachable (gateway maxScrollback) q.proxy.gateway ∧
    p.proxy.gateway.frames c <+: q.proxy.gateway.frames c ∧
    ∃ ses', q.proxy.gateway.sessions i = some ses' ∧ ses'.ingest = false ∧
      ses'.produced = ses.produced) ?_ ⟨hr, List.prefix_rfl, ses, hi, hover, rfl⟩ run
  rintro t l t' ⟨hreach, hframes, old, hold, hdone, hproduced⟩ hs
  rcases (step_path hs).gateway_step with he | ⟨k, hk⟩
  · rw [he]
    exact ⟨hreach, hframes, old, hold, hdone, hproduced⟩
  · have m := step_move hk
    obtain ⟨ses', hi', hdone', hproduced'⟩ := m.over (gateway_sound hreach).wf hold hdone
    exact ⟨hreach.step trivial hk, hframes.trans (m.frames_prefix c), ses', hi', hdone',
      hproduced'.trans hproduced⟩

/-- The scrollback holds what the target has sent, unless a write to the target failed. -/
theorem produced_outputs {ks : List ProxyLabel} {s : Proxy}
    (run : exec (proxyStep lim) (.init lim maxScrollback) ks = some s) {ses : Session}
    (hi : s.gateway.sessions i = some ses) (dead : ses.actor = false) (drained : ses.output = [])
    (written : .writeFailed i ∉ ks) :
    ses.produced = outputs (upToEnd (arrived lim maxScrollback i ks)) := by
  have haccounted := exec_accounted run i
  simp only [Proxy.Accounted, hi] at haccounted
  obtain ⟨passed, rest, he, hpassed⟩ := haccounted
  obtain ⟨hnil, hleft⟩ := hpassed.left dead
  have hrest : upToEnd rest = [] := by
    rcases hleft with hfailed | ⟨msg, more, rfl, hends⟩ | ⟨rfl, -⟩
    · exact absurd hfailed written
    · simp [upToEnd, hends]
    · rfl
  rw [he, upToEnd_passed hpassed.open_, outputs_append, ← hpassed.flow, hrest]
  simp [hnil, drained, outputs]

/-- A client that has read `Closed` has been sent the output of its session to the end: from
whatever byte the scrollback keeps on, without a hole. The target sends it no more, and nothing
follows on the stream. -/
theorem farewell_complete (run : exec (Path.step lim text) (.init lim maxScrollback) ls = some p)
    {got : Bytes} (hgot : got <+: p.stream c) {lost : Bool}
    (hclosed : .closed ∈ (recvAll ServerFrame.codec lost got).1) :
    ∃ session ses received, (p.proxy.gateway.conns c).session = some session ∧
      p.proxy.gateway.sessions session.id = some ses ∧
      received = ((recvAll ServerFrame.codec lost got).1.filterMap ServerFrame.output).flatten ∧
      received.Sublist ses.produced ∧ ses.produced.rtake maxScrollback <:+ received ∧
      (ses.produced.length ≤ maxScrollback → received = ses.produced) ∧
      (.writeFailed session.id ∉ proxied ls →
        ses.produced = outputs (upToEnd (arrived lim maxScrollback session.id (proxied ls)))) ∧
      ∀ ms q, exec (Path.step lim text) p ms = some q →
        q.proxy.gateway.frames c = (recvAll ServerFrame.codec lost got).1 ∧
        ∃ ses', q.proxy.gateway.sessions session.id = some ses' ∧ ses'.actor = false ∧
          ses'.produced = ses.produced := by
  obtain ⟨hproxy, hwired, -⟩ := exec_path run
  have hgate : Reachable (gateway maxScrollback) p.proxy.gateway := wired_gateway hwired
  have sound := gateway_sound hgate
  obtain ⟨delivers, hmax⟩ := gateway_delivers hgate
  obtain ⟨hfinished, hdrained⟩ := gateway_finishes hgate
  -- what the client has read is all that was sent
  have hframes : (recvAll ServerFrame.codec lost got).1 = p.proxy.gateway.frames c := by
    have hsent : (recvAll ServerFrame.codec lost (p.stream c)).1 = p.proxy.gateway.frames c :=
      (wired_carries hwired c).received lost
    obtain ⟨more, hmore⟩ := hgot
    refine frames_of_closed hgate ?_ hclosed
    rw [← hsent, ← hmore]
    exact recvAll_append lost lost got more
  have hparting : p.proxy.gateway.Parting c := Or.inr (hframes ▸ hclosed)
  obtain ⟨session, ses, hs, hi⟩ := sound.attached_of_parting hparting
  obtain ⟨hover, hcursor, hall⟩ := hfinished c hparting session ses hs hi
  obtain ⟨hholds, hbytes⟩ := delivers.buffered _ _ hi
  have pieces := (delivers.tracks c).pieces session ses hs hi
  rw [hholds.start_eq, hbytes, hmax, hcursor] at pieces
  have hto : ses.produced.extract 0 ses.produced.length = ses.produced := by
    simp [List.extract_eq_take_drop]
  have hreceived : ((recvAll ServerFrame.codec lost got).1.filterMap ServerFrame.output).flatten =
      ((p.proxy.gateway.conns c).yielded.map Prod.snd).flatten := by
    rw [hframes, State.frames_output, hall]
  refine ⟨session, ses, _, hs, hi, rfl, ?_, ?_, fun hfits => ?_, fun hwritten => ?_,
    fun ms q hq => ?_⟩
  · rw [hreceived]
    exact hto ▸ pieces.sublist
  · have hkept : ses.produced.rtake maxScrollback =
        ses.produced.extract (ses.produced.length - maxScrollback) ses.produced.length := by
      simp [rtake_eq_drop, List.take_of_length_le]
    rw [hreceived, hkept]
    exact pieces.suffix
  · rw [Nat.sub_eq_zero_of_le hfits] at pieces
    rw [hreceived]
    exact pieces.whole
  · exact produced_outputs hproxy hi (sound.wf.actor _ _ hi hover) (hdrained _ _ hi hover) hwritten
  · obtain ⟨hreach, hprefix, ses', hi', hover', hproduced⟩ := exec_over hgate hi hover hq
    rw [← hframes] at hprefix
    exact ⟨(frames_of_closed hreach hprefix hclosed).symm, ses', hi',
      (gateway_sound hreach).wf.actor _ _ hi' hover', hproduced⟩

end Runs

def departing : List PathLabel :=
  let ending : List ProxyLabel := [.hangup 5 .eof, .deliver 5, .top 5, .wait 5] ++
    ([.ingestEnd 5, .pollReader 0, .written 0 true] : List Label).map .gateway
  conversing ++ ending.map .proxy

theorem farewell_complete_departing : ∃ p, exec (Path.step .narrow fun _ => "")
      (.init .narrow defaultScrollbackBytes) departing = some p ∧
    ∃ session ses received, (p.proxy.gateway.conns 0).session = some session ∧
      p.proxy.gateway.sessions session.id = some ses ∧
      received = ((recvAll ServerFrame.codec false (p.stream 0)).1.filterMap
        ServerFrame.output).flatten ∧
      (ses.produced.length ≤ defaultScrollbackBytes → received = ses.produced) := by
  have hrun : ∃ p, exec (Path.step .narrow fun _ => "")
      (.init .narrow defaultScrollbackBytes) departing = some p ∧
    .closed ∈ (recvAll ServerFrame.codec false (p.stream 0)).1 := exists_exec (by decide +kernel)
  obtain ⟨p, run, hclosed⟩ := hrun
  obtain ⟨session, ses, received, hs, hi, hreceived, -, -, hfits, -⟩ :=
    farewell_complete run List.prefix_rfl hclosed
  exact ⟨p, run, session, ses, received, hs, hi, hreceived, hfits⟩

end TtyGateway
