import TtyGateway.Grammar
import TtyGateway.Framing

namespace TtyGateway

open Transition

def SenderPc.sending : SenderPc → Option ServerFrame
  | .write frame _ => some frame
  | .writeClosed => some .closed
  | _ => none

def Conn.replying (x : Conn) : Option ServerFrame :=
  match x.pc with
  | .signSend id publicKey data => some (.signRequest id publicKey data)
  | .reject message => some (.error message)
  | .greet => x.session.map fun session =>
      .hello protocolVersion session.id x.resumed ⟨session.resumeToken⟩
  | .status => some (.status .live)
  | _ => none

def Conn.sending (x : Conn) : Option ServerFrame := x.replying <|> x.sender.sending

def Label.unsent : Label → Option ConnId
  | .signSent c (.error _) => some c
  | .rejectSent c false => some c
  | .helloSent c false => some c
  | .statusSent c false => some c
  | .written c false => some c
  | _ => none

/-- The gateway with the bytes of its control streams: what each has taken so far, how many of
these belong to a frame whose `send` has not returned, and whether a write to it has failed, after
which it takes no more. -/
structure Wired where
  gate : State
  stream : ConnId → Bytes
  part : ConnId → Nat
  broken : ConnId → Bool

def Wired.init (maxScrollback : Nat) : Wired :=
  ⟨.init maxScrollback, fun _ => [], fun _ => 0, fun _ => false⟩

inductive WiredLabel
  | gate (l : Label)
  | push (c : ConnId) (n : Nat)

/-- A `send` returns: `write_all` has written what was left of the frame. -/
def Wired.complete (w : Wired) (s : State) (sent : Sent) : Option Wired :=
  match encodeFramed ServerFrame.codec sent.frame with
  | .ok framed =>
    if w.broken sent.conn then none
    else some { w with
      gate := s
      stream := Function.update w.stream sent.conn
        (w.stream sent.conn ++ framed.drop (w.part sent.conn))
      part := Function.update w.part sent.conn 0 }
  | .error _ => none

/-- A `send` fails: the frame is too large, or the stream is gone. -/
def Wired.fail (w : Wired) (s : State) (c : ConnId) : Wired :=
  match (w.gate.conns c).sending.map (encodeFramed ServerFrame.codec) with
  | some (.ok _) => { w with gate := s, broken := Function.update w.broken c true }
  | _ => { w with gate := s }

/-- The stream takes some more bytes of a frame, not the last one. -/
def Wired.push (w : Wired) (c : ConnId) (n : Nat) : Option Wired :=
  match (w.gate.conns c).sending.map (encodeFramed ServerFrame.codec) with
  | some (.ok framed) =>
    if w.broken c = false ∧ w.part c + n < framed.length then
      some { w with
        stream := Function.update w.stream c (w.stream c ++ (framed.drop (w.part c)).take n)
        part := Function.update w.part c (w.part c + n) }
    else none
  | _ => none

def Wired.step (w : Wired) : WiredLabel → Option Wired
  | .gate l => (TtyGateway.step w.gate l).bind fun s =>
    match s.wire.drop w.gate.wire.length with
    | sent :: _ => w.complete s sent
    | [] =>
      match l.unsent with
      | some c => some (w.fail s c)
      | none => some { w with gate := s }
  | .push c n => w.push c n

def wired (maxScrollback : Nat) : System Wired WiredLabel := machine (.init maxScrollback) Wired.step

theorem Wired.fail_gate (w : Wired) (s : State) (c : ConnId) : (w.fail s c).gate = s := by
  unfold Wired.fail
  split <;> rfl

/-- What a step of the gateway comes to on the streams: a frame is completed, or a `send` fails, or
nothing is. -/
theorem Wired.step_gate {w w' : Wired} {l : Label} (h : w.step (.gate l) = some w') :
    ∃ s, TtyGateway.step w.gate l = some s ∧
      ((∃ sent, s.wire = w.gate.wire ++ [sent] ∧ w.complete s sent = some w') ∨
      s.wire = w.gate.wire ∧ ((∃ c, l.unsent = some c ∧ w' = w.fail s c) ∨
        l.unsent = none ∧ w' = { w with gate := s })) := by
  obtain ⟨s, hs, h⟩ := Option.bind_eq_some_iff.mp h
  refine ⟨s, hs, ?_⟩
  rcases (step_move hs).wire with he | ⟨sent, he, -⟩
  · refine Or.inr ⟨he, ?_⟩
    rw [he, List.drop_length] at h
    cases hu : l.unsent with
    | some c =>
      simp only [hu, Option.some.injEq] at h
      exact Or.inl ⟨c, rfl, h.symm⟩
    | none =>
      simp only [hu, Option.some.injEq] at h
      exact Or.inr ⟨rfl, h.symm⟩
  · rw [he, List.drop_left] at h
    exact Or.inl ⟨sent, he, h⟩

theorem Wired.complete_gate {w w' : Wired} {s : State} {sent : Sent}
    (h : w.complete s sent = some w') : w'.gate = s := by
  unfold Wired.complete at h
  split at h
  next framed =>
    split at h
    next => cases h
    next => cases h; rfl
  next => cases h

theorem Wired.push_gate {w w' : Wired} {c : ConnId} {n : Nat} (h : w.push c n = some w') :
    w'.gate = w.gate := by
  unfold Wired.push at h
  split at h
  next framed =>
    split at h
    next => cases h; rfl
    next => cases h
  next => cases h

/-- The bytes take nothing away from the frames: below a run of the wired gateway lies one of the
gateway. -/
theorem wired_gateway {maxScrollback : Nat} {w : Wired}
    (h : Reachable (wired maxScrollback) w) : Reachable (gateway maxScrollback) w.gate := by
  refine h.invariant (P := fun w => Reachable (gateway maxScrollback) w.gate) .init ?_
  intro w l w' _ ih _ hs
  cases l with
  | gate l =>
    obtain ⟨s, hstep, hcases⟩ := Wired.step_gate hs
    have hgate : w'.gate = s := by
      rcases hcases with ⟨sent, -, hc⟩ | ⟨-, ⟨c, -, rfl⟩ | ⟨-, rfl⟩⟩
      · exact Wired.complete_gate hc
      · exact Wired.fail_gate w s c
      · rfl
    rw [hgate]
    exact ih.step trivial hstep
  | push c n =>
    rw [Wired.push_gate hs]
    exact ih

section Sending

variable {x : Conn} {fs : List ServerFrame}

theorem Conn.replying_of_past (h : x.pc.past = true) : x.replying = none := by
  unfold Conn.replying
  cases hpc : x.pc <;> simp [hpc, Pc.past] at h ⊢

theorem Conn.Over.sending (h : x.Over) : x.sending = none := by
  rcases h with ⟨hpc, hs⟩ | ⟨hpc, hs⟩
  · simp [Conn.sending, Conn.replying, hpc, hs, SenderPc.sending]
  · simp [Conn.sending, Conn.replying_of_past hpc, hs, SenderPc.sending]

theorem Conn.Spoke.sending_asking (h : x.Spoke fs) (hpc : x.pc.asking = true ∨ x.pc = .status) :
    x.sending = x.replying := by
  have hs : x.sender = .idle := by
    rcases hpc with hpc | hpc
    · exact (h.of_asking hpc).1
    · cases h with
      | asking pc => simp [hpc, Pc.asking] at pc
      | greeted _ hs => exact hs
      | streaming pc => simp [hpc, Pc.past] at pc
      | ended h => simp [Conn.Over, hpc, Pc.past] at h
  simp [Conn.sending, hs, SenderPc.sending]

theorem Conn.Spoke.sending_alive (h : x.Spoke fs) (alive : x.sender.alive = true) :
    x.sending = x.sender.sending := by
  simp [Conn.sending, Conn.replying_of_past (h.of_alive alive).1]

end Sending

theorem Move.completes {s s' : State} {l : Label} (m : Move s l s')
    (h : ∀ c, (s.conns c).Spoke (s.frames c)) {sent : Sent} (hw : s'.wire = s.wire ++ [sent]) :
    l.conn = some sent.conn ∧ (s.conns sent.conn).sending = some sent.frame := by
  have put : ∀ c t f, s'.wire = s.wire ++ [⟨c, t, f⟩] → sent = ⟨c, t, f⟩ := fun c t f hput =>
    (List.singleton_inj.mp (List.append_cancel_left (hput.symm.trans hw))).symm
  cases m with
  | @signSent c id publicKey data hpc =>
    obtain rfl := put c _ _ rfl
    refine ⟨rfl, ?_⟩
    rw [(h c).sending_asking (Or.inl (by simp [hpc, Pc.asking]))]
    simp [Conn.replying, hpc]
  | @rejectSent c message hpc =>
    obtain rfl := put c _ _ rfl
    refine ⟨rfl, ?_⟩
    rw [(h c).sending_asking (Or.inl (by simp [hpc, Pc.asking]))]
    simp [Conn.replying, hpc]
  | @helloSent c session hpc hs =>
    obtain rfl := put c _ _ rfl
    refine ⟨rfl, ?_⟩
    rw [(h c).sending_asking (Or.inl (by simp [hpc, Pc.asking]))]
    simp [Conn.replying, hpc, hs]
  | @statusSent c hpc =>
    obtain rfl := put c _ _ rfl
    refine ⟨rfl, ?_⟩
    rw [(h c).sending_asking (Or.inr hpc)]
    simp [Conn.replying, hpc]
  | @written c frame time hpc =>
    obtain rfl := put c _ _ rfl
    refine ⟨rfl, ?_⟩
    rw [(h c).sending_alive (by simp [hpc, SenderPc.alive]), hpc]
    rfl
  | @closedWritten c hpc =>
    obtain rfl := put c _ _ rfl
    refine ⟨rfl, ?_⟩
    rw [(h c).sending_alive (by simp [hpc, SenderPc.alive]), hpc]
    rfl
  | _ => simp at hw

theorem Conn.Over.kept {s s' : State} {l : Label} (m : Move s l s') {c : ConnId}
    (h : (s.conns c).Over) : (s'.conns c).Over := by
  by_cases hl : l.conn = some c
  · cases m with
    | signIgnored | recvIgnored => exact h
    | recvData hpc | recvResize hpc | recvPing hpc | recvClose hpc | recvLost hpc | forwarded hpc
    | unforwarded hpc | ponged hpc | unponged hpc | abort hpc | report hpc | reported hpc
    | ended hpc | kept hpc | closeCall hpc | closeReturned hpc | leave hpc =>
      cases hl
      rcases h with ⟨hf, -⟩ | ⟨-, hs⟩
      · simp [hpc] at hf
      · exact Or.inr (by simp [Pc.past, hs])
    | cancel _ hpc =>
      cases hl
      rcases h with ⟨-, hs⟩ | ⟨-, hs⟩ <;> simp [hs, SenderPc.atAwait] at hpc
    | accept hpc | hello hpc | helloLost hpc | helloRefused _ hpc | authorized hpc | denied hpc
    | resumed hpc | unresumed hpc | openLost hpc | openTarget hpc | openRefused _ hpc
    | loginFailed hpc | signAsked hpc | signSent hpc | signUnsent hpc | signed hpc
    | signRefused _ hpc | loggedIn hpc | slotTaken hpc | slotDenied hpc | rejectSent hpc
    | rejectUnsent hpc | helloSent hpc | helloUnsent hpc | statusSent hpc | statusUnsent hpc =>
      cases hl
      simp [Conn.Over, hpc, Pc.past] at h
    | senderStart hpc | chunk hpc | finished hpc | parked hpc | oob hpc | oobClosed hpc
    | unlimited hpc | admitted hpc | delayed hpc | wake hpc | addOut hpc | written hpc
    | unwritten hpc | closedWritten hpc | closedUnwritten hpc =>
      cases hl
      simp [Conn.Over, hpc] at h
    | _ => cases hl
  · rw [m.conns_of_ne hl]
    exact h

/-- A frame that is being sent goes on being sent, unless its `send` returns or the task that was
sending it is stopped. -/
theorem Move.sending {s s' : State} {l : Label} (m : Move s l s')
    (h : ∀ c, (s.conns c).Spoke (s.frames c)) (hw : s'.wire = s.wire) {c : ConnId}
    {frame : ServerFrame} (hf : (s.conns c).sending = some frame) :
    (s'.conns c).sending = some frame ∨ l.unsent = some c ∨ (s'.conns c).Over := by
  by_cases hl : l.conn = some c
  · cases m with
    | signIgnored | recvIgnored => exact Or.inl hf
    | signUnsent | rejectUnsent | helloUnsent | statusUnsent | unwritten | closedUnwritten =>
      exact Or.inr (Or.inl hl)
    | signSent | rejectSent | helloSent | statusSent | written | closedWritten => simp at hw
    | recvData hpc | recvResize hpc | recvPing hpc | recvClose hpc | recvLost hpc | forwarded hpc
    | unforwarded hpc | ponged hpc | unponged hpc | abort hpc | report hpc | reported hpc
    | ended hpc | kept hpc | closeCall hpc | closeReturned hpc | leave hpc =>
      cases hl
      have hnone : (s.conns c).replying = none := Conn.replying_of_past (by simp [hpc, Pc.past])
      simp only [Conn.sending, hnone] at hf
      exact Or.inl (by simpa [Conn.sending, Conn.replying] using hf)
    | @cancel d _ hpc =>
      cases hl
      have halive := SenderPc.alive_of_atAwait hpc
      exact Or.inr (Or.inr (Or.inr ⟨by simpa using ((h c).of_alive halive).1, by simp⟩))
    | accept hpc | hello hpc | helloLost hpc | helloRefused _ hpc | authorized hpc | denied hpc
    | resumed hpc | unresumed hpc | openLost hpc | openTarget hpc | openRefused _ hpc
    | loginFailed hpc | signAsked hpc | signed hpc | signRefused _ hpc | loggedIn hpc
    | slotTaken hpc | slotDenied hpc =>
      cases hl
      rw [(h c).sending_asking (Or.inl (by simp [hpc, Pc.asking]))] at hf
      simp [Conn.replying, hpc] at hf
    | senderStart hpc | chunk hpc | finished hpc | parked hpc | oob hpc | oobClosed hpc
    | unlimited hpc | admitted hpc | delayed hpc | wake hpc | addOut hpc =>
      cases hl
      rw [(h c).sending_alive (by simp [hpc, SenderPc.alive]), hpc] at hf
      simp [SenderPc.sending] at hf
    | _ => cases hl
  · rw [m.conns_of_ne hl]
    exact Or.inl hf

/-- On the stream of connection `c` are the encodings of the frames completed on it and, unless
nothing more is under way, some of the bytes of one further frame. -/
def Wired.Carries (w : Wired) (c : ConnId) : Prop :=
  ∃ whole rest, encodeStream ServerFrame.codec (w.gate.frames c) = .ok whole ∧
    w.stream c = whole ++ rest ∧ (rest = [] ∧ w.part c = 0 ∨ ∃ frame framed,
      encodeFramed ServerFrame.codec frame = .ok framed ∧ w.part c < framed.length ∧
        rest = framed.take (w.part c) ∧ ((w.gate.conns c).sending = some frame ∨
          w.broken c = true ∨ (w.gate.conns c).Over))

section Carries

variable {w w' : Wired} {c : ConnId}

theorem Wired.complete_cases {s : State} {sent : Sent} (h : w.complete s sent = some w') :
    ∃ framed, encodeFramed ServerFrame.codec sent.frame = .ok framed ∧
      w.broken sent.conn = false ∧ w' = { w with
        gate := s
        stream := Function.update w.stream sent.conn
          (w.stream sent.conn ++ framed.drop (w.part sent.conn))
        part := Function.update w.part sent.conn 0 } := by
  unfold Wired.complete at h
  split at h
  next framed hf =>
    split at h
    next => cases h
    next hb => exact ⟨framed, hf, by simpa using hb, (Option.some.inj h).symm⟩
  next => cases h

theorem Wired.Carries.complete (hc : w.Carries c) {s : State} {sent : Sent}
    (hw : s.wire = w.gate.wire ++ [sent]) (hsend : (w.gate.conns sent.conn).sending = some sent.frame)
    (hother : c ≠ sent.conn → s.conns c = w.gate.conns c) (h : w.complete s sent = some w') :
    w'.Carries c := by
  obtain ⟨framed, hf, hb, rfl⟩ := Wired.complete_cases h
  obtain ⟨whole, rest, hwhole, hstream, hrest⟩ := hc
  by_cases hs : c = sent.conn
  · subst hs
    have hframes : s.frames sent.conn = w.gate.frames sent.conn ++ [sent.frame] := by
      simp [State.frames, hw, List.filterMap_append, Sent.frameTo]
    have hjoin : rest ++ framed.drop (w.part sent.conn) = framed := by
      rcases hrest with ⟨rfl, hp⟩ | ⟨frame, framed', hf', -, rfl, hs | hs | hs⟩
      · simp [hp]
      · obtain rfl := Option.some.inj (hs.symm.trans hsend)
        obtain rfl := Except.ok.inj (hf'.symm.trans hf)
        exact List.take_append_drop _ _
      · simp [hb] at hs
      · simp [hs.sending] at hsend
    refine ⟨whole ++ framed, [], ?_, ?_, Or.inl ⟨rfl, by simp⟩⟩
    · rw [hframes]
      exact encodeStream_concat hwhole hf
    · simp [hstream, hjoin]
  · have hframes : s.frames c = w.gate.frames c := by
      simp [State.frames, hw, List.filterMap_append, Sent.frameTo, Ne.symm hs]
    refine ⟨whole, rest, by rw [hframes]; exact hwhole, by simpa [hs] using hstream, ?_⟩
    simp only [Function.update_of_ne hs, hother hs]
    exact hrest

theorem Wired.Carries.same (hc : w.Carries c) (hframes : w'.gate.frames c = w.gate.frames c)
    (hstream : w'.stream c = w.stream c) (hpart : w'.part c = w.part c)
    (hbroken : w.broken c = true → w'.broken c = true)
    (hover : (w.gate.conns c).Over → (w'.gate.conns c).Over)
    (hsend : ∀ frame framed, (w.gate.conns c).sending = some frame →
      encodeFramed ServerFrame.codec frame = .ok framed →
      (w'.gate.conns c).sending = some frame ∨ w'.broken c = true ∨ (w'.gate.conns c).Over) :
    w'.Carries c := by
  obtain ⟨whole, rest, hwhole, hs, hrest⟩ := hc
  refine ⟨whole, rest, by rw [hframes]; exact hwhole, hstream.trans hs, ?_⟩
  rw [hpart]
  apply hrest.imp_right
  rintro ⟨frame, framed, hf, hlt, hr, hcase⟩
  refine ⟨frame, framed, hf, hlt, hr, ?_⟩
  rcases hcase with h | h | h
  · exact hsend frame framed h hf
  · exact Or.inr (Or.inl (hbroken h))
  · exact Or.inr (Or.inr (hover h))

theorem Wired.fail_broken {s : State} {frame : ServerFrame} {framed : Bytes}
    (hsend : (w.gate.conns c).sending = some frame)
    (hf : encodeFramed ServerFrame.codec frame = .ok framed) : (w.fail s c).broken c = true := by
  simp [Wired.fail, hsend, hf]

theorem Wired.fail_same (s : State) (d : ConnId) : (w.fail s d).stream = w.stream ∧
    (w.fail s d).part = w.part ∧ (w.broken c = true → (w.fail s d).broken c = true) := by
  unfold Wired.fail
  split
  · refine ⟨rfl, rfl, fun hb => ?_⟩
    simp only [Function.update_apply]
    split
    · rfl
    · exact hb
  · exact ⟨rfl, rfl, fun hb => hb⟩

theorem Wired.Carries.push (hc : w.Carries c) {d : ConnId} {n : Nat}
    (h : w.push d n = some w') : w'.Carries c := by
  have hgate := Wired.push_gate h
  unfold Wired.push at h
  split at h
  next framed hsome =>
    obtain ⟨frame, hsend, hf⟩ := Option.map_eq_some_iff.mp hsome
    obtain ⟨⟨hb, hlt⟩, hw⟩ := Option.ite_none_right_eq_some.mp h
    cases hw
    by_cases hd : c = d
    · subst hd
      obtain ⟨whole, rest, hwhole, hs, hrest⟩ := hc
      have hjoin : rest ++ (framed.drop (w.part c)).take n = framed.take (w.part c + n) := by
        rw [List.take_add]
        congr 1
        rcases hrest with ⟨rfl, hp⟩ | ⟨frame', framed', hf', -, rfl, hs' | hs' | hs'⟩
        · simp [hp]
        · obtain rfl := Option.some.inj (hs'.symm.trans hsend)
          obtain rfl := Except.ok.inj (hf'.symm.trans hf)
          rfl
        · simp [hb] at hs'
        · simp [hs'.sending] at hsend
      refine ⟨whole, framed.take (w.part c + n), hwhole, ?_, Or.inr ⟨frame, framed, hf, ?_, ?_, ?_⟩⟩
      · simp [hs, hjoin]
      · simpa using hlt
      · simp
      · exact Or.inl hsend
    · exact hc.same rfl (by simp [hd]) (by simp [hd]) (fun hb => hb) (fun ho => ho)
        fun frame framed hs _ => Or.inl hs
  next => cases h

end Carries

theorem Wired.Carries.step {w w' : Wired} {l : WiredLabel} (h : ∀ c, w.Carries c)
    (spoke : ∀ c, (w.gate.conns c).Spoke (w.gate.frames c)) (hs : w.step l = some w')
    (c : ConnId) : w'.Carries c := by
  cases l with
  | gate l =>
    obtain ⟨s, hstep, hcases⟩ := Wired.step_gate hs
    have m := step_move hstep
    rcases hcases with ⟨sent, hw, hc⟩ | ⟨hw, hcases⟩
    · obtain ⟨hconn, hsend⟩ := m.completes spoke hw
      refine (h c).complete hw hsend (fun hne => m.conns_of_ne ?_) hc
      rw [hconn]
      exact fun he => hne (Option.some.inj he).symm
    · have hframes : s.frames c = w.gate.frames c := by simp [State.frames, hw]
      rcases hcases with ⟨d, hun, rfl⟩ | ⟨hun, rfl⟩
      · obtain ⟨hstream, hpart, hbroken⟩ := w.fail_same (c := c) s d
        have hgate := w.fail_gate s d
        refine (h c).same (by rw [hgate, hframes]) (by rw [hstream]) (by rw [hpart]) hbroken
          (by rw [hgate]; exact fun ho => ho.kept m) fun frame framed hsend hf => ?_
        rw [hgate]
        rcases m.sending spoke hw hsend with hk | hd | ho
        · exact Or.inl hk
        · obtain rfl := Option.some.inj (hun.symm.trans hd)
          exact Or.inr (Or.inl (w.fail_broken hsend hf))
        · exact Or.inr (Or.inr ho)
      · refine (h c).same hframes rfl rfl (fun hb => hb) (fun ho => ho.kept m) ?_
        intro frame framed hsend _
        rcases m.sending spoke hw hsend with hk | hd | ho
        · exact Or.inl hk
        · simp [hun] at hd
        · exact Or.inr (Or.inr ho)
  | push d n => exact (h c).push hs

theorem wired_carries {maxScrollback : Nat} {w : Wired} (h : Reachable (wired maxScrollback) w) :
    ∀ c, w.Carries c := by
  refine h.invariant (P := fun w => ∀ c, w.Carries c) (fun c => ?_) ?_
  · exact ⟨[], [], rfl, rfl, Or.inl ⟨rfl, rfl⟩⟩
  · intro w l w' hr ih _ hs
    exact Wired.Carries.step ih (gateway_speaks (wired_gateway hr)).1 hs

/-- What the gateway sends on a control stream is the beginning of a word, frame by frame and byte
by byte: behind the encodings of the frames completed comes at most a part of one further frame,
and the peer reads these frames and then an error. -/
theorem control_stream_grammar {maxScrollback : Nat} {w : Wired}
    (h : Reachable (wired maxScrollback) w) (c : ConnId) :
    (∃ word, Word word ∧ w.gate.frames c <+: word) ∧
    (∀ id publicKey data, .signRequest id publicKey data ∈ w.gate.frames c →
      (w.gate.conns c).resumed = false ∧
        (w.gate.conns c).auth.any AuthIntent.delegated = true) ∧
    ∃ whole rest, encodeStream ServerFrame.codec (w.gate.frames c) = .ok whole ∧
      w.stream c = whole ++ rest ∧ (rest = [] ∨ ∃ frame, Begun ServerFrame.codec frame rest) ∧
      ∀ lost, ∃ e, recvAll ServerFrame.codec lost (w.stream c) = (w.gate.frames c, rest, .read e) := by
  obtain ⟨hword, hsigns⟩ := frames_grammar (wired_gateway h) c
  obtain ⟨whole, rest, hwhole, hstream, hrest⟩ := wired_carries h c
  have hbegun : rest = [] ∨ ∃ frame, Begun ServerFrame.codec frame rest := by
    refine hrest.imp (fun he => he.1) ?_
    rintro ⟨frame, framed, hf, hlt, rfl, -⟩
    refine ⟨frame, framed, hf, List.take_prefix _ _, fun he => ?_⟩
    have hlen := congrArg List.length he
    rw [List.length_take] at hlen
    omega
  refine ⟨hword, hsigns, whole, rest, hwhole, hstream, hbegun, fun lost => ?_⟩
  obtain ⟨e, he⟩ : ∃ e, FramedRecv.recv ServerFrame.codec lost rest = .error (.read e) := by
    rcases hbegun with rfl | ⟨frame, hb⟩
    · exact FramedRecv.recv_nil
    · exact FramedRecv.recv_begun hb
  refine ⟨e, ?_⟩
  rw [hstream, recvAll_encodeStream hwhole, recvAll_error he, List.append_nil]

/-- The sender task is aborted while it writes a chunk. -/
theorem control_stream_grammar_aborted : ∃ w, Reachable (wired defaultScrollbackBytes) w ∧
    (w.gate.conns 0).sender = .ended ∧
    w.gate.frames 0 = [.hello 1 5 false ⟨[1]⟩, .status .live] ∧
    w.stream 0 = [0, 0, 0, 6, 0, 1, 5, 0, 1, 1, 0, 0, 0, 2, 3, 2, 0, 0, 0, 4, 1, 2] ∧
    ∃ rest e, recvAll ServerFrame.codec false (w.stream 0) =
      ([.hello 1 5 false ⟨[1]⟩, .status .live], rest, .read e) := by
  obtain ⟨w, hw, hp⟩ := exists_reachable_of_exec (.init defaultScrollbackBytes) Wired.step
    ((opening 0 none .unlimited 5 [1] ++ [.actorOutput 5 [104, 105], .ingest 5, .pollReader 0,
      .throttle 0, .addOut 0] : List Label).map .gate ++ [.push 0 4, .push 0 2] ++
      ([.recv 0 (.ok .close), .abort 0, .cancel 0] : List Label).map .gate)
    (fun w => ((w.gate.conns 0).sender = .ended ∧
      w.gate.frames 0 = [.hello 1 5 false ⟨[1]⟩, .status .live]) ∧
      w.stream 0 = [0, 0, 0, 6, 0, 1, 5, 0, 1, 1, 0, 0, 0, 2, 3, 2, 0, 0, 0, 4, 1, 2])
    (by decide +kernel)
  obtain ⟨⟨hended, hframes⟩, hstream⟩ := hp
  obtain ⟨-, -, -, rest, -, -, -, hrecv⟩ := control_stream_grammar hw 0
  obtain ⟨e, he⟩ := hrecv false
  rw [hframes] at he
  exact ⟨w, hw, hended, hframes, hstream, rest, e, he⟩

end TtyGateway
