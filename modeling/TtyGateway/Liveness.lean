import TtyGateway.Admission

namespace TtyGateway

open Transition

def Label.probes (c : ConnId) : Label → Bool
  | .recv d (.ok .ping) => d = c
  | _ => false

def probes (c : ConnId) (ls : List Label) : Nat := ls.countP (Label.probes c)

def State.pongs (s : State) (c : ConnId) : Nat := (s.frames c).count .pong

def SenderPc.ponging : SenderPc → Nat
  | .write .pong _ => 1
  | _ => 0

/-- The answers on their way: queued, in the hands of the sender task, or about to be queued. The
queue goes with the task. -/
def Conn.answers (x : Conn) : Nat :=
  if x.sender = .ended then 0
  else x.oob.count .pong + x.sender.ponging + if x.pc = .pong then 1 else 0

/-- After so many `Ping`s read by the receive loop and so many `Pong`s sent. -/
structure Conn.Answered (x : Conn) (probes pongs : Nat) : Prop where
  running : x.sender ≠ .ended → pongs + x.answers = probes
  most : pongs ≤ probes

def State.shut (s : State) (c : ConnId) : Prop :=
  ∃ session ses, (s.conns c).session = some session ∧ s.sessions session.id = some ses ∧
    ses.inner.closed = true

/-- Why the sender task of connection `c` is at its end. -/
structure Parting (c : ConnId) (ls : List Label) (s : State) : Prop where
  draining : (s.conns c).sender = .writeClosed → s.shut c
  ended : (s.conns c).sender = .ended → s.shut c ∨ .written c false ∈ ls ∨ .cancel c ∈ ls

section Answered

variable {x y : Conn} {n k : Nat} {s s' : State} {c : ConnId} {l : Label} {ls : List Label}

theorem probes_append : probes c (ls ++ [l]) = probes c ls + if l.probes c then 1 else 0 := by
  rw [probes, probes, List.countP_append, List.countP_singleton]

theorem Label.probes_of_ne (h : l.conn ≠ some c) : l.probes c = false := by
  unfold Label.probes
  split
  · exact decide_eq_false fun hd => h (congrArg some hd)
  · rfl

theorem State.pongs_put (t : ℚ) (f : ServerFrame) :
    (s.put c t f).pongs c = s.pongs c + if f = .pong then 1 else 0 := by
  simp [State.pongs, State.frames_put_self, List.count_append, List.count_singleton]

theorem State.pongs_setConn (d : ConnId) (x : Conn) : (s.setConn d x).pongs c = s.pongs c := rfl

theorem Conn.answers_of_running (h : x.sender ≠ .ended) :
    x.answers = x.oob.count .pong + x.sender.ponging + if x.pc = .pong then 1 else 0 := if_neg h

theorem Conn.Answered.same (h : x.Answered n k) (running : y.sender ≠ .ended →
    x.sender ≠ .ended ∧ y.answers = x.answers) : y.Answered n k := by
  refine ⟨fun hy => ?_, h.most⟩
  obtain ⟨hx, he⟩ := running hy
  rw [he]
  exact h.running hx

theorem Conn.Answered.handle (h : x.Answered n k) (hx : x.pc ≠ .pong) (hy : y.pc ≠ .pong)
    (sender : y.sender = x.sender) (oob : y.oob = x.oob) : y.Answered n k := by
  refine h.same fun hn => ⟨sender ▸ hn, ?_⟩
  rw [Conn.answers_of_running hn, Conn.answers_of_running (sender ▸ hn), sender, oob, if_neg hx,
    if_neg hy]

theorem Conn.Answered.stream (h : x.Answered n k) (hx : x.sender ≠ .ended)
    (ponging : y.sender.ponging = x.sender.ponging) (pc : y.pc = x.pc) (oob : y.oob = x.oob) :
    y.Answered n k := by
  refine h.same fun hy => ⟨hx, ?_⟩
  rw [Conn.answers_of_running hy, Conn.answers_of_running hx, ponging, pc, oob]

theorem Conn.Answered.stop (h : x.Answered n k) (hy : y.sender = .ended) : y.Answered n k :=
  ⟨fun hn => absurd hy hn, h.most⟩

theorem step_answered (hs : step s l = some s') (sound : s.Sound)
    (spoke : (s.conns c).Spoke (s.frames c)) (h : (s.conns c).Answered (probes c ls) (s.pongs c)) :
    (s'.conns c).Answered (probes c (ls ++ [l])) (s'.pongs c) := by
  have m := step_move hs
  rw [probes_append]
  by_cases hl : l.conn = some c
  · cases m with
    | accept hpc | helloLost hpc | hello hpc | helloRefused _ hpc | authorized hpc | denied hpc
    | resumed hpc | unresumed hpc | openLost hpc | openTarget hpc | openRefused _ hpc
    | loginFailed hpc | signAsked hpc | signUnsent hpc | signed hpc | signRefused _ hpc
    | loggedIn hpc | slotTaken hpc | slotDenied hpc | rejectUnsent hpc | helloUnsent hpc
    | statusUnsent hpc | recvData hpc | recvResize hpc | recvClose hpc | recvLost hpc
    | forwarded hpc | unforwarded hpc | abort hpc | report hpc | reported hpc | ended hpc | kept hpc
    | closeCall hpc | closeReturned hpc | leave hpc =>
      cases hl
      simp only [State.setConn_conns_self]
      exact Conn.Answered.handle h (by simp [hpc]) (by simp) rfl rfl
    | signSent hpc | rejectSent hpc | helloSent hpc =>
      cases hl
      simp only [State.setConn_conns_self, State.pongs_setConn, State.pongs_put]
      exact Conn.Answered.handle h (by simp [hpc]) (by simp) rfl rfl
    | statusSent hpc =>
      cases hl
      have hidle := sound.sender_idle (c := c) (Or.inr (Or.inr (by simp [hpc, Pc.stage])))
      simp only [State.setConn_conns_self, State.pongs_setConn, State.pongs_put]
      refine Conn.Answered.same h fun _ => ⟨by simp [hidle], ?_⟩
      simp [Conn.answers, hidle, hpc, SenderPc.ponging]
    | recvPing hpc =>
      cases hl
      refine ⟨fun hy => ?_, h.most.trans (Nat.le_add_right _ _)⟩
      have hx : (s.conns c).sender ≠ .ended := by simpa using hy
      have hrun := h.running hx
      rw [Conn.answers_of_running hx, hpc] at hrun
      rw [Conn.answers_of_running hy, State.pongs_setConn]
      simp [Label.probes] at hrun ⊢
      omega
    | ponged hpc =>
      cases hl
      simp only [State.setConn_conns_self, State.pongs_setConn]
      refine Conn.Answered.same h fun hy => ?_
      have hx : (s.conns c).sender ≠ .ended := hy
      refine ⟨hx, ?_⟩
      rw [Conn.answers_of_running hy, Conn.answers_of_running hx, hpc]
      simp [List.count_append]
      omega
    | unponged hpc =>
      cases hl
      -- The queue is closed, as the task that reads it is over.
      have hended : (s.conns c).sender = .ended := by
        cases spoke with
        | asking pc => simp [hpc, Pc.asking] at pc
        | greeted pc => simp [hpc] at pc
        | streaming _ alive =>
          simp only [step, State.pong, hpc, if_true, alive] at hs
          obtain ⟨-, hs⟩ := Option.ite_none_right_eq_some.mp hs
          have hoob := congrArg (fun s : State => (s.conns c).oob) (Option.some.inj hs)
          simp at hoob
        | ended h =>
          rcases h with ⟨pc, -⟩ | ⟨-, hsender⟩
          · simp [hpc] at pc
          · exact hsender
      simp only [State.setConn_conns_self, State.pongs_setConn]
      exact Conn.Answered.stop h hended
    | oob hpc ho =>
      cases hl
      have hx : (s.conns c).sender ≠ .ended := by simp [hpc]
      simp only [State.setConn_conns_self, State.pongs_setConn]
      refine Conn.Answered.same h fun hy => ⟨hx, ?_⟩
      have hpong := (sound.framed c).oob _ (by rw [ho]; exact List.mem_cons_self)
      rw [Conn.answers_of_running hy, Conn.answers_of_running hx, ho, hpc, hpong]
      simp [SenderPc.ponging]
    | @written d frame time hpc =>
      cases hl
      have hx : (s.conns c).sender ≠ .ended := by simp [hpc]
      have hponging : (s.conns c).sender.ponging = if frame = .pong then 1 else 0 := by
        rw [hpc]
        cases frame <;> rfl
      have hrun := h.running hx
      rw [Conn.answers_of_running hx, hponging] at hrun
      simp only [State.setConn_conns_self, State.pongs_setConn, State.pongs_put]
      refine ⟨fun hy => ?_, ?_⟩
      · rw [Conn.answers_of_running hy]
        simp only [SenderPc.ponging, Label.probes, Bool.false_eq_true, if_false]
        omega
      · omega
    | closedWritten hpc =>
      cases hl
      simp only [State.setConn_conns_self, State.pongs_setConn, State.pongs_put]
      exact Conn.Answered.stop h rfl
    | unwritten | closedUnwritten | cancel =>
      cases hl
      simp only [State.setConn_conns_self]
      exact Conn.Answered.stop h rfl
    | senderStart hpc | chunk hpc | finished hpc | parked hpc | oobClosed hpc | unlimited hpc
    | admitted hpc | delayed hpc | wake hpc | addOut hpc =>
      cases hl
      simp only [State.setConn_conns_self]
      exact Conn.Answered.stream h (by simp [hpc]) (by simp [hpc, SenderPc.ponging]) rfl rfl
    | signIgnored => exact h
    | @recvIgnored d frame hpc =>
      cases hl
      have hping := (recv_ignored hpc hs).1
      cases frame with
      | ping => exact absurd rfl hping
      | _ => exact h
    | actorOutput | actorInput | actorEnd | actorNone | ingest | ingestEnd | tick => cases hl
  · have hpongs : s'.pongs c = s.pongs c := by rw [State.pongs, m.frames_of_ne hl, State.pongs]
    rw [m.conns_of_ne hl, hpongs, Label.probes_of_ne hl]
    exact h

theorem Move.keeps_shut (m : Move s l s') (sound : s.Sound) (h : s.shut c) : s'.shut c := by
  obtain ⟨session, ses, hs, hi, hclosed⟩ := h
  obtain ⟨ses', hi', hmove⟩ := m.session sound.wf hi
  refine ⟨session, ses', m.keeps_session sound hs, hi', ?_⟩
  cases hmove with
  | ingestEnd => rfl
  | ingest => simpa using hclosed
  | _ => exact hclosed

theorem Move.parting (m : Move s l s') (sound : s.Sound) (h : Parting c ls s) :
    Parting c (ls ++ [l]) s' := by
  have shut : s.shut c → s'.shut c := m.keeps_shut sound
  have same : (s'.conns c).sender = (s.conns c).sender → Parting c (ls ++ [l]) s' := fun he =>
    ⟨fun hy => shut (h.draining (he ▸ hy)), fun hy => by
      rcases h.ended (he ▸ hy) with hshut | hm | hm
      · exact Or.inl (shut hshut)
      · exact Or.inr (Or.inl (List.mem_append_left _ hm))
      · exact Or.inr (Or.inr (List.mem_append_left _ hm))⟩
  by_cases hl : l.conn = some c
  · cases m with
    | statusSent | senderStart | chunk | oob | unlimited | admitted | delayed | wake | addOut
    | written =>
      cases hl
      exact ⟨by simp, by simp⟩
    | finished hpc hs hi hp =>
      cases hl
      refine ⟨fun _ => shut ⟨_, _, hs, hi, SessionReader.closed_of_finished hp⟩, by simp⟩
    | closedWritten hpc =>
      cases hl
      exact ⟨by simp, fun _ => Or.inl (shut (h.draining hpc))⟩
    | unwritten | closedUnwritten | cancel =>
      cases hl
      exact ⟨by simp, fun _ => Or.inr (by simp)⟩
    | signIgnored | recvIgnored => exact same rfl
    | actorOutput | actorInput | actorEnd | actorNone | ingest | ingestEnd | tick => cases hl
    | _ =>
      cases hl
      exact same (by simp)
  · exact same (by rw [m.conns_of_ne hl])

end Answered

theorem exec_answered {maxScrollback : Nat} {ls : List Label} {s : State}
    (run : exec step (.init maxScrollback) ls = some s) (c : ConnId) :
    (s.conns c).Answered (probes c ls) (s.pongs c) ∧ Parting c ls s := by
  have trace : Reachable (gateway maxScrollback) s ∧
      (s.conns c).Answered (probes c ls) (s.pongs c) ∧ Parting c ls s := by
    refine exec_trace (P := fun ls s => Reachable (gateway maxScrollback) s ∧
      (s.conns c).Answered (probes c ls) (s.pongs c) ∧ Parting c ls s) ?_ ?_ run
    · refine ⟨.init, ⟨fun _ => rfl, le_rfl⟩, ?_, ?_⟩ <;> simp [State.init, Conn.init]
    · rintro ms t l t' ⟨hr, hanswered, hparting⟩ hs
      have sound := gateway_sound hr
      exact ⟨hr.step trivial hs, step_answered hs sound ((gateway_speaks hr).1 c) hanswered,
        (step_move hs).parting sound hparting⟩
  exact trace.2

/-- While its session is open, no write to its client has failed and its sender task has not been
aborted, a connection has answered every `Ping` of the live session once, or is about to. -/
theorem pings_answered {maxScrollback : Nat} {ls : List Label} {s : State}
    (run : exec step (.init maxScrollback) ls = some s) (c : ConnId)
    (hopen : ∀ session ses, (s.conns c).session = some session →
      s.sessions session.id = some ses → ses.inner.closed = false)
    (hwrite : .written c false ∉ ls) (habort : .cancel c ∉ ls) :
    s.pongs c + (s.conns c).answers = probes c ls := by
  obtain ⟨answered, parting⟩ := exec_answered run c
  apply answered.running
  intro hended
  rcases parting.ended hended with ⟨session, ses, hs, hi, hclosed⟩ | hm | hm
  · simp [hopen session ses hs hi] at hclosed
  · exact hwrite hm
  · exact habort hm

/-- One answer sent, and another one about to be queued. -/
theorem pings_answered_twice : ∃ s, exec step (.init defaultScrollbackBytes)
      (opening 0 none .unlimited 5 [1] ++ [.recv 0 (.ok .ping), .pong 0, .pollOob 0,
        .written 0 true, .recv 0 (.ok .ping)]) = some s ∧
    s.pongs 0 = 1 ∧ s.pongs 0 + (s.conns 0).answers = 2 := by
  obtain ⟨s, run, hpongs, hsession, hopen⟩ : ∃ s, exec step (.init defaultScrollbackBytes)
      (opening 0 none .unlimited 5 [1] ++ [.recv 0 (.ok .ping), .pong 0, .pollOob 0,
        .written 0 true, .recv 0 (.ok .ping)]) = some s ∧ s.pongs 0 = 1 ∧
      (s.conns 0).session = some ⟨5, [1]⟩ ∧
      (s.sessions 5).map (fun ses => ses.inner.closed) = some false :=
    exists_exec (by decide +kernel)
  refine ⟨s, run, hpongs, ?_⟩
  rw [pings_answered run 0 ?_ (by simp [opening]) (by simp [opening])]
  · rfl
  · intro session ses hs hi
    obtain rfl := Option.some.inj (hsession.symm.trans hs)
    rw [hi] at hopen
    exact Option.some.inj hopen

/-- The signer passes over a `Ping` that the client sends before its signature, and an answer in the
queue goes with the sender task of a client that has left. -/
theorem pings_unanswered :
    (∃ ls, .written 0 false ∉ ls ∧ (received 0 ls).count .ping = 1 ∧
      ∃ s, exec step (.init defaultScrollbackBytes) ls = some s ∧ (s.conns 0).pc = .live ∧
        (s.sessions 5).map (fun ses => ses.inner.closed) = some false ∧
        s.pongs 0 + (s.conns 0).answers = 0) ∧
    ∃ ls, .written 0 false ∉ ls ∧ (received 0 ls).count .ping = 1 ∧
      ∃ s, exec step (.init defaultScrollbackBytes) ls = some s ∧
        (s.sessions 5).map (fun ses => ses.inner.closed) = some false ∧
        s.pongs 0 + (s.conns 0).answers = 0 := by
  constructor
  · refine ⟨[.accept 0, .recvHello 0 (.ok (.hello protocolVersion "client" none none)),
      .authorized 0 (.ok .unlimited), .lookup 0,
      .recvOpen 0 (.ok (.openTarget ⟨"target", 22, "user"⟩ (.delegatedKey [107]) 80 24)),
      .signAsked 0 [107] [1], .signSent 0 (.ok ()), .signRecv 0 (.ok .ping),
      .signRecv 0 (.ok (.signResponse 1 [2])), .loggedIn 0 5 [1], .sessionOpened 0 (.ok ()),
      .helloSent 0 true, .statusSent 0 true, .senderStart 0], by simp, rfl, ?_⟩
    exact exists_exec (by decide +kernel)
  · refine ⟨opening 0 none .unlimited 5 [1] ++ [.recv 0 (.ok .ping), .pong 0,
      .recv 0 (.error "connection lost"), .abort 0, .cancel 0], by simp [opening], rfl, ?_⟩
    exact exists_exec (by decide +kernel)

end TtyGateway
