import TtyGateway.Negotiation
import TtyGateway.Delivery

namespace TtyGateway

open Transition

/-- Requests for signatures, numbered from 1. -/
def Asked (fs : List ServerFrame) : Prop :=
  ∀ k f, fs[k]? = some f → ∃ publicKey data,
    f = ServerFrame.signRequest (UInt64.ofNat (k + 1)) publicKey data

def Flow (fs : List ServerFrame) : Prop :=
  ∀ f ∈ fs, f = .pong ∨ ∃ bytes, bytes ≠ [] ∧ f = .data bytes

/-- What follows the requests: `Error`, or `Hello` and `Status(Live)` and from there output and
answers to pings, up to a `Closed`. -/
inductive Reply : List ServerFrame → Prop
  | error (message : String) : Reply [.error message]
  | live (version : UInt16) (id : SessionId) (resumed : Bool) (token : ResumeToken)
      {flow : List ServerFrame} : Flow flow →
      Reply (.hello version id resumed token :: .status .live :: flow)
  | closed (version : UInt16) (id : SessionId) (resumed : Bool) (token : ResumeToken)
      {flow : List ServerFrame} : Flow flow →
      Reply (.hello version id resumed token :: .status .live :: (flow ++ [.closed]))

/-- The frames of a connection from its beginning to its end. -/
def Word (fs : List ServerFrame) : Prop :=
  ∃ asked reply, fs = asked ++ reply ∧ Asked asked ∧ Reply reply

theorem Asked.snoc {fs : List ServerFrame} (h : Asked fs) (publicKey data : Bytes) :
    Asked (fs ++ [.signRequest (UInt64.ofNat (fs.length + 1)) publicKey data]) := by
  intro k f hk
  by_cases hlt : k < fs.length
  · exact h k f (by rwa [List.getElem?_append_left hlt] at hk)
  · have hlen := (List.getElem?_eq_some_iff.mp hk).1
    rw [List.length_append, List.length_singleton] at hlen
    obtain rfl : k = fs.length := by omega
    rw [List.getElem?_concat_length] at hk
    exact ⟨publicKey, data, (Option.some.inj hk).symm⟩

theorem Asked.word {fs : List ServerFrame} (h : Asked fs) : ∃ word, Word word ∧ fs <+: word :=
  ⟨fs ++ [.error ""], ⟨fs, [.error ""], rfl, h, .error ""⟩, List.prefix_append _ _⟩

theorem Word.prefix_self {fs : List ServerFrame} (h : Word fs) : ∃ word, Word word ∧ fs <+: word :=
  ⟨fs, h, List.prefix_rfl⟩

theorem Flow.snoc {fs : List ServerFrame} (h : Flow fs) {f : ServerFrame}
    (hf : f = .pong ∨ ∃ bytes, bytes ≠ [] ∧ f = .data bytes) : Flow (fs ++ [f]) := by
  intro g hg
  rcases List.mem_append.mp hg with hg | hg
  · exact h g hg
  · rw [List.mem_singleton.mp hg]
    exact hf

def Sent.frameTo (c : ConnId) (sent : Sent) : Option ServerFrame :=
  if sent.conn = c then some sent.frame else none

/-- The frames completed on the control stream of connection `c`, in order. -/
def State.frames (s : State) (c : ConnId) : List ServerFrame := s.wire.filterMap (Sent.frameTo c)

section Frames

variable {s s' : State} {c d : ConnId} {l : Label}

theorem State.frames_setConn (x : Conn) : (s.setConn c x).frames d = s.frames d := rfl

theorem State.frames_put_self (t : ℚ) (f : ServerFrame) :
    (s.put c t f).frames c = s.frames c ++ [f] := by
  simp [State.frames, List.filterMap_append, Sent.frameTo]

theorem State.frames_put_of_ne (t : ℚ) (f : ServerFrame) (h : c ≠ d) :
    (s.put c t f).frames d = s.frames d := by
  simp [State.frames, List.filterMap_append, Sent.frameTo, h]

theorem Move.frames_of_ne (m : Move s l s') (h : l.conn ≠ some d) :
    s'.frames d = s.frames d := by
  cases m with
  | @signSent c | @rejectSent c | @helloSent c | @statusSent c | @written c | @closedWritten c =>
    have hc : c ≠ d := fun he => h (congrArg some he)
    exact State.frames_put_of_ne _ _ hc
  | _ => rfl

end Frames

theorem State.Sound.yielded_ne_nil {s : State} (sound : s.Sound) (delivers : s.Delivers) {c : ConnId}
    {piece : Nat × Bytes} (h : piece ∈ (s.conns c).yielded) : piece.2 ≠ [] := by
  have hsender : (s.conns c).sender ≠ .idle := by
    intro hidle
    have hnone := ((delivers.tracks c).unread (Or.inl hidle)).2
    simp [hnone] at h
  obtain ⟨session, ses, hs, hi⟩ := sound.session_of_sender hsender
  exact (((delivers.tracks c).pieces session ses hs hi).segment piece h).1

theorem State.Sound.data_ne_nil {s : State} (sound : s.Sound) (delivers : s.Delivers) {c : ConnId}
    {bytes : Bytes} {time : ℚ} (h : (s.conns c).sender = .write (.data bytes) time) :
    bytes ≠ [] := by
  obtain ⟨rest, he, -, hrest⟩ := delivers.accounts c
  have hmem : bytes ∈ (s.conns c).yielded.map Prod.snd := by
    rw [← he, hrest (by simp [h]), h]
    exact List.mem_append_right _ (List.mem_singleton.mpr rfl)
  obtain ⟨piece, hp, rfl⟩ := List.mem_map.mp hmem
  exact sound.yielded_ne_nil delivers hp

/-- The handler has not come to the client's `Open` yet. -/
def Pc.unopened : Pc → Bool
  | .idle | .hello | .authorize | .lookup | .openTarget => true
  | _ => false

/-- The handler is in `negotiate`, and what it last sent, if anything, was a `SignRequest`. -/
def Pc.asking : Pc → Bool
  | .idle | .hello | .authorize | .lookup | .openTarget | .login | .signSend _ _ _ | .signWait _
  | .sessionOpen | .reject _ | .greet => true
  | .status | .failed | .live | .forward _ | .pong | .ending _ | .metering _ | .reporting _
  | .deciding _ | .closing | .closeWait | .leaving | .done => false

/-- After `n` requests, while more may come: the id of the one under way, and the next one. -/
def Conn.Numbered (x : Conn) (n : Nat) : Prop :=
  match x.pc with
  | .signSend id _ _ => id = UInt64.ofNat (n + 1) ∧ x.nextId = UInt64.ofNat (n + 2)
  | .reject _ | .sessionOpen | .greet => True
  | _ => x.nextId = UInt64.ofNat (n + 1)

def Conn.Over (x : Conn) : Prop :=
  x.pc = .failed ∧ x.sender = .idle ∨ x.pc.past = true ∧ x.sender = .ended

/-- How far the frames of a connection have come, by where its two tasks stand. -/
inductive Conn.Spoke (x : Conn) (fs : List ServerFrame) : Prop
  | asking (pc : x.pc.asking = true) (sender : x.sender = .idle) (asked : Asked fs)
      (unopened : x.pc.unopened = true → fs = []) (numbered : x.Numbered fs.length)
  | greeted (pc : x.pc = .status) (sender : x.sender = .idle)
      (asked : ∃ asked version id resumed token, Asked asked ∧
        fs = asked ++ [.hello version id resumed token])
  | streaming (pc : x.pc.past = true) (sender : x.sender.alive = true)
      (asked : ∃ asked version id resumed token flow, Asked asked ∧ Flow flow ∧
        fs = asked ++ .hello version id resumed token :: .status .live :: flow)
  | ended (ended : x.Over) (word : ∃ word, Word word ∧ fs <+: word)

theorem Conn.Spoke.word {x : Conn} {fs : List ServerFrame} (h : x.Spoke fs) :
    ∃ word, Word word ∧ fs <+: word := by
  cases h with
  | asking _ _ asked => exact asked.word
  | greeted _ _ h =>
    obtain ⟨asked, version, id, resumed, token, ha, rfl⟩ := h
    refine ⟨asked ++ [.hello version id resumed token, .status .live],
      ⟨asked, _, rfl, ha, .live version id resumed token (show Flow [] by simp [Flow])⟩, ?_⟩
    rw [List.prefix_append_right_inj]
    exact ⟨[.status .live], rfl⟩
  | streaming _ _ h =>
    obtain ⟨asked, version, id, resumed, token, flow, ha, hflow, rfl⟩ := h
    have hword : Word (asked ++ .hello version id resumed token :: .status .live :: flow) :=
      ⟨asked, _, rfl, ha, .live version id resumed token hflow⟩
    exact hword.prefix_self
  | ended _ h => exact h

section Spoke

variable {x y : Conn} {fs : List ServerFrame}

theorem Pc.not_asking {pc : Pc} (h : pc.asking = true) :
    pc ≠ .status ∧ pc ≠ .failed ∧ pc.past = false := by
  cases pc <;> simp_all [Pc.asking, Pc.past]

theorem Conn.Spoke.of_asking (h : x.Spoke fs) (hpc : x.pc.asking = true) :
    x.sender = .idle ∧ Asked fs ∧ (x.pc.unopened = true → fs = []) ∧ x.Numbered fs.length := by
  obtain ⟨hstatus, hfailed, hpast⟩ := Pc.not_asking hpc
  cases h with
  | asking _ sender asked unopened numbered => exact ⟨sender, asked, unopened, numbered⟩
  | greeted pc => exact absurd pc hstatus
  | streaming pc => simp [hpast] at pc
  | ended h =>
    rcases h with ⟨pc, -⟩ | ⟨pc, -⟩
    · exact absurd pc hfailed
    · simp [hpast] at pc

theorem Conn.Spoke.ask (h : x.Spoke fs) (hx : x.pc.asking = true) (hy : y.pc.asking = true)
    (sender : y.sender = x.sender) (unopened : y.pc.unopened = true → x.pc.unopened = true)
    (numbered : x.Numbered fs.length → y.Numbered fs.length) : y.Spoke fs := by
  obtain ⟨hs, hasked, hun, hnum⟩ := h.of_asking hx
  exact .asking hy (sender.trans hs) hasked (fun hu => hun (unopened hu)) (numbered hnum)

/-- The negotiation is given up, its last frame unsent. -/
theorem Conn.Spoke.give_up (h : x.Spoke fs) (hx : x.pc.asking = true ∨ x.pc = .status)
    (hy : y.pc = .failed) (sender : y.sender = x.sender) : y.Spoke fs := by
  refine .ended (Or.inl ⟨hy, sender.trans ?_⟩) h.word
  rcases hx with hx | hx
  · exact (h.of_asking hx).1
  · cases h with
    | asking pc => simp [hx, Pc.asking] at pc
    | greeted _ hs => exact hs
    | streaming pc => simp [hx, Pc.past] at pc
    | ended h =>
      rcases h with ⟨pc, -⟩ | ⟨pc, -⟩
      · simp [hx] at pc
      · simp [hx, Pc.past] at pc

theorem Conn.Spoke.handle (h : x.Spoke fs) (hx : x.pc.past = true) (hy : y.pc.past = true)
    (sender : y.sender = x.sender) : y.Spoke fs := by
  cases h with
  | asking pc => simp [(Pc.not_asking pc).2.2] at hx
  | greeted pc => simp [pc, Pc.past] at hx
  | streaming _ alive asked => exact .streaming hy (by rwa [sender]) asked
  | ended h word =>
    rcases h with ⟨pc, -⟩ | ⟨-, hs⟩
    · simp [pc, Pc.past] at hx
    · exact .ended (Or.inr ⟨hy, sender.trans hs⟩) word

theorem Conn.Spoke.of_alive (h : x.Spoke fs) (alive : x.sender.alive = true) :
    x.pc.past = true ∧ ∃ asked version id resumed token flow, Asked asked ∧ Flow flow ∧
      fs = asked ++ .hello version id resumed token :: .status .live :: flow := by
  cases h with
  | asking _ sender => simp [sender, SenderPc.alive] at alive
  | greeted _ sender => simp [sender, SenderPc.alive] at alive
  | streaming pc _ asked => exact ⟨pc, asked⟩
  | ended h =>
    rcases h with ⟨-, sender⟩ | ⟨-, sender⟩ <;> simp [sender, SenderPc.alive] at alive

theorem Conn.Spoke.stream (h : x.Spoke fs) (hx : x.sender.alive = true)
    (hy : y.sender.alive = true) (pc : y.pc = x.pc) : y.Spoke fs := by
  obtain ⟨hpast, hasked⟩ := h.of_alive hx
  exact .streaming (by rwa [pc]) hy hasked

theorem Conn.Spoke.stop (h : x.Spoke fs) (hx : x.sender.alive = true) (hy : y.sender = .ended)
    (pc : y.pc = x.pc) : y.Spoke fs :=
  .ended (Or.inr ⟨by rw [pc]; exact (h.of_alive hx).1, hy⟩) h.word

theorem SenderPc.alive_of_atAwait {sender : SenderPc} (h : sender.atAwait = true) :
    sender.alive = true := by
  cases sender <;> simp_all [SenderPc.atAwait, SenderPc.alive]

end Spoke

theorem Move.spoke {s s' : State} {l : Label} (m : Move s l s') (sound : s.Sound)
    (delivers : s.Delivers) (h : ∀ c, (s.conns c).Spoke (s.frames c)) (c : ConnId) :
    (s'.conns c).Spoke (s'.frames c) := by
  by_cases hl : l.conn = some c
  · have hc := h c
    cases m with
    | @accept d hpc | @hello d _ _ _ hpc | @helloRefused d _ _ hpc | @authorized d _ hpc
    | @denied d _ hpc | @resumed d _ _ hpc | @unresumed d hpc | @openTarget d _ _ _ _ hpc
    | @openRefused d _ _ hpc | @loginFailed d _ hpc | @signUnsent d _ _ _ _ hpc
    | @signed d _ _ hpc | @signRefused d _ _ _ hpc | @loggedIn d _ _ hpc | @slotTaken d _ hpc
    | @slotDenied d _ _ hpc =>
      cases hl
      simp only [State.setConn_conns_self]
      refine Conn.Spoke.ask hc (by simp [hpc, Pc.asking]) (by simp [Pc.asking]) rfl ?_ ?_
      · simp [Pc.unopened, hpc]
      · simp [Conn.Numbered, hpc]
    | @signAsked d publicKey data hpc =>
      cases hl
      simp only [State.setConn_conns_self]
      refine Conn.Spoke.ask hc (by simp [hpc, Pc.asking]) (by simp [Pc.asking]) rfl ?_ ?_
      · simp [Pc.unopened]
      · intro hnum
        simp only [Conn.Numbered, hpc] at hnum
        exact ⟨hnum, by rw [hnum]; exact (UInt64.ofNat_add _ 1).symm⟩
    | @signSent d id publicKey data hpc =>
      cases hl
      obtain ⟨hs, hasked, -, hnum⟩ := hc.of_asking (by simp [hpc, Pc.asking])
      simp only [Conn.Numbered, hpc] at hnum
      obtain ⟨rfl, hnext⟩ := hnum
      simp only [State.setConn_conns_self, State.frames_setConn, State.frames_put_self]
      refine .asking (by simp [Pc.asking]) hs (hasked.snoc _ _) (by simp [Pc.unopened]) ?_
      rw [List.length_append]
      exact hnext
    | @rejectSent d message hpc =>
      cases hl
      obtain ⟨hs, hasked, -⟩ := hc.of_asking (by simp [hpc, Pc.asking])
      simp only [State.setConn_conns_self, State.frames_setConn, State.frames_put_self]
      have hword : Word (s.frames c ++ [.error message]) := ⟨_, _, rfl, hasked, .error message⟩
      exact .ended (Or.inl ⟨rfl, hs⟩) hword.prefix_self
    | @helloSent d session hpc =>
      cases hl
      obtain ⟨hs, hasked, -⟩ := hc.of_asking (by simp [hpc, Pc.asking])
      simp only [State.setConn_conns_self, State.frames_setConn, State.frames_put_self]
      exact .greeted rfl hs ⟨_, _, _, _, _, hasked, rfl⟩
    | @statusSent d hpc =>
      cases hl
      simp only [State.setConn_conns_self, State.frames_setConn, State.frames_put_self]
      cases hc with
      | asking pc => simp [hpc, Pc.asking] at pc
      | greeted _ _ hasked =>
        obtain ⟨asked, version, id, resumed, token, hasked, he⟩ := hasked
        refine .streaming rfl rfl ⟨asked, version, id, resumed, token, [], hasked, ?_, ?_⟩
        · simp [Flow]
        · simp [he]
      | streaming pc => simp [hpc, Pc.past] at pc
      | ended h => simp [Conn.Over, hpc, Pc.past] at h
    | @helloLost d _ hpc | @openLost d _ hpc | @rejectUnsent d _ hpc | @helloUnsent d _ hpc =>
      cases hl
      simp only [State.setConn_conns_self]
      exact Conn.Spoke.give_up hc (Or.inl (by simp [hpc, Pc.asking])) rfl rfl
    | @statusUnsent d hpc =>
      cases hl
      simp only [State.setConn_conns_self]
      exact Conn.Spoke.give_up hc (Or.inr hpc) rfl rfl
    | @recvData d _ hpc | @recvResize d _ _ hpc | @recvPing d hpc | @recvClose d hpc
    | @recvLost d _ hpc | @forwarded d _ _ _ hpc | @unforwarded d _ _ _ hpc | @ponged d hpc
    | @unponged d hpc | @abort d _ hpc | @report d _ _ hpc | @reported d _ hpc
    | @ended d _ _ _ hpc | @kept d _ _ _ hpc | @closeCall d _ hpc | @closeReturned d _ hpc
    | @leave d hpc =>
      cases hl
      simp only [State.setConn_conns_self]
      exact Conn.Spoke.handle hc (by simp [hpc, Pc.past]) (by simp [Pc.past]) rfl
    | @senderStart d hpc | @chunk d _ _ _ _ hpc | @finished d _ _ _ hpc | @parked d _ _ _ hpc
    | @oob d _ _ hpc | @oobClosed d hpc | @unlimited d _ hpc | @admitted d _ _ _ _ hpc
    | @delayed d _ _ _ _ hpc | @wake d _ _ hpc | @addOut d _ _ hpc =>
      cases hl
      simp only [State.setConn_conns_self]
      exact Conn.Spoke.stream hc (by simp [hpc, SenderPc.alive]) (by simp [hpc, SenderPc.alive]) rfl
    | @written d frame time hpc =>
      cases hl
      obtain ⟨hpast, asked, version, id, resumed, token, flow, hasked, hflow, he⟩ :=
        hc.of_alive (by simp [hpc, SenderPc.alive])
      have hframe : frame = .pong ∨ ∃ bytes, bytes ≠ [] ∧ frame = .data bytes := by
        rcases (sound.framed c).writing frame time hpc with hp | ⟨bytes, rfl⟩
        · exact Or.inl hp
        · exact Or.inr ⟨bytes, sound.data_ne_nil delivers hpc, rfl⟩
      simp only [State.setConn_conns_self, State.frames_setConn, State.frames_put_self]
      refine .streaming hpast rfl ⟨asked, version, id, resumed, token, flow ++ [frame], hasked,
        hflow.snoc hframe, ?_⟩
      simp [he]
    | @closedWritten d hpc =>
      cases hl
      obtain ⟨hpast, asked, version, id, resumed, token, flow, hasked, hflow, he⟩ :=
        hc.of_alive (by simp [hpc, SenderPc.alive])
      simp only [State.setConn_conns_self, State.frames_setConn, State.frames_put_self]
      have hword : Word (s.frames c ++ [.closed]) :=
        ⟨asked, _, by simp [he], hasked, .closed version id resumed token hflow⟩
      exact .ended (Or.inr ⟨hpast, rfl⟩) hword.prefix_self
    | @unwritten d _ _ hpc | @closedUnwritten d hpc =>
      cases hl
      simp only [State.setConn_conns_self]
      exact Conn.Spoke.stop hc (by simp [hpc, SenderPc.alive]) rfl rfl
    | @cancel d _ hpc =>
      cases hl
      simp only [State.setConn_conns_self]
      exact Conn.Spoke.stop hc (SenderPc.alive_of_atAwait hpc) rfl rfl
    | signIgnored | recvIgnored => exact hc
    | _ => cases hl
  · rw [m.conns_of_ne hl, m.frames_of_ne hl]
    exact h c

def Pc.signing : Pc → Bool
  | .signSend _ _ _ | .signWait _ => true
  | _ => false

/-- Signatures are asked for only on a new session that is to be opened with a delegated key. -/
structure Conn.Delegates (x : Conn) (fs : List ServerFrame) : Prop where
  early : x.pc.stage = .early → x.resumed = false
  signing : x.pc.signing = true → x.auth.any AuthIntent.delegated = true
  asked : ∀ id publicKey data, .signRequest id publicKey data ∈ fs →
    x.resumed = false ∧ x.auth.any AuthIntent.delegated = true ∧ x.pc.unopened = false

section Delegates

variable {x y : Conn} {fs fs' : List ServerFrame}

theorem Conn.Delegates.same (h : x.Delegates fs) (resumed : y.resumed = x.resumed)
    (auth : y.auth = x.auth) (early : y.pc.stage = .early → x.pc.stage = .early)
    (signing : y.pc.signing = true → x.pc.signing = true)
    (opened : x.pc.unopened = false → y.pc.unopened = false)
    (asked : ∀ id publicKey data, .signRequest id publicKey data ∈ fs' →
      .signRequest id publicKey data ∈ fs) : y.Delegates fs' := by
  refine ⟨?_, ?_, ?_⟩
  · intro hs
    rw [resumed]
    exact h.early (early hs)
  · intro hs
    rw [auth]
    exact h.signing (signing hs)
  · intro id publicKey data hm
    obtain ⟨hr, ha, hu⟩ := h.asked id publicKey data (asked id publicKey data hm)
    exact ⟨resumed.trans hr, by rw [auth]; exact ha, opened hu⟩

theorem Conn.Delegates.unasked (h : x.Delegates fs) (hpc : x.pc.unopened = true) (id : UInt64)
    (publicKey data : Bytes) : .signRequest id publicKey data ∉ fs := by
  intro hm
  have := (h.asked id publicKey data hm).2.2
  simp [hpc] at this

end Delegates

theorem signAsked_delegated {s s' : State} {c : ConnId} {publicKey data : Bytes}
    (h : step s (.signAsked c publicKey data) = some s') :
    (s.conns c).auth.any AuthIntent.delegated = true := by
  obtain ⟨⟨-, hauth⟩, -⟩ := Option.ite_none_right_eq_some.mp h
  exact hauth

theorem Move.delegates {s s' : State} {l : Label} (m : Move s l s') (hs : step s l = some s')
    (framed : ∀ c, (s.conns c).Framed) (h : ∀ c, (s.conns c).Delegates (s.frames c)) (c : ConnId) :
    (s'.conns c).Delegates (s'.frames c) := by
  by_cases hl : l.conn = some c
  · have hc := h c
    cases m with
    | @resumed d _ _ hpc =>
      cases hl
      simp only [State.setConn_conns_self]
      refine ⟨by simp [Pc.stage], by simp [Pc.signing], fun id publicKey data hm => ?_⟩
      exact absurd hm (hc.unasked (by simp [hpc, Pc.unopened]) id publicKey data)
    | @openTarget d target auth cols rows hpc =>
      cases hl
      simp only [State.setConn_conns_self]
      refine ⟨fun _ => hc.early (by simp [hpc, Pc.stage]), by simp [Pc.signing],
        fun id publicKey data hm => ?_⟩
      exact absurd hm (hc.unasked (by simp [hpc, Pc.unopened]) id publicKey data)
    | @signAsked d publicKey data hpc =>
      cases hl
      have hauth := signAsked_delegated hs
      simp only [State.setConn_conns_self]
      refine ⟨fun _ => hc.early (by simp [hpc, Pc.stage]), fun _ => hauth, fun id pk data hm => ?_⟩
      obtain ⟨hr, ha, -⟩ := hc.asked id pk data hm
      exact ⟨hr, ha, rfl⟩
    | @signSent d id publicKey data hpc =>
      cases hl
      have hauth := hc.signing (by simp [hpc, Pc.signing])
      have hres := hc.early (by simp [hpc, Pc.stage])
      simp only [State.setConn_conns_self]
      exact ⟨fun _ => hres, fun _ => hauth, fun _ _ _ _ => ⟨hres, hauth, rfl⟩⟩
    | @loggedIn d id token hpc =>
      cases hl
      simp only [State.setConn_conns_self]
      refine ⟨fun _ => rfl, by simp [Pc.signing], fun id pk data hm => ?_⟩
      obtain ⟨-, ha, -⟩ := hc.asked id pk data hm
      exact ⟨rfl, ha, rfl⟩
    | @accept d hpc | @hello d _ _ _ hpc | @helloLost d _ hpc | @helloRefused d _ _ hpc
    | @authorized d _ hpc | @denied d _ hpc | @unresumed d hpc | @openLost d _ hpc
    | @openRefused d _ _ hpc | @loginFailed d _ hpc | @signUnsent d _ _ _ _ hpc
    | @signed d _ _ hpc | @signRefused d _ _ _ hpc | @slotTaken d _ hpc | @slotDenied d _ _ hpc
    | @rejectUnsent d _ hpc | @helloUnsent d _ hpc | @statusUnsent d hpc | @recvData d _ hpc
    | @recvResize d _ _ hpc | @recvPing d hpc | @recvClose d hpc | @recvLost d _ hpc
    | @forwarded d _ _ _ hpc | @unforwarded d _ _ _ hpc | @ponged d hpc | @unponged d hpc
    | @abort d _ hpc | @report d _ _ hpc | @reported d _ hpc | @ended d _ _ _ hpc
    | @kept d _ _ _ hpc | @closeCall d _ hpc | @closeReturned d _ hpc | @leave d hpc =>
      cases hl
      simp only [State.setConn_conns_self]
      exact Conn.Delegates.same hc rfl rfl (by simp [hpc, Pc.stage]) (by simp [hpc, Pc.signing])
        (by simp [hpc, Pc.unopened]) (fun _ _ _ hm => hm)
    | @rejectSent d _ hpc | @helloSent d _ hpc | @statusSent d hpc =>
      cases hl
      simp only [State.setConn_conns_self, State.frames_setConn, State.frames_put_self]
      exact Conn.Delegates.same hc rfl rfl (by simp [Pc.stage]) (by simp [Pc.signing])
        (by simp [Pc.unopened]) (by simp)
    | @closedWritten d hpc =>
      cases hl
      simp only [State.setConn_conns_self, State.frames_setConn, State.frames_put_self]
      exact Conn.Delegates.same hc rfl rfl (fun he => he) (fun he => he) (fun he => he) (by simp)
    | @written d frame time hpc =>
      cases hl
      have hframe : ∀ id pk data, frame ≠ .signRequest id pk data := by
        rcases (framed c).writing frame time hpc with rfl | ⟨bytes, rfl⟩ <;> simp
      simp only [State.setConn_conns_self, State.frames_setConn, State.frames_put_self]
      refine Conn.Delegates.same hc rfl rfl (fun he => he) (fun he => he) (fun he => he) ?_
      intro id pk data hm
      rcases List.mem_append.mp hm with hm | hm
      · exact hm
      · exact absurd (List.mem_singleton.mp hm).symm (hframe id pk data)
    | @senderStart d hpc | @chunk d _ _ _ _ hpc | @finished d _ _ _ hpc | @parked d _ _ _ hpc
    | @oob d _ _ hpc | @oobClosed d hpc | @unlimited d _ hpc | @admitted d _ _ _ _ hpc
    | @delayed d _ _ _ _ hpc | @wake d _ _ hpc | @addOut d _ _ hpc | @unwritten d _ _ hpc
    | @closedUnwritten d hpc | @cancel d _ hpc =>
      cases hl
      simp only [State.setConn_conns_self]
      exact Conn.Delegates.same hc rfl rfl (fun he => he) (fun he => he) (fun he => he)
        (fun _ _ _ hm => hm)
    | signIgnored | recvIgnored => exact hc
    | _ => cases hl
  · rw [m.conns_of_ne hl, m.frames_of_ne hl]
    exact h c

/-- In every state, by whoever's steps, the frames of a connection are as its two tasks stand. -/
theorem gateway_speaks {maxScrollback : Nat} {C : State → Label → Prop} {s : State}
    (h : Reach (gateway maxScrollback) C s) :
    (∀ c, (s.conns c).Spoke (s.frames c)) ∧ ∀ c, (s.conns c).Delegates (s.frames c) := by
  refine h.invariant (P := fun s => (∀ c, (s.conns c).Spoke (s.frames c)) ∧
    ∀ c, (s.conns c).Delegates (s.frames c)) ⟨fun c => ?_, fun c => ?_⟩ ?_
  · exact .asking rfl rfl (by simp [Asked, gateway, machine, State.init, State.frames])
      (fun _ => rfl) rfl
  · refine ⟨fun _ => rfl, ?_, ?_⟩
    · simp [gateway, machine, State.init, Conn.init, Pc.signing]
    · simp [gateway, machine, State.init, State.frames]
  · rintro s l s' hr ⟨hspoke, hdel⟩ _ hs
    have m := step_move hs
    have sound := gateway_sound hr
    exact ⟨m.spoke sound (gateway_delivers hr).1 hspoke, m.delegates hs sound.framed hdel⟩

/-- The frames a connection has completed are the beginning of a word, and it has been asked for
signatures only if its `Open` was for a new session and a delegated key. -/
theorem frames_grammar {maxScrollback : Nat} {s : State}
    (h : Reachable (gateway maxScrollback) s) (c : ConnId) :
    (∃ word, Word word ∧ s.frames c <+: word) ∧
    ∀ id publicKey data, .signRequest id publicKey data ∈ s.frames c →
      (s.conns c).resumed = false ∧ (s.conns c).auth.any AuthIntent.delegated = true := by
  obtain ⟨hspoke, hdel⟩ := gateway_speaks h
  refine ⟨(hspoke c).word, fun id publicKey data hm => ?_⟩
  obtain ⟨hr, ha, -⟩ := (hdel c).asked id publicKey data hm
  exact ⟨hr, ha⟩

end TtyGateway
