import TtyGateway.Refinement

namespace TtyGateway

open Transition Window

def ServerFrame.output : ServerFrame → Option Bytes
  | .data bytes => some bytes
  | _ => none

def Sent.outputTo (c : ConnId) (sent : Sent) : Option Bytes :=
  if sent.conn = c then sent.frame.output else none

/-- The payloads of the `Data` frames completed on connection `c`. -/
def State.completed (s : State) (c : ConnId) : List Bytes := s.wire.filterMap (Sent.outputTo c)

/-- The chunk a sender task has taken from its reader and not written yet. -/
def SenderPc.inFlight : SenderPc → List Bytes
  | .throttle bytes | .sleep bytes _ | .count bytes _ | .write (.data bytes) _ => [bytes]
  | _ => []

section Completed

variable {s s' : State} {c d : ConnId} {l : Label}

theorem State.completed_put (t : ℚ) (f : ServerFrame) :
    (s.put c t f).completed d = s.completed d ++ if c = d then f.output.toList else [] := by
  simp only [State.completed, State.put_wire, List.filterMap_append]
  congr 1
  by_cases hc : c = d <;> cases f <;> simp [Sent.outputTo, ServerFrame.output, hc]

theorem State.completed_setConn (x : Conn) : (s.setConn c x).completed d = s.completed d := rfl

theorem State.completed_put_quiet (t : ℚ) {f : ServerFrame} (h : f.output = none) :
    (s.put c t f).completed d = s.completed d := by
  rw [State.completed_put, h]
  simp

theorem Move.completed_of_ne (m : Move s l s') (h : l.conn ≠ some d) :
    s'.completed d = s.completed d := by
  cases m with
  | @signSent c | @rejectSent c | @helloSent c | @statusSent c | @written c | @closedWritten c =>
    have hc : c ≠ d := fun he => h (congrArg some he)
    exact (State.completed_put _ _).trans (by simp [hc])
  | _ => rfl

end Completed

/-- Completed frames and the chunk in flight are what the reader has yielded so far. -/
def Conn.Accounts (x : Conn) (completed : List Bytes) : Prop :=
  ∃ rest, completed ++ rest = x.yielded.map Prod.snd ∧ rest.length ≤ 1 ∧
    (x.sender ≠ .ended → rest = x.sender.inFlight)

theorem Conn.Accounts.same {x y : Conn} {ds : List Bytes} (h : x.Accounts ds)
    (yielded : y.yielded = x.yielded) (sender : y.sender = x.sender) : y.Accounts ds := by
  obtain ⟨rest, he, hlen, hrest⟩ := h
  exact ⟨rest, by rw [yielded]; exact he, hlen, by rw [sender]; exact hrest⟩

theorem Conn.Accounts.carry {x y : Conn} {ds : List Bytes} (h : x.Accounts ds)
    (yielded : y.yielded = x.yielded) (running : x.sender ≠ .ended)
    (hand : y.sender.inFlight = x.sender.inFlight) : y.Accounts ds := by
  obtain ⟨rest, he, hlen, hrest⟩ := h
  exact ⟨rest, by rw [yielded]; exact he, hlen, fun _ => (hrest running).trans hand.symm⟩

theorem Conn.Accounts.lose {x y : Conn} {ds : List Bytes} (h : x.Accounts ds)
    (yielded : y.yielded = x.yielded) (ended : y.sender = .ended) : y.Accounts ds := by
  obtain ⟨rest, he, hlen, -⟩ := h
  exact ⟨rest, by rw [yielded]; exact he, hlen, fun hn => absurd ended hn⟩

theorem State.Sound.sender_idle {s : State} (sound : s.Sound) {c : ConnId}
    (hpc : (s.conns c).pc.stage = .early ∨ (s.conns c).pc.stage = .holding ∨
      (s.conns c).pc.stage = .greeting) :
    (s.conns c).sender = .idle := by
  by_contra hne
  have hfed : (s.conns c).pc.stage = .live ∨ (s.conns c).pc.stage = .closing ∨ _ :=
    (sound.owned.ok c).fed (SenderPc.feed_ne_off.mpr hne)
  rcases hpc with hpc | hpc | hpc <;> simp [hpc, State.life_client, Conn.client] at hfed

theorem Move.accounts {s s' : State} {l : Label} (m : Move s l s') (sound : s.Sound)
    (h : ∀ c, (s.conns c).Accounts (s.completed c)) (c : ConnId) :
    (s'.conns c).Accounts (s'.completed c) := by
  by_cases hl : l.conn = some c
  · have hc := h c
    cases m with
    | @signSent d _ _ _ hpc | @rejectSent d _ hpc | @helloSent d _ hpc =>
      cases hl
      simp only [State.setConn_conns_self]
      refine Conn.Accounts.same ?_ (x := s.conns c) rfl rfl
      rw [State.completed_setConn, State.completed_put_quiet _ rfl]
      exact hc
    | @statusSent d hpc =>
      cases hl
      have hstage : (s.conns c).pc.stage = .greeting := by simp [hpc, Pc.stage]
      have hs := sound.sender_idle (Or.inr (Or.inr hstage))
      simp only [State.setConn_conns_self]
      refine Conn.Accounts.carry ?_ (x := s.conns c) rfl (by simp [hs])
        (by simp [hs, SenderPc.inFlight])
      rw [State.completed_setConn, State.completed_put_quiet _ rfl]
      exact hc
    | @chunk d session ses bytes reader hpc =>
      cases hl
      obtain ⟨rest, he, hlen, hrest⟩ := hc
      have hnil : rest = [] := by simpa [hpc, SenderPc.inFlight] using hrest (by simp [hpc])
      subst hnil
      refine ⟨[bytes], ?_, by simp, fun _ => by simp [SenderPc.inFlight]⟩
      simpa [State.completed] using he
    | @oob d frame rest hpc ho =>
      cases hl
      have hf := (sound.framed c).oob frame (by simp [ho])
      simp only [State.setConn_conns_self]
      exact hc.carry rfl (by simp [hpc]) (by simp [hpc, hf, SenderPc.inFlight])
    | @written d frame time hpc =>
      cases hl
      obtain ⟨rest, he, hlen, hrest⟩ := hc
      have hr := hrest (by simp [hpc])
      refine ⟨[], ?_, by simp, fun _ => by simp [SenderPc.inFlight]⟩
      rcases (sound.framed c).writing frame time hpc with rfl | ⟨bytes, rfl⟩
      · simp only [hpc, SenderPc.inFlight] at hr
        subst hr
        simpa [State.completed, List.filterMap_append, Sent.outputTo, ServerFrame.output] using he
      · simp only [hpc, SenderPc.inFlight] at hr
        subst hr
        simpa [State.completed, List.filterMap_append, Sent.outputTo, ServerFrame.output] using he
    | @closedWritten d hpc =>
      cases hl
      simp only [State.setConn_conns_self]
      refine Conn.Accounts.lose ?_ (x := s.conns c) rfl rfl
      rw [State.completed_setConn, State.completed_put_quiet _ rfl]
      exact hc
    | @unwritten d | @closedUnwritten d | @cancel d =>
      cases hl
      simp only [State.setConn_conns_self]
      exact hc.lose rfl rfl
    | @senderStart d hpc | @finished d _ _ _ hpc | @parked d _ _ _ hpc | @oobClosed d hpc
    | @unlimited d _ hpc | @admitted d _ _ _ _ hpc | @delayed d _ _ _ _ hpc | @wake d _ _ hpc
    | @addOut d _ _ hpc =>
      cases hl
      simp only [State.setConn_conns_self]
      exact hc.carry rfl (by simp [hpc]) (by simp [hpc, SenderPc.inFlight])
    | signIgnored | recvIgnored => exact hc
    | actorOutput | actorInput | actorEnd | actorNone | ingest | ingestEnd | tick => cases hl
    | _ =>
      cases hl
      simp only [State.setConn_conns_self]
      exact hc.same rfl rfl
  · rw [m.conns_of_ne hl, m.completed_of_ne hl]
    exact h c

def State.Buffered (s : State) : Prop := ∀ i ses, s.sessions i = some ses →
  ses.inner.Holds ses.produced ∧ ses.inner.maxBytes = s.maxScrollback

theorem Move.maxScrollback {s s' : State} {l : Label} (m : Move s l s') :
    s'.maxScrollback = s.maxScrollback := by
  cases m <;> rfl

theorem State.Buffered.setSession {s : State} (h : s.Buffered) {i : SessionId} {ses : Session}
    (hses : ses.inner.Holds ses.produced ∧ ses.inner.maxBytes = s.maxScrollback) :
    (s.setSession i ses).Buffered := by
  intro j found hj
  rw [State.setSession_sessions] at hj
  split at hj
  · cases hj
    exact hses
  · exact h j found hj

theorem Move.buffered {s s' : State} {l : Label} (m : Move s l s') (h : s.Buffered) :
    s'.Buffered := by
  cases m with
  | @loggedIn c id token => exact h.setSession ⟨SessionInner.holds_new _, rfl⟩
  | forwarded hpc hs hi | actorOutput hi | actorInput hi | actorEnd hi | actorNone hi =>
    have hold := h _ _ hi
    exact h.setSession hold
  | @ingest i ses bytes rest hi =>
    obtain ⟨hholds, hmax⟩ := h _ _ hi
    exact h.setSession ⟨hholds.append bytes, by simpa using hmax⟩
  | ingestEnd hi => exact h.setSession ⟨(h _ _ hi).1.close, (h _ _ hi).2⟩
  | _ => exact h

/-- A session's output only grows, and its window only moves forward. -/
theorem Move.grows {s s' : State} {l : Label} (m : Move s l s') (hw : s.Wf) {i : SessionId}
    {ses : Session} (hi : s.sessions i = some ses) : ∃ ses' more, s'.sessions i = some ses' ∧
      ses'.produced = ses.produced ++ more ∧ ses.inner.startOffset ≤ ses'.inner.startOffset := by
  obtain ⟨ses', hs', hmove⟩ := m.session hw hi
  cases hmove with
  | @ingest bytes => exact ⟨_, bytes, hs', rfl, SessionInner.startOffset_le_append bytes⟩
  | _ => exact ⟨_, [], hs', by simp, le_rfl⟩

/-- A connection's reader has handed out pieces of its session's output. -/
structure State.Tracks (s : State) (x : Conn) : Prop where
  pieces : ∀ session ses, x.session = some session → s.sessions session.id = some ses →
    Pieces ses.produced ses.inner.startOffset x.reader.cursor x.yielded
  unread : x.sender = .idle ∨ x.sender = .spawned → x.reader = ⟨0⟩ ∧ x.yielded = []

theorem State.Tracks.same {s : State} {x y : Conn} (h : s.Tracks x) (session : y.session = x.session)
    (reader : y.reader = x.reader) (yielded : y.yielded = x.yielded)
    (sender : y.sender = .idle ∨ y.sender = .spawned → x.sender = .idle ∨ x.sender = .spawned) :
    s.Tracks y := by
  refine ⟨?_, ?_⟩
  · intro found ses hs hi
    rw [reader, yielded]
    exact h.pieces found ses (session ▸ hs) hi
  · intro hy
    rw [reader, yielded]
    exact h.unread (sender hy)

/-- The piece that a poll hands out, `cursor` being where it leaves the reader. -/
def Poll.handed (cursor : Nat) : Poll → List (Nat × Bytes)
  | .chunk bytes => [(cursor - bytes.length, bytes)]
  | _ => []

theorem SessionReader.poll_pieces {ses : Session} {reader : SessionReader} {ds : List (Nat × Bytes)}
    (h : Pieces ses.produced ses.inner.startOffset reader.cursor ds)
    (hb : ses.inner.Holds ses.produced) {p : Poll} {reader' : SessionReader}
    (hp : reader.poll .exact ses.inner = some (p, reader')) :
    Pieces ses.produced ses.inner.startOffset reader'.cursor
      (ds ++ p.handed reader'.cursor) := by
  have hstart := hb.start_eq
  have hbound := h.bound
  have hskip := h.skip (le_max_left reader.cursor ses.inner.startOffset) (by omega) (by omega)
  rw [SessionReader.poll_eq hb hbound] at hp
  split at hp
  next hlt =>
    cases Option.some.inj hp
    simpa only [Poll.handed, List.length_drop, Nat.sub_sub_self hlt.le] using hskip.snoc hlt
  next hge =>
    have he : max reader.cursor ses.inner.startOffset = ses.produced.length := by omega
    rw [he] at hskip
    split at hp
    · cases Option.some.inj hp
      simpa [Poll.handed] using hskip
    · cases Option.some.inj hp
      simpa [Poll.handed] using hskip

theorem State.tracks_update {s : State} (h : ∀ d, s.Tracks (s.conns d)) {c : ConnId} {x : Conn}
    (hx : s.Tracks x) (d : ConnId) : s.Tracks (Function.update s.conns c x d) := by
  rw [Function.update_apply]
  split
  · exact hx
  · exact h d

theorem State.Tracks.poll {s : State} (hb : s.Buffered) {x : Conn} (h : s.Tracks x)
    {session : SessionRef} {ses : Session} {p : Poll} {reader : SessionReader}
    (hs : x.session = some session) (hi : s.sessions session.id = some ses)
    (hp : x.reader.poll .exact ses.inner = some (p, reader)) {y : Conn}
    (hsession : y.session = x.session) (hreader : y.reader = reader)
    (hyielded : y.yielded = x.yielded ++ p.handed reader.cursor)
    (hsender : y.sender ≠ .idle ∧ y.sender ≠ .spawned) : s.Tracks y := by
  refine ⟨fun found old hf ho => ?_, fun hy => (hy.elim hsender.1 hsender.2).elim⟩
  obtain rfl := Option.some.inj (hs.symm.trans (hsession ▸ hf))
  obtain rfl := Option.some.inj (hi.symm.trans ho)
  rw [hreader, hyielded]
  exact SessionReader.poll_pieces (h.pieces _ _ hs hi) (hb _ _ hi).1 hp

theorem Move.tracks_conns {s s' : State} {l : Label} (m : Move s l s') (sound : s.Sound)
    (hb : s.Buffered) (h : ∀ d, s.Tracks (s.conns d)) (d : ConnId) : s.Tracks (s'.conns d) := by
  have fresh : ∀ {c}, (s.conns c).pc.stage = .early →
      (s.conns c).reader = ⟨0⟩ ∧ (s.conns c).yielded = [] := fun hpc =>
    (h _).unread (Or.inl (sound.sender_idle (Or.inl hpc)))
  cases m with
  | @resumed c _ _ hpc | @loggedIn c _ _ hpc =>
    obtain ⟨hr, hy⟩ := fresh (c := c) (by simp [hpc, Pc.stage])
    refine State.tracks_update h ?_ d
    refine ⟨fun _ ses _ _ => ?_, fun _ => ⟨hr, hy⟩⟩
    simp only [hr, hy]
    exact Pieces.nil ses.produced ses.inner.startOffset
  | @statusSent c hpc =>
    have hstage : (s.conns c).pc.stage = .greeting := by simp [hpc, Pc.stage]
    have hs := sound.sender_idle (Or.inr (Or.inr hstage))
    refine State.tracks_update h ?_ d
    exact (h c).same rfl rfl rfl fun _ => Or.inl hs
  | @chunk c session ses bytes reader hpc hs hi hp =>
    refine State.tracks_update h ?_ d
    exact (h c).poll hb hs hi hp rfl rfl rfl (by simp)
  | @finished c session ses reader hpc hs hi hp =>
    refine State.tracks_update h ?_ d
    exact (h c).poll hb hs hi hp rfl rfl (by simp [Poll.handed]) (by simp)
  | @parked c session ses reader hpc hs hi hp =>
    refine State.tracks_update h ?_ d
    exact (h c).poll hb hs hi hp rfl rfl (by simp [Poll.handed]) (by simp [hpc])
  | @senderStart c | @oob c | @unlimited c | @admitted c | @delayed c | @wake c | @addOut c
  | @written c | @unwritten c | @closedWritten c | @closedUnwritten c | @cancel c =>
    refine State.tracks_update h ?_ d
    exact (h c).same rfl rfl rfl (by simp)
  | actorOutput | actorInput | actorEnd | actorNone | ingest | ingestEnd | tick | signIgnored
  | recvIgnored => exact h d
  | _ =>
    refine State.tracks_update h ?_ d
    exact (h _).same rfl rfl rfl (fun hs => hs)

theorem Move.tracks {s s' : State} {l : Label} (m : Move s l s') (sound : s.Sound)
    (hb : s.Buffered) (h : ∀ d, s.Tracks (s.conns d)) (d : ConnId) : s'.Tracks (s'.conns d) := by
  have hx := m.tracks_conns sound hb h d
  obtain ⟨al, hstep, -⟩ := m.seen sound.wf sound.framed
  refine ⟨fun session ses' hs hi' => ?_, hx.unread⟩
  cases hi : s.sessions session.id with
  | some ses =>
    obtain ⟨grown, more, hg, hprod, hstart⟩ := m.grows sound.wf hi
    obtain rfl := Option.some.inj (hi'.symm.trans hg)
    rw [hprod]
    exact ((hx.pieces session ses hs hi).append more).trim hstart
  | none =>
    -- only `create` gives a connection a session that was not there before
    have hnone : s.life.ssh session.id = none := by simp [State.life_ssh, hi]
    have hlife : (s'.life.client d).session = some session.id := by
      simp [State.life_client, Conn.client, hs]
    rcases hstep.session_cases sound.owned.ok hlife with ⟨hold, -⟩ | ⟨rfl, -⟩ | ⟨-, hreg, -⟩
    · exact absurd hnone (sound.owned.known d _ hold)
    · have hidle := (m.sound sound).sender_idle (Or.inr (Or.inl hstep.stage_of_create))
      obtain ⟨hr, hy⟩ := hx.unread (Or.inl hidle)
      rw [hr, hy]
      exact Pieces.nil ses'.produced ses'.inner.startOffset
    · exact absurd hnone (sound.owned.listed _ hreg)

/-- The offset behind the last byte of the last frame completed on connection `c`. -/
def State.completedUpTo (s : State) (c : ConnId) : Nat :=
  lastEnd ((s.conns c).yielded.take (s.completed c).length)

structure State.Delivers (s : State) : Prop where
  buffered : s.Buffered
  tracks : ∀ c, s.Tracks (s.conns c)
  accounts : ∀ c, (s.conns c).Accounts (s.completed c)

theorem gateway_delivers {maxScrollback : Nat} {C : State → Label → Prop} {s : State}
    (h : Reach (gateway maxScrollback) C s) : s.Delivers ∧ s.maxScrollback = maxScrollback := by
  refine h.invariant (P := fun s => s.Delivers ∧ s.maxScrollback = maxScrollback) ?_ ?_
  · refine ⟨⟨?_, fun c => ⟨?_, ?_⟩, fun c => ⟨[], ?_⟩⟩, rfl⟩ <;>
      simp [State.Buffered, gateway, machine, State.init, Conn.init, State.completed,
        SenderPc.inFlight]
  · rintro s l s' hr ⟨hd, hmax⟩ _ hs
    have m := step_move hs
    have sound := gateway_sound hr
    refine ⟨⟨m.buffered hd.buffered, ?_, m.accounts sound hd.accounts⟩, m.maxScrollback.trans hmax⟩
    exact m.tracks sound hd.buffered hd.tracks

/-- The client of connection `c` gets the output of its session from the oldest byte kept, in
order, without a hole but for bytes trimmed meanwhile; at most one chunk is taken and not
delivered; and a connection that resumes the session replays what the other did not complete. -/
theorem delivery_continuity {maxScrollback : Nat} {s : State} {c : ConnId} {session : SessionRef}
    {ses : Session} (h : Reachable (gateway maxScrollback) s)
    (hs : (s.conns c).session = some session) (hi : s.sessions session.id = some ses) :
    (∃ lost, lost.length ≤ 1 ∧ s.completed c ++ lost = (s.conns c).yielded.map Prod.snd) ∧
    Pieces ses.produced ses.inner.startOffset (s.conns c).reader.cursor (s.conns c).yielded ∧
    ses.inner.startOffset = ses.produced.length - maxScrollback ∧
    ((s.conns c).yielded = [] → (s.conns c).reader.cursor ≤ ses.inner.startOffset) ∧
    (∀ start, start = max (s.conns c).reader.cursor ses.inner.startOffset →
      (s.conns c).sender = .select → ∃ s', step s (.pollReader c) = some s' ∧
        (s'.conns c).yielded = (s.conns c).yielded ++
          if start < ses.produced.length then [(start, ses.produced.drop start)] else []) ∧
    ∀ d, (s.conns d).session = some session →
      (∀ piece, (s.conns d).yielded.head? = some piece →
        piece.1 ≤ s.completedUpTo c ∨ s.completedUpTo c < ses.inner.startOffset) ∧
      (ses.inner.startOffset ≤ s.completedUpTo c →
        s.completedUpTo c < (s.conns d).reader.cursor → ∃ piece ∈ (s.conns d).yielded,
          piece.1 ≤ s.completedUpTo c ∧ s.completedUpTo c < piece.1 + piece.2.length) := by
  obtain ⟨delivers, hmax⟩ := gateway_delivers h
  obtain ⟨hholds, hbytes⟩ := delivers.buffered _ _ hi
  have hstart := hholds.start_eq
  rw [hbytes, hmax] at hstart
  have pieces := fun d (hd : (s.conns d).session = some session) =>
    (delivers.tracks d).pieces session ses hd hi
  refine ⟨?_, pieces c hs, hstart, fun hy => ?_, fun start he hsel => ?_, fun d hd => ⟨?_, ?_⟩⟩
  · obtain ⟨rest, he, hlen, -⟩ := delivers.accounts c
    exact ⟨rest, hlen, he⟩
  · have hp := pieces c hs
    rw [hy] at hp
    exact hp.cursor_le_of_nil
  · have hpoll := SessionReader.poll_eq hholds (pieces c hs).bound
    rw [← he] at hpoll
    by_cases hlt : start < ses.produced.length
    · refine ⟨_, by simp [step, State.pollReader, hs, hi, hsel, hpoll, hlt]; rfl, ?_⟩
      simp [hlt, Nat.sub_sub_self hlt.le]
    · cases hc : ses.inner.closed
      · refine ⟨_, by simp [step, State.pollReader, hs, hi, hsel, hpoll, hlt, hc]; rfl, ?_⟩
        simp [hlt]
      · refine ⟨_, by simp [step, State.pollReader, hs, hi, hsel, hpoll, hlt, hc]; rfl, ?_⟩
        simp [hlt]
  · intro piece hp
    obtain ⟨rest, hy⟩ := List.head?_eq_some_iff.mp hp
    have hpd := pieces d hd
    rw [hy] at hpd
    have := hpd.head_le
    omega
  · intro hle hlt
    exact ((pieces d hd).missed _ hlt).resolve_right (by omega)

/-- A connection completes one chunk and loses the next; the one that resumes gets both. -/
theorem delivery_continuity_resumed : ∃ s, Reachable (gateway defaultScrollbackBytes) s ∧
    s.completed 0 = [[104, 105]] ∧ (s.conns 0).yielded = [(0, [104, 105]), (2, [33])] ∧
    (s.conns 1).yielded = [(0, [104, 105, 33])] ∧
    ∃ lost, lost.length ≤ 1 ∧ s.completed 0 ++ lost = (s.conns 0).yielded.map Prod.snd := by
  obtain ⟨s, hs, ⟨hdone, hy, hr⟩, hses, hsome⟩ :=
    exists_reachable_of_exec (.init defaultScrollbackBytes) step
      (opening 0 none .unlimited 5 [1] ++ [.actorOutput 5 [104, 105], .ingest 5,
        .pollReader 0, .throttle 0, .addOut 0, .written 0 true, .actorOutput 5 [33], .ingest 5,
        .pollReader 0, .throttle 0, .addOut 0] ++ ending 0 (.error "connection lost") ++
        resuming 1 none .unlimited [1] ++ [.pollReader 1])
      (fun s => (s.completed 0 = [[104, 105]] ∧
        (s.conns 0).yielded = [(0, [104, 105]), (2, [33])] ∧
        (s.conns 1).yielded = [(0, [104, 105, 33])]) ∧
        (s.conns 0).session = some ⟨5, [1]⟩ ∧ (s.sessions 5).isSome)
      (by decide +kernel)
  obtain ⟨ses, hi⟩ := Option.isSome_iff_exists.mp hsome
  exact ⟨s, hs, hdone, hy, hr, (delivery_continuity hs hses hi).1⟩

end TtyGateway
