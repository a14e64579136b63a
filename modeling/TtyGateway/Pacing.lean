import TtyGateway.Delivery
import TtyGateway.BucketLaw
import Mathlib.Algebra.Order.Field.Basic

namespace TtyGateway

open Transition

/-- `receiver_loop` has returned, or there never was one. -/
def Pc.loopless : Pc → Bool
  | .failed | .ending _ | .metering _ | .reporting _ | .deciding _ | .closing | .closeWait
  | .leaving | .done => true
  | _ => false

/-- What the sender task of a connection can rely on: its bucket's shape, how long a chunk is, and
what there is of the out-of-band queue. -/
structure Conn.Paced (maxScrollback : Nat) (x : Conn) : Prop where
  bucket : ∀ limiter, x.limiter = some limiter →
    limiter.1.capacity = bandwidthBurst ∧ 0 < limiter.1.rate
  chunk : ∀ bytes ∈ x.sender.inFlight, bytes.length ≤ maxScrollback
  listening : x.pc.loopless = false → x.oobOpen = true
  room : x.oob.length ≤ 16

/-- The scrollback that `SessionManager::new` sets is smaller than the burst, so the bucket grants every
chunk in the end. -/
theorem Conn.Paced.fits {x : Conn} (h : x.Paced defaultScrollbackBytes) {b : Bytes}
    (hbytes : b ∈ x.sender.inFlight) : (b.length : ℚ) ≤ (bandwidthBurst : ℚ) := by
  have hlen := h.chunk b hbytes
  have hburst : defaultScrollbackBytes ≤ bandwidthBurst := by decide
  exact_mod_cast hlen.trans hburst

section Paced

variable {s s' : State} {c : ConnId} {l : Label} {n : Nat}

theorem Conn.Paced.same {x y : Conn} (h : x.Paced n) (limiter : y.limiter = x.limiter)
    (chunk : ∀ bytes ∈ y.sender.inFlight, bytes ∈ x.sender.inFlight)
    (pc : y.pc.loopless = false → x.pc.loopless = false) (oobOpen : y.oobOpen = x.oobOpen)
    (oob : y.oob.length ≤ x.oob.length) : y.Paced n := by
  refine ⟨fun found hf => h.bucket found (limiter ▸ hf), fun bytes hb => h.chunk bytes (chunk bytes hb),
    fun hy => ?_, oob.trans h.room⟩
  rw [oobOpen]
  exact h.listening (pc hy)

theorem TokenBucket.new_paced (rate : Nat) :
    (TokenBucket.new rate bandwidthBurst).capacity = bandwidthBurst ∧
      0 < (TokenBucket.new rate bandwidthBurst).rate := by
  refine ⟨?_, ?_⟩
  · simp [TokenBucket.new, bandwidthBurst]
  · simp [TokenBucket.new]

theorem SessionReader.chunk_length {r r' : SessionReader} {inner : SessionInner} {output : Bytes}
    {bytes : Bytes} (h : inner.Holds output) (hc : r.cursor ≤ output.length)
    (hp : r.poll .exact inner = some (.chunk bytes, r')) : bytes.length ≤ inner.maxBytes := by
  have hstart := h.start_eq
  rw [SessionReader.poll_eq h hc] at hp
  split at hp
  next hlt =>
    cases hp
    rw [List.length_drop]
    omega
  next =>
    split at hp <;> simp at hp

theorem pollOob_closed (hs : step s (.pollOob c) = some s')
    (hsender : (s'.conns c).sender = .select) : (s.conns c).pc.looping = false := by
  simp only [step, State.pollOob] at hs
  split at hs
  next =>
    split at hs
    next =>
      cases hs
      simp at hsender
    next =>
      split at hs
      next => cases hs
      next hloop => simpa using hloop
  next => cases hs

theorem pong_room (hs : step s (.pong c) = some s') (h : (s.conns c).oob.length ≤ 16) :
    (s'.conns c).oob.length ≤ 16 := by
  simp only [step, State.pong] at hs
  split at hs
  next =>
    split at hs
    next =>
      split at hs
      next hlt =>
        cases hs
        simp only [State.setConn_conns_self, List.length_append, List.length_singleton]
        omega
      next => cases hs
    next =>
      cases hs
      simpa using h
  next => cases hs

theorem State.Sound.looping_or_loopless (sound : s.Sound) (h : (s.conns c).sender ≠ .idle) :
    (s.conns c).pc.looping = true ∨ (s.conns c).pc.loopless = true := by
  have hstage := (sound.owned.ok c).fed (SenderPc.feed_ne_off.mpr h)
  simp only [State.life_client, Conn.client] at hstage
  cases hpc : (s.conns c).pc <;> simp_all [Pc.stage, Pc.looping, Pc.loopless]

theorem step_paced (hs : step s l = some s') (sound : s.Sound) (delivers : s.Delivers)
    (h : ∀ c, (s.conns c).Paced s.maxScrollback) (c : ConnId) :
    (s'.conns c).Paced s.maxScrollback := by
  have m := step_move hs
  by_cases hl : l.conn = some c
  · have hc := h c
    cases m with
    | @senderStart d hpc =>
      cases hl
      simp only [State.setConn_conns_self]
      refine ⟨fun limiter hlim => ?_, by simp [SenderPc.inFlight], hc.listening, hc.room⟩
      obtain ⟨rate, -, rfl⟩ := Option.map_eq_some_iff.mp hlim
      exact TokenBucket.new_paced rate
    | @chunk d session ses bytes reader hpc hsession hses hp =>
      cases hl
      have hbuf := delivers.buffered session.id ses hses
      have hcursor := ((delivers.tracks c).pieces session ses hsession hses).bound
      have hlen := SessionReader.chunk_length hbuf.1 hcursor hp
      simp only [State.setConn_conns_self]
      refine ⟨hc.bucket, fun found hf => ?_, hc.listening, hc.room⟩
      obtain rfl := List.mem_singleton.mp hf
      exact hlen.trans hbuf.2.le
    | @admitted d bytes bucket last left hpc hlim ht =>
      cases hl
      have hleft : left = ((bucket.refill (s.clock - last)).tryConsume bytes.length).2 := by
        rw [ht]
      simp only [State.setConn_conns_self]
      refine ⟨fun limiter hf => ?_, ?_, hc.listening, hc.room⟩
      · cases hf
        simpa [hleft] using hc.bucket _ hlim
      · simpa [SenderPc.inFlight, hpc] using hc.chunk
    | @delayed d bytes bucket last left hpc hlim ht =>
      cases hl
      have hleft : left = ((bucket.refill (s.clock - last)).tryConsume bytes.length).2 := by
        rw [ht]
      simp only [State.setConn_conns_self]
      refine ⟨fun limiter hf => ?_, ?_, hc.listening, hc.room⟩
      · cases hf
        simpa [hleft] using hc.bucket _ hlim
      · simpa [SenderPc.inFlight, hpc] using hc.chunk
    | @oob d frame rest hpc ho =>
      cases hl
      have hframe := (sound.framed c).oob frame (by simp [ho])
      simp only [State.setConn_conns_self]
      refine hc.same rfl ?_ (fun hy => hy) rfl (by simp [ho])
      simp [hframe, SenderPc.inFlight]
    | @oobClosed d hpc =>
      cases hl
      have hloop : (s.conns c).pc.looping = false := pollOob_closed hs (by simpa using hpc)
      have hover : (s.conns c).pc.loopless = true := by
        refine (sound.looping_or_loopless (by simp [hpc])).resolve_left ?_
        simp [hloop]
      simp only [State.setConn_conns_self]
      exact ⟨hc.bucket, by simpa using hc.chunk, by simp [hover], hc.room⟩
    | @ponged d hpc =>
      cases hl
      have hroom := pong_room hs hc.room
      simp only [State.setConn_conns_self] at hroom ⊢
      exact ⟨hc.bucket, hc.chunk, fun _ => hc.listening (by simp [hpc, Pc.loopless]), hroom⟩
    | unlimited hpc | wake hpc | addOut hpc =>
      cases hl
      simp only [State.setConn_conns_self]
      refine hc.same rfl ?_ (fun hy => hy) rfl le_rfl
      simp [hpc, SenderPc.inFlight]
    | @statusSent d hpc =>
      cases hl
      simp only [State.setConn_conns_self]
      refine hc.same rfl ?_ (fun _ => by simp [hpc, Pc.loopless]) rfl le_rfl
      simp [SenderPc.inFlight]
    | finished | written | unwritten | closedWritten | closedUnwritten | cancel =>
      cases hl
      simp only [State.setConn_conns_self]
      exact hc.same rfl (by simp [SenderPc.inFlight]) (fun hy => hy) rfl le_rfl
    | signIgnored | recvIgnored => exact hc
    | actorOutput | actorInput | actorEnd | actorNone | ingest | ingestEnd | tick => cases hl
    | _ =>
      cases hl
      simp only [State.setConn_conns_self]
      refine hc.same rfl (fun _ hb => hb) ?_ rfl le_rfl
      simp_all [Pc.loopless]
  · rw [m.conns_of_ne hl]
    exact h c

end Paced

theorem gateway_paced {maxScrollback : Nat} {C : State → Label → Prop} {s : State}
    (h : Reach (gateway maxScrollback) C s) (c : ConnId) :
    (s.conns c).Paced maxScrollback := by
  revert c
  refine h.invariant (P := fun s => ∀ c, (s.conns c).Paced maxScrollback) (fun c => ?_) ?_
  · exact ⟨fun _ hf => (by cases hf), (by simp [gateway, machine, State.init, Conn.init,
      SenderPc.inFlight]), fun _ => rfl, Nat.zero_le _⟩
  · intro s l s' hr ih _ hs c
    obtain ⟨delivers, hmax⟩ := gateway_delivers hr
    have hpaced := step_paced hs (gateway_sound hr) delivers (hmax.symm ▸ ih) c
    exact hmax ▸ hpaced

theorem forward_room {s s' : State} {c : ConnId} (hs : step s (.forward c) = some s')
    (h : ∀ i ses, s.sessions i = some ses → ses.input.length ≤ 64) {i : SessionId} {ses : Session}
    (hi : s'.sessions i = some ses) : ses.input.length ≤ 64 := by
  obtain ⟨session, -, hs⟩ := Option.bind_eq_some_iff.mp hs
  obtain ⟨old, hold, hs⟩ := Option.bind_eq_some_iff.mp hs
  split at hs
  next input hpc =>
    split at hs
    next =>
      split at hs
      next hlt =>
        cases hs
        rw [State.setConn_sessions, State.setSession_sessions] at hi
        split at hi
        next =>
          cases hi
          simp only [List.length_append, List.length_singleton]
          omega
        next => exact h i ses hi
      next => cases hs
    next =>
      cases hs
      exact h i ses hi
  next => cases hs

theorem step_input {s s' : State} {l : Label} (hs : step s l = some s')
    (h : ∀ i ses, s.sessions i = some ses → ses.input.length ≤ 64) {i : SessionId} {ses : Session}
    (hi : s'.sessions i = some ses) : ses.input.length ≤ 64 := by
  have set : ∀ j new, (s.setSession j new).sessions i = some ses → new.input.length ≤ 64 →
      ses.input.length ≤ 64 := by
    intro j new hset hnew
    rw [State.setSession_sessions] at hset
    split at hset
    next =>
      cases hset
      exact hnew
    next => exact h i ses hset
  have m := step_move hs
  cases m with
  | forwarded => exact forward_room hs h hi
  | loggedIn => exact set _ _ hi (Nat.zero_le 64)
  | @actorInput j old input rest hj hin =>
    have hold := h j old hj
    rw [hin, List.length_cons] at hold
    apply set j _ hi
    show rest.length ≤ 64
    omega
  | actorEnd => exact set _ _ hi (Nat.zero_le 64)
  | actorOutput hj | actorNone hj | ingest hj | ingestEnd hj =>
    have hold := h _ _ hj
    exact set _ _ hi hold
  | _ => exact h i ses hi

theorem gateway_input {maxScrollback : Nat} {C : State → Label → Prop} {s : State}
    (h : Reach (gateway maxScrollback) C s) {i : SessionId} {ses : Session}
    (hi : s.sessions i = some ses) : ses.input.length ≤ 64 := by
  revert i ses
  refine h.invariant (P := fun s => ∀ {i ses}, s.sessions i = some ses → ses.input.length ≤ 64) ?_ ?_
  · intro i ses hi
    cases hi
  · intro s l s' _ ih _ hs i ses hi
    exact step_input hs (fun j old hj => ih hj) hi

theorem State.Sound.session_of_looping {s : State} (sound : s.Sound) {c : ConnId}
    (h : (s.conns c).pc.looping = true) : ∃ session ses, (s.conns c).session = some session ∧
      s.sessions session.id = some ses := by
  have hsome : (s.conns c).session ≠ none := by
    intro hnone
    have hstage := (sound.owned.ok c).placed (by simp [State.life_client, Conn.client, hnone])
    simp only [State.life_client, Conn.client] at hstage
    cases hpc : (s.conns c).pc <;> simp_all [Pc.stage, Pc.looping]
  obtain ⟨session, hs⟩ := Option.ne_none_iff_exists'.mp hsome
  obtain ⟨ses, hses⟩ := sound.wf.session_known hs
  exact ⟨session, ses, hs, hses⟩

end TtyGateway
