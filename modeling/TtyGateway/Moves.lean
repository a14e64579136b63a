import TtyGateway.Gateway
import Mathlib.Tactic.Common

namespace TtyGateway

section Projections

variable (s : State) (c : ConnId) (x : Conn) (i : SessionId) (ses : Session)

theorem State.setConn_conns (d : ConnId) :
    (s.setConn c x).conns d = if d = c then x else s.conns d := by
  simp [State.setConn, Function.update_apply]

@[simp] theorem State.setConn_conns_self : (s.setConn c x).conns c = x := by
  simp [State.setConn_conns]

theorem State.setConn_conns_of_ne {d : ConnId} (h : d ≠ c) :
    (s.setConn c x).conns d = s.conns d := by
  simp [State.setConn_conns, h]

@[simp] theorem State.setConn_registry : (s.setConn c x).registry = s.registry := rfl
@[simp] theorem State.setConn_sessions : (s.setConn c x).sessions = s.sessions := rfl
@[simp] theorem State.setConn_accepted : (s.setConn c x).accepted = s.accepted := rfl
@[simp] theorem State.setConn_minted : (s.setConn c x).minted = s.minted := rfl
@[simp] theorem State.setConn_calls : (s.setConn c x).calls = s.calls := rfl
@[simp] theorem State.setConn_wire : (s.setConn c x).wire = s.wire := rfl
@[simp] theorem State.setConn_clock : (s.setConn c x).clock = s.clock := rfl

theorem State.setSession_sessions (j : SessionId) :
    (s.setSession i ses).sessions j = if j = i then some ses else s.sessions j := by
  simp [State.setSession, Function.update_apply]

@[simp] theorem State.setSession_sessions_self : (s.setSession i ses).sessions i = some ses := by
  simp [State.setSession_sessions]

@[simp] theorem State.setSession_conns : (s.setSession i ses).conns = s.conns := rfl
@[simp] theorem State.setSession_registry :
    (s.setSession i ses).registry = s.registry := rfl
@[simp] theorem State.setSession_accepted :
    (s.setSession i ses).accepted = s.accepted := rfl
@[simp] theorem State.setSession_minted : (s.setSession i ses).minted = s.minted := rfl
@[simp] theorem State.setSession_calls : (s.setSession i ses).calls = s.calls := rfl
@[simp] theorem State.setSession_wire : (s.setSession i ses).wire = s.wire := rfl
@[simp] theorem State.setSession_clock : (s.setSession i ses).clock = s.clock := rfl

@[simp] theorem State.call_conns (a : HookCall) : (s.call a).conns = s.conns := rfl
@[simp] theorem State.call_registry (a : HookCall) :
    (s.call a).registry = s.registry := rfl
@[simp] theorem State.call_sessions (a : HookCall) :
    (s.call a).sessions = s.sessions := rfl
@[simp] theorem State.call_accepted (a : HookCall) :
    (s.call a).accepted = s.accepted := rfl
@[simp] theorem State.call_minted (a : HookCall) : (s.call a).minted = s.minted := rfl
@[simp] theorem State.call_calls (a : HookCall) : (s.call a).calls = s.calls ++ [a] := rfl
@[simp] theorem State.call_wire (a : HookCall) : (s.call a).wire = s.wire := rfl
@[simp] theorem State.call_clock (a : HookCall) : (s.call a).clock = s.clock := rfl

@[simp] theorem State.put_conns (t : ℚ) (f : ServerFrame) :
    (s.put c t f).conns = s.conns := rfl
@[simp] theorem State.put_registry (t : ℚ) (f : ServerFrame) :
    (s.put c t f).registry = s.registry := rfl
@[simp] theorem State.put_sessions (t : ℚ) (f : ServerFrame) :
    (s.put c t f).sessions = s.sessions := rfl
@[simp] theorem State.put_accepted (t : ℚ) (f : ServerFrame) :
    (s.put c t f).accepted = s.accepted := rfl
@[simp] theorem State.put_minted (t : ℚ) (f : ServerFrame) :
    (s.put c t f).minted = s.minted := rfl
@[simp] theorem State.put_calls (t : ℚ) (f : ServerFrame) :
    (s.put c t f).calls = s.calls := rfl
@[simp] theorem State.put_wire (t : ℚ) (f : ServerFrame) :
    (s.put c t f).wire = s.wire ++ [⟨c, t, f⟩] := rfl
@[simp] theorem State.put_clock (t : ℚ) (f : ServerFrame) :
    (s.put c t f).clock = s.clock := rfl

end Projections

/-- What one step can do, an outcome a constructor: `step` as a relation. -/
inductive Move (s : State) : Label → State → Prop
  | accept {c} : (s.conns c).pc = .idle →
      Move s (.accept c)
        { s.setConn c { s.conns c with pc := .hello } with accepted := s.accepted ++ [c] }
  | helloLost {c e} : (s.conns c).pc = .hello →
      Move s (.recvHello c (.error e)) (s.setConn c { s.conns c with pc := .failed })
  | hello {c clientName resume accountToken} : (s.conns c).pc = .hello →
      Move s (.recvHello c (.ok (.hello protocolVersion clientName resume accountToken)))
        (s.setConn c { s.conns c with pc := .authorize, clientName, resume, accountToken })
  | helloRefused {c frame} (message : String) : (s.conns c).pc = .hello →
      Move s (.recvHello c (.ok frame)) (s.setConn c { s.conns c with pc := .reject message })
  | authorized {c entitlement} : (s.conns c).pc = .authorize →
      Move s (.authorized c (.ok entitlement))
        ((s.call (.authorize (s.conns c).clientName (s.conns c).accountToken
          (.ok entitlement))).setConn c { s.conns c with pc := .lookup, entitlement })
  | denied {c denied} : (s.conns c).pc = .authorize →
      Move s (.authorized c (.error denied))
        ((s.call (.authorize (s.conns c).clientName (s.conns c).accountToken
          (.error denied))).setConn c { s.conns c with pc := .reject denied.toString })
  | resumed {c token session} : (s.conns c).pc = .lookup → (s.conns c).resume = some token →
      s.registry.resume token.val = some session →
      Move s (.lookup c)
        (s.setConn c { s.conns c with pc := .greet, session := some session, resumed := true })
  | unresumed {c} : (s.conns c).pc = .lookup →
      (s.conns c).resume.bind (fun token => s.registry.resume token.val) = none →
      Move s (.lookup c) (s.setConn c { s.conns c with pc := .openTarget })
  | openLost {c e} : (s.conns c).pc = .openTarget →
      Move s (.recvOpen c (.error e)) (s.setConn c { s.conns c with pc := .failed })
  | openTarget {c target auth cols rows} : (s.conns c).pc = .openTarget →
      Move s (.recvOpen c (.ok (.openTarget target auth cols rows)))
        (s.setConn c { s.conns c with pc := .login, auth := some auth })
  | openRefused {c frame} (message : String) : (s.conns c).pc = .openTarget →
      Move s (.recvOpen c (.ok frame)) (s.setConn c { s.conns c with pc := .reject message })
  | loginFailed {c error} : (s.conns c).pc = .login →
      Move s (.loginFailed c error)
        (s.setConn c { s.conns c with pc := .reject ("connect failed: " ++ error) })
  | signAsked {c publicKey data} : (s.conns c).pc = .login →
      Move s (.signAsked c publicKey data)
        (s.setConn c { s.conns c with
          pc := .signSend (s.conns c).nextId publicKey data, nextId := (s.conns c).nextId + 1 })
  | signSent {c id publicKey data} : (s.conns c).pc = .signSend id publicKey data →
      Move s (.signSent c (.ok ()))
        ((s.put c s.clock (.signRequest id publicKey data)).setConn c
          { s.conns c with pc := .signWait id })
  | signUnsent {c id publicKey data e} : (s.conns c).pc = .signSend id publicKey data →
      Move s (.signSent c (.error e))
        (s.setConn c { s.conns c with pc := .reject (signFailed e) })
  | signed {c id signature} : (s.conns c).pc = .signWait id →
      Move s (.signRecv c (.ok (.signResponse id signature)))
        (s.setConn c { s.conns c with pc := .login })
  | signIgnored {c r} : Move s (.signRecv c r) s
  | signRefused {c id r} (message : String) : (s.conns c).pc = .signWait id →
      Move s (.signRecv c r) (s.setConn c { s.conns c with pc := .reject message })
  | loggedIn {c id token} : (s.conns c).pc = .login → id ∉ s.minted.map SessionRef.id →
      token ∉ s.minted.map SessionRef.resumeToken →
      Move s (.loggedIn c id token)
        { (s.setSession id (.spawn s.maxScrollback)).setConn c
          { s.conns c with pc := .sessionOpen, session := some ⟨id, token⟩, resumed := false } with
          registry := s.registry.create ⟨id, token⟩, minted := s.minted ++ [⟨id, token⟩] }
  | slotTaken {c session} : (s.conns c).pc = .sessionOpen → (s.conns c).session = some session →
      Move s (.sessionOpened c (.ok ()))
        ((s.call (.sessionOpen (s.conns c).accountToken session.id (s.conns c).clientName
          (.ok ()))).setConn c { s.conns c with pc := .greet })
  | slotDenied {c session denied} : (s.conns c).pc = .sessionOpen →
      (s.conns c).session = some session →
      Move s (.sessionOpened c (.error denied))
        { (s.call (.sessionOpen (s.conns c).accountToken session.id (s.conns c).clientName
          (.error denied))).setConn c { s.conns c with pc := .reject denied.toString } with
          registry := s.registry.remove session.id }
  | rejectSent {c message} : (s.conns c).pc = .reject message →
      Move s (.rejectSent c true)
        ((s.put c s.clock (.error message)).setConn c { s.conns c with pc := .failed })
  | rejectUnsent {c message} : (s.conns c).pc = .reject message →
      Move s (.rejectSent c false) (s.setConn c { s.conns c with pc := .failed })
  | helloSent {c session} : (s.conns c).pc = .greet → (s.conns c).session = some session →
      Move s (.helloSent c true)
        ((s.put c s.clock (.hello protocolVersion session.id (s.conns c).resumed
          ⟨session.resumeToken⟩)).setConn c { s.conns c with pc := .status })
  | helloUnsent {c session} : (s.conns c).pc = .greet → (s.conns c).session = some session →
      Move s (.helloSent c false) (s.setConn c { s.conns c with pc := .failed })
  | statusSent {c} : (s.conns c).pc = .status →
      Move s (.statusSent c true)
        ((s.put c s.clock (.status .live)).setConn c
          { s.conns c with pc := .live, sender := .spawned })
  | statusUnsent {c} : (s.conns c).pc = .status →
      Move s (.statusSent c false) (s.setConn c { s.conns c with pc := .failed })
  | recvData {c bytes} : (s.conns c).pc = .live →
      Move s (.recv c (.ok (.data bytes)))
        (s.setConn c { s.conns c with
          meter := (s.conns c).meter.addIn bytes.length, pc := .forward (.data bytes) })
  | recvResize {c cols rows} : (s.conns c).pc = .live →
      Move s (.recv c (.ok (.resize cols rows)))
        (s.setConn c { s.conns c with pc := .forward (.resize cols.toUInt32 rows.toUInt32) })
  | recvPing {c} : (s.conns c).pc = .live →
      Move s (.recv c (.ok .ping)) (s.setConn c { s.conns c with pc := .pong })
  | recvClose {c} : (s.conns c).pc = .live →
      Move s (.recv c (.ok .close)) (s.setConn c { s.conns c with pc := .ending .closed })
  | recvIgnored {c frame} : (s.conns c).pc = .live → Move s (.recv c (.ok frame)) s
  | recvLost {c e} : (s.conns c).pc = .live →
      Move s (.recv c (.error e)) (s.setConn c { s.conns c with pc := .ending .detached })
  | forwarded {c session ses input} : (s.conns c).pc = .forward input →
      (s.conns c).session = some session → s.sessions session.id = some ses → ses.actor = true →
      Move s (.forward c)
        ((s.setSession session.id { ses with input := ses.input ++ [input] }).setConn c
          { s.conns c with pc := .live })
  | unforwarded {c session ses input} : (s.conns c).pc = .forward input →
      (s.conns c).session = some session → s.sessions session.id = some ses → ses.actor = false →
      Move s (.forward c) (s.setConn c { s.conns c with pc := .live })
  | ponged {c} : (s.conns c).pc = .pong →
      Move s (.pong c)
        (s.setConn c { s.conns c with pc := .live, oob := (s.conns c).oob ++ [.pong] })
  | unponged {c} : (s.conns c).pc = .pong →
      Move s (.pong c) (s.setConn c { s.conns c with pc := .live })
  | abort {c outcome} : (s.conns c).pc = .ending outcome →
      Move s (.abort c) (s.setConn c { s.conns c with pc := .metering outcome, aborted := true })
  | report {c session outcome} : (s.conns c).pc = .metering outcome →
      (s.conns c).session = some session →
      Move s (.report c)
        ((s.call (.reportUsage (s.conns c).accountToken session.id (s.conns c).meter.bytesIn
          (s.conns c).meter.bytesOut)).setConn c { s.conns c with pc := .reporting outcome })
  | reported {c outcome} : (s.conns c).pc = .reporting outcome →
      Move s (.reported c) (s.setConn c { s.conns c with pc := .deciding outcome })
  | ended {c session ses outcome} : (s.conns c).pc = .deciding outcome →
      (s.conns c).session = some session → s.sessions session.id = some ses →
      outcome = .closed ∨ ses.inner.closed = true →
      Move s (.checkClosed c) (s.setConn c { s.conns c with pc := .closing })
  | kept {c session ses outcome} : (s.conns c).pc = .deciding outcome →
      (s.conns c).session = some session → s.sessions session.id = some ses →
      ses.inner.closed = false →
      Move s (.checkClosed c) (s.setConn c { s.conns c with pc := .leaving })
  | closeCall {c session} : (s.conns c).pc = .closing → (s.conns c).session = some session →
      Move s (.closeCall c)
        ((s.call (.sessionClose (s.conns c).accountToken session.id)).setConn c
          { s.conns c with pc := .closeWait })
  | closeReturned {c session} : (s.conns c).pc = .closeWait →
      (s.conns c).session = some session →
      Move s (.closeReturned c)
        { s.setConn c { s.conns c with pc := .leaving } with
          registry := s.registry.remove session.id }
  | leave {c} : (s.conns c).pc = .leaving →
      Move s (.leave c) (s.setConn c { s.conns c with pc := .done })
  | senderStart {c} : (s.conns c).sender = .spawned →
      Move s (.senderStart c)
        (s.setConn c { s.conns c with
          sender := .select
          limiter := (s.conns c).entitlement.maxBytesPerSec.map fun rate =>
            (TokenBucket.new rate bandwidthBurst, s.clock) })
  | chunk {c session ses bytes reader} : (s.conns c).sender = .select →
      (s.conns c).session = some session → s.sessions session.id = some ses →
      (s.conns c).reader.poll .exact ses.inner = some (.chunk bytes, reader) →
      Move s (.pollReader c)
        (s.setConn c { s.conns c with
          reader, sender := .throttle bytes
          yielded := (s.conns c).yielded ++ [(reader.cursor - bytes.length, bytes)] })
  | finished {c session ses reader} : (s.conns c).sender = .select →
      (s.conns c).session = some session → s.sessions session.id = some ses →
      (s.conns c).reader.poll .exact ses.inner = some (.finished, reader) →
      Move s (.pollReader c) (s.setConn c { s.conns c with reader, sender := .writeClosed })
  | parked {c session ses reader} : (s.conns c).sender = .select →
      (s.conns c).session = some session → s.sessions session.id = some ses →
      (s.conns c).reader.poll .exact ses.inner = some (.parked, reader) →
      Move s (.pollReader c) (s.setConn c { s.conns c with reader })
  | oob {c frame rest} : (s.conns c).sender = .select → (s.conns c).oob = frame :: rest →
      Move s (.pollOob c)
        (s.setConn c { s.conns c with oob := rest, sender := .write frame s.clock })
  | oobClosed {c} : (s.conns c).sender = .select →
      Move s (.pollOob c) (s.setConn c { s.conns c with oobOpen := false })
  | unlimited {c bytes} : (s.conns c).sender = .throttle bytes → (s.conns c).limiter = none →
      Move s (.throttle c) (s.setConn c { s.conns c with sender := .count bytes s.clock })
  | admitted {c bytes bucket last left} : (s.conns c).sender = .throttle bytes →
      (s.conns c).limiter = some (bucket, last) →
      (bucket.refill (s.clock - last)).tryConsume bytes.length = (true, left) →
      Move s (.throttle c)
        (s.setConn c { s.conns c with
          limiter := some (left, s.clock), sender := .count bytes s.clock })
  | delayed {c bytes bucket last left} : (s.conns c).sender = .throttle bytes →
      (s.conns c).limiter = some (bucket, last) →
      (bucket.refill (s.clock - last)).tryConsume bytes.length = (false, left) →
      Move s (.throttle c)
        (s.setConn c { s.conns c with
          limiter := some (left, s.clock)
          sender := .sleep bytes (s.clock + left.timeUntil bytes.length) })
  | wake {c bytes until_} : (s.conns c).sender = .sleep bytes until_ →
      Move s (.wake c) (s.setConn c { s.conns c with sender := .throttle bytes })
  | addOut {c bytes time} : (s.conns c).sender = .count bytes time →
      Move s (.addOut c)
        (s.setConn c { s.conns c with
          meter := (s.conns c).meter.addOut bytes.length, sender := .write (.data bytes) time })
  | written {c frame time} : (s.conns c).sender = .write frame time →
      Move s (.written c true)
        ((s.put c time frame).setConn c { s.conns c with sender := .select })
  | unwritten {c frame time} : (s.conns c).sender = .write frame time →
      Move s (.written c false) (s.setConn c { s.conns c with sender := .ended })
  | closedWritten {c} : (s.conns c).sender = .writeClosed →
      Move s (.written c true)
        ((s.put c s.clock .closed).setConn c { s.conns c with sender := .ended })
  | closedUnwritten {c} : (s.conns c).sender = .writeClosed →
      Move s (.written c false) (s.setConn c { s.conns c with sender := .ended })
  | cancel {c} : (s.conns c).aborted = true → (s.conns c).sender.atAwait = true →
      Move s (.cancel c) (s.setConn c { s.conns c with sender := .ended })
  | actorOutput {i ses bytes} : s.sessions i = some ses → ses.actor = true →
      Move s (.actorOutput i bytes) (s.setSession i { ses with output := ses.output ++ [bytes] })
  | actorInput {i ses input rest} : s.sessions i = some ses → ses.input = input :: rest →
      Move s (.actorInput i) (s.setSession i { ses with input := rest })
  | actorEnd {i ses} : s.sessions i = some ses → ses.actor = true →
      Move s (.actorEnd i) (s.setSession i { ses with actor := false, input := [] })
  | actorNone {i ses} : s.sessions i = some ses → ses.actor = true → s.inputAlive i = false →
      Move s (.actorNone i) (s.setSession i { ses with actor := false })
  | ingest {i ses bytes rest} : s.sessions i = some ses → ses.output = bytes :: rest →
      ses.ingest = true →
      Move s (.ingest i)
        (s.setSession i { ses with
          inner := ses.inner.append .exact bytes
          output := rest
          produced := ses.produced ++ bytes })
  | ingestEnd {i ses} : s.sessions i = some ses → ses.ingest = true → ses.actor = false →
      Move s (.ingestEnd i) (s.setSession i { ses with inner := ses.inner.close, ingest := false })
  | tick {elapsed} : 0 ≤ elapsed →
      Move s (.tick elapsed) { s with clock := s.clock + elapsed }

section Inversion

variable {s s' : State} {c : ConnId} {i : SessionId}

theorem recvHello_move {r : Recv} (h : s.recvHello c r = some s') :
    Move s (.recvHello c r) s' := by
  simp only [State.recvHello] at h
  split at h
  next hpc =>
    split at h
    · cases h; exact .helloLost hpc
    · split at h
      next hv => subst hv; cases h; exact .hello hpc
      next => cases h; exact .helloRefused _ hpc
    · cases h; exact .helloRefused _ hpc
  next => cases h

theorem authorized_move {answer : Except Denied Entitlement}
    (h : s.authorized c answer = some s') : Move s (.authorized c answer) s' := by
  simp only [State.authorized] at h
  split at h
  next hpc =>
    cases answer with
    | ok entitlement => cases h; exact .authorized hpc
    | error denied => cases h; exact .denied hpc
  next => cases h

theorem lookup_move (h : s.lookup c = some s') : Move s (.lookup c) s' := by
  simp only [State.lookup] at h
  split at h
  next hpc =>
    split at h
    next session hr =>
      obtain ⟨token, ht, hs⟩ := Option.bind_eq_some_iff.mp hr
      cases h; exact .resumed hpc ht hs
    next hr => cases h; exact .unresumed hpc hr
  next => cases h

theorem recvOpen_move {r : Recv} (h : s.recvOpen c r = some s') :
    Move s (.recvOpen c r) s' := by
  simp only [State.recvOpen] at h
  split at h
  next hpc =>
    split at h
    · cases h; exact .openLost hpc
    · split at h
      · cases h; exact .openTarget hpc
      · cases h; exact .openRefused _ hpc
    · cases h; exact .openRefused _ hpc
  next => cases h

theorem signSent_move {result : Except String Unit} (h : s.signSent c result = some s') :
    Move s (.signSent c result) s' := by
  simp only [State.signSent] at h
  split at h
  next id publicKey data hpc =>
    cases result with
    | ok u => cases h; exact .signSent hpc
    | error e => cases h; exact .signUnsent hpc
  next => cases h

theorem signRecv_move {r : Recv} (h : s.signRecv c r = some s') :
    Move s (.signRecv c r) s' := by
  simp only [State.signRecv] at h
  split at h
  next id hpc =>
    split at h
    · cases h; exact .signRefused _ hpc
    · split at h
      next hid => subst hid; cases h; exact .signed hpc
      next => cases h; exact .signIgnored
    · cases h; exact .signIgnored
    · cases h; exact .signRefused _ hpc
  next => cases h

theorem sessionOpened_move {answer : Except Denied Unit}
    (h : s.sessionOpened c answer = some s') : Move s (.sessionOpened c answer) s' := by
  obtain ⟨session, hses, h⟩ := Option.bind_eq_some_iff.mp h
  split at h
  next hpc =>
    cases answer with
    | ok u => cases h; exact .slotTaken hpc hses
    | error denied => cases h; exact .slotDenied hpc hses
  next => cases h

theorem rejectSent_move {ok : Bool} (h : s.rejectSent c ok = some s') :
    Move s (.rejectSent c ok) s' := by
  simp only [State.rejectSent] at h
  split at h
  next message hpc =>
    cases ok with
    | true => cases h; exact .rejectSent hpc
    | false => cases h; exact .rejectUnsent hpc
  next => cases h

theorem helloSent_move {ok : Bool} (h : s.helloSent c ok = some s') :
    Move s (.helloSent c ok) s' := by
  obtain ⟨session, hses, h⟩ := Option.bind_eq_some_iff.mp h
  split at h
  next hpc =>
    cases ok with
    | true => cases h; exact .helloSent hpc hses
    | false => cases h; exact .helloUnsent hpc hses
  next => cases h

theorem statusSent_move {ok : Bool} (h : s.statusSent c ok = some s') :
    Move s (.statusSent c ok) s' := by
  simp only [State.statusSent] at h
  split at h
  next hpc =>
    cases ok with
    | true => cases h; exact .statusSent hpc
    | false => cases h; exact .statusUnsent hpc
  next => cases h

theorem recv_move {r : Recv} (h : s.recv c r = some s') : Move s (.recv c r) s' := by
  simp only [State.recv] at h
  split at h
  next hpc =>
    cases r with
    | error e => cases h; exact .recvLost hpc
    | ok frame =>
      cases frame with
      | data bytes => cases h; exact .recvData hpc
      | resize cols rows => cases h; exact .recvResize hpc
      | ping => cases h; exact .recvPing hpc
      | close => cases h; exact .recvClose hpc
      | hello | openTarget | signResponse => cases h; exact .recvIgnored hpc
  next => cases h

theorem forward_move (h : s.forward c = some s') : Move s (.forward c) s' := by
  obtain ⟨session, hses, h⟩ := Option.bind_eq_some_iff.mp h
  obtain ⟨ses, hs, h⟩ := Option.bind_eq_some_iff.mp h
  split at h
  next input hpc =>
    split at h
    next ha =>
      split at h
      · cases h; exact .forwarded hpc hses hs ha
      · cases h
    next ha => cases h; exact .unforwarded hpc hses hs (by simpa using ha)
  next => cases h

theorem pong_move (h : s.pong c = some s') : Move s (.pong c) s' := by
  simp only [State.pong] at h
  split at h
  next hpc =>
    split at h
    · split at h
      · cases h; exact .ponged hpc
      · cases h
    · cases h; exact .unponged hpc
  next => cases h

theorem checkClosed_move (h : s.checkClosed c = some s') : Move s (.checkClosed c) s' := by
  obtain ⟨session, hses, h⟩ := Option.bind_eq_some_iff.mp h
  obtain ⟨ses, hs, h⟩ := Option.bind_eq_some_iff.mp h
  split at h
  next outcome hpc =>
    split at h
    next hd => cases h; exact .ended hpc hses hs hd
    next hd =>
      have hc : ses.inner.closed = false := by
        simpa using fun hc => hd (Or.inr hc)
      cases h; exact .kept hpc hses hs hc
  next => cases h

theorem pollReader_move (h : s.pollReader c = some s') : Move s (.pollReader c) s' := by
  obtain ⟨session, hses, h⟩ := Option.bind_eq_some_iff.mp h
  obtain ⟨ses, hs, h⟩ := Option.bind_eq_some_iff.mp h
  split at h
  next hpc =>
    obtain ⟨⟨p, reader⟩, hp, h⟩ := Option.bind_eq_some_iff.mp h
    cases p with
    | chunk bytes => cases h; exact .chunk hpc hses hs hp
    | finished => cases h; exact .finished hpc hses hs hp
    | parked => cases h; exact .parked hpc hses hs hp
  next => cases h

theorem pollOob_move (h : s.pollOob c = some s') : Move s (.pollOob c) s' := by
  simp only [State.pollOob] at h
  split at h
  next hpc =>
    split at h
    next frame rest ho => cases h; exact .oob hpc.1 ho
    next ho =>
      split at h
      · cases h
      · cases h; exact .oobClosed hpc.1
  next => cases h

theorem throttle_move (h : s.throttle c = some s') : Move s (.throttle c) s' := by
  simp only [State.throttle] at h
  split at h
  next bytes hpc =>
    split at h
    next hl => cases h; exact .unlimited hpc hl
    next bucket last hl =>
      split at h
      next left ht => cases h; exact .admitted hpc hl ht
      next left ht => cases h; exact .delayed hpc hl ht
  next => cases h

theorem written_move {ok : Bool} (h : s.written c ok = some s') :
    Move s (.written c ok) s' := by
  simp only [State.written] at h
  split at h
  next frame time hpc =>
    cases ok with
    | true => cases h; exact .written hpc
    | false => cases h; exact .unwritten hpc
  next hpc =>
    cases ok with
    | true => cases h; exact .closedWritten hpc
    | false => cases h; exact .closedUnwritten hpc
  next => cases h

theorem step_move {l : Label} (h : step s l = some s') : Move s l s' := by
  cases l with
  | accept c =>
    obtain ⟨hpc, hs⟩ := Option.ite_none_right_eq_some.mp h
    cases hs; exact .accept hpc
  | recvHello c r => exact recvHello_move h
  | authorized c answer => exact authorized_move h
  | lookup c => exact lookup_move h
  | recvOpen c r => exact recvOpen_move h
  | loginFailed c error =>
    obtain ⟨hpc, hs⟩ := Option.ite_none_right_eq_some.mp h
    cases hs; exact .loginFailed hpc
  | signAsked c publicKey data =>
    obtain ⟨hpc, hs⟩ := Option.ite_none_right_eq_some.mp h
    cases hs; exact .signAsked hpc.1
  | signSent c result => exact signSent_move h
  | signRecv c r => exact signRecv_move h
  | loggedIn c id token =>
    obtain ⟨⟨hpc, hid, htoken⟩, hs⟩ := Option.ite_none_right_eq_some.mp h
    cases hs; exact .loggedIn hpc hid htoken
  | sessionOpened c answer => exact sessionOpened_move h
  | rejectSent c ok => exact rejectSent_move h
  | helloSent c ok => exact helloSent_move h
  | statusSent c ok => exact statusSent_move h
  | recv c r => exact recv_move h
  | forward c => exact forward_move h
  | pong c => exact pong_move h
  | abort c =>
    simp only [step, State.abort] at h
    split at h
    next outcome hpc => cases h; exact .abort hpc
    next => cases h
  | report c =>
    obtain ⟨session, hses, h⟩ := Option.bind_eq_some_iff.mp h
    split at h
    next outcome hpc => cases h; exact .report hpc hses
    next => cases h
  | reported c =>
    simp only [step, State.reported] at h
    split at h
    next outcome hpc => cases h; exact .reported hpc
    next => cases h
  | checkClosed c => exact checkClosed_move h
  | closeCall c =>
    obtain ⟨session, hses, h⟩ := Option.bind_eq_some_iff.mp h
    obtain ⟨hpc, hs⟩ := Option.ite_none_right_eq_some.mp h
    cases hs; exact .closeCall hpc hses
  | closeReturned c =>
    obtain ⟨session, hses, h⟩ := Option.bind_eq_some_iff.mp h
    obtain ⟨hpc, hs⟩ := Option.ite_none_right_eq_some.mp h
    cases hs; exact .closeReturned hpc hses
  | leave c =>
    obtain ⟨hpc, hs⟩ := Option.ite_none_right_eq_some.mp h
    cases hs; exact .leave hpc
  | senderStart c =>
    obtain ⟨hpc, hs⟩ := Option.ite_none_right_eq_some.mp h
    cases hs; exact .senderStart hpc
  | pollReader c => exact pollReader_move h
  | pollOob c => exact pollOob_move h
  | throttle c => exact throttle_move h
  | wake c =>
    simp only [step, State.wake] at h
    split at h
    next bytes until_ hpc =>
      obtain ⟨-, hs⟩ := Option.ite_none_right_eq_some.mp h
      cases hs; exact .wake hpc
    next => cases h
  | addOut c =>
    simp only [step, State.addOut] at h
    split at h
    next bytes time hpc => cases h; exact .addOut hpc
    next => cases h
  | written c ok => exact written_move h
  | cancel c =>
    obtain ⟨⟨ha, hpc⟩, hs⟩ := Option.ite_none_right_eq_some.mp h
    cases hs; exact .cancel ha hpc
  | actorOutput i bytes =>
    obtain ⟨ses, hses, h⟩ := Option.bind_eq_some_iff.mp h
    obtain ⟨⟨ha, -⟩, hs⟩ := Option.ite_none_right_eq_some.mp h
    cases hs; exact .actorOutput hses ha
  | actorInput i =>
    obtain ⟨ses, hses, h⟩ := Option.bind_eq_some_iff.mp h
    split at h
    next input rest hi =>
      obtain ⟨-, hs⟩ := Option.ite_none_right_eq_some.mp h
      cases hs; exact .actorInput hses hi
    next => cases h
  | actorEnd i =>
    obtain ⟨ses, hses, h⟩ := Option.bind_eq_some_iff.mp h
    obtain ⟨ha, hs⟩ := Option.ite_none_right_eq_some.mp h
    cases hs; exact .actorEnd hses ha
  | actorNone i =>
    obtain ⟨ses, hses, h⟩ := Option.bind_eq_some_iff.mp h
    obtain ⟨⟨ha, -, hn⟩, hs⟩ := Option.ite_none_right_eq_some.mp h
    cases hs; exact .actorNone hses ha hn
  | ingest i =>
    obtain ⟨ses, hses, h⟩ := Option.bind_eq_some_iff.mp h
    split at h
    next bytes rest ho =>
      obtain ⟨hi, hs⟩ := Option.ite_none_right_eq_some.mp h
      cases hs; exact .ingest hses ho hi
    next => cases h
  | ingestEnd i =>
    obtain ⟨ses, hses, h⟩ := Option.bind_eq_some_iff.mp h
    obtain ⟨⟨hi, ha, -⟩, hs⟩ := Option.ite_none_right_eq_some.mp h
    cases hs; exact .ingestEnd hses hi ha
  | tick elapsed =>
    obtain ⟨he, hs⟩ := Option.ite_none_right_eq_some.mp h
    cases hs; exact .tick he

end Inversion

/-- A connection's record is changed by its own tasks only. -/
theorem Move.conns_of_ne {s s' : State} {l : Label} (m : Move s l s') {d : ConnId}
    (h : l.conn ≠ some d) : s'.conns d = s.conns d := by
  cases m with
  | actorOutput | actorInput | actorEnd | actorNone | ingest | ingestEnd | tick | signIgnored
  | recvIgnored => rfl
  | _ => exact State.setConn_conns_of_ne _ _ _ fun he => h (congrArg some he.symm)

theorem recv_ignored {s : State} {c : ConnId} {frame : ClientFrame} (hpc : (s.conns c).pc = .live)
    (h : step s (.recv c (.ok frame)) = some s) : frame ≠ .ping ∧ (∀ bytes, frame ≠ .data bytes) ∧
      ∀ cols rows, frame ≠ .resize cols rows := by
  have moved : ∀ x, some (s.setConn c x) = some s → x.pc = .live := by
    intro x hx
    rw [← hpc, ← Option.some.inj hx, State.setConn_conns_self]
  simp only [step, State.recv, hpc, if_true] at h
  refine ⟨?_, ?_, ?_⟩
  · rintro rfl
    cases moved _ h
  · rintro bytes rfl
    cases moved _ h
  · rintro cols rows rfl
    cases moved _ h

end TtyGateway
