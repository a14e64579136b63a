import TtyGateway.Acceptance
import TtyGateway.Farewell
import TtyGateway.Pacing

namespace TtyGateway

open Transition

/-- No input that comes in this step is longer than `N`, and no output than `B`. -/
def Label.Within (N B : Nat) : Label → Prop
  | .recv _ (.ok (.data bytes)) => bytes.length ≤ N
  | .actorOutput _ bytes => bytes.length ≤ B
  | _ => True

/-- What waits in the channels of a session is bounded. -/
structure Session.Within (N B : Nat) (ses : Session) : Prop where
  input : ∀ x ∈ ses.input, x.size ≤ N
  room : ses.output.length ≤ 256
  output : ∀ bytes ∈ ses.output, bytes.length ≤ B

structure State.Within (N B : Nat) (s : State) : Prop where
  sessions : ∀ i ses, s.sessions i = some ses → ses.Within N B
  hand : ∀ c x, (s.conns c).pc = .forward x → x.size ≤ N

section Gateway

variable {s s' : State} {l : Label} {c : ConnId} {i : SessionId} {N B : Nat}

theorem actorOutput_room {bytes : Bytes} (hs : step s (.actorOutput i bytes) = some s') :
    ∃ ses, s.sessions i = some ses ∧ ses.output.length < 256 := by
  obtain ⟨ses, hses, hs⟩ := Option.bind_eq_some_iff.mp hs
  obtain ⟨⟨-, hroom⟩, -⟩ := Option.ite_none_right_eq_some.mp hs
  exact ⟨ses, hses, hroom⟩

theorem State.Within.setSession (h : s.Within N B) {new ses : Session} {j : SessionId}
    (hj : (s.setSession i new).sessions j = some ses) (hnew : new.Within N B) :
    ses.Within N B := by
  rw [State.setSession_sessions] at hj
  split at hj
  next => exact Option.some.inj hj ▸ hnew
  next => exact h.sessions j ses hj

theorem step_within_hand (hs : step s l = some s') (hl : l.Within N B) (h : s.Within N B)
    {x : SshInput} (hpc : (s'.conns c).pc = .forward x) : x.size ≤ N := by
  have m := step_move hs
  by_cases hc : l.conn = some c
  · cases m with
    | recvData =>
      cases hc
      rw [State.setConn_conns_self] at hpc
      cases hpc
      exact hl
    | recvResize =>
      cases hc
      rw [State.setConn_conns_self] at hpc
      cases hpc
      exact Nat.zero_le _
    | actorOutput | actorInput | actorEnd | actorNone | ingest | ingestEnd | tick => cases hc
    | signIgnored | recvIgnored => exact h.hand c x hpc
    | senderStart | chunk | finished | parked | oob | oobClosed | unlimited | admitted | delayed
    | wake | addOut | written | unwritten | closedWritten | closedUnwritten | cancel =>
      cases hc
      exact h.hand c x (by simpa using hpc)
    | _ =>
      cases hc
      simp at hpc
  · rw [m.conns_of_ne hc] at hpc
    exact h.hand c x hpc

theorem step_within (hs : step s l = some s') (hl : l.Within N B) (h : s.Within N B) :
    s'.Within N B := by
  refine ⟨fun j ses hj => ?_, fun c x => step_within_hand hs hl h⟩
  have m := step_move hs
  cases m with
  | @forwarded c session old input hpc _ hold =>
    have hbefore := h.sessions _ old hold
    refine h.setSession hj ⟨fun x hx => ?_, hbefore.room, hbefore.output⟩
    rcases List.mem_append.mp hx with hx | hx
    · exact hbefore.input x hx
    · exact List.mem_singleton.mp hx ▸ h.hand c input hpc
  | loggedIn =>
    exact h.setSession hj ⟨fun _ hx => absurd hx List.not_mem_nil, Nat.zero_le _,
      fun _ hx => absurd hx List.not_mem_nil⟩
  | @actorOutput i old bytes hold =>
    have hbefore := h.sessions _ old hold
    obtain ⟨found, hfound, hroom⟩ := actorOutput_room hs
    obtain rfl := Option.some.inj (hold.symm.trans hfound)
    refine h.setSession hj ⟨hbefore.input, ?_, fun out hout => ?_⟩
    · show (old.output ++ [bytes]).length ≤ 256
      rw [List.length_append, List.length_singleton]
      omega
    · rcases List.mem_append.mp hout with hout | hout
      · exact hbefore.output out hout
      · exact List.mem_singleton.mp hout ▸ hl
  | @actorInput i old input rest hold hin =>
    have hbefore := h.sessions _ old hold
    have hrest : ∀ x ∈ rest, x ∈ old.input := by
      intro x hx
      rw [hin]
      exact List.mem_cons_of_mem _ hx
    exact h.setSession hj ⟨fun x hx => hbefore.input x (hrest x hx), hbefore.room, hbefore.output⟩
  | actorEnd hold =>
    have hbefore := h.sessions _ _ hold
    exact h.setSession hj ⟨fun _ hx => absurd hx List.not_mem_nil, hbefore.room, hbefore.output⟩
  | @ingest i old bytes rest hold hout =>
    have hbefore := h.sessions _ old hold
    refine h.setSession hj ⟨hbefore.input, ?_, fun out hm => ?_⟩
    · have hroom := hbefore.room
      rw [hout, List.length_cons] at hroom
      exact Nat.le_of_succ_le hroom
    · refine hbefore.output out ?_
      rw [hout]
      exact List.mem_cons_of_mem _ hm
  | actorNone hold | ingestEnd hold =>
    have hbefore := h.sessions _ _ hold
    exact h.setSession hj ⟨hbefore.input, hbefore.room, hbefore.output⟩
  | _ => exact h.sessions j ses hj

end Gateway

/-- An actor has no more in its hands than is allowed. -/
def ActorPc.Within (N B : Nat) : ActorPc → Prop
  | .send bytes => bytes.length ≤ B
  | .write rest => rest.length ≤ N
  | .top | .select => True

def Shell.coming (x : Shell) : List ChannelMsg := x.queue ++ x.link

structure Shell.Within (N B : Nat) (x : Shell) : Prop where
  hand : x.pc.Within N B
  coming : ∀ msg ∈ x.coming, ∀ bytes ∈ msg.output, bytes.length ≤ B

def ProxyLabel.Within (N B : Nat) : ProxyLabel → Prop
  | .gateway l => l.Within N B
  | .produce _ msg => ∀ bytes ∈ msg.output, bytes.length ≤ B
  | _ => True

section Proxy

variable {lim : SshLimits} {s s' : Proxy} {l : ProxyLabel} {i j : SessionId} {N B : Nat}

theorem Proxy.coming_setShell {t : Proxy} {x : Shell} {msg : ChannelMsg} (ht : t.shells = s.shells)
    (hm : msg ∈ ((t.setShell i x).shells j).coming) :
    msg ∈ (s.shells j).coming ∨ i = j ∧ msg ∈ x.coming := by
  rw [Proxy.setShell_shells] at hm
  split at hm
  next he => exact Or.inr ⟨he.symm, hm⟩
  next => exact Or.inl (ht ▸ hm)

theorem emit_coming {sent msg : ChannelMsg} {f : Shell → Shell}
    (hs : s.emit lim i sent f = some s') (hf : ∀ x, (f x).coming = x.coming)
    (hm : msg ∈ (s'.shells j).coming) :
    msg ∈ (s.shells j).coming ∨ i = j ∧ msg = sent := by
  obtain ⟨-, -, rfl⟩ := emit_move hs
  rcases Proxy.coming_setShell rfl hm with hold | ⟨rfl, hnew⟩
  · exact Or.inl hold
  · rw [hf, Shell.coming, ← List.append_assoc] at hnew
    exact (List.mem_append.mp hnew).imp id fun hlast => ⟨rfl, List.mem_singleton.mp hlast⟩

theorem Shell.receive_coming {x : Shell} {msg : ChannelMsg} :
    (x.receive msg).coming = x.coming := by
  unfold Shell.receive
  split <;> rfl

theorem Shell.resize_coming {x : Shell} : x.resize.coming = x.coming := by
  unfold Shell.resize
  split <;> rfl

theorem Shell.begin_coming {x : Shell} {command : SshInput} :
    (x.begin command).coming = x.coming := by
  cases command <;> rfl

theorem wait_coming {msg : ChannelMsg} (hs : s.wait i = some s')
    (hm : msg ∈ (s'.shells j).coming) : msg ∈ (s.shells j).coming := by
  obtain ⟨ses, hses, h⟩ := Option.bind_eq_some_iff.mp hs
  obtain ⟨-, h⟩ := Option.ite_none_right_eq_some.mp h
  split at h
  next first rest hq =>
    have hrest : msg ∈ rest ++ (s.shells i).link → msg ∈ (s.shells i).coming := by
      intro hm
      rw [Shell.coming, hq, List.cons_append]
      exact List.mem_cons_of_mem _ hm
    split at h
    next =>
      obtain ⟨g, -, rfl⟩ := Option.map_eq_some_iff.mp h
      rcases Proxy.coming_setShell rfl hm with hold | ⟨rfl, hnew⟩
      · exact hold
      · exact hrest hnew
    next =>
      cases h
      rcases Proxy.coming_setShell rfl hm with hold | ⟨rfl, hnew⟩
      · exact hold
      · rw [Shell.receive_coming] at hnew
        exact hrest hnew
  next =>
    obtain ⟨-, h⟩ := Option.ite_none_right_eq_some.mp h
    obtain ⟨g, -, rfl⟩ := Option.map_eq_some_iff.mp h
    rcases Proxy.coming_setShell rfl hm with hold | ⟨rfl, hnew⟩
    · exact hold
    · exact hnew

theorem ProxyMove.coming (m : ProxyMove lim s l s') (hl : ∀ i, l ≠ .wait i) {msg : ChannelMsg}
    (hm : msg ∈ (s'.shells j).coming) : msg ∈ (s.shells j).coming ∨
      (∃ i n, l = .read i n) ∨ ∃ i sent, l = .produce i sent ∨ l = .hangup i sent := by
  have kept : ∀ {t : Proxy} {i x}, t.shells = s.shells →
      msg ∈ ((t.setShell i x).shells j).coming →
      (∀ found ∈ x.coming, found ∈ (s.shells i).coming) → msg ∈ (s.shells j).coming := by
    intro t i x ht hm hx
    rcases Proxy.coming_setShell ht hm with hold | ⟨rfl, hnew⟩
    · exact hold
    · exact hx _ hnew
  cases m with
  | gateway => exact Or.inl hm
  | abandoned => exact Or.inl hm
  | emitted sent hcase =>
    rcases hcase with ⟨n, rfl⟩ | rfl | rfl
    · exact Or.inr (Or.inl ⟨_, _, rfl⟩)
    · exact Or.inr (Or.inr ⟨_, _, Or.inl rfl⟩)
    · exact Or.inr (Or.inr ⟨_, _, Or.inr rfl⟩)
  | received => exact absurd rfl (hl _)
  | left _ _ hcase =>
    rcases hcase with ⟨rfl, -⟩ | ⟨-, -, rfl⟩
    · exact absurd rfl (hl _)
    · exact Or.inl (kept rfl hm fun _ hf => hf)
  | top => exact Or.inl (kept rfl hm fun _ hf => Shell.resize_coming ▸ hf)
  | taken => exact Or.inl (kept rfl hm fun _ hf => Shell.begin_coming ▸ hf)
  | sent | wrote | written => exact Or.inl (kept rfl hm fun _ hf => hf)
  | @delivered i first rest hlink =>
    refine Or.inl (kept rfl hm fun found hf => ?_)
    rw [Shell.coming, Shell.put, List.append_assoc, List.singleton_append, ← hlink] at hf
    exact hf
  | lost =>
    refine Or.inl (kept rfl hm fun found hf => ?_)
    rw [Shell.coming, List.append_nil] at hf
    exact List.mem_append_left _ hf

theorem step_coming (hs : proxyStep lim s l = some s') {msg : ChannelMsg}
    (hm : msg ∈ (s'.shells j).coming) : msg ∈ (s.shells j).coming ∨
      l = .produce j msg ∨ msg.output = none := by
  cases l with
  | wait i => exact Or.inl (wait_coming hs hm)
  | read i n =>
    obtain ⟨-, h⟩ := Option.ite_none_right_eq_some.mp hs
    rcases emit_coming h (fun _ => rfl) hm with hold | ⟨-, rfl⟩
    · exact Or.inl hold
    · exact Or.inr (Or.inr rfl)
  | produce i sent =>
    obtain ⟨-, h⟩ := Option.ite_none_right_eq_some.mp hs
    rcases emit_coming h (fun _ => rfl) hm with hold | ⟨rfl, rfl⟩
    · exact Or.inl hold
    · exact Or.inr (Or.inl rfl)
  | hangup i sent =>
    obtain ⟨hends, h⟩ := Option.ite_none_right_eq_some.mp hs
    rcases emit_coming h (fun _ => rfl) hm with hold | ⟨-, rfl⟩
    · exact Or.inl hold
    · right
      right
      cases msg with
      | eof | close => rfl
      | _ => cases hends
  | _ =>
    rcases (proxyStep_move hs).coming (fun _ he => by cases he) hm with
      hold | ⟨_, _, he⟩ | ⟨_, _, he | he⟩
    · exact Or.inl hold
    · cases he
    · cases he
    · cases he

theorem Shell.resize_within {x : Shell} : x.resize.pc.Within N B := by
  unfold Shell.resize
  split <;> exact trivial

theorem Shell.receive_within {x : Shell} {msg : ChannelMsg}
    (h : ∀ bytes ∈ msg.output, bytes.length ≤ B) : (x.receive msg).pc.Within N B := by
  unfold Shell.receive
  split
  next bytes hout => exact h bytes hout
  next => exact trivial

theorem Shell.begin_within {x : Shell} {command : SshInput} (h : command.size ≤ N) :
    (x.begin command).pc.Within N B := by
  cases command with
  | data bytes => exact h
  | resize => exact trivial

theorem step_within_actor (hs : proxyStep lim s l = some s') (hg : s.gateway.Within N B)
    (h : ∀ i, (s.shells i).Within N B) : (s'.shells j).pc.Within N B := by
  have set : ∀ {t : Proxy} {i x}, t.shells = s.shells → x.pc.Within N B →
      ((t.setShell i x).shells j).pc.Within N B := by
    intro t i x ht hx
    rw [Proxy.setShell_shells]
    split
    next => exact hx
    next => exact ht ▸ (h j).hand
  cases proxyStep_move hs with
  | gateway | abandoned => exact (h j).hand
  | top => exact set rfl Shell.resize_within
  | @received i ses msg rest _ _ _ hq =>
    refine set rfl (Shell.receive_within fun bytes hout => ?_)
    refine (h i).coming msg ?_ bytes hout
    rw [Shell.coming, hq]
    exact List.mem_cons_self
  | @left i k g x _ _ hcase =>
    rcases hcase with ⟨-, -, hpc⟩ | ⟨-, -, rfl⟩
    · exact set rfl (hpc ▸ trivial)
    · exact set rfl (h i).hand
  | sent | written => exact set rfl trivial
  | @taken i ses command rest g hses _ hin =>
    refine set rfl (Shell.begin_within ?_)
    refine (hg.sessions i ses hses).input command ?_
    rw [hin]
    exact List.mem_cons_self
  | @wrote i ses rest n _ _ hpc =>
    refine set rfl ?_
    have hhand := (h i).hand
    rw [hpc] at hhand
    show (rest.drop n).length ≤ N
    rw [List.length_drop]
    exact (Nat.sub_le _ _).trans hhand
  | delivered | lost => exact set rfl (h _).hand
  | emitted _ _ hpc => exact set rfl (hpc ▸ (h _).hand)

/-- No step goes beyond the bounds, if no input that is read and no output of a target does. -/
theorem step_within_proxy (hs : proxyStep lim s l = some s') (hl : l.Within N B)
    (hg : s.gateway.Within N B) (h : ∀ i, (s.shells i).Within N B) :
    s'.gateway.Within N B ∧ ∀ i, (s'.shells i).Within N B := by
  refine ⟨?_, fun i => ⟨step_within_actor hs hg h, fun msg hm bytes hout => ?_⟩⟩
  · cases proxyStep_move hs with
    | gateway _ hstep => exact step_within hstep hl hg
    | @sent i bytes g hpc hstep =>
      have hhand := (h i).hand
      rw [hpc] at hhand
      exact step_within hstep hhand hg
    | left hstep | taken _ _ _ hstep | abandoned hstep => exact step_within hstep trivial hg
    | _ => exact hg
  · rcases step_coming hs hm with hold | rfl | hnone
    · exact (h i).coming msg hold bytes hout
    · exact hl bytes hout
    · simp [hnone] at hout

end Proxy

section Frames

variable {lost : Bool} {stream rest bytes : Bytes}

theorem recv_data_length
    (h : FramedRecv.recv ClientFrame.codec lost stream = .ok (.data bytes, rest)) :
    bytes.length ≤ maxFrameLen := by
  obtain ⟨len, body, -, -, -, hmax, hdec⟩ := FramedRecv.recv_eq_ok h
  obtain ⟨tail, hread⟩ := decode_eq_ok hdec
  obtain ⟨used, rfl, hlen, -⟩ := ClientFrame.codec_reader.consumes hread
  have hdata : bytes.length ≤ (ClientFrame.codec.encode (.data bytes)).length := by
    have happend : ClientFrame.codec.encode (.data bytes) =
        Postcard.putVarint (Postcard.varintMax 32) (BitVec.ofNat 32 2).toNat ++
          (Postcard.putVarint (Postcard.varintMax 64) (BitVec.ofNat 64 bytes.length).toNat ++
            bytes) := rfl
    rw [happend]
    simp only [List.length_append]
    omega
  rw [List.length_append] at hmax
  omega

end Frames

def PathLabel.output : PathLabel → Option Bytes
  | .proxy (.produce _ msg) => msg.output
  | _ => none

structure Path.Within (B : Nat) (p : Path) : Prop where
  gateway : p.proxy.gateway.Within maxFrameLen B
  shells : ∀ i, (p.proxy.shells i).Within maxFrameLen B

/-- The bytes an actor has taken and not passed on. -/
def ActorPc.held : ActorPc → Nat
  | .send bytes | .write bytes => bytes.length
  | .top | .select => 0

/-- The bytes of a client's frame that its handler has not passed on. -/
def Pc.held : Pc → Nat
  | .forward input => input.size
  | _ => 0

def Path.heldFor (p : Path) (i : SessionId) (ses : Session) : Nat :=
  ses.inner.buf.length + inputBytes ses.input + (ses.output.map List.length).sum +
    (p.proxy.shells i).pc.held

def Conn.held (x : Conn) : Nat := x.pc.held + (x.sender.inFlight.map List.length).sum

section Bounds

variable {lim : SshLimits} {text : TransportError → String} {maxScrollback B : Nat} {p p' : Path}
  {l : PathLabel} {ls : List PathLabel}

theorem Path.listen_within {k : Label} {lines : ConnId → Line} (h : p.listen text k = some lines)
    (ha : k.actor = false) : k.Within maxFrameLen B := by
  cases k with
  | recv c r =>
    cases r with
    | error => exact trivial
    | ok frame =>
      cases frame with
      | data bytes =>
        obtain ⟨y, hy, -⟩ := Option.map_eq_some_iff.mp h
        obtain ⟨-, ⟨frame, used, he, -, -, hrecv⟩ | ⟨e, he, -⟩⟩ := Line.recv_eq_some hy
        · cases he
          exact recv_data_length (hrecv false [])
        · cases he
      | _ => exact trivial
  | actorOutput => cases ha
  | _ => exact trivial

theorem path_within (hs : p.step lim text l = some p')
    (hl : ∀ bytes ∈ l.output, bytes.length ≤ B) (h : p.Within B) : p'.Within B := by
  cases step_path hs with
  | @gate k proxy w lines hproxy _ hlines =>
    obtain ⟨ha, -⟩ := proxyStep_gateway hproxy
    have hk : k.Within maxFrameLen B := Path.listen_within hlines ha
    obtain ⟨hgateway, hshells⟩ := step_within_proxy hproxy hk h.gateway h.shells
    exact ⟨hgateway, hshells⟩
  | @actor k proxy hk hproxy =>
    have hwithin : k.Within maxFrameLen B := by
      cases k with
      | gateway k => exact absurd rfl (hk k)
      | produce => exact hl
      | _ => exact trivial
    obtain ⟨hgateway, hshells⟩ := step_within_proxy hproxy hwithin h.gateway h.shells
    exact ⟨hgateway, hshells⟩
  | push | line => exact ⟨h.gateway, h.shells⟩

theorem exec_within (run : exec (Path.step lim text) (.init lim maxScrollback) ls = some p)
    (hls : ∀ l ∈ ls, ∀ bytes ∈ l.output, bytes.length ≤ B) : p.Within B := by
  have hall : (∀ l ∈ ls, ∀ bytes ∈ l.output, bytes.length ≤ B) → p.Within B := by
    refine exec_trace (P := fun ls p =>
      (∀ l ∈ ls, ∀ bytes ∈ l.output, bytes.length ≤ B) → p.Within B) (fun _ => ?_) ?_ run
    · refine ⟨⟨fun i ses hi => ?_, fun c x hpc => ?_⟩, fun i => ⟨trivial, fun msg hm => ?_⟩⟩
      · cases hi
      · cases hpc
      · exact absurd hm List.not_mem_nil
    · intro ms t l t' ih hs hms
      exact path_within hs (hms l (List.mem_append_right _ (List.mem_singleton_self l)))
        (ih fun k hk => hms k (List.mem_append_left _ hk))
  exact hall hls

theorem sum_map_le {α : Type} {f : α → Nat} {xs : List α} {n b : Nat} (hn : xs.length ≤ n)
    (hb : ∀ x ∈ xs, f x ≤ b) : (xs.map f).sum ≤ n * b := by
  have hsum : (xs.map f).sum ≤ (xs.map f).length • b := by
    refine List.sum_le_card_nsmul _ _ fun y hy => ?_
    obtain ⟨x, hx, rfl⟩ := List.mem_map.mp hy
    exact hb x hx
  rw [List.length_map, nsmul_eq_mul, Nat.cast_id] at hsum
  exact hsum.trans (Nat.mul_le_mul_right b hn)

/-- However fast clients and targets send, and however slowly they read, the gateway holds no more
than the buffer, sixty-four frames and the target's next two hundred and fifty-six messages for a
session, and a frame, a chunk and sixteen `Pong`s for a connection. -/
theorem backlog_bounded (run : exec (Path.step lim text) (.init lim maxScrollback) ls = some p)
    (hls : ∀ l ∈ ls, ∀ bytes ∈ l.output, bytes.length ≤ B) :
    (∀ i ses, p.proxy.gateway.sessions i = some ses → p.heldFor i ses ≤
      maxScrollback + 64 * maxFrameLen + 256 * B + max maxFrameLen B) ∧
    ∀ c, (p.proxy.gateway.conns c).held ≤ maxFrameLen + maxScrollback ∧
      (p.proxy.gateway.conns c).oob.length ≤ 16 := by
  have hgate : Reachable (gateway maxScrollback) p.proxy.gateway :=
    wired_gateway (exec_path run).2.1
  have hwithin := exec_within run hls
  obtain ⟨delivers, hmax⟩ := gateway_delivers hgate
  refine ⟨fun i ses hi => ?_, fun c => ⟨?_, (gateway_paced hgate c).room⟩⟩
  · have hses := hwithin.gateway.sessions i ses hi
    obtain ⟨hholds, hbytes⟩ := delivers.buffered i ses hi
    have hbuf : ses.inner.buf.length ≤ maxScrollback := by
      rw [hholds.buf_eq, List.length_drop, hholds.start_eq, hbytes, hmax]
      omega
    have hinput : inputBytes ses.input ≤ 64 * maxFrameLen :=
      sum_map_le (gateway_input hgate hi) hses.input
    have houtput : (ses.output.map List.length).sum ≤ 256 * B := sum_map_le hses.room hses.output
    have hactor : (p.proxy.shells i).pc.held ≤ max maxFrameLen B := by
      have hhand := (hwithin.shells i).hand
      cases hpc : (p.proxy.shells i).pc with
      | top | select => exact Nat.zero_le _
      | send bytes =>
        rw [hpc] at hhand
        exact hhand.trans (le_max_right _ _)
      | write rest =>
        rw [hpc] at hhand
        exact hhand.trans (le_max_left _ _)
    unfold Path.heldFor
    omega
  · have hhand : (p.proxy.gateway.conns c).pc.held ≤ maxFrameLen := by
      cases hpc : (p.proxy.gateway.conns c).pc with
      | forward x => exact hwithin.gateway.hand c x hpc
      | _ => exact Nat.zero_le _
    have hchunk : ((p.proxy.gateway.conns c).sender.inFlight.map List.length).sum ≤
        1 * maxScrollback := by
      refine sum_map_le ?_ (gateway_paced hgate c).chunk
      cases (p.proxy.gateway.conns c).sender with
      | write frame => cases frame <;> simp [SenderPc.inFlight]
      | _ => simp [SenderPc.inFlight]
    unfold Conn.held
    omega

end Bounds

theorem backlog_bounded_answered : ∃ p, exec (Path.step .narrow fun _ => "")
      (.init .narrow defaultScrollbackBytes) conversing = some p ∧
    ∃ ses, p.proxy.gateway.sessions 5 = some ses ∧ p.heldFor 5 ses ≤
      defaultScrollbackBytes + 64 * maxFrameLen + 256 * 2 + max maxFrameLen 2 := by
  obtain ⟨p, run, -, hsession, -⟩ := conversing_run
  have hgate := wired_gateway (exec_path run).2.1
  obtain ⟨ses, hses⟩ := (gateway_sound hgate).wf.session_known hsession
  exact ⟨p, run, ses, hses, (backlog_bounded run (by decide +kernel)).1 5 ses hses⟩

end TtyGateway
