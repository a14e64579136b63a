import TtyGateway.Frame
import Mathlib.Logic.Function.Basic
import Mathlib.Data.Set.Insert
import Mathlib.Tactic.Common

namespace TtyGateway

/-- How far a connection's handler has come with a session: `early` before it has one, `holding`
while the control plane is asked for a slot, `greeting` until the client has been told, `live` to
its last look at the session, and from there either straight to `leaving` or through `closing` and
`reported` (before and after the call of `session_close`). -/
inductive Stage
  | early | refusing | holding | greeting | live | closing | reported | leaving | gone
  deriving DecidableEq

/-- A sender task: `drained` once its reader has returned `None`. -/
inductive Feed
  | off | up | drained | ended
  deriving DecidableEq

structure Client where
  stage : Stage
  session : Option SessionId
  resumed : Bool
  account : Option Bytes
  feed : Feed

/-- The calls about concurrency slots that the control plane has seen. -/
inductive SlotCall
  | opened (account : Option Bytes) (id : SessionId)
  | refused (account : Option Bytes) (id : SessionId)
  | closed (account : Option Bytes) (id : SessionId)

/-- Who uses which session, and what has been said about it: the gateway without its bytes.
`ssh i` is whether the ingest task of session `i` still runs, if the session exists; `told` are
the connections whose client was sent `Closed`. -/
structure Life where
  client : ConnId → Client
  registered : Set SessionId
  ssh : SessionId → Option Bool
  calls : List SlotCall
  told : Set ConnId

def Client.init : Client := ⟨.early, none, false, none, .off⟩

def Life.init : Life := ⟨fun _ => .init, ∅, fun _ => none, [], ∅⟩

def Client.Attached (x : Client) (i : SessionId) : Prop := x.session = some i ∧ x.stage ≠ .gone

def Client.Streaming (x : Client) (i : SessionId) : Prop :=
  x.session = some i ∧ (x.feed = .up ∨ x.feed = .drained)

def Life.setClient (v : Life) (c : ConnId) (x : Client) : Life :=
  { v with client := Function.update v.client c x }

def Life.call (v : Life) (x : SlotCall) : Life := { v with calls := v.calls ++ [x] }

def Life.remove (v : Life) (i : SessionId) : Life := { v with registered := v.registered \ {i} }

def Life.spawn (v : Life) (i : SessionId) : Life :=
  { v with registered := insert i v.registered, ssh := Function.update v.ssh i (some true) }

def Life.finish (v : Life) (i : SessionId) : Life :=
  { v with ssh := Function.update v.ssh i (some false) }

def Life.tell (v : Life) (c : ConnId) : Life := { v with told := insert c v.told }

inductive LifeLabel
  | quiet
  | hello (c : ConnId)
  | reject (c : ConnId)
  | fail (c : ConnId)
  | create (c : ConnId) (i : SessionId)
  | attach (c : ConnId) (i : SessionId)
  | accept (c : ConnId) (i : SessionId)
  | refuse (c : ConnId) (i : SessionId)
  | start (c : ConnId)
  | keep (c : ConnId) (i : SessionId)
  | teardown (c : ConnId)
  | close (c : ConnId) (i : SessionId)
  | release (c : ConnId) (i : SessionId)
  | leave (c : ConnId)
  | drain (c : ConnId) (i : SessionId)
  | tell (c : ConnId)
  | stop (c : ConnId)
  | finish (i : SessionId)

inductive LifeStep : Life → LifeLabel → Life → Prop
  | quiet {v} : LifeStep v .quiet v
  | hello {v c} (account : Option Bytes) : (v.client c).stage = .early →
      LifeStep v (.hello c) (v.setClient c { v.client c with account })
  | reject {v c} : (v.client c).stage = .early →
      LifeStep v (.reject c) (v.setClient c { v.client c with stage := .refusing })
  | fail {v c} : (v.client c).stage = .early ∨ (v.client c).stage = .refusing ∨
      (v.client c).stage = .greeting →
      LifeStep v (.fail c) (v.setClient c { v.client c with stage := .gone })
  | create {v c i} : (v.client c).stage = .early → v.ssh i = none →
      LifeStep v (.create c i) ((v.spawn i).setClient c
        { v.client c with stage := .holding, session := some i, resumed := false })
  | attach {v c i} : (v.client c).stage = .early → i ∈ v.registered →
      LifeStep v (.attach c i)
        (v.setClient c { v.client c with stage := .greeting, session := some i, resumed := true })
  | accept {v c i} : (v.client c).stage = .holding → (v.client c).session = some i →
      LifeStep v (.accept c i) ((v.call (.opened (v.client c).account i)).setClient c
        { v.client c with stage := .greeting })
  | refuse {v c i} : (v.client c).stage = .holding → (v.client c).session = some i →
      LifeStep v (.refuse c i) (((v.call (.refused (v.client c).account i)).remove i).setClient c
        { v.client c with stage := .refusing })
  | start {v c} : (v.client c).stage = .greeting →
      LifeStep v (.start c) (v.setClient c { v.client c with stage := .live, feed := .up })
  | keep {v c i} : (v.client c).stage = .live → (v.client c).session = some i →
      v.ssh i ≠ some false →
      LifeStep v (.keep c i) (v.setClient c { v.client c with stage := .leaving })
  | teardown {v c} : (v.client c).stage = .live →
      LifeStep v (.teardown c) (v.setClient c { v.client c with stage := .closing })
  | close {v c i} : (v.client c).stage = .closing → (v.client c).session = some i →
      LifeStep v (.close c i) ((v.call (.closed (v.client c).account i)).setClient c
        { v.client c with stage := .reported })
  | release {v c i} : (v.client c).stage = .reported → (v.client c).session = some i →
      LifeStep v (.release c i) ((v.remove i).setClient c { v.client c with stage := .leaving })
  | leave {v c} : (v.client c).stage = .leaving →
      LifeStep v (.leave c) (v.setClient c { v.client c with stage := .gone })
  | drain {v c i} : (v.client c).feed = .up → (v.client c).session = some i →
      v.ssh i = some false →
      LifeStep v (.drain c i) (v.setClient c { v.client c with feed := .drained })
  | tell {v c} : (v.client c).feed = .drained →
      LifeStep v (.tell c) ((v.tell c).setClient c { v.client c with feed := .ended })
  | stop {v c} : (v.client c).feed = .up ∨ (v.client c).feed = .drained →
      LifeStep v (.stop c) (v.setClient c { v.client c with feed := .ended })
  | finish {v i} : v.ssh i = some true →
      LifeStep v (.finish i) (v.finish i)

section Projections

variable (v : Life) (c : ConnId) (x : Client) (i : SessionId) (call : SlotCall)

@[grind =] theorem Life.setClient_client (d : ConnId) :
    (v.setClient c x).client d = if d = c then x else v.client d := by
  simp [Life.setClient, Function.update_apply]

@[simp] theorem Life.setClient_eq_self : v.setClient c (v.client c) = v := by
  simp [Life.setClient]

@[simp, grind =] theorem Life.setClient_registered :
    (v.setClient c x).registered = v.registered := rfl
@[simp, grind =] theorem Life.setClient_ssh (j : SessionId) : (v.setClient c x).ssh j = v.ssh j := rfl
@[simp, grind =] theorem Life.setClient_calls : (v.setClient c x).calls = v.calls := rfl
@[simp, grind =] theorem Life.setClient_told : (v.setClient c x).told = v.told := rfl

@[simp, grind =] theorem Life.call_client (d : ConnId) :
    (v.call call).client d = v.client d := rfl
@[simp, grind =] theorem Life.call_registered : (v.call call).registered = v.registered := rfl
@[simp, grind =] theorem Life.call_ssh (j : SessionId) : (v.call call).ssh j = v.ssh j := rfl
@[simp, grind =] theorem Life.call_calls : (v.call call).calls = v.calls ++ [call] := rfl
@[simp, grind =] theorem Life.call_told : (v.call call).told = v.told := rfl

@[simp, grind =] theorem Life.remove_client (d : ConnId) :
    (v.remove i).client d = v.client d := rfl
@[simp, grind =] theorem Life.mem_remove (j : SessionId) :
    j ∈ (v.remove i).registered ↔ j ∈ v.registered ∧ j ≠ i := Iff.rfl
@[simp, grind =] theorem Life.remove_ssh (j : SessionId) : (v.remove i).ssh j = v.ssh j := rfl
@[simp, grind =] theorem Life.remove_calls : (v.remove i).calls = v.calls := rfl
@[simp, grind =] theorem Life.remove_told : (v.remove i).told = v.told := rfl

@[simp, grind =] theorem Life.spawn_client (d : ConnId) :
    (v.spawn i).client d = v.client d := rfl
@[simp, grind =] theorem Life.mem_spawn (j : SessionId) :
    j ∈ (v.spawn i).registered ↔ j = i ∨ j ∈ v.registered := Iff.rfl
@[grind =] theorem Life.spawn_ssh (j : SessionId) :
    (v.spawn i).ssh j = if j = i then some true else v.ssh j := by
  simp [Life.spawn, Function.update_apply]
@[simp, grind =] theorem Life.spawn_calls : (v.spawn i).calls = v.calls := rfl
@[simp, grind =] theorem Life.spawn_told : (v.spawn i).told = v.told := rfl

@[simp, grind =] theorem Life.finish_client (d : ConnId) :
    (v.finish i).client d = v.client d := rfl
@[simp, grind =] theorem Life.finish_registered : (v.finish i).registered = v.registered := rfl
@[grind =] theorem Life.finish_ssh (j : SessionId) :
    (v.finish i).ssh j = if j = i then some false else v.ssh j := by
  simp [Life.finish, Function.update_apply]
@[simp, grind =] theorem Life.finish_calls : (v.finish i).calls = v.calls := rfl
@[simp, grind =] theorem Life.finish_told : (v.finish i).told = v.told := rfl

@[simp, grind =] theorem Life.tell_client (d : ConnId) :
    (v.tell c).client d = v.client d := rfl
@[simp, grind =] theorem Life.tell_registered : (v.tell c).registered = v.registered := rfl
@[simp, grind =] theorem Life.tell_ssh (j : SessionId) : (v.tell c).ssh j = v.ssh j := rfl
@[simp, grind =] theorem Life.tell_calls : (v.tell c).calls = v.calls := rfl
@[simp, grind =] theorem Life.mem_tell (d : ConnId) :
    d ∈ (v.tell c).told ↔ d = c ∨ d ∈ v.told := Iff.rfl

end Projections

end TtyGateway
