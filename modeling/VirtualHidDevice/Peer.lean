import VirtualHidDevice.ClientEntry
import VirtualHidDevice.Transition

/-!
# One peer of the daemon

The entry of a peer together with the tasks that concern it in the daemon's
queue, as a transition system: the dispatcher runs the first task, requests and
driver events arrive, the ready timer and the delayed closures fire.

* `Peer.step` — delayed closures may fire at any time.
* `Peer.dispatch` — the dispatcher's order: a task without delay comes before
  every delayed one, so a delayed closure fires only when no task is queued.
-/

namespace VirtualHidDevice

open Dispatcher (applyAll)

/-- The peer's entry and the tasks in the daemon's queue that concern it. -/
structure Peer extends Local where
  /-- the peer's part of the queue, in order -/
  queue : List Task

/-- What the service monitor of a client reports. -/
inductive ServiceEvent where
  /-- `service_matched` -/
  | matched (id : UInt64)
  /-- `service_terminated` -/
  | terminated (id : UInt64)
deriving DecidableEq, Repr

/-- The closure that delivers an event. -/
def ServiceEvent.task : ServiceEvent → IoTask
  | matched id => .serviceMatched id
  | terminated id => .serviceTerminated id

/-- A step of the system. -/
inductive PeerLabel where
  /-- the dispatcher runs the first task, and the system answers its calls -/
  | run (answers : Answers)
  /-- a request of the peer arrives -/
  | request (buffer : Bytes)
  /-- the monitor of a client reports a service -/
  | event (role : Role) (event : ServiceEvent)
  /-- the result of `driver_activated()` changes, together with an event for
  `no_virtual_devices_io_service_client_` -/
  | driverActivated (value : Bool) (event : ServiceEvent)
  /-- the ready timer fires -/
  | readyTimer
  /-- one of the delayed closures fires -/
  | recreate (index : ℕ)

namespace Peer

/-- The peer right after `peer_connected` was handled: `create_client` and
`async_check_status_changed`. -/
def init (activated : Bool) : Peer :=
  { entry := ClientEntry.init, activated
    queue := ClientEntry.initTasks ++ [.entry .checkStatusChanged] }

/-- The end of a task: its effects reach the queue. -/
def finish (queue : List Task) (r : Run) : Peer :=
  { r.toLocal with queue := applyAll Task.owner queue r.effects }

/-- One step. -/
def step (p : Peer) : PeerLabel → Option Peer
  | .run answers => match p.queue with
    | [] => none
    | t :: queue => some (finish queue (Run.task answers ⟨p.toLocal, []⟩ t))
  | .request buffer => some { p with queue := p.queue ++ [.request buffer] }
  | .event role event => match p.entry.client role with
    | none => none
    | some c =>
      if c.serviceMonitor then some { p with queue := p.queue ++ [.io c.objectId event.task] }
      else none
  | .driverActivated value event =>
    if p.entry.noVirtualDevices.serviceMonitor then
      some { p with
        activated := value
        queue := p.queue ++ [.io p.entry.noVirtualDevices.objectId event.task] }
    else none
  | .readyTimer => some (finish p.queue (Run.readyTimer ⟨p.toLocal, []⟩))
  | .recreate index => match p.recreates[index]? with
    | none => none
    | some task => some (finish p.queue (Run.recreate task
        ⟨{ p.toLocal with recreates := p.recreates.eraseIdx index }, []⟩))

/-- One step in the order of the dispatcher. -/
def dispatch (p : Peer) (label : PeerLabel) : Option Peer :=
  match label with
  | .recreate _ => if p.queue.isEmpty then p.step label else none
  | _ => p.step label

/-- The dispatcher's order only leaves steps out. -/
theorem step_of_dispatch {p q : Peer} {label : PeerLabel} (h : p.dispatch label = some q) :
    p.step label = some q := by
  cases label with
  | recreate index =>
    rw [dispatch] at h
    split at h
    · exact h
    · cases h
  | _ => exact h

@[simp] theorem finish_entry (queue : List Task) (r : Run) : (finish queue r).entry = r.entry := rfl

@[simp] theorem finish_recreates (queue : List Task) (r : Run) :
    (finish queue r).recreates = r.recreates := rfl

end Peer

end VirtualHidDevice
