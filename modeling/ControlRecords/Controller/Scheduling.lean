import ControlRecords.Controller.Processing

/-! Schedulers at work. A request that a scheduler takes waits behind those that it took
before. When the scheduler runs, it handles all requests that wait, the oldest first: a
request for a record that is gone does nothing, a scan does nothing to an active record and
a completion nothing to one that is not active. -/
namespace ControlRecords.Controller

/-- The scheduler is gone. -/
structure SchedulerClosed where
  deriving DecidableEq, Repr

/-- Give a scheduler a request. -/
def send (c : Controller) (id : SchedulerId) (request : Request) :
    Except SchedulerClosed Controller :=
  match c.queue? id with
  | some queue => .ok (c.setQueue id (queue ++ [request]))
  | none => .error {}

/-- Handle a request. -/
def dispatch (c : Controller) (request : Request) : Controller :=
  match c.record? request.record with
  | none => c
  | some r =>
    match request, r.common.active with
    | .scan _, true => c
    | .complete _, false => c
    | _, _ => c.process request.record

/-- Handle requests one after the other. -/
def dispatchAll (c : Controller) (requests : List Request) : Controller :=
  requests.foldl dispatch c

/-- Let a scheduler handle the requests that wait: how many there were. -/
def run (c : Controller) (id : SchedulerId) : Option (Nat × Controller) :=
  match c.queue? id with
  | some queue => some (queue.length, (c.setQueue id []).dispatchAll queue)
  | none => none

/-- Let a scheduler handle the oldest request that waits, if one does. -/
def dispatchOldest? (c : Controller) (id : SchedulerId) : Option Controller :=
  match c.queue? id with
  | some (request :: rest) => some ((c.setQueue id rest).dispatch request)
  | _ => none

/-- Let a scheduler handle one request after the other, at most so many. -/
def serve (c : Controller) (id : SchedulerId) : Nat → Controller
  | 0 => c
  | n + 1 =>
    match c.dispatchOldest? id with
    | some c => c.serve id n
    | none => c

/-- Let a scheduler serve its requests until none waits, and then go. -/
def serveAndClose (c : Controller) (id : SchedulerId) : Option Controller :=
  match c.queue? id with
  | some queue => some ((c.serve id queue.length).closeScheduler id)
  | none => none

/-- Send a scan to each member of a scan list in turn: how many were taken. -/
def scanAll (c : Controller) : List Member → Nat × Controller
  | [] => (0, c)
  | m :: rest =>
    match c.send m.scheduler (.scan m.record) with
    | .ok c =>
      let (taken, c) := c.scanAll rest
      (taken + 1, c)
    | .error _ => c.scanAll rest

/-- Take the records that are gone off a scan list and have all others processed: how many
requests were taken. -/
def requestScan (c : Controller) (id : ScanListId) : Nat × Controller :=
  match c.scanList? id with
  | none => (0, c)
  | some members =>
    let living := members.filter fun m => (c.record? m.record).isSome
    (c.setScanList id living).scanAll living

end ControlRecords.Controller
