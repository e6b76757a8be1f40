import ControlRecords.Controller.Processing

/-! Connecting and initialising records. `connect` resolves a record's link and connects it
through its support. `initialise` does what happens to a record at startup: it sizes the
mask, connects the record, gives a record that writes the value that it found, puts the
record on its scan list, and processes it if it is to process at once. A record that cannot
be connected stays active, so that it is never processed. -/
namespace ControlRecords

/-- A record as it is before its support connects it. -/
def Record.sized (r : Record) : Record := r.mapScalar Scalar.sized

/-- A record after its support has connected it: one that writes works its value out from
the raw value that it found. -/
def Record.connected (r : Record) (status : Transfer) : Record :=
  match r.body, status with
  | .scalar _ s, .raw =>
    if s.isOutput then { r with body := r.body.ofRaw }.setUndefined false else r
  | _, _ => r

namespace Controller

/-- The scan list of the variable that a record is connected to. -/
def variableScanList (c : Controller) (r : Record) : Option ScanListId :=
  match r.common.binding with
  | .toVariable b => (c.variableAt? b.target).bind (·.scan)
  | _ => none

/-- The scan list of what a record is connected to. -/
def scanListOf (c : Controller) (r : Record) : Option ScanListId :=
  match r.common.binding with
  | .toRegister b => b.scan
  | _ => c.variableScanList r

/-- Connect a record to its register. -/
def connectRegister (c : Controller) (id : RecordId) (r : Record) (s : Scalar) :
    Controller × Except SupportError Transfer :=
  let (found, catalogue, common) := Register.resolveFor c.catalogue r.link r.common
  let c := { c with catalogue }
  match found with
  | .error e => (c.setRecord id { r with common }, .error (.link e))
  | .ok b =>
    let (r, status) := Register.connect b s { r with common } c.registers
    (c.setRecord id r, .ok status)

/-- The variable that a link names, and the controller with its table of groups opened. -/
def resolveVariable (c : Controller) (link : Link) (r : Record) (choice : Variable.Choice) :
    Controller × Except VariableError (Variable.Binding × Variable) :=
  let (found, groups) := Variable.resolve c.catalogue.groups c.setting link r choice
  let c := { c with catalogue := { c.catalogue with groups } }
  match found with
  | .error e => (c, .error e)
  | .ok b =>
    match c.variableAt? b.target with
    | some v => (c, .ok (b, v))
    | none => (c, .error .notBound)

/-- Connect a record to its variable. -/
def connectVariable (c : Controller) (id : RecordId) (r : Record) (s : Scalar) :
    Controller × Except SupportError Transfer :=
  match c.resolveVariable r.link r (Variable.Choice.ofScalar s) with
  | (c, .error e) => (c.setRecord id (r.setActive true), .error (.shared e))
  | (c, .ok (b, v)) =>
    let x := Variable.connect b s r v
    ((c.setVariable b.target x.target).setRecord id x.record, x.result.mapError .shared)

/-- Connect a record to its array. -/
def connectArchive (c : Controller) (id : RecordId) (r : Record) (archive : ArchiveId) :
    Controller × Except SupportError Transfer :=
  match c.archive? archive with
  | none => (c, .error (.archive .notConnected))
  | some a =>
    let (after, vault, result) := Archive.connect archive r ⟨a, c.files⟩
    ((c.setTarget r (.vault vault)).setRecord id after,
      (result.mapError .archive).map fun _ => .raw)

/-- Connect a record through its support. -/
def connect (c : Controller) (id : RecordId) : Controller × Except SupportError Transfer :=
  match c.record? id with
  | none => (c, .error .notInitialized)
  | some r =>
    match r.body with
    | .scalar .registers s => c.connectRegister id r s
    | .scalar .shared s => c.connectVariable id r s
    | .array archive _ => c.connectArchive id r archive

/-- Put a record that processes on events on its scan list, if there is one and the record
has a scheduler. -/
def joinScanList (c : Controller) (id : RecordId) : Controller :=
  match c.record? id with
  | none => c
  | some r =>
    match r.common.scan, c.scanListOf r, r.common.scheduler with
    | .event, some list, some scheduler =>
      match c.scanList? list with
      | some members => c.setScanList list (members ++ [⟨id, scheduler⟩])
      | none => c
    | _, _, _ => c

/-- Process a record that is to process when it is initialised. -/
def processInitially (c : Controller) (id : RecordId) : Controller :=
  match c.record? id with
  | none => c
  | some r => if r.common.initProcess && !r.common.active then c.process id else c

/-- Initialise a record the way it is done at startup. -/
def initialise (c : Controller) (id : RecordId) : Controller × Except SupportError Unit :=
  match c.record? id with
  | none => (c, .error .notInitialized)
  | some r =>
    match (c.setRecord id r.sized).connect id with
    | (c, .error e) =>
      match c.record? id with
      | some r => (c.setRecord id (r.setActive true), .error e)
      | none => (c, .error e)
    | (c, .ok status) =>
      match c.record? id with
      | some r =>
        (((c.setRecord id (r.connected status)).joinScanList id).processInitially id, .ok ())
      | none => (c, .ok ())

/-- Connect a record of any type to a variable, as one that reads or as one that writes. -/
def bindVariable (c : Controller) (id : RecordId) (link : Link) (choice : Variable.Choice)
    (output : Bool) : Controller × Except VariableError Transfer :=
  match c.record? id with
  | none => (c, .error .notBound)
  | some r =>
    match c.resolveVariable link r choice with
    | (c, .error e) => (c.setRecord id (r.setActive true), .error e)
    | (c, .ok (b, v)) =>
      if output then
        let x := Variable.connectOutput b r v
        ((c.setVariable b.target x.target).setRecord id x.record, x.result)
      else (c.setRecord id (Variable.connectInput b r), .ok .raw)

end Controller

end ControlRecords
