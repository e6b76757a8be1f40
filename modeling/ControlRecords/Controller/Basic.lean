import ControlRecords.Archive.Exchange
import ControlRecords.Register.Exchange
import ControlRecords.Scan
import ControlRecords.Variable.Exchange

/-! The state of a controller: everything that records can name, reach and wait for. Records,
variables, scan lists and schedulers are known by their identities, which are places in
lists that only grow; a record that is dropped and a scheduler that is gone leave their
places empty. -/
namespace ControlRecords

/-- The state of a controller. -/
structure Controller where
  registers : Register.Registers := {}
  catalogue : Catalogue := {}
  /-- What the environment says about the size of the table of groups. -/
  setting : Option String := none
  vars : List Variable := []
  scanLists : List ScanList := []
  /-- The records, nothing in the place of one that was dropped. -/
  records : List (Option Record) := []
  /-- The requests that wait for each scheduler, nothing for one that is gone. -/
  schedulers : List (Option Queue) := []
  archives : List Archive := []
  /-- The files, as they are when everything that waits for the writers has been written. -/
  files : Archive.Files := {}

namespace Controller

instance : Inhabited Controller := ⟨{}⟩

/-- The record with an identity, if it is there. -/
def record? (c : Controller) (id : RecordId) : Option Record := c.records[id.index]?.join

/-- Put a record in its place. -/
def setRecord (c : Controller) (id : RecordId) (r : Record) : Controller :=
  { c with records := c.records.set id.index (some r) }

/-- Change a record in its place, if it is there. -/
def modifyRecord (c : Controller) (id : RecordId) (g : Record → Record) : Controller :=
  match c.record? id with
  | some r => c.setRecord id (g r)
  | none => c

/-- Take a record into care: it gets an identity, and the scheduler that is to process it. -/
def adopt (c : Controller) (r : Record) (scheduler : Option SchedulerId) :
    RecordId × Controller :=
  let id : RecordId := ⟨c.records.length⟩
  (id, { c with records :=
    c.records ++ [some (r.withCommon ({ · with handle := some id, scheduler }))] })

/-- Drop a record. -/
def dropRecord (c : Controller) (id : RecordId) : Controller :=
  { c with records := c.records.set id.index none }

/-- The variable with an identity. -/
def variableAt? (c : Controller) (id : VariableId) : Option Variable := c.vars[id.index]?

/-- Put a variable in its place. -/
def setVariable (c : Controller) (id : VariableId) (v : Variable) : Controller :=
  { c with vars := c.vars.set id.index v }

/-- The members of a scan list. -/
def scanList? (c : Controller) (id : ScanListId) : Option ScanList := c.scanLists[id.index]?

/-- Put a scan list in its place. -/
def setScanList (c : Controller) (id : ScanListId) (l : ScanList) : Controller :=
  { c with scanLists := c.scanLists.set id.index l }

/-- A new scan list with nothing on it. -/
def newScanList (c : Controller) : ScanListId × Controller :=
  (⟨c.scanLists.length⟩, { c with scanLists := c.scanLists ++ [[]] })

/-- The requests that wait for a scheduler, if it is there. -/
def queue? (c : Controller) (id : SchedulerId) : Option Queue := c.schedulers[id.index]?.join

/-- Let requests wait for a scheduler. -/
def setQueue (c : Controller) (id : SchedulerId) (q : Queue) : Controller :=
  { c with schedulers := c.schedulers.set id.index (some q) }

/-- A new scheduler with nothing to do. -/
def newScheduler (c : Controller) : SchedulerId × Controller :=
  (⟨c.schedulers.length⟩, { c with schedulers := c.schedulers ++ [some []] })

/-- Let a scheduler go, with the requests that wait for it. -/
def closeScheduler (c : Controller) (id : SchedulerId) : Controller :=
  { c with schedulers := c.schedulers.set id.index none }

/-- The archive with an identity. -/
def archive? (c : Controller) (id : ArchiveId) : Option Archive := c.archives[id.index]?

/-- A new archive. -/
def newArchive (c : Controller) (a : Archive) : ArchiveId × Controller :=
  (⟨c.archives.length⟩, { c with archives := c.archives ++ [a] })

theorem record?_isSome_lt {c : Controller} {id : RecordId} (h : (c.record? id).isSome) :
    id.index < c.records.length := by
  by_cases hlt : id.index < c.records.length
  · exact hlt
  · simp [record?, List.getElem?_eq_none (Nat.le_of_not_lt hlt)] at h

@[simp] theorem record?_setRecord_self (c : Controller) (id : RecordId) (r : Record)
    (h : (c.record? id).isSome) : (c.setRecord id r).record? id = some r := by
  simp [record?, setRecord, record?_isSome_lt h]

theorem record?_setRecord_of_ne (c : Controller) {id other : RecordId} (r : Record)
    (h : other ≠ id) : (c.setRecord id r).record? other = c.record? other := by
  have : id.index ≠ other.index := fun e => h (by cases id; cases other; simp_all)
  simp [record?, setRecord, List.getElem?_set_ne this]

theorem variableAt?_isSome_lt {c : Controller} {id : VariableId}
    (h : (c.variableAt? id).isSome) : id.index < c.vars.length := by
  by_cases hlt : id.index < c.vars.length
  · exact hlt
  · simp [variableAt?, List.getElem?_eq_none (Nat.le_of_not_lt hlt)] at h

@[simp] theorem variableAt?_setVariable_self (c : Controller) (id : VariableId) (v : Variable)
    (h : (c.variableAt? id).isSome) : (c.setVariable id v).variableAt? id = some v := by
  simp [variableAt?, setVariable, variableAt?_isSome_lt h]

theorem variableAt?_setVariable_of_ne (c : Controller) {id other : VariableId} (v : Variable)
    (h : other ≠ id) : (c.setVariable id v).variableAt? other = c.variableAt? other := by
  have : id.index ≠ other.index := fun e => h (by cases id; cases other; simp_all)
  simp [variableAt?, setVariable, List.getElem?_set_ne this]

theorem queue?_isSome_lt {c : Controller} {id : SchedulerId} (h : (c.queue? id).isSome) :
    id.index < c.schedulers.length := by
  by_cases hlt : id.index < c.schedulers.length
  · exact hlt
  · simp [queue?, List.getElem?_eq_none (Nat.le_of_not_lt hlt)] at h

@[simp] theorem queue?_setQueue_self (c : Controller) (id : SchedulerId) (q : Queue)
    (h : (c.queue? id).isSome) : (c.setQueue id q).queue? id = some q := by
  simp [queue?, setQueue, queue?_isSome_lt h]

theorem queue?_setQueue_of_ne (c : Controller) {id other : SchedulerId} (q : Queue)
    (h : other ≠ id) : (c.setQueue id q).queue? other = c.queue? other := by
  have : id.index ≠ other.index := fun e => h (by cases id; cases other; simp_all)
  simp [queue?, setQueue, List.getElem?_set_ne this]

@[simp] theorem variableAt?_setRecord (c : Controller) (id : RecordId) (r : Record)
    (v : VariableId) : (c.setRecord id r).variableAt? v = c.variableAt? v := rfl

@[simp] theorem queue?_setRecord (c : Controller) (id : RecordId) (r : Record)
    (s : SchedulerId) : (c.setRecord id r).queue? s = c.queue? s := rfl

@[simp] theorem record?_setVariable (c : Controller) (id : VariableId) (v : Variable)
    (r : RecordId) : (c.setVariable id v).record? r = c.record? r := rfl

@[simp] theorem queue?_setVariable (c : Controller) (id : VariableId) (v : Variable)
    (s : SchedulerId) : (c.setVariable id v).queue? s = c.queue? s := rfl

@[simp] theorem record?_setQueue (c : Controller) (id : SchedulerId) (q : Queue)
    (r : RecordId) : (c.setQueue id q).record? r = c.record? r := rfl

@[simp] theorem variableAt?_setQueue (c : Controller) (id : SchedulerId) (q : Queue)
    (v : VariableId) : (c.setQueue id q).variableAt? v = c.variableAt? v := rfl

end Controller

end ControlRecords
