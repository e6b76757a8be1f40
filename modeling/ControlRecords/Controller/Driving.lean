import ControlRecords.Controller.Scheduling

/-! What drivers do to a controller. A driver stores values in variables, sets their alarms
and times, signals and waits for their events, has the records on their scan lists
processed, and completes writes that wait for it. Devices change register memory and cells
on their own. -/
namespace ControlRecords.Controller

/-- Change a variable in its place, if it is there. -/
def modifyVariable (c : Controller) (id : VariableId) (g : Variable → Variable) : Controller :=
  match c.variableAt? id with
  | some v => c.setVariable id (g v)
  | none => c

/-- Store a value in a variable. -/
def store (c : Controller) (id : VariableId) (value : Value) :
    Controller × Except ConvertError Unit :=
  match c.variableAt? id with
  | none => (c, .ok ())
  | some v =>
    match v.store value with
    | .ok v => (c.setVariable id v, .ok ())
    | .error e => (c, .error e)

/-- Signal a variable's event. -/
def signal (c : Controller) (id : VariableId) : Controller := c.modifyVariable id Variable.signal

/-- Wait for a variable's event for some seconds at most. -/
def wait (c : Controller) (id : VariableId) (seconds : Float) :
    Controller × Variable.WaitStatus :=
  match c.variableAt? id with
  | none => (c, .noEvent)
  | some v =>
    let (status, v) := v.wait seconds
    (c.setVariable id v, status)

/-- Have the records on a variable's scan list processed: how many requests were taken. -/
def requestScanOf (c : Controller) (id : VariableId) : Nat × Controller :=
  match (c.variableAt? id).bind (·.scan) with
  | some list => c.requestScan list
  | none => (0, c)

/-- Complete the write of the record that is attached to a variable: its second pass is
requested, and the record is attached no longer. If the scheduler is gone, the record stays
attached. -/
def completeProcessing (c : Controller) (id : VariableId) :
    Controller × Except VariableError Unit :=
  match c.variableAt? id with
  | none => (c, .error .notAttached)
  | some v =>
    match v.attached with
    | none => (c, .error .notAttached)
    | some a =>
      match c.send a.scheduler (.complete a.record) with
      | .ok c => (c.setVariable id { v with attached := none }, .ok ())
      | .error _ => (c, .error .schedulerClosed)

/-- Replace the octets of register memory from an address on. -/
def storeMemory (c : Controller) (address : Nat) (bytes : List UInt8) : Controller :=
  { c with registers :=
    { c.registers with memory := c.registers.memory.store address bytes } }

/-- Put a word into a cell, or take the cell away, and lock the cell or unlock it. -/
def setCell (c : Controller) (address : Nat) (word : Option UInt32) (lock : Bool) : Controller :=
  let cells := match word with
    | some w => c.registers.cells.put address w
    | none => c.registers.cells.clear address
  { c with registers := { c.registers with cells := cells.setLocked address lock } }

/-- Wait until the writers have written everything that they were given. -/
def flush (c : Controller) : Controller :=
  { c with archives := c.archives.map fun a => { a with writer := a.writer.flush } }

end ControlRecords.Controller
