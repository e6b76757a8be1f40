import ControlRecords.Controller.Basic

/-! Processing records in a controller. A record has one target: the registers, the variable
that it is connected to, or its archive with the files. Processing takes the target out of
the controller's state, makes one pass over the record and the target, and puts both back;
nothing else changes. -/
namespace ControlRecords

/-- What a record moves its value to or from. -/
inductive Target where
  | registers (r : Register.Registers)
  | shared (v : Variable)
  | vault (v : Archive.Vault)
  /-- The record is connected to nothing of the kind that its support moves values to. -/
  | nothing

/-- The error of a support that finds its record connected to nothing. -/
def Body.disconnected : Body → SupportError
  | .scalar .registers _ => .notInitialized
  | .scalar .shared _ => .shared .notBound
  | .array _ _ => .archive .notConnected

/-- Move the value of a record to or from its target. -/
def Target.exchange (r : Record) : Target → Pass Target
  | registers t =>
    let p := Register.exchange r t
    ⟨p.record, registers p.target, p.result⟩
  | shared t =>
    let p := Variable.exchange r t
    ⟨p.record, shared p.target, p.result⟩
  | vault t =>
    let p := Archive.exchange r t
    ⟨p.record, vault p.target, p.result⟩
  | nothing => ⟨r, nothing, .error r.body.disconnected⟩

namespace Controller

/-- The target of a record. -/
def target (c : Controller) (r : Record) : Target :=
  match r.body with
  | .scalar .registers _ => .registers c.registers
  | .scalar .shared _ =>
    match r.common.binding with
    | .toVariable b =>
      match c.variableAt? b.target with
      | some v => .shared v
      | none => .nothing
    | _ => .nothing
  | .array id _ =>
    match c.archive? id with
    | some archive => .vault ⟨archive, c.files⟩
    | none => .nothing

/-- Put the target of a record back. -/
def setTarget (c : Controller) (r : Record) (t : Target) : Controller :=
  match t, r.body, r.common.binding with
  | .registers registers, _, _ => { c with registers }
  | .shared v, _, .toVariable b => c.setVariable b.target v
  | .vault v, .array id _, _ =>
    { c with archives := c.archives.set id.index v.archive, files := v.files }
  | _, _, _ => c

/-- One pass of a record. -/
def process (c : Controller) (id : RecordId) : Controller :=
  match c.record? id with
  | none => c
  | some r =>
    let (after, target) := r.process Target.exchange (c.target r)
    (c.setTarget r target).setRecord id after

/-- Let the support move a record's value, without the rest of a pass. -/
def exchange (c : Controller) (id : RecordId) : Controller × Except SupportError Transfer :=
  match c.record? id with
  | none => (c, .error .notInitialized)
  | some r =>
    let pass := (c.target r).exchange r
    ((c.setTarget r pass.target).setRecord id pass.record, pass.result)

/-- Work on a record and the variable that it is connected to. -/
def onVariable {α : Type} (c : Controller) (id : RecordId)
    (f : Variable.Binding → Record → Variable → Record × Variable × Except VariableError α) :
    Controller × Except VariableError α :=
  match c.record? id with
  | none => (c, .error .notBound)
  | some r =>
    match r.common.binding with
    | .toVariable b =>
      match c.variableAt? b.target with
      | some v =>
        let (r, v, result) := f b r v
        ((c.setVariable b.target v).setRecord id r, result)
      | none => (c, .error .notBound)
    | _ => (c, .error .notBound)

/-- Load a record's field from its variable. -/
def get (c : Controller) (id : RecordId) : Controller × Except VariableError Transfer :=
  c.onVariable id fun b r v =>
    let x := Variable.takeIn true b r v
    (x.record, x.target, x.result)

/-- Store a record's field in its variable. -/
def put (c : Controller) (id : RecordId) : Controller × Except VariableError Transfer :=
  c.onVariable id fun b r v =>
    let x := Variable.giveOut b r v
    (x.record, x.target, x.result)

/-- Read a record's variable back. -/
def readBack (c : Controller) (id : RecordId) : Controller × Except VariableError Unit :=
  c.onVariable id Variable.readBack

/-- Run the second pass of a record with a variable: whether the record was active. -/
def secondPhase (c : Controller) (id : RecordId) (v : VariableId) : Controller × Bool :=
  match c.record? id, c.variableAt? v with
  | some r, some v =>
    match Variable.secondPhase r v with
    | some r => (c.setRecord id r, true)
    | none => (c, false)
  | _, _ => (c, false)

/-- Write a field of a record by its name. -/
def putField (c : Controller) (id : RecordId) (name : String) (value : Value) :
    Controller × Except FieldError Unit :=
  match c.record? id with
  | none => (c, .error (.noSuchField name))
  | some r =>
    match r.putField name value with
    | .ok r => (c.setRecord id r, .ok ())
    | .error e => (c, .error e)

/-- What a client writes to an array record. -/
def putArray (c : Controller) (id : RecordId) (values : List UInt32) : Controller :=
  match c.record? id with
  | some r =>
    match r.body with
    | .array archive a => c.setRecord id { r with body := .array archive (a.put values) }
    | .scalar _ _ => c
  | none => c

end Controller

end ControlRecords
