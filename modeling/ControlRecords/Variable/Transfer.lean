import ControlRecords.Record.Processing

/-! Moving values between records and variables. `takeIn` loads a record's field from a
variable, together with the variable's alarm and time. `giveOut` stores the field in the
variable; if the link asks for it, the record is attached to the variable and stays active
until the driver completes the write, and `secondPhase` is what the record's next pass does
then. `readBack` loads the field only, without any trace on the variable but the alarm of a
failed conversion. -/
namespace ControlRecords.Variable

/-- What moving a value did. -/
structure Exchanged where
  record : Record
  target : Variable
  result : Except VariableError Transfer

/-- Signal the event after an access, unless the link says not to. -/
def post (v : Variable) (flags : Flags) : Variable := if flags.noPost then v else v.signal

/-- The variable's alarm is raised against the record, and the record takes its time. -/
def inherit (r : Record) (v : Variable) : Record :=
  r.withCommon fun c => (c.stampFromDevice v.time).raise v.alarm.status v.alarm.severity

/-- Load a record's field from a variable, and signal the event if `signals` says so. -/
def takeIn (signals : Bool) (b : Binding) (r : Record) (v : Variable) : Exchanged :=
  let posted := if signals then v.post b.flags else v
  match r.put b.field v.value with
  | .error e => ⟨(inherit r v).raise .read .invalid, posted, .error (.field e)⟩
  | .ok r =>
    if b.flags.noConvert then ⟨(inherit r v).setUndefined false, posted, .ok .final⟩
    else ⟨inherit r v, posted, .ok .raw⟩

/-- Load a record's field from a variable and leave the variable alone, unless the value
cannot be converted: then both have an alarm. -/
def readBack (b : Binding) (r : Record) (v : Variable) :
    Record × Variable × Except VariableError Unit :=
  match r.put b.field v.value with
  | .ok r => (r, v, .ok ())
  | .error e =>
    let r := r.raise .read .major
    (r, { v with alarm := r.common.alarms.pending }, .error (.field e))

/-- The second pass of a write that was completed: if the record is active, it takes over
the variable's alarm and time. -/
def secondPhase (r : Record) (v : Variable) : Option Record :=
  if r.common.active then some (inherit r v) else none

/-- Attach a record whose write waits to be completed. -/
def attachRecord (r : Record) (v : Variable) : Except VariableError Variable :=
  match r.common.handle, r.common.scheduler with
  | some record, some scheduler => v.attach ⟨record, scheduler⟩
  | _, _ => .error .noScheduler

/-- Store a record's field in a variable. The variable gets the record's pending alarm, and
its event is signalled, whether or not the value could be converted. -/
def deliver (b : Binding) (r : Record) (v : Variable) : Exchanged :=
  match r.get? b.field with
  | none => ⟨r, v, .error (.badField b.field.text)⟩
  | some value =>
    match v.store value with
    | .ok v => ⟨r, { v with alarm := r.common.alarms.pending }.post b.flags, .ok .raw⟩
    | .error e =>
      let r := r.raise .write .invalid
      ⟨r, { v with alarm := r.common.alarms.pending }.post b.flags, .error (.convert e)⟩

/-- Store a record's field in a variable, in the first pass or the only one; in the second
pass there is nothing left to store. -/
def giveOut (b : Binding) (r : Record) (v : Variable) : Exchanged :=
  match secondPhase r v with
  | some r => ⟨r, v, .ok .raw⟩
  | none =>
    if b.flags.asynchronous then
      match attachRecord r v with
      | .error e => ⟨r.raise .write .invalid, v, .error e⟩
      | .ok v => deliver b (r.setActive true) v
    else deliver b r v

end ControlRecords.Variable
