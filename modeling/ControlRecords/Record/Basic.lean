import ControlRecords.Alarm
import ControlRecords.Archive.Arrays
import ControlRecords.Record.Array
import ControlRecords.Record.Scalar
import ControlRecords.Register.Binding
import ControlRecords.Variable.Binding

/-! Records. A record is a set of fields together with the link to what it reads or
writes, the support that moves its value, and, once it is connected, the binding to the
thing itself. Fields are read and written by name; writing converts to the field's type,
and a write that fails leaves the record as it was. -/
namespace ControlRecords

/-- How a record is made to process. -/
inductive ScanMode where
  | passive
  /-- Whenever the scan list of what it is connected to is requested. -/
  | event
  deriving DecidableEq, Repr

/-- Where a record's time comes from. -/
inductive TimeSource where
  /-- The clock, at the end of processing. -/
  | database
  /-- The device. -/
  | device
  deriving DecidableEq, Repr

/-- What a record is connected to. -/
inductive Binding where
  | unbound
  | toRegister (b : Register.Binding)
  | toVariable (b : Variable.Binding)
  | toArchive (b : Archive.Binding)
  deriving DecidableEq, Repr

namespace Binding

/-- The record is connected to something. -/
def isBound : Binding → Bool
  | unbound => false
  | _ => true

end Binding

/-- The part that all records have. -/
structure Common where
  name : String
  /-- Processing is active: an asynchronous write is under way, or connecting failed. -/
  active : Bool := false
  /-- The value is undefined. -/
  undefined : Bool := true
  /-- Process once when initialised. -/
  initProcess : Bool := false
  scan : ScanMode := .passive
  timeSource : TimeSource := .database
  time : TimeStamp := .epoch
  binding : Binding := .unbound
  alarms : Alarms := {}
  /-- The record itself, if it is in the care of a controller. -/
  handle : Option RecordId := none
  /-- The scheduler that processes the record. -/
  scheduler : Option SchedulerId := none
  deriving DecidableEq, Repr

namespace Common

/-- Raise an alarm. -/
def raise (c : Common) (status : AlarmStatus) (severity : Severity) : Common :=
  { c with alarms := c.alarms.raise ⟨status, severity⟩ }

/-- Make the pending alarm the current one. -/
def promoteAlarms (c : Common) : Common := { c with alarms := c.alarms.promote }

/-- Take the device's time, if the time comes from the device. -/
def stampFromDevice (c : Common) (time : TimeStamp) : Common :=
  if c.timeSource = .device then { c with time } else c

/-- Take the clock's time, unless the time comes from the device. -/
def stampFromClock (c : Common) : Common :=
  if c.timeSource = .database then { c with time := .clock } else c

/-- The value of a field that every record has. -/
def get? (c : Common) : Field → Option Value
  | .name => some (.ofText c.name)
  | .pact => some (.uchar c.active.toUInt8)
  | .udf => some (.uchar c.undefined.toUInt8)
  | .pini => some (.uchar c.initProcess.toUInt8)
  | .stat => some (.enum (UInt16.ofNat c.alarms.current.status.code))
  | .sevr => some (.enum (UInt16.ofNat c.alarms.current.severity.code))
  | .nsta => some (.enum (UInt16.ofNat c.alarms.pending.status.code))
  | .nsev => some (.enum (UInt16.ofNat c.alarms.pending.severity.code))
  | _ => none

end Common

/-- What moves the value of a scalar record. -/
inductive ScalarSupport where
  /-- A register. -/
  | registers
  /-- A variable. -/
  | shared
  deriving DecidableEq, Repr

/-- The fields of a record, with the support that moves them. -/
inductive Body where
  | scalar (support : ScalarSupport) (fields : Scalar)
  | array (archive : ArchiveId) (fields : ArrayFields)

namespace Body

/-- The name of the record type. -/
def typeName : Body → String
  | scalar _ s => s.typeName
  | array _ _ => "aao"

/-- The record writes to its device. -/
def isOutput : Body → Bool
  | scalar _ s => s.isOutput
  | array _ _ => true

/-- The type of a field of the record type's own. -/
def type? : Body → Field → Option DataType
  | scalar _ s, f => s.type? f
  | array _ _, f => ArrayFields.type? f

/-- The value of a field of the record type's own. -/
def get? : Body → Field → Option Value
  | scalar _ s, f => s.get? f
  | array _ a, f => a.get? f

/-- Set a field of the record type's own to a value of its type. -/
def set : Body → Field → Value → Body
  | scalar support s, f, v => scalar support (s.set f v)
  | array archive a, f, v => array archive (a.set f v)

/-- Change the fields of a scalar record. -/
def mapScalar (g : Scalar → Scalar) : Body → Body
  | scalar support s => scalar support (g s)
  | b => b

/-- Work the value out from the raw one. -/
def ofRaw : Body → Body := mapScalar Scalar.ofRaw

/-- Work the raw value out from the value. -/
def toRaw : Body → Body := mapScalar Scalar.toRaw

/-- The value is no number. -/
def isNaN : Body → Bool
  | scalar _ s => s.isNaN
  | array _ _ => false

/-- The mask of the record, the empty one if it has none. -/
def mask : Body → UInt32
  | scalar _ s => s.mask
  | array _ _ => 0

end Body

/-- A record. -/
structure Record where
  common : Common
  link : Link
  body : Body

namespace Record

/-- Change the common part. -/
def withCommon (r : Record) (g : Common → Common) : Record := { r with common := g r.common }

/-- Change the fields of a scalar record. -/
def mapScalar (r : Record) (g : Scalar → Scalar) : Record := { r with body := r.body.mapScalar g }

/-- Raise an alarm. -/
def raise (r : Record) (status : AlarmStatus) (severity : Severity) : Record :=
  r.withCommon (·.raise status severity)

/-- Connect the record. -/
def bind (r : Record) (b : Binding) : Record := r.withCommon ({ · with binding := b })

/-- Mark the value as undefined, or as defined. -/
def setUndefined (r : Record) (undefined : Bool) : Record := r.withCommon ({ · with undefined })

/-- Mark processing as active, or as over. -/
def setActive (r : Record) (active : Bool) : Record := r.withCommon ({ · with active })

/-- The type of a field. -/
def type? (r : Record) (f : Field) : Option DataType := r.body.type? f <|> f.commonType?

/-- The value of a field. -/
def get? (r : Record) (f : Field) : Option Value := r.body.get? f <|> r.common.get? f

/-- Write a field, converting the value to its type. -/
def put (r : Record) (f : Field) (v : Value) : Except FieldError Record :=
  match r.body.type? f with
  | some t =>
    match v.convert t with
    | .ok w => .ok { r with body := r.body.set f w }
    | .error e => .error (.convert e)
  | none => .error (if f.commonType?.isSome then .readOnly f.text else .noSuchField f.text)

/-- The type of a field by its name. -/
def fieldType? (r : Record) (name : String) : Option DataType :=
  (Field.ofText? name).bind r.type?

/-- The value of a field by its name. -/
def getField? (r : Record) (name : String) : Option Value := (Field.ofText? name).bind r.get?

/-- Write a field by its name. -/
def putField (r : Record) (name : String) (v : Value) : Except FieldError Record :=
  match Field.ofText? name with
  | some f => r.put f v
  | none => .error (.noSuchField name)

end Record

end ControlRecords
