import ControlRecords.Alarm
import ControlRecords.Identifier
import ControlRecords.Record.Field
import ControlRecords.Value.Convert

/-! Variables: typed values that drivers share with records. A variable keeps the type
that it was created with. It may be on a scan list, by which a driver makes records
process, and it may have an event, which records signal when they have moved the value.
While an asynchronous write waits for the driver, the record that wrote is attached. -/
namespace ControlRecords

/-- What can go wrong between a record and a variable. -/
inductive VariableError where
  | badLinkType
  | notRegistered (name : String)
  | badCard (card : UInt32) (count : Nat)
  | badField (name : String)
  | alreadyRegistered (name : String)
  | alreadyPresent
  | conflict
  | notAttached
  | noScheduler
  | notBound
  | field (error : FieldError)
  | convert (error : ConvertError)
  | schedulerClosed

/-- The message for a request to a scheduler that is gone. -/
def schedulerClosedMessage : String := "The record scheduler has shut down"

/-- The message of an error between a record and a variable. -/
def VariableError.message : VariableError → String
  | badLinkType => "Link must be of type VME_IO"
  | notRegistered name => "No registry entry found for '" ++ name ++ "'"
  | badCard card count =>
    "Invalid card #" ++ toString card.toNat ++ "; only " ++ toString count
      ++ " variables are registered"
  | badField name => "Record has no field named '" ++ name ++ "'"
  | alreadyRegistered name =>
    "A generic variable named '" ++ name ++ "' is already registered"
  | alreadyPresent => "The variable already has one"
  | conflict => "Only ONE record may asynchronously process a generic variable"
  | notAttached => "No record is waiting for completion"
  | noScheduler => "Record has no scheduler to complete asynchronous processing"
  | notBound => "Record is not bound to a generic variable"
  | field error => error.message
  | convert error => error.message
  | schedulerClosed => schedulerClosedMessage

/-- A record that waits for its write to be completed, and the scheduler that will run
its second pass. -/
structure Attachment where
  record : RecordId
  scheduler : SchedulerId
  deriving DecidableEq, Repr

/-- A typed value that a driver shares with records. -/
structure Variable where
  value : Value
  time : TimeStamp := .epoch
  alarm : Alarm := .none
  attached : Option Attachment := none
  scan : Option ScanListId := none
  /-- Whole exchanges with the variable are made one at a time. -/
  hasLock : Bool := false
  /-- The event, if there is one: whether it is signalled. -/
  event : Option Bool := none

instance : Inhabited Variable := ⟨{ value := default }⟩

namespace Variable

/-- The type of a variable's value. -/
def type (v : Variable) : DataType := v.value.type

/-- Store a value, converted to the variable's type. -/
def store (v : Variable) (value : Value) : Except ConvertError Variable :=
  match value.convert v.type with
  | .ok value => .ok { v with value }
  | .error e => .error e

/-- Signal the event, if there is one. -/
def signal (v : Variable) : Variable := { v with event := v.event.map fun _ => true }

/-- Give the variable a lock. -/
def createLock (v : Variable) : Except VariableError Variable :=
  if v.hasLock then .error .alreadyPresent else .ok { v with hasLock := true }

/-- Give the variable an event. -/
def createEvent (v : Variable) : Except VariableError Variable :=
  if v.event.isSome then .error .alreadyPresent else .ok { v with event := some false }

/-- Let a record wait for the completion of its write. Only one may. -/
def attach (v : Variable) (a : Attachment) : Except VariableError Variable :=
  if v.attached.isSome then .error .conflict else .ok { v with attached := some a }

/-- How waiting for the event ended. -/
inductive WaitStatus where
  | ok
  | timedOut
  | error
  | noEvent
  /-- Nothing will end the waiting but a signal. -/
  | blocked
  deriving DecidableEq, Repr

/-- Wait for the event for some seconds at most, which consumes the signal. A negative
or infinite time is no limit, and a time that is no number or that no clock counts is an
error. -/
def wait (v : Variable) (seconds : Float) : WaitStatus × Variable :=
  match v.event with
  | none => (.noEvent, v)
  | some signalled =>
    let consumed := { v with event := some false }
    if seconds < 0 || seconds == 1.0 / 0.0 then
      if signalled then (.ok, consumed) else (.blocked, v)
    else if !signalled && 0 < seconds then
      if 18446744073709551616.0 ≤ seconds then (.error, v) else (.timedOut, consumed)
    else if seconds.isNaN then (.error, v)
    else if signalled then (.ok, consumed)
    else (.timedOut, consumed)

end Variable

end ControlRecords
