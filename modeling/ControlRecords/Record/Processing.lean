import ControlRecords.Archive.Arrays
import ControlRecords.Record.Basic
import ControlRecords.Variable.Basic

/-! One pass of processing. A record hands its value to its support, or receives it, and
settles: values are converted, the time is taken, the pending alarm becomes the current
one. What differs between the supports is a single function that moves the value between
the record and its target; `Record.process` puts the same frame around each.

A record that is connected to nothing is not processed at all. A support may leave the
record active, which it does when a write waits to be completed: then the pass ends there,
and the next pass of the active record completes it. -/
namespace ControlRecords

/-- How a value was moved. -/
inductive Transfer where
  /-- As a raw value, which the record converts as usual. -/
  | raw
  /-- In its final form. -/
  | final
  deriving DecidableEq, Repr

/-- Why a support could not move a value. -/
inductive SupportError where
  | link (error : Register.LinkError)
  | access (error : Register.AccessError)
  | shared (error : VariableError)
  | archive (error : Archive.ArchiveError)
  | notInitialized

/-- The message of a support's error. -/
def SupportError.message : SupportError → String
  | link error => "Illegal hardware link: " ++ error.message
  | access error => error.message
  | shared error => error.message
  | archive error => error.message
  | notInitialized => "Device support has not been initialised for this record"

/-- What a support did: the record and its target afterwards, and how the value was moved. -/
structure Pass (τ : Type) where
  record : Record
  target : τ
  result : Except SupportError Transfer

/-- Processing is over: an undefined value is an alarm, the time is taken, and the pending
alarm becomes the current one. -/
def Common.finish (c : Common) : Common :=
  let c := if c.undefined then c.raise .undefined .invalid else c
  let c := c.stampFromClock.promoteAlarms
  { c with active := false }

namespace Record

/-- Take over what the support moved. A record that reads works its value out from the raw
one, and then the value is defined unless it is no number; a record that writes has a
defined value as soon as it is written. -/
def settle (r : Record) (result : Except SupportError Transfer) : Record :=
  match r.body.isOutput, result with
  | true, .ok _ => r.setUndefined false
  | false, .ok .raw =>
    let body := r.body.ofRaw
    { r with body, common := { r.common with undefined := body.isNaN } }
  | _, _ => r

/-- A record that writes works its raw value out first, unless it is completing a write. -/
def prepare (r : Record) : Record :=
  if r.body.isOutput && !r.common.active then { r with body := r.body.toRaw } else r

/-- One pass of processing by a support. -/
def process {τ : Type} (support : Record → τ → Pass τ) (r : Record) (target : τ) : Record × τ :=
  if r.common.binding.isBound then
    let pass := support r.prepare target
    if !r.common.active && pass.record.common.active then (pass.record, pass.target)
    else ((pass.record.settle pass.result).withCommon Common.finish, pass.target)
  else (r, target)

end Record

end ControlRecords
