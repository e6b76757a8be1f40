import ControlRecords.Identifier
import ControlRecords.Record.Field

/-! The connection of a record with a variable. The options of the link are the low bits of
its signal number. -/
namespace ControlRecords.Variable

/-- The options of a link to a variable. -/
structure Flags where
  /-- Move the value in the record's own terms and not the raw one (bit 0). -/
  noConvert : Bool := false
  /-- Writes wait for the driver to complete them (bit 1). -/
  asynchronous : Bool := false
  /-- Do not signal the variable's event (bit 2). -/
  noPost : Bool := false
  /-- The record has a raw value, so that there is something to choose (bit 31). -/
  convertSupported : Bool := false
  deriving DecidableEq, Repr, Inhabited

namespace Flags

/-- The options that a signal number stands for. -/
def ofSignal (signal : UInt32) : Flags where
  noConvert := signal &&& 1 != 0
  asynchronous := signal &&& 2 != 0
  noPost := signal &&& 4 != 0

/-- The number in which the bits of the options are set. -/
def bits (f : Flags) : UInt32 :=
  (if f.noConvert then 1 else 0) ||| (if f.asynchronous then 2 else 0)
    ||| (if f.noPost then 4 else 0) ||| (if f.convertSupported then 0x80000000 else 0)

end Flags

/-- The variable that a record is connected to, and the field that the value moves to and
from. -/
structure Binding where
  target : VariableId
  flags : Flags
  field : Field
  fieldType : DataType
  deriving DecidableEq, Repr

end ControlRecords.Variable
