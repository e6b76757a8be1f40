import ControlRecords.Record.Field

/-! Records of an array. The elements are single-precision numbers, kept by their bits, so
that whatever is stored comes back as it was. -/
namespace ControlRecords

/-- The fields of an array record. -/
structure ArrayFields where
  /-- The elements, as many as the array can hold. -/
  values : List UInt32 := []
  /-- How many elements are in use. -/
  inUse : UInt32 := 0
  /-- How many elements were last written. -/
  written : UInt32 := 0
  deriving DecidableEq, Repr

namespace ArrayFields

/-- Elements with the first ones replaced by others. -/
def overwrite (values new : List UInt32) : List UInt32 :=
  new.take values.length ++ values.drop new.length

/-- What a client writes: as many elements as the array can hold, which are in use from
then on. -/
def put (a : ArrayFields) (new : List UInt32) : ArrayFields :=
  { a with values := overwrite a.values new,
           inUse := UInt32.ofNat (min new.length a.values.length) }

/-- The type of a field. -/
def type? : Field → Option DataType
  | .nelm | .nord => some .ulong
  | _ => none

/-- The value of a field. -/
def get? (a : ArrayFields) : Field → Option Value
  | .nelm => some (.ulong a.inUse)
  | .nord => some (.ulong a.written)
  | _ => none

/-- Set a field to a value of its type. -/
def set (a : ArrayFields) : Field → Value → ArrayFields
  | .nelm, .ulong n => { a with inUse := n }
  | .nord, .ulong n => { a with written := n }
  | _, _ => a

@[simp] theorem length_overwrite (values new : List UInt32) :
    (overwrite values new).length = values.length := by
  simp only [overwrite, List.length_append, List.length_take, List.length_drop]
  omega

/-- The elements are behind no field. -/
@[simp] theorem values_set (a : ArrayFields) (f : Field) (v : Value) :
    (a.set f v).values = a.values := by
  unfold set
  split <;> rfl

end ArrayFields

end ControlRecords
