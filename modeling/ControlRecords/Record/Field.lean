import ControlRecords.Value.Convert

/-! Fields of records. Some are common to all records and can only be read; the others
belong to the record's type. -/
namespace ControlRecords

/-- A field that some record has. -/
inductive Field where
  /-- The record's name. -/
  | name
  /-- Processing is active. -/
  | pact
  /-- The value is undefined. -/
  | udf
  /-- Process once when initialised. -/
  | pini
  /-- The condition of the current alarm. -/
  | stat
  /-- The severity of the current alarm. -/
  | sevr
  /-- The condition of the pending alarm. -/
  | nsta
  /-- The severity of the pending alarm. -/
  | nsev
  /-- The value in the record's own terms. -/
  | val
  /-- The raw value, in the device's terms. -/
  | rval
  /-- The raw value last read back from the device. -/
  | rbv
  /-- The bits of the raw value that are the record's. -/
  | mask
  /-- How many bits the record has. -/
  | nobt
  /-- How far the bits lie from the right. -/
  | shft
  /-- The value of one raw unit. -/
  | eslo
  /-- The value of raw zero. -/
  | eoff
  /-- How many elements are in use. -/
  | nelm
  /-- How many elements were last written. -/
  | nord
  deriving DecidableEq, Repr

namespace Field

/-- Every field. -/
def all : List Field :=
  [name, pact, udf, pini, stat, sevr, nsta, nsev, val, rval, rbv, mask, nobt, shft, eslo, eoff,
    nelm, nord]

/-- The name of a field. -/
def text : Field → String
  | name => "NAME"
  | pact => "PACT"
  | udf => "UDF"
  | pini => "PINI"
  | stat => "STAT"
  | sevr => "SEVR"
  | nsta => "NSTA"
  | nsev => "NSEV"
  | val => "VAL"
  | rval => "RVAL"
  | rbv => "RBV"
  | mask => "MASK"
  | nobt => "NOBT"
  | shft => "SHFT"
  | eslo => "ESLO"
  | eoff => "EOFF"
  | nelm => "NELM"
  | nord => "NORD"

/-- The field with a name. -/
def ofText? (s : String) : Option Field := all.find? (·.text == s)

theorem ofText?_text (f : Field) : ofText? f.text = some f := by cases f <;> decide

/-- Only a field's own name names it. -/
theorem text_of_ofText? {s : String} {f : Field} (h : ofText? s = some f) : f.text = s := by
  simpa using List.find?_some h

/-- The type of a field that every record has. -/
def commonType? : Field → Option DataType
  | name => some .string
  | pact | udf | pini => some .uchar
  | stat | sevr | nsta | nsev => some .enum
  | _ => none

end Field

/-- Why a field cannot be written. -/
inductive FieldError where
  | noSuchField (name : String)
  | readOnly (name : String)
  | convert (error : ConvertError)

/-- The message of a field error. -/
def FieldError.message : FieldError → String
  | noSuchField name => "Record has no field named '" ++ name ++ "'"
  | readOnly name => "Field '" ++ name ++ "' is read-only"
  | convert error => error.message

end ControlRecords
