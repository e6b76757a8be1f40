import ControlRecords.Decimal.Reading
import ControlRecords.Numeral
import ControlRecords.Text
import ControlRecords.Value.Text

/-! Conversion between the types of values. A value of the wanted type stays what it is;
anything becomes a text by being written; and between numbers the rules are:

* a whole number goes to an integer type by dropping its high bits, and to a floating
  point type by rounding once;
* a floating point number goes to an integer type by dropping its fraction, and only if
  what is left lies in the type's range;
* a text is read as an integer literal if it is one and as a decimal otherwise, without
  the blanks at its ends. -/
namespace ControlRecords

/-- Why a value cannot be converted. -/
inductive ConvertError where
  /-- The text is no number. -/
  | cannotParse (text : String)
  /-- The number has no place in the type. -/
  | noConversion (value : Float) (target : DataType)

/-- The message of a conversion error. -/
def ConvertError.message : ConvertError → String
  | cannotParse text => "Cannot parse '" ++ text ++ "' as a number"
  | noConversion value target =>
    "No reasonable data conversion of " ++ Decimal.writeDouble value ++ " to " ++ target.name

/-- What a value counts as on its way to a numeric type. -/
inductive Number where
  | whole (n : Int)
  | real (x : Float)

namespace DataType

/-- The least whole number of an integer type. -/
def least (t : DataType) : Int := if t.isSigned then -(1 <<< (t.bits - 1) : Nat) else 0

/-- The greatest whole number of an integer type. -/
def greatest (t : DataType) : Int :=
  if t.isSigned then (1 <<< (t.bits - 1) : Nat) - 1 else (1 <<< t.bits : Nat) - 1

end DataType

namespace Value

/-- The value of a type that stands for a whole number: its low bits for an integer type,
the nearest number for a floating point type, its digits for a text. -/
def ofInt (t : DataType) (n : Int) : Value :=
  match t with
  | .string => ofText (toString n)
  | .char => char (Int8.ofInt n)
  | .uchar => uchar (UInt8.ofInt n)
  | .short => short (Int16.ofInt n)
  | .ushort => ushort (UInt16.ofInt n)
  | .long => long (Int32.ofInt n)
  | .ulong => ulong (UInt32.ofInt n)
  | .float => float (Float32.ofInt n)
  | .double => double (Float.ofInt n)
  | .enum => enum (UInt16.ofInt n)

@[simp] theorem type_ofInt (t : DataType) (n : Int) : (ofInt t n).type = t := by
  cases t <;> rfl

/-- The number that a value counts as. -/
def number : Value → Except ConvertError Number
  | string s =>
    let body := Text.trim s
    match Numeral.signedOfText? body with
    | some n => .ok (.whole n)
    | none =>
      match Decimal.read? body with
      | some x => .ok (.real x)
      | none => .error (.cannotParse body)
  | char n => .ok (.whole n.toInt)
  | uchar n => .ok (.whole n.toNat)
  | short n => .ok (.whole n.toInt)
  | ushort n => .ok (.whole n.toNat)
  | long n => .ok (.whole n.toInt)
  | ulong n => .ok (.whole n.toNat)
  | enum n => .ok (.whole n.toNat)
  | float x => .ok (.real x.toFloat)
  | double x => .ok (.real x)

/-- The value of an integer type that a floating point number truncates to. -/
def ofReal (t : DataType) (x : Float) : Except ConvertError Value :=
  match t with
  | .float => .ok (float x.toFloat32)
  | .double => .ok (double x)
  | _ =>
    match (Decimal.ofDouble x).truncate? with
    | some n =>
      if t.least ≤ n ∧ n ≤ t.greatest then .ok (ofInt t n) else .error (.noConversion x t)
    | none => .error (.noConversion x t)

/-- A value as one of another type. -/
def convert (v : Value) (t : DataType) : Except ConvertError Value :=
  if v.type = t then .ok v
  else if t = .string then .ok (ofText v.text)
  else
    match v.number with
    | .error e => .error e
    | .ok (.whole n) => .ok (ofInt t n)
    | .ok (.real x) => ofReal t x

theorem convert_self (v : Value) : v.convert v.type = .ok v := by simp [convert]

theorem type_ofReal {t : DataType} {x : Float} {w : Value} (h : ofReal t x = .ok w) :
    w.type = t := by
  unfold ofReal at h
  split at h
  · obtain rfl := Except.ok.inj h; rfl
  · obtain rfl := Except.ok.inj h; rfl
  · split at h
    · split at h
      · obtain rfl := Except.ok.inj h; simp
      · contradiction
    · contradiction

/-- What conversion yields is of the wanted type. -/
theorem type_convert {v w : Value} {t : DataType} (h : v.convert t = .ok w) : w.type = t := by
  unfold convert at h
  split at h
  · obtain rfl := Except.ok.inj h; assumption
  · split at h
    · obtain rfl := Except.ok.inj h; simp [ofText, type, *]
    · split at h
      · contradiction
      · obtain rfl := Except.ok.inj h; simp
      · exact type_ofReal h

end Value

end ControlRecords
