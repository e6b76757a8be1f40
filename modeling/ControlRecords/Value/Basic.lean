import ControlRecords.Text

/-! Typed scalar values, the things that pass between records and devices. A value is a
text or a number of one of nine machine types; `DataType` names the types, each with a
code and a keyword of its own. -/
namespace ControlRecords

/-- The type of a value. -/
inductive DataType where
  | string
  | char
  | uchar
  | short
  | ushort
  | long
  | ulong
  | float
  | double
  /-- The index of a state. -/
  | enum
  deriving DecidableEq, Repr, Inhabited

namespace DataType

/-- Every type, in the order of the codes. -/
def all : List DataType :=
  [string, char, uchar, short, ushort, long, ulong, float, double, enum]

/-- The number under which a type is known. -/
def code : DataType → Nat
  | string => 0
  | char => 1
  | uchar => 2
  | short => 3
  | ushort => 4
  | long => 5
  | ulong => 6
  | float => 7
  | double => 8
  | enum => 9

/-- The type with a code. -/
def ofCode? (n : Nat) : Option DataType := all.find? (·.code == n)

theorem ofCode?_code (t : DataType) : ofCode? t.code = some t := by cases t <;> decide

/-- The name of a type in messages. -/
def name : DataType → String
  | string => "String"
  | char => "Char"
  | uchar => "UChar"
  | short => "Short"
  | ushort => "UShort"
  | long => "Long"
  | ulong => "ULong"
  | float => "Float"
  | double => "Double"
  | enum => "Enum"

/-- The type that a keyword names. `INT` is another word for `SHORT`. -/
def ofKeyword? : String → Option DataType
  | "STRING" => some string
  | "CHAR" => some char
  | "UCHAR" => some uchar
  | "SHORT" => some short
  | "INT" => some short
  | "USHORT" => some ushort
  | "LONG" => some long
  | "ULONG" => some ulong
  | "FLOAT" => some float
  | "DOUBLE" => some double
  | "ENUM" => some enum
  | _ => none

/-- The type that a text names: its keyword in letters of any case, with or without a
leading `DBR_`. -/
def ofText? (s : String) : Option DataType :=
  ofKeyword? (Text.dropLeading "DBR_" (Text.keyword s))

/-- The type holds whole numbers. -/
def isInteger : DataType → Bool
  | string | float | double => false
  | _ => true

/-- How many bits a whole number of the type has; the other types have none. -/
def bits : DataType → Nat
  | char | uchar => 8
  | short | ushort | enum => 16
  | long | ulong => 32
  | string | float | double => 0

/-- The type holds negative whole numbers. -/
def isSigned : DataType → Bool
  | char | short | long => true
  | _ => false

end DataType

/-- A value of one of the types. -/
inductive Value where
  | string (text : String)
  | char (n : Int8)
  | uchar (n : UInt8)
  | short (n : Int16)
  | ushort (n : UInt16)
  | long (n : Int32)
  | ulong (n : UInt32)
  | float (x : Float32)
  | double (x : Float)
  | enum (n : UInt16)

namespace Value

/-- The type of a value. -/
def type : Value → DataType
  | string _ => .string
  | char _ => .char
  | uchar _ => .uchar
  | short _ => .short
  | ushort _ => .ushort
  | long _ => .long
  | ulong _ => .ulong
  | float _ => .float
  | double _ => .double
  | enum _ => .enum

/-- The zero of a type, and the empty text. -/
def zero : DataType → Value
  | .string => string ""
  | .char => char 0
  | .uchar => uchar 0
  | .short => short 0
  | .ushort => ushort 0
  | .long => long 0
  | .ulong => ulong 0
  | .float => float 0.0
  | .double => double 0.0
  | .enum => enum 0

@[simp] theorem type_zero (t : DataType) : (zero t).type = t := by cases t <;> rfl

instance : Inhabited Value := ⟨zero .long⟩

/-- The number that a value of an integer type holds. -/
def toInt? : Value → Option Int
  | char n => some n.toInt
  | uchar n => some n.toNat
  | short n => some n.toInt
  | ushort n => some n.toNat
  | long n => some n.toInt
  | ulong n => some n.toNat
  | enum n => some n.toNat
  | string _ | float _ | double _ => none

theorem toInt?_isSome (v : Value) : v.toInt?.isSome = v.type.isInteger := by cases v <;> rfl

end Value

end ControlRecords
