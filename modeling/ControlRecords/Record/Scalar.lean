import ControlRecords.Decimal.Binary
import ControlRecords.Record.Field

/-! Records of a single value. There are four kinds of value (analog, binary, multi-bit and
whole numbers), and each has an input and an output type. Most types keep the value twice:
in the record's own terms and raw, in the device's terms. -/
namespace ControlRecords

namespace Bits

/-- Shift a word to the left. -/
def shiftLeft (w : UInt32) (n : UInt16) : UInt32 := ⟨w.toBitVec <<< n.toNat⟩

/-- Shift a word to the right. -/
def shiftRight (w : UInt32) (n : UInt16) : UInt32 := ⟨w.toBitVec >>> n.toNat⟩

/-- The mask that covers the low `n` bits, all of them from thirty-two on. -/
def low (n : UInt16) : UInt32 := ⟨(1#32 <<< n.toNat) - 1#32⟩

/-- A mask for `n` bits moved to its place; a record of no bits uses all of them. -/
def place (mask : UInt32) (n shift : UInt16) : UInt32 :=
  shiftLeft (if n = 0 then 0xFFFFFFFF else mask) shift

/-- The bits of a word under a mask, or the whole word if the mask is empty. -/
def masked (w mask : UInt32) : UInt32 := if mask ≠ 0 then w &&& mask else w

/-- A word with the bits under a mask taken from another. -/
def merge (current wanted mask : UInt32) : UInt32 := (current &&& ~~~mask) ||| (wanted &&& mask)

/-- The state that a raw word selects: its bits under the mask, moved to the right. -/
def state (raw mask : UInt32) (shift : UInt16) : UInt16 :=
  (shiftRight (raw &&& mask) shift).toUInt16

end Bits

/-- A number in engineering units, `val = raw * slope + offset`. -/
structure Analog where
  val : Float := 0.0
  raw : Int32 := 0
  slope : Float := 1.0
  offset : Float := 0.0

/-- One of two states. -/
structure Binary where
  val : UInt16 := 0
  raw : UInt32 := 0
  mask : UInt32 := 0

/-- One of several states, in `bits` bits that lie `shift` places from the right. -/
structure MultiBit where
  val : UInt16 := 0
  raw : UInt32 := 0
  mask : UInt32 := 0
  bits : UInt16 := 0
  shift : UInt16 := 0

/-- The fields of a record of a single value, by the record's type. -/
inductive Scalar where
  | ai (a : Analog)
  | ao (a : Analog)
  | bi (b : Binary)
  | bo (b : Binary)
  | mbbi (m : MultiBit)
  /-- With the raw value last read back from the device. -/
  | mbbo (m : MultiBit) (readBack : UInt32)
  | longin (val : Int32)
  | longout (val : Int32)

namespace Analog

/-- The number for the raw value. -/
def ofRaw (a : Analog) : Float := Float.ofInt a.raw.toInt * a.slope + a.offset

/-- The raw value nearest to zero's side of the number, within its range. -/
def toRaw (a : Analog) : Int32 :=
  let x := Decimal.ofDouble ((a.val - a.offset) / a.slope)
  Int32.ofInt (x.saturate Int32.minValue.toInt Int32.maxValue.toInt)

/-- The type of a field. -/
def type? : Field → Option DataType
  | .val | .eslo | .eoff => some .double
  | .rval => some .long
  | _ => none

/-- The value of a field. -/
def get? (a : Analog) : Field → Option Value
  | .val => some (.double a.val)
  | .rval => some (.long a.raw)
  | .eslo => some (.double a.slope)
  | .eoff => some (.double a.offset)
  | _ => none

/-- Set a field to a value of its type. -/
def set (a : Analog) : Field → Value → Analog
  | .val, .double x => { a with val := x }
  | .rval, .long n => { a with raw := n }
  | .eslo, .double x => { a with slope := x }
  | .eoff, .double x => { a with offset := x }
  | _, _ => a

end Analog

namespace Binary

/-- The state for the raw value. -/
def ofRaw (b : Binary) : UInt16 := if b.raw ≠ 0 then 1 else 0

/-- The raw value for the state: all bits of the mask, or one if there is no mask. -/
def toRaw (b : Binary) : UInt32 := if b.val = 0 then 0 else if b.mask = 0 then 1 else b.mask

/-- The type of a field. -/
def type? : Field → Option DataType
  | .val => some .enum
  | .rval | .mask => some .ulong
  | _ => none

/-- The value of a field. -/
def get? (b : Binary) : Field → Option Value
  | .val => some (.enum b.val)
  | .rval => some (.ulong b.raw)
  | .mask => some (.ulong b.mask)
  | _ => none

/-- Set a field to a value of its type. -/
def set (b : Binary) : Field → Value → Binary
  | .val, .enum n => { b with val := n }
  | .rval, .ulong n => { b with raw := n }
  | .mask, .ulong n => { b with mask := n }
  | _, _ => b

end Binary

namespace MultiBit

/-- The state for the raw value. -/
def ofRaw (m : MultiBit) : UInt16 := Bits.state m.raw m.mask m.shift

/-- The raw value for the state. -/
def toRaw (m : MultiBit) : UInt32 := Bits.shiftLeft m.val.toUInt32 m.shift

/-- The mask for the record's bits, not moved to its place yet. -/
def sized (m : MultiBit) : MultiBit := { m with mask := Bits.low m.bits }

/-- The mask moved to its place. -/
def placed (m : MultiBit) : MultiBit := { m with mask := Bits.place m.mask m.bits m.shift }

/-- The type of a field. -/
def type? : Field → Option DataType
  | .val => some .enum
  | .rval | .mask => some .ulong
  | .nobt | .shft => some .ushort
  | _ => none

/-- The value of a field. -/
def get? (m : MultiBit) : Field → Option Value
  | .val => some (.enum m.val)
  | .rval => some (.ulong m.raw)
  | .mask => some (.ulong m.mask)
  | .nobt => some (.ushort m.bits)
  | .shft => some (.ushort m.shift)
  | _ => none

/-- Set a field to a value of its type. -/
def set (m : MultiBit) : Field → Value → MultiBit
  | .val, .enum n => { m with val := n }
  | .rval, .ulong n => { m with raw := n }
  | .mask, .ulong n => { m with mask := n }
  | .nobt, .ushort n => { m with bits := n }
  | .shft, .ushort n => { m with shift := n }
  | _, _ => m

end MultiBit

namespace Scalar

/-- The name of the record type. -/
def typeName : Scalar → String
  | ai _ => "ai"
  | ao _ => "ao"
  | bi _ => "bi"
  | bo _ => "bo"
  | mbbi _ => "mbbi"
  | mbbo _ _ => "mbbo"
  | longin _ => "longin"
  | longout _ => "longout"

/-- The fields with which a record of a type starts. -/
def ofTypeName? : String → Option Scalar
  | "ai" => some (ai {})
  | "ao" => some (ao {})
  | "bi" => some (bi {})
  | "bo" => some (bo {})
  | "mbbi" => some (mbbi {})
  | "mbbo" => some (mbbo {} 0)
  | "longin" => some (longin 0)
  | "longout" => some (longout 0)
  | _ => none

/-- The record writes to its device. -/
def isOutput : Scalar → Bool
  | ao _ | bo _ | mbbo _ _ | longout _ => true
  | ai _ | bi _ | mbbi _ | longin _ => false

/-- The type of a field. -/
def type? : Scalar → Field → Option DataType
  | ai _, f | ao _, f => Analog.type? f
  | bi _, f | bo _, f => Binary.type? f
  | mbbi _, f => MultiBit.type? f
  | mbbo _ _, .rbv => some .ulong
  | mbbo _ _, f => MultiBit.type? f
  | longin _, .val | longout _, .val => some .long
  | longin _, _ | longout _, _ => none

/-- The value of a field. -/
def get? : Scalar → Field → Option Value
  | ai a, f | ao a, f => a.get? f
  | bi b, f | bo b, f => b.get? f
  | mbbi m, f => m.get? f
  | mbbo _ readBack, .rbv => some (.ulong readBack)
  | mbbo m _, f => m.get? f
  | longin n, .val | longout n, .val => some (.long n)
  | longin _, _ | longout _, _ => none

/-- Set a field to a value of its type. -/
def set : Scalar → Field → Value → Scalar
  | ai a, f, v => ai (a.set f v)
  | ao a, f, v => ao (a.set f v)
  | bi b, f, v => bi (b.set f v)
  | bo b, f, v => bo (b.set f v)
  | mbbi m, f, v => mbbi (m.set f v)
  | mbbo m _, .rbv, .ulong n => mbbo m n
  | mbbo m readBack, f, v => mbbo (m.set f v) readBack
  | longin _, .val, .long n => longin n
  | longin n, _, _ => longin n
  | longout _, .val, .long n => longout n
  | longout n, _, _ => longout n

/-- Work the value out from the raw one. -/
def ofRaw : Scalar → Scalar
  | ai a => ai { a with val := a.ofRaw }
  | ao a => ao { a with val := a.ofRaw }
  | bi b => bi { b with val := b.ofRaw }
  | bo b => bo { b with val := b.ofRaw }
  | mbbi m => mbbi { m with val := m.ofRaw }
  | mbbo m readBack => mbbo { m with val := m.ofRaw } readBack
  | longin n => longin n
  | longout n => longout n

/-- Work the raw value out from the value, in a record that writes. -/
def toRaw : Scalar → Scalar
  | ao a => ao { a with raw := a.toRaw }
  | bo b => bo { b with raw := b.toRaw }
  | mbbo m readBack => mbbo { m with raw := m.toRaw } readBack
  | s => s

/-- The value is no number. -/
def isNaN : Scalar → Bool
  | ai a | ao a => a.val.isNaN
  | _ => false

/-- The mask of a multi-bit record at the size of its bits; other records as they are. -/
def sized : Scalar → Scalar
  | mbbi m => mbbi m.sized
  | mbbo m readBack => mbbo m.sized readBack
  | s => s

/-- The mask of a multi-bit record moved to its place; other records as they are. -/
def placed : Scalar → Scalar
  | mbbi m => mbbi m.placed
  | mbbo m readBack => mbbo m.placed readBack
  | s => s

/-- The mask of a record that has one, and otherwise the empty mask. -/
def mask : Scalar → UInt32
  | bi b | bo b => b.mask
  | mbbi m | mbbo m _ => m.mask
  | _ => 0

/-- Only some bits of the device's word are the record's, so the others have to be read
before the record writes. -/
def merges : Scalar → Bool
  | bo b => b.mask ≠ 0
  | mbbo _ _ => true
  | _ => false

/-- The raw word; a record without a raw value has its value as a word instead. -/
def word : Scalar → UInt32
  | ai a | ao a => a.raw.toUInt32
  | bi b | bo b => b.raw
  | mbbi m | mbbo m _ => m.raw
  | longin n | longout n => n.toUInt32

/-- Take a word as the raw value, or as the value where there is no raw one. -/
def setWord : Scalar → UInt32 → Scalar
  | ai a, w => ai { a with raw := w.toInt32 }
  | ao a, w => ao { a with raw := w.toInt32 }
  | bi b, w => bi { b with raw := w }
  | bo b, w => bo { b with raw := w }
  | mbbi m, w => mbbi { m with raw := w }
  | mbbo m readBack, w => mbbo { m with raw := w } readBack
  | longin _, w => longin w.toInt32
  | longout _, w => longout w.toInt32

/-- Note a word that was read back; only a multi-bit output keeps it. -/
def noteReadBack : Scalar → UInt32 → Scalar
  | mbbo m _, w => mbbo m w
  | s, _ => s

end Scalar

end ControlRecords
