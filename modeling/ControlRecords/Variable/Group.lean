import ControlRecords.Identifier
import ControlRecords.Numeral
import ControlRecords.Registry

/-! Groups of variables under names. Records name a group in their links and the place of
a variable in it. The table of groups comes into being when a group is first registered or
looked up; until then its size, a power of two, can be chosen. -/
namespace ControlRecords.Variable

/-- Variables that were registered together. -/
structure Group where
  name : String
  members : List VariableId
  deriving DecidableEq, Repr

/-- The table of groups. -/
structure GroupTable where
  /-- The exponent of the table's size, once it is chosen. -/
  exponent : Option Nat := none
  /-- The groups, once there is a table. -/
  groups : Option (Registry Group) := none

namespace GroupTable

instance : Inhabited GroupTable := ⟨{}⟩

/-- The least exponent of a table's size. -/
def leastExponent : Nat := 8

/-- The greatest exponent of a table's size. -/
def greatestExponent : Nat := 16

/-- The exponent where nobody chose one. -/
def usualExponent : Nat := 9

/-- The exponent that a setting of the environment asks for, if it is a 32-bit number in
decimal; a plus sign may stand before it. -/
def requested? (setting : String) : Option Nat :=
  let digits := match setting.toList with
    | '+' :: cs => cs
    | cs => cs
  match Numeral.complete (Numeral.decimal? digits) with
  | some n => if n < UInt32.size then some n else none
  | none => none

/-- The exponent under a setting of the environment, brought into the permitted range. -/
def settingExponent (setting : Option String) : Nat :=
  max leastExponent (min greatestExponent ((setting.bind requested?).getD usualExponent))

/-- The exponent that the table has, or would get now. -/
def currentExponent (t : GroupTable) (setting : Option String) : Nat :=
  t.exponent.getD (settingExponent setting)

/-- The size that the table has, or would get now. -/
def size (t : GroupTable) (setting : Option String) : Nat := 1 <<< t.currentExponent setting

/-- Choose the exponent. The choice counts if it is in the permitted range and there is no
table yet. -/
def configure (t : GroupTable) (exponent : Nat) : GroupTable :=
  if leastExponent ≤ exponent ∧ exponent ≤ greatestExponent ∧ t.groups.isNone then
    { t with exponent := some exponent }
  else t

/-- The groups of the table, none if there is no table. -/
def registered (t : GroupTable) : Registry Group := t.groups.getD .empty

/-- The table brought into being, with its size fixed from then on. -/
def opened (t : GroupTable) (setting : Option String) : GroupTable :=
  if t.groups.isSome then t
  else { exponent := some (t.currentExponent setting), groups := some .empty }

/-- Register a group. The table is there afterwards even if the name was taken. -/
def register (t : GroupTable) (setting : Option String) (group : Group) :
    Except AlreadyRegistered Unit × GroupTable :=
  let t := t.opened setting
  match t.registered.add group.name group with
  | .ok groups => (.ok (), { t with groups := some groups })
  | .error e => (.error e, t)

/-- Look a group up. The table is there afterwards. -/
def find (t : GroupTable) (setting : Option String) (name : String) :
    Option Group × GroupTable :=
  let t := t.opened setting
  (t.registered.find? name, t)

end GroupTable

end ControlRecords.Variable
