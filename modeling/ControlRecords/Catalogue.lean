import ControlRecords.Identifier
import ControlRecords.Numeral
import ControlRecords.Register.Access
import ControlRecords.Variable.Group

/-! The catalogue: everything that links can name. Drivers register devices, access
methods, scan lists and groups of variables; records look them up when they are connected.

A device is a base address under a name. A link names its device by a token: a number
stands for the device at that address, which is registered under the number's canonical
name when it is first used; any other token must be the name of a device that is
registered already. -/
namespace ControlRecords

namespace Register

/-- A base address under a name. -/
structure Device where
  name : String
  base : Nat
  deriving DecidableEq, Repr

/-- The device at a numeric address. -/
def Device.ofAddress (base : Nat) : Device := ⟨Numeral.canonicalName base, base⟩

/-- The device that a token names, and the devices afterwards. -/
def Device.resolve (devices : Registry Device) (token : String) :
    Option Device × Registry Device :=
  match Numeral.ofText? token with
  | some base =>
    let (device, devices) := devices.findOrInsert (Numeral.canonicalName base) (.ofAddress base)
    (some device, devices)
  | none => (devices.find? token, devices)

end Register

/-- The four registries that links are resolved against. -/
structure Catalogue where
  devices : Registry Register.Device := .empty
  methods : Registry Register.Custom := .empty
  scanLists : Registry ScanListId := .empty
  groups : Variable.GroupTable := {}

instance : Inhabited Catalogue := ⟨{}⟩

end ControlRecords
