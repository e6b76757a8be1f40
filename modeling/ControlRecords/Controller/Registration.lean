import ControlRecords.Controller.Basic

/-! Registering what links can name. Every name is written once; a refused registration
changes nothing, except that the table of groups is there once a group was to be
registered. -/
namespace ControlRecords.Controller

/-- Change what links can name. -/
def withCatalogue (c : Controller) (g : Catalogue → Catalogue) : Controller :=
  { c with catalogue := g c.catalogue }

/-- Register a device. -/
def registerDevice (c : Controller) (name : String) (base : Nat) :
    Except AlreadyRegistered (Register.Device × Controller) :=
  let device : Register.Device := ⟨name, base⟩
  (c.catalogue.devices.add name device).map fun devices =>
    (device, c.withCatalogue ({ · with devices }))

/-- The device that a token names; that of a number is entered if need be. -/
def resolveDevice (c : Controller) (token : String) : Option Register.Device × Controller :=
  let (device, devices) := Register.Device.resolve c.catalogue.devices token
  (device, c.withCatalogue ({ · with devices }))

/-- Register an access method. -/
def registerMethod (c : Controller) (name : String) (method : Register.Custom) :
    Except AlreadyRegistered Controller :=
  (c.catalogue.methods.add name method).map fun methods => c.withCatalogue ({ · with methods })

/-- Register a new scan list. -/
def registerScanList (c : Controller) (name : String) :
    Except AlreadyRegistered (ScanListId × Controller) :=
  let (id, c) := c.newScanList
  (c.catalogue.scanLists.add name id).map fun scanLists =>
    (id, c.withCatalogue ({ · with scanLists }))

/-- One variable for each value, each on a new scan list of its own. -/
def individuallyScanned (c : Controller) : List Value → List Variable × Controller
  | [] => ([], c)
  | value :: rest =>
    let (list, c) := c.newScanList
    let (vars, c) := c.individuallyScanned rest
    ({ value, scan := some list } :: vars, c)

/-- Register variables as a group. -/
def registerGroup (c : Controller) (name : String) (vars : List Variable) :
    Controller × Except VariableError Variable.Group :=
  let first := c.vars.length
  let group : Variable.Group :=
    { name, members := (List.range vars.length).map fun i => ⟨first + i⟩ }
  match c.catalogue.groups.register c.setting group with
  | (.ok (), groups) =>
    ({ c.withCatalogue ({ · with groups }) with vars := c.vars ++ vars },
      .ok group)
  | (.error e, groups) =>
    (c.withCatalogue ({ · with groups }), .error (.alreadyRegistered e.name))

/-- The group with a name. -/
def findGroup (c : Controller) (name : String) : Option Variable.Group × Controller :=
  let (group, groups) := c.catalogue.groups.find c.setting name
  (group, c.withCatalogue ({ · with groups }))

/-- Choose the size of the table of groups by its exponent: the size from then on. -/
def configureGroups (c : Controller) (exponent : Nat) : Nat × Controller :=
  let groups := c.catalogue.groups.configure exponent
  (groups.size c.setting, c.withCatalogue ({ · with groups }))

/-- Forget every registration. What records are connected to stays what it is. -/
def reset (c : Controller) : Controller := { c with catalogue := {} }

end ControlRecords.Controller
