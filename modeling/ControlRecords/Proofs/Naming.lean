import ControlRecords.Proofs.Devices
import ControlRecords.Proofs.Occurrences
import ControlRecords.Proofs.Surplus

/-! # Names in the course of time

Drivers register, configure and look up, and records are connected, moved and initialised in
between, in any order.  `CatalogueEvent` is all of this together.  An event that only names
brings a surplus (`exists_surplus_undergo`), and one that only moves values leaves the names
alone.  What is left is connecting: a link is followed (`Reference`), which enters the device of a
numeric address or opens the table of groups.  So one equation says what any operation does to
the names (`names_operate`). -/
namespace ControlRecords

/-- The four registries of a catalogue. -/
inductive RegistryKind where
  | devices
  | methods
  | scanLists
  | groups
  deriving DecidableEq, Repr

/-- What is entered in a registry. -/
def RegistryKind.Entry : RegistryKind → Type
  | devices => Register.Device
  | methods => Register.Custom
  | scanLists => ScanListId
  | groups => Variable.Group

/-- One of the registries. -/
def Catalogue.registry (c : Catalogue) : (kind : RegistryKind) → Registry kind.Entry
  | .devices => c.devices
  | .methods => c.methods
  | .scanLists => c.scanLists
  | .groups => c.groups.registered

/-- What can happen to the names of a controller, and what is done with its records in
between. -/
inductive CatalogueEvent where
  /-- A device is registered or asked for, by its token or in a link. -/
  | device (call : Register.DeviceCall)
  | registerMethod (name : String) (method : Register.Custom)
  | registerScanList (name : String)
  | registerGroup (name : String) (vars : List Variable)
  /-- A name is looked up. -/
  | find (kind : RegistryKind) (name : String)
  /-- The size of the table of groups is chosen. -/
  | configure (exponent : Nat)
  /-- The size of the table of groups is asked for. -/
  | tableSize
  /-- The environment says something else about the size of the table of groups. -/
  | setEnvironment (setting : Option String)
  | reset
  /-- Something is done to a record or a variable. -/
  | operate (op : Operation)
  /-- The records on a scan list are to process. -/
  | requestScan (list : ScanListId)

namespace CatalogueEvent

/-- The event is about records and variables and not about names. -/
def isOperation : CatalogueEvent → Bool
  | operate _ | requestScan _ => true
  | _ => false

/-- The event connects no record.  No record waits on a variable that it registers, and a second
pass is run with none but the first `n` variables. -/
def ConnectsNone (n : Nat) : CatalogueEvent → Prop
  | registerGroup _ vars => ∀ w ∈ vars, w.attached = none
  | operate (.initialise _) | operate (.bind _ _ _ _) => False
  | operate (.secondPhase _ v) => v.index < n
  | _ => True

end CatalogueEvent

namespace Controller

/-- The state after an event.  A registration that is refused leaves the state it found. -/
def undergo (c : Controller) : CatalogueEvent → Controller
  | .device call => c.call call
  | .registerMethod name method =>
    match c.registerMethod name method with
    | .ok d => d
    | .error _ => c
  | .registerScanList name =>
    match c.registerScanList name with
    | .ok (_, d) => d
    | .error _ => c
  | .registerGroup name vars => (c.registerGroup name vars).1
  | .find .groups name => (c.findGroup name).2
  | .find _ _ => c
  | .configure exponent => (c.configureGroups exponent).2
  | .tableSize => c
  | .setEnvironment setting => { c with setting }
  | .reset => c.reset
  | .operate op => c.operate op
  | .requestScan list => (c.requestScan list).2

/-- The state after one event after the other. -/
def undergoAll (c : Controller) (history : List CatalogueEvent) : Controller :=
  history.foldl undergo c

@[simp] theorem undergoAll_nil (c : Controller) : c.undergoAll [] = c := rfl

@[simp] theorem undergoAll_cons (c : Controller) (event : CatalogueEvent)
    (rest : List CatalogueEvent) :
    c.undergoAll (event :: rest) = (c.undergo event).undergoAll rest := rfl

/-- What every event keeps, every history keeps. -/
theorem invariant_undergoAll {P : Controller → Prop}
    (step : ∀ {c} event, P c → P (c.undergo event)) {c : Controller}
    (history : List CatalogueEvent) (h : P c) : P (c.undergoAll history) := by
  induction history generalizing c with
  | nil => exact h
  | cons event rest ih => exact ih (step event h)

/-! ## Events that name -/

theorem withCatalogue_eq_plus (c : Controller) (g : Catalogue → Catalogue) :
    c.withCatalogue g = c.plus ⟨g c.catalogue, c.setting, [], []⟩ := by
  simp [withCatalogue, plus]

theorem reset_eq_plus (c : Controller) : c.reset = c.plus ⟨{}, c.setting, [], []⟩ := by
  simp [reset, plus]

/-- A call to the registry of devices changes the catalogue only. -/
theorem call_eq_plus (c : Controller) (k : Register.DeviceCall) :
    c.call k = c.plus ⟨(c.call k).catalogue, c.setting, [], []⟩ := by
  cases k with
  | register name base =>
    simp only [call, registerDevice]
    cases c.catalogue.devices.add name ⟨name, base⟩ with
    | error e => exact (plus_names c).symm
    | ok devices => exact withCatalogue_eq_plus c _
  | resolve token => exact withCatalogue_eq_plus c fun _ => (c.call (.resolve token)).catalogue
  | link link common =>
    exact withCatalogue_eq_plus c fun _ => (c.call (.link link common)).catalogue

/-- A group that is accepted brings its variables, and one that is refused brings nothing. -/
theorem registerGroup_eq_plus (c : Controller) (name : String) (vars : List Variable) :
    ∃ z : Surplus, (c.registerGroup name vars).1 = c.plus z ∧ (z.vars = vars ∨ z.vars = []) ∧
      z.scanLists = [] := by
  unfold registerGroup
  dsimp only
  split
  · rename_i groups registered
    refine ⟨⟨{ c.catalogue with groups }, c.setting, vars, []⟩, ?_, .inl rfl, rfl⟩
    simp [withCatalogue, plus]
  · rename_i groups refused
    exact ⟨⟨{ c.catalogue with groups }, c.setting, [], []⟩,
      withCatalogue_eq_plus c ({ · with groups }), .inr rfl, rfl⟩

/-- **An event that only names brings a surplus.** -/
theorem exists_surplus_undergo (c : Controller) {event : CatalogueEvent}
    (names : event.isOperation = false) :
    ∃ z : Surplus, c.undergo event = c.plus z ∧ ∀ n, event.ConnectsNone n → z.Idle := by
  have kept : ∃ z : Surplus, c = c.plus z ∧ ∀ n, event.ConnectsNone n → z.Idle :=
    ⟨_, (plus_names c).symm, fun _ _ => ⟨by simp, by simp⟩⟩
  have renamed (g : Catalogue → Catalogue) :
      ∃ z : Surplus, c.withCatalogue g = c.plus z ∧ ∀ n, event.ConnectsNone n → z.Idle :=
    ⟨_, withCatalogue_eq_plus c g, fun _ _ => ⟨by simp, by simp⟩⟩
  cases event with
  | device k => exact ⟨_, call_eq_plus c k, fun _ _ => ⟨by simp, by simp⟩⟩
  | registerMethod name method =>
    simp only [undergo, registerMethod]
    cases c.catalogue.methods.add name method with
    | error e => exact kept
    | ok methods => exact renamed _
  | registerScanList name =>
    simp only [undergo, registerScanList, newScanList]
    cases c.catalogue.scanLists.add name ⟨c.scanLists.length⟩ with
    | error e => exact kept
    | ok scanLists =>
      refine ⟨⟨{ c.catalogue with scanLists }, c.setting, [], [[]]⟩, ?_,
        fun _ _ => ⟨by simp, by simp⟩⟩
      simp [Except.map, withCatalogue, plus]
  | registerGroup name vars =>
    obtain ⟨z, same, new, lists⟩ := registerGroup_eq_plus c name vars
    refine ⟨z, same, fun _ free => ⟨?_, by simp [lists]⟩⟩
    rcases new with new | new
    · rw [new]
      exact free
    · simp [new]
  | find kind name =>
    cases kind with
    | groups => exact renamed fun _ => (c.findGroup name).2.catalogue
    | _ => exact kept
  | configure exponent => exact renamed fun _ => (c.configureGroups exponent).2.catalogue
  | tableSize => exact kept
  | setEnvironment setting =>
    exact ⟨⟨c.catalogue, setting, [], []⟩, by simp [undergo, plus], fun _ _ => ⟨by simp, by simp⟩⟩
  | reset => exact ⟨_, reset_eq_plus c, fun _ _ => ⟨by simp, by simp⟩⟩
  | operate op => contradiction
  | requestScan list => contradiction

/-- Requesting a scan leaves the names alone. -/
theorem names_requestScan (c : Controller) (list : ScanListId) :
    (c.requestScan list).2.names = c.names := by
  have same := requestScan_plus (c := c) (x := ⟨c.names.1, c.names.2, [], []⟩)
    ⟨by simp, by simp⟩ list
  rw [plus_names] at same
  rw [same]
  rfl

/-! ## Variables that are there -/

/-- Where the records are as connected as they were and no variable is missing. -/
theorem Grounded.of_keeps {c d : Controller} (h : c.Grounded)
    (kept : Keeps Record.skeleton c d) (length : c.vars.length ≤ d.vars.length) : d.Grounded := by
  intro id s b hs bound
  obtain ⟨r, hr, same⟩ := kept.record_before hs
  have bound : r.common.binding = .toVariable b :=
    (Record.binding_of_skeleton same).symm.trans bound
  exact Nat.lt_of_lt_of_le (h id r b hr bound) length

theorem length_vars_requestScan (c : Controller) (list : ScanListId) :
    (c.requestScan list).2.vars.length = c.vars.length := by
  rw [requestScan_eq_perform, length_vars_perform]
  rfl

theorem Grounded.requestScan {c : Controller} (h : c.Grounded) (list : ScanListId) :
    (c.requestScan list).2.Grounded := by
  refine h.of_keeps ?_ (Nat.le_of_eq (length_vars_requestScan c list).symm)
  rw [requestScan_eq_perform]
  exact (keeps_of_records rfl).trans (keeps_skeleton_perform (c.pruned list) _)

/-- **Whatever happens, every record stays connected to a variable that is there.** -/
theorem Grounded.undergo {c : Controller} (h : c.Grounded) (event : CatalogueEvent) :
    (c.undergo event).Grounded := by
  cases names : event.isOperation with
  | true =>
    cases event with
    | operate op => exact h.operate op
    | requestScan list => exact h.requestScan list
    | _ => contradiction
  | false =>
    obtain ⟨z, same, -⟩ := exists_surplus_undergo c names
    rw [same]
    exact h.of_keeps (keeps_of_records rfl) (by simp [plus])

end Controller

/-! ## Links that are followed -/

/-- The table of groups after a link was followed. -/
def Variable.GroupTable.followed (t : GroupTable) (setting : Option String) : Link → GroupTable
  | .hardware _ => t.opened setting
  | _ => t

theorem Variable.snd_resolve (t : GroupTable) (setting : Option String) (link : Link) (r : Record)
    (choice : Choice) : (resolve t setting link r choice).2 = t.followed setting link := by
  cases link with
  | hardware a =>
    simp only [resolve, GroupTable.find]
    cases (t.opened setting).registered.find? a.parameter with
    | none => rfl
    | some group =>
      dsimp only
      split
      · rfl
      · split <;> rfl
  | _ => rfl

namespace Register

theorem catalogue_resolveFor (c : Catalogue) (link : Link) (common : Common) :
    (resolveFor c link common).2.1 = (resolve c link).2 := by
  unfold resolveFor
  split <;> simp_all

/-- Following a link changes the devices at most. -/
theorem resolve_eq (c : Catalogue) (link : Link) :
    (resolve c link).2 = { c with devices := (resolve c link).2.devices } := by
  cases link with
  | literal text =>
    simp only [resolve]
    cases Numeral.leadingOfText? text <;> rfl
  | hardware a =>
    simp only [resolve]
    unfold resolveHardware
    split
    · rfl
    · split
      · rfl
      · split
        · rfl
        · dsimp only
          split <;> rfl
  | other text => rfl

end Register

/-- A link that is followed, and the support that is to move a value where it leads. -/
structure Reference where
  link : Link
  support : ScalarSupport

/-- The link that is followed when a record is initialised.  Array records find their archive
without one. -/
def Record.reference? (r : Record) : Option Reference :=
  match r.body with
  | .scalar support _ => some ⟨r.link, support⟩
  | .array _ _ => none

theorem Record.reference?_sized (r : Record) : r.sized.reference? = r.reference? := by
  unfold sized mapScalar reference?
  cases r.body <;> rfl

/-- The names after a link was followed, if one was. -/
def Catalogue.followed (c : Catalogue) (setting : Option String) : Option Reference → Catalogue
  | some ⟨link, .registers⟩ => (Register.resolve c link).2
  | some ⟨link, .shared⟩ => { c with groups := c.groups.followed setting link }
  | none => c

/-- The link that an operation follows: that of a record that is initialised, or the one by which
a record is connected to a variable. -/
def Controller.reference? (c : Controller) : Operation → Option Reference
  | .initialise id => (c.record? id).bind Record.reference?
  | .bind id link _ _ => (c.record? id).map fun _ => ⟨link, .shared⟩
  | _ => none

namespace Controller

/-! What registering leaves of the catalogue. -/

theorem catalogue_call (c : Controller) (k : Register.DeviceCall) :
    (c.call k).catalogue = { c.catalogue with devices := (c.call k).catalogue.devices } := by
  cases k with
  | register name base =>
    simp only [call, registerDevice]
    cases c.catalogue.devices.add name ⟨name, base⟩ <;> rfl
  | resolve token => rfl
  | link link common =>
    simp only [call]
    rw [Register.catalogue_resolveFor, Register.resolve_eq]

theorem catalogue_registerMethod (c : Controller) (name : String) (method : Register.Custom) :
    (c.undergo (.registerMethod name method)).catalogue =
      { c.catalogue with
        methods := (c.undergo (.registerMethod name method)).catalogue.methods } := by
  simp only [undergo, registerMethod]
  cases c.catalogue.methods.add name method <;> rfl

theorem catalogue_registerScanList (c : Controller) (name : String) :
    (c.undergo (.registerScanList name)).catalogue =
      { c.catalogue with
        scanLists := (c.undergo (.registerScanList name)).catalogue.scanLists } := by
  simp only [undergo, registerScanList, newScanList]
  cases c.catalogue.scanLists.add name ⟨c.scanLists.length⟩ <;> rfl

section Follow
variable (c : Controller) (id : RecordId) (r : Record)

@[simp] theorem names_setRecord : (c.setRecord id r).names = c.names := rfl

@[simp] theorem names_setTarget (t : Target) : (c.setTarget r t).names = c.names := by
  unfold setTarget
  split <;> rfl

theorem names_connectRegister (s : Scalar) :
    (c.connectRegister id r s).1.names = ((Register.resolve c.catalogue r.link).2, c.setting) := by
  have followed := Register.catalogue_resolveFor c.catalogue r.link r.common
  unfold connectRegister
  dsimp only
  rw [followed]
  split <;> rfl

theorem names_resolveVariable (link : Link) (choice : Variable.Choice) :
    (c.resolveVariable link r choice).1.names =
      ({ c.catalogue with groups := c.catalogue.groups.followed c.setting link }, c.setting) := by
  have followed := Variable.snd_resolve c.catalogue.groups c.setting link r choice
  unfold resolveVariable
  dsimp only
  rw [followed]
  split
  · rfl
  · split <;> rfl

theorem names_connectVariable (s : Scalar) :
    (c.connectVariable id r s).1.names =
      ({ c.catalogue with groups := c.catalogue.groups.followed c.setting r.link }, c.setting) := by
  have resolved := names_resolveVariable c r r.link (.ofScalar s)
  unfold connectVariable
  split
  · rename_i failed
    rw [failed] at resolved
    exact resolved
  · rename_i found
    rw [found] at resolved
    exact resolved

theorem names_connectArchive (archive : ArchiveId) :
    (c.connectArchive id r archive).1.names = c.names := by
  unfold connectArchive
  split
  · rfl
  · exact names_setTarget c r _

/-- Whether or not it can be connected, the link of a record is followed. -/
theorem names_connect {r : Record} (hr : c.record? id = some r) :
    (c.connect id).1.names = (c.catalogue.followed c.setting r.reference?, c.setting) := by
  unfold connect Record.reference?
  rw [hr]
  dsimp only
  split
  · rename_i s body
    rw [body]
    exact names_connectRegister c id r s
  · rename_i s body
    rw [body]
    exact names_connectVariable c id r s
  · rename_i archive a body
    rw [body]
    exact names_connectArchive c id r archive

@[simp] theorem names_joinScanList : (c.joinScanList id).names = c.names := by
  unfold joinScanList
  split
  · rfl
  · split
    · split <;> rfl
    · rfl

@[simp] theorem names_processInitially : (c.processInitially id).names = c.names := by
  unfold processInitially
  split
  · rfl
  · split
    · have blind : c.Blind ⟨c.names.1, c.names.2, [], []⟩ (.act (.process id)) := trivial
      exact names_operate_of_blind blind
    · rfl

/-- Initialising a record follows its link, whatever comes of it. -/
theorem names_initialise :
    (c.initialise id).1.names =
      (c.catalogue.followed c.setting (c.reference? (.initialise id)), c.setting) := by
  unfold initialise
  cases hr : c.record? id with
  | none =>
    rw [reference?, hr]
    rfl
  | some r =>
    have connected := names_connect (c.setRecord id r.sized) id (record?_setRecord_of_some hr _)
    rw [r.reference?_sized] at connected
    rw [reference?, hr, Option.bind_some]
    dsimp only
    split
    · rename_i failed
      rw [failed] at connected
      split <;> exact connected
    · rename_i ok
      rw [ok] at connected
      split
      · rw [names_processInitially, names_joinScanList, names_setRecord]
        exact connected
      · exact connected

/-- Connecting a record of any type to a variable follows the link. -/
theorem names_bindVariable (link : Link) (choice : Variable.Choice) (output : Bool) :
    (c.bindVariable id link choice output).1.names =
      (c.catalogue.followed c.setting (c.reference? (.bind id link choice output)),
        c.setting) := by
  unfold bindVariable
  cases hr : c.record? id with
  | none =>
    rw [reference?, hr]
    rfl
  | some r =>
    have resolved := names_resolveVariable c r link choice
    rw [reference?, hr, Option.map_some]
    dsimp only
    split
    · rename_i failed
      rw [failed] at resolved
      exact resolved
    · rename_i found
      rw [found] at resolved
      split <;> exact resolved

end Follow

/-- **An operation follows its link, if it has one, and does nothing else to the names.** -/
theorem names_operate (c : Controller) (op : Operation) :
    (c.operate op).names = (c.catalogue.followed c.setting (c.reference? op), c.setting) := by
  cases op with
  | initialise id => exact names_initialise c id
  | bind id link choice output => exact names_bindVariable c id link choice output
  | secondPhase id v => exact names_operate_of_blind (.inl rfl)
  | act _ | stamp _ _ | signal _ | poll _ | get _ | give _ | readBack _ =>
    exact names_operate_of_blind trivial

theorem catalogue_operate (c : Controller) (op : Operation) :
    (c.operate op).catalogue = c.catalogue.followed c.setting (c.reference? op) :=
  congrArg Prod.fst (names_operate c op)

end Controller

end ControlRecords
