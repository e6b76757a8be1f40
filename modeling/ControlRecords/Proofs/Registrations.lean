import Mathlib.Data.Finset.Card
import Mathlib.Data.List.Dedup
import ControlRecords.Proofs.Naming

/-! # Registrations are made once

Every event enters at most one name in each registry, behind the names that are there: a
registration that is accepted its own, and a link or a token that asks for a numeric address the
name of the device there (`entries_undergo`).  So between two resets a registry holds just what
it accepted.  A reset empties the registries and leaves the records alone: what they do
afterwards, whatever is registered meanwhile, is what they would have done without
(`undergoAll_plus`). -/
namespace ControlRecords

/-! ## What is accepted -/

/-- The entry that is made when a token is resolved: the device at a numeric address that has
none yet. -/
def Register.Device.entered? (devices : Registry Device) (token : String) :
    Option (String × Device) :=
  match Numeral.ofText? token with
  | some base =>
    if (devices.find? (Numeral.canonicalName base)).isSome then none
    else some (Numeral.canonicalName base, .ofAddress base)
  | none => none

/-- The entry that is made when a link to a register is followed.  A parameter that names no
access method or no scan list is refused before the device is asked for. -/
def Catalogue.enteredBy? (c : Catalogue) : Link → Option (String × Register.Device)
  | .hardware a =>
    match Register.Parameter.ofText a.parameter with
    | .error _ => none
    | .ok p =>
      match p.lookUp c with
      | .error _ => none
      | .ok _ => Register.Device.entered? c.devices p.base
  | _ => none

/-- The entry that is made when a link is followed, if one is. -/
def Catalogue.enteredFor? (c : Catalogue) : Option Reference → Option (String × Register.Device)
  | some ⟨link, .registers⟩ => c.enteredBy? link
  | _ => none

namespace Controller

/-- The device that an event enters, with its name: one that is registered, if the registration
is accepted, or the one at a numeric address that is asked for. -/
def acceptedDevice? (c : Controller) : CatalogueEvent → Option (String × Register.Device)
  | .device (.register name base) =>
    match c.registerDevice name base with
    | .ok (device, _) => some (name, device)
    | .error _ => none
  | .device (.resolve token) => Register.Device.entered? c.catalogue.devices token
  | .device (.link link _) => c.catalogue.enteredBy? link
  | .operate op => c.catalogue.enteredFor? (c.reference? op)
  | _ => none

/-- The access method that an event enters: one whose registration is accepted. -/
def acceptedMethod? (c : Controller) : CatalogueEvent → Option (String × Register.Custom)
  | .registerMethod name method =>
    match c.registerMethod name method with
    | .ok _ => some (name, method)
    | .error _ => none
  | _ => none

/-- The scan list that an event enters: one whose registration is accepted. -/
def acceptedScanList? (c : Controller) : CatalogueEvent → Option (String × ScanListId)
  | .registerScanList name =>
    match c.registerScanList name with
    | .ok (list, _) => some (name, list)
    | .error _ => none
  | _ => none

/-- The group that an event enters: one whose registration is accepted. -/
def acceptedGroup? (c : Controller) : CatalogueEvent → Option (String × Variable.Group)
  | .registerGroup name vars =>
    match (c.registerGroup name vars).2 with
    | .ok group => some (name, group)
    | .error _ => none
  | _ => none

/-- The entry that an event makes in a registry, with its name. -/
def accepted? (c : Controller) (event : CatalogueEvent) :
    (kind : RegistryKind) → Option (String × kind.Entry)
  | .devices => c.acceptedDevice? event
  | .methods => c.acceptedMethod? event
  | .scanLists => c.acceptedScanList? event
  | .groups => c.acceptedGroup? event

/-- The entries that are made in a registry in the course of a history, in turn. -/
def acceptedIn (c : Controller) (kind : RegistryKind) :
    List CatalogueEvent → List (String × kind.Entry)
  | [] => []
  | event :: rest => (c.accepted? event kind).toList ++ (c.undergo event).acceptedIn kind rest

end Controller

/-! ## One entry behind the others -/

namespace Register

theorem Device.entries_resolve_entered (devices : Registry Device) (token : String) :
    (Device.resolve devices token).2.entries =
      devices.entries ++ (Device.entered? devices token).toList := by
  unfold Device.resolve Device.entered?
  cases Numeral.ofText? token with
  | none => simp
  | some base =>
    dsimp only
    unfold Registry.findOrInsert
    split
    · rename_i found there
      simp [there]
    · rename_i free
      simp [free, Registry.insert]

theorem entries_resolve_link (c : Catalogue) (link : Link) :
    (resolve c link).2.devices.entries = c.devices.entries ++ (c.enteredBy? link).toList := by
  have kept :
      c.devices.entries = c.devices.entries ++ (none : Option (String × Device)).toList := by simp
  cases link with
  | literal text =>
    simp only [resolve]
    cases Numeral.leadingOfText? text <;> exact kept
  | hardware a =>
    simp only [resolve, Catalogue.enteredBy?]
    unfold resolveHardware
    cases Parameter.ofText a.parameter with
    | error text => exact kept
    | ok p =>
      dsimp only
      cases p.lookUp c with
      | error e => exact kept
      | ok found =>
        have entries := Device.entries_resolve_entered c.devices p.base
        rcases resolved : Device.resolve c.devices p.base with ⟨device, devices⟩
        rw [resolved] at entries
        cases device with
        | none =>
          -- A token without a device is no number, and the devices are what they were.
          obtain rfl : c.devices = devices := by
            unfold Device.resolve at resolved
            split at resolved
            · simp at resolved
            · exact congrArg Prod.snd resolved
          exact entries
        | some device =>
          dsimp only
          split <;> exact entries
  | other text => exact kept

end Register

namespace Variable.GroupTable

@[simp] theorem registered_opened (t : GroupTable) (setting : Option String) :
    (t.opened setting).registered = t.registered := by
  unfold opened registered
  split
  · rfl
  · rename_i closed
    rw [Option.not_isSome_iff_eq_none.1 closed]
    rfl

@[simp] theorem registered_followed (t : GroupTable) (setting : Option String) (link : Link) :
    (t.followed setting link).registered = t.registered := by
  cases link with
  | hardware a => exact registered_opened t setting
  | _ => rfl

@[simp] theorem registered_configure (t : GroupTable) (exponent : Nat) :
    (t.configure exponent).registered = t.registered := by
  unfold configure
  split <;> rfl

theorem register_eq (t : GroupTable) (setting : Option String) (group : Group) :
    t.register setting group =
      match t.registered.add group.name group with
      | .ok groups => (.ok (), { t.opened setting with groups := some groups })
      | .error e => (.error e, t.opened setting) := by
  cases added : t.registered.add group.name group <;>
    simp only [register, registered_opened, added]

end Variable.GroupTable

namespace Controller

section Entries
variable (c : Controller) (kind : RegistryKind)

/-- Where a registry is what it was, nothing was entered. -/
theorem entries_of_registry_eq {after : Catalogue}
    (same : after.registry kind = c.catalogue.registry kind) :
    (after.registry kind).entries = (c.catalogue.registry kind).entries ++
      (none : Option (String × kind.Entry)).toList := by
  rw [same]
  simp

theorem entries_call_accepted (k : Register.DeviceCall) :
    ((c.call k).catalogue.registry kind).entries =
      (c.catalogue.registry kind).entries ++ (c.accepted? (.device k) kind).toList := by
  cases kind with
  | devices =>
    cases k with
    | register name base =>
      simp only [call, accepted?, acceptedDevice?, registerDevice]
      cases added : c.catalogue.devices.add name ⟨name, base⟩ with
      | error e => exact entries_of_registry_eq c .devices rfl
      | ok devices => exact Registry.entries_of_add added
    | resolve token => exact Register.Device.entries_resolve_entered c.catalogue.devices token
    | link link common =>
      have after : (c.call (.link link common)).catalogue = (Register.resolve c.catalogue link).2 :=
        Register.catalogue_resolveFor c.catalogue link common
      rw [after]
      exact Register.entries_resolve_link c.catalogue link
  | _ =>
    rw [catalogue_call]
    exact entries_of_registry_eq c _ rfl

theorem entries_registerMethod (name : String) (method : Register.Custom) :
    ((c.undergo (.registerMethod name method)).catalogue.registry kind).entries =
      (c.catalogue.registry kind).entries ++
        (c.accepted? (.registerMethod name method) kind).toList := by
  cases kind with
  | methods =>
    simp only [undergo, accepted?, acceptedMethod?, registerMethod]
    cases added : c.catalogue.methods.add name method with
    | error e => exact entries_of_registry_eq c .methods rfl
    | ok methods => exact Registry.entries_of_add added
  | _ =>
    rw [catalogue_registerMethod]
    exact entries_of_registry_eq c _ rfl

theorem entries_registerScanList (name : String) :
    ((c.undergo (.registerScanList name)).catalogue.registry kind).entries =
      (c.catalogue.registry kind).entries ++
        (c.accepted? (.registerScanList name) kind).toList := by
  cases kind with
  | scanLists =>
    simp only [undergo, accepted?, acceptedScanList?, registerScanList, newScanList]
    cases added : c.catalogue.scanLists.add name ⟨c.scanLists.length⟩ with
    | error e => exact entries_of_registry_eq c .scanLists rfl
    | ok scanLists => exact Registry.entries_of_add added
  | _ =>
    rw [catalogue_registerScanList]
    exact entries_of_registry_eq c _ rfl

theorem entries_registerGroup (name : String) (vars : List Variable) :
    ((c.undergo (.registerGroup name vars)).catalogue.registry kind).entries =
      (c.catalogue.registry kind).entries ++
        (c.accepted? (.registerGroup name vars) kind).toList := by
  cases kind with
  | groups =>
    simp only [undergo, accepted?, acceptedGroup?, registerGroup, Variable.GroupTable.register_eq]
    split
    · rename_i added
      split at added
      · rename_i groups entered
        obtain ⟨-, rfl⟩ := Prod.mk.inj added
        exact Registry.entries_of_add entered
      · simp at added
    · rename_i refused
      split at refused
      · simp at refused
      · obtain ⟨-, rfl⟩ := Prod.mk.inj refused
        exact entries_of_registry_eq c .groups (Variable.GroupTable.registered_opened _ _)
  | _ =>
    refine entries_of_registry_eq c _ ?_
    simp only [undergo, registerGroup]
    split <;> rfl

theorem entries_followed (setting : Option String) (reference : Option Reference) :
    (c.catalogue.followed setting reference).devices.entries =
      c.catalogue.devices.entries ++ (c.catalogue.enteredFor? reference).toList := by
  rcases reference with - | ⟨link, - | -⟩
  · exact (List.append_nil _).symm
  · exact Register.entries_resolve_link c.catalogue link
  · exact (List.append_nil _).symm

theorem registry_followed {kind : RegistryKind} (other : kind ≠ .devices)
    (setting : Option String) (reference : Option Reference) :
    (c.catalogue.followed setting reference).registry kind = c.catalogue.registry kind := by
  rcases reference with - | ⟨link, - | -⟩
  · rfl
  · simp only [Catalogue.followed]
    rw [Register.resolve_eq]
    cases kind with
    | devices => exact absurd rfl other
    | _ => rfl
  · cases kind with
    | groups => exact Variable.GroupTable.registered_followed _ _ _
    | _ => rfl

/-- Of all that is done to records only following a link enters names. -/
theorem entries_operate (op : Operation) :
    ((c.operate op).catalogue.registry kind).entries =
      (c.catalogue.registry kind).entries ++ (c.accepted? (.operate op) kind).toList := by
  rw [catalogue_operate]
  cases kind with
  | devices => exact entries_followed c c.setting (c.reference? op)
  | _ => exact entries_of_registry_eq c _ (registry_followed c (by simp) _ _)

/-- **An event makes one entry behind all others, or none, unless it is a reset.** -/
theorem entries_undergo {event : CatalogueEvent} (h : event ≠ .reset) :
    ((c.undergo event).catalogue.registry kind).entries =
      (c.catalogue.registry kind).entries ++ (c.accepted? event kind).toList := by
  cases event with
  | device k => exact entries_call_accepted c kind k
  | registerMethod name method => exact entries_registerMethod c kind name method
  | registerScanList name => exact entries_registerScanList c kind name
  | registerGroup name vars => exact entries_registerGroup c kind name vars
  | find wanted name =>
    have same : (c.undergo (.find wanted name)).catalogue.registry kind =
        c.catalogue.registry kind := by
      cases wanted with
      | groups =>
        cases kind with
        | groups => exact Variable.GroupTable.registered_opened _ _
        | _ => rfl
      | _ => rfl
    have same := entries_of_registry_eq c kind same
    cases kind <;> exact same
  | configure exponent =>
    cases kind with
    | groups =>
      exact entries_of_registry_eq c .groups (Variable.GroupTable.registered_configure _ _)
    | _ => exact entries_of_registry_eq c _ rfl
  | tableSize => cases kind <;> exact entries_of_registry_eq c _ rfl
  | setEnvironment setting => cases kind <;> exact entries_of_registry_eq c _ rfl
  | reset => contradiction
  | operate op => exact entries_operate c kind op
  | requestScan list =>
    have same := entries_of_registry_eq c kind
      (congrArg (·.1.registry kind) (names_requestScan c list))
    cases kind <;> exact same

/-- **Until the next reset a registry gets just what it accepts.** -/
theorem entries_undergoAll {history : List CatalogueEvent} (lasting : .reset ∉ history) :
    ((c.undergoAll history).catalogue.registry kind).entries =
      (c.catalogue.registry kind).entries ++ c.acceptedIn kind history := by
  induction history generalizing c with
  | nil => exact (List.append_nil _).symm
  | cons event rest ih =>
    rw [List.mem_cons, not_or] at lasting
    rw [undergoAll_cons, ih _ lasting.2, entries_undergo c kind (Ne.symm lasting.1), acceptedIn,
      List.append_assoc]

end Entries

/-! ## Registrations that are refused -/

end Controller

/-- The registry and the name that an event is a registration for. -/
def CatalogueEvent.registers? : CatalogueEvent → Option (RegistryKind × String)
  | device (.register name _) => some (.devices, name)
  | registerMethod name _ => some (.methods, name)
  | registerScanList name => some (.scanLists, name)
  | registerGroup name _ => some (.groups, name)
  | _ => none

namespace Controller

/-- The answer to a registration that is refused. -/
def refusal? (c : Controller) : CatalogueEvent → Option AlreadyRegistered
  | .device (.register name base) =>
    match c.registerDevice name base with
    | .ok _ => none
    | .error e => some e
  | .registerMethod name method =>
    match c.registerMethod name method with
    | .ok _ => none
    | .error e => some e
  | .registerScanList name =>
    match c.registerScanList name with
    | .ok _ => none
    | .error e => some e
  | .registerGroup name vars =>
    match (c.registerGroup name vars).2 with
    | .error (.alreadyRegistered name) => some ⟨name⟩
    | _ => none
  | _ => none

section Refused
variable {c : Controller} {event : CatalogueEvent} {e : AlreadyRegistered}

/-- A registration is refused by the registry in which the name is taken. -/
theorem refusal?_eq_some_iff :
    c.refusal? event = some e ↔ ∃ kind, event.registers? = some (kind, e.name) ∧
      ((c.catalogue.registry kind).find? e.name).isSome = true := by
  -- What a registry says to a name is its answer to the event.
  have answer {kind : RegistryKind} {name : String} {entry : kind.Entry}
      (registers : event.registers? = some (kind, name))
      (told : c.refusal? event = some e ↔
        (c.catalogue.registry kind).add name entry = .error e) :
      c.refusal? event = some e ↔ ∃ kind, event.registers? = some (kind, e.name) ∧
        ((c.catalogue.registry kind).find? e.name).isSome = true := by
    rw [told, Registry.add_eq_error_iff, registers]
    constructor
    · rintro ⟨taken, rfl⟩
      exact ⟨kind, rfl, taken⟩
    · rintro ⟨kind', same, taken⟩
      obtain ⟨rfl, rfl⟩ := Prod.mk.inj (Option.some.inj same)
      exact ⟨taken, rfl⟩
  cases event with
  | device k =>
    cases k with
    | register name base =>
      have told : c.refusal? (.device (.register name base)) = some e ↔
          c.catalogue.devices.add name ⟨name, base⟩ = .error e := by
        simp only [refusal?, registerDevice]
        cases c.catalogue.devices.add name ⟨name, base⟩ <;> simp [Except.map]
      exact answer rfl told
    | _ => simp [refusal?, CatalogueEvent.registers?]
  | registerMethod name method =>
    have told : c.refusal? (.registerMethod name method) = some e ↔
        c.catalogue.methods.add name method = .error e := by
      simp only [refusal?, registerMethod]
      cases c.catalogue.methods.add name method <;> simp [Except.map]
    exact answer rfl told
  | registerScanList name =>
    have told : c.refusal? (.registerScanList name) = some e ↔
        c.catalogue.scanLists.add name ⟨c.scanLists.length⟩ = .error e := by
      simp only [refusal?, registerScanList, newScanList]
      cases c.catalogue.scanLists.add name ⟨c.scanLists.length⟩ <;> simp [Except.map]
    exact answer rfl told
  | registerGroup name vars =>
    let group : Variable.Group :=
      ⟨name, (List.range vars.length).map fun i => ⟨c.vars.length + i⟩⟩
    have told : c.refusal? (.registerGroup name vars) = some e ↔
        c.catalogue.groups.registered.add name group = .error e := by
      simp only [refusal?, registerGroup, Variable.GroupTable.register_eq]
      cases c.catalogue.groups.registered.add name group <;> simp
    exact answer rfl told
  | _ => simp [refusal?, CatalogueEvent.registers?]

/-- **A registration that is refused changes nothing.** -/
theorem undergo_of_refused (refused : c.refusal? event = some e) : c.undergo event = c := by
  cases event with
  | device k =>
    cases k with
    | register name base =>
      simp only [refusal?] at refused
      split at refused
      · contradiction
      · rename_i failed
        simp only [undergo, call, failed]
    | _ => contradiction
  | registerMethod name method =>
    simp only [refusal?] at refused
    split at refused
    · contradiction
    · rename_i failed
      simp only [undergo, failed]
  | registerScanList name =>
    simp only [refusal?] at refused
    split at refused
    · contradiction
    · rename_i failed
      simp only [undergo, failed]
  | registerGroup name vars =>
    -- A name is taken in a table that is there, and the table is left as it is.
    obtain ⟨kind, same, taken⟩ := refusal?_eq_some_iff.1 refused
    obtain ⟨rfl, rfl⟩ := Prod.mk.inj (Option.some.inj same)
    have there : c.catalogue.groups.groups.isSome = true := by
      by_contra none
      rw [Option.not_isSome_iff_eq_none] at none
      rw [Catalogue.registry, Variable.GroupTable.registered, none] at taken
      contradiction
    have opened : c.catalogue.groups.opened c.setting = c.catalogue.groups := by
      simp [Variable.GroupTable.opened, there]
    let group : Variable.Group :=
      ⟨e.name, (List.range vars.length).map fun i => ⟨c.vars.length + i⟩⟩
    have full : c.catalogue.groups.registered.add e.name group = .error e :=
      (Registry.add_eq_error_iff _ _ _ _).2 ⟨taken, rfl⟩
    simp only [undergo, registerGroup, Variable.GroupTable.register_eq]
    rw [full, opened]
    rfl
  | _ => contradiction

end Refused

/-! ## Records after a reset -/

/-- A surplus beside a surplus. -/
theorem plus_plus (c : Controller) (x z : Surplus) :
    (c.plus x).plus z =
      c.plus ⟨z.catalogue, z.setting, x.vars ++ z.vars, x.scanLists ++ z.scanLists⟩ := by
  simp only [plus, List.append_assoc]

theorem blind_of_connectsNone {c : Controller} {op : Operation} (x : Surplus)
    (h : (CatalogueEvent.operate op).ConnectsNone c.vars.length) : c.Blind x op := by
  cases op with
  | secondPhase id v => exact .inr h
  | initialise | bind => exact h.elim
  | _ => trivial

/-- **What happens to records beside a surplus, whatever is named meanwhile, is what happens to
them without.** -/
theorem undergoAll_plus {c : Controller} (grounded : c.Grounded) {x : Surplus} (idle : x.Idle)
    {later : List CatalogueEvent} (none : ∀ event ∈ later, event.ConnectsNone c.vars.length) :
    ∃ y : Surplus, y.Idle ∧ (c.plus x).undergoAll later =
      (c.undergoAll (later.filter (·.isOperation))).plus y := by
  -- Both the controller and the surplus are general: the rest finds others of both.
  induction later generalizing c x with
  | nil => exact ⟨x, idle, rfl⟩
  | cons event rest ih =>
    obtain ⟨first, others⟩ := List.forall_mem_cons.1 none
    cases names : event.isOperation with
    | false =>
      obtain ⟨z, same, free⟩ := exists_surplus_undergo (c.plus x) names
      have idle' := free _ first
      rw [List.filter_cons_of_neg (by simp [names]), undergoAll_cons, same, plus_plus]
      refine ih grounded ⟨fun w hw => ?_, fun l hl => ?_⟩ others
      · exact (List.mem_append.1 hw).elim (idle.attached w) (idle'.attached w)
      · exact (List.mem_append.1 hl).elim (idle.members l) (idle'.members l)
    | true =>
      rw [List.filter_cons_of_pos (by simp [names]), undergoAll_cons, undergoAll_cons]
      cases event with
      | operate op =>
        obtain ⟨y, follows, same⟩ :=
          operate_plus (.inr grounded) idle (blind_of_connectsNone x first)
        rw [undergo, same]
        exact ih (grounded.operate op) (follows.idle idle) (by rwa [length_vars_operate])
      | requestScan list =>
        rw [undergo, requestScan_plus idle]
        exact ih (grounded.requestScan list) idle (by rwa [length_vars_requestScan])
      | _ => contradiction

/-- A controller with other names, and with variables and scan lists behind those of another;
everything else is the same. -/
structure Extends (d c : Controller) : Prop where
  records : d.records = c.records
  registers : d.registers = c.registers
  schedulers : d.schedulers = c.schedulers
  archives : d.archives = c.archives
  files : d.files = c.files
  vars : c.vars <+: d.vars
  scanLists : c.scanLists <+: d.scanLists

theorem extends_plus (c : Controller) (x : Surplus) : (c.plus x).Extends c :=
  ⟨rfl, rfl, rfl, rfl, rfl, List.prefix_append _ _, List.prefix_append _ _⟩

theorem Grounded.undergoAll {c : Controller} (h : c.Grounded) (history : List CatalogueEvent) :
    (c.undergoAll history).Grounded :=
  invariant_undergoAll (fun event grounded => grounded.undergo event) history h

/-- **Registrations are made once, and connections outlive them.**  From a reset on, whatever
happens until the next one, each registry maps a name to the first entry that it accepted under
it, and has as many entries as it accepted names.  A registration is refused exactly if the
registry has accepted the name, and then it changes nothing at all.  The next reset empties all
four registries.  The records do not notice: whatever is registered and looked up afterwards,
under whatever names, and whatever else is done meanwhile that connects no record, leaves every
record, register, queue, archive and file, and every variable and scan list that was there, just
as without the reset and the registrations, and the supports give the same answers. -/
theorem registrations_are_made_once {c : Controller} (grounded : c.Grounded)
    {history : List CatalogueEvent} (lasting : .reset ∉ history) :
    let e := c.reset.undergoAll history
    (∀ kind name, (e.catalogue.registry kind).find? name =
      (c.reset.acceptedIn kind history).lookup name) ∧
    (∀ kind, (e.catalogue.registry kind).size =
      ((c.reset.acceptedIn kind history).map (·.1)).toFinset.card) ∧
    (∀ event name, e.refusal? event = some ⟨name⟩ ↔ ∃ kind,
      event.registers? = some (kind, name) ∧
        name ∈ (c.reset.acceptedIn kind history).map (·.1)) ∧
    (∀ event refusal, e.refusal? event = some refusal → e.undergo event = e) ∧
    (∀ kind, (e.reset.catalogue.registry kind).entries = []) ∧
    ∀ later : List CatalogueEvent, (∀ event ∈ later, event.ConnectsNone e.vars.length) →
      let with_reset := e.reset.undergoAll later
      let without := e.undergoAll (later.filter (·.isOperation))
      with_reset.Extends without ∧
        ∀ id, (with_reset.exchange id).2 = (without.exchange id).2 := by
  intro e
  have empty (d : Controller) (kind : RegistryKind) :
      (d.reset.catalogue.registry kind).entries = [] := by
    cases kind <;> rfl
  have entries (kind : RegistryKind) :
      (e.catalogue.registry kind).entries = c.reset.acceptedIn kind history := by
    rw [entries_undergoAll c.reset kind lasting, empty, List.nil_append]
  have taken (kind : RegistryKind) (name : String) :
      ((e.catalogue.registry kind).find? name).isSome = true ↔
        name ∈ (c.reset.acceptedIn kind history).map (·.1) := by
    rw [← entries kind, ← not_iff_not, ← Registry.find?_eq_none_iff, Option.not_isSome_iff_eq_none]
  refine ⟨fun kind name => ?_, fun kind => ?_, fun event name => ?_,
    fun event refusal refused => undergo_of_refused refused, empty e, fun later none => ?_⟩
  · rw [Registry.find?, entries]
  · have distinct := (e.catalogue.registry kind).distinct
    rw [entries] at distinct
    rw [List.toFinset_card_of_nodup distinct, List.length_map, Registry.size, entries]
  · simp only [refusal?_eq_some_iff, taken]
  · have e_grounded : e.Grounded := Grounded.undergoAll (c := c.reset) grounded history
    obtain ⟨y, idle, same⟩ := undergoAll_plus e_grounded (x := ⟨{}, e.setting, [], []⟩)
      ⟨by simp, by simp⟩ none
    rw [← reset_eq_plus] at same
    intro with_reset without
    have parted : with_reset = without.plus y := same
    have without_grounded : without.Grounded := e_grounded.undergoAll _
    rw [parted]
    exact ⟨extends_plus _ _, fun id => exchange_plus (.inr without_grounded) id⟩

/-- A record that reads from register memory by the number of its device, and one that reads from
the first variable of a group. -/
def gauges : Controller where
  records :=
    [some ⟨{ name := "inlet" }, .hardware ⟨0, 0, "0x10000000,m32"⟩, .scalar .registers (.longin 0)⟩,
      some ⟨{ name := "outlet" }, .hardware ⟨0, 0, "pump"⟩, .scalar .shared (.longin 0)⟩]

/-- The group is registered, both records are initialised, and a second group of the same name
is refused. -/
def gaugesHistory : List CatalogueEvent :=
  [.registerGroup "pump" [{ value := .long 3 }], .operate (.initialise ⟨0⟩),
    .operate (.initialise ⟨1⟩), .registerGroup "pump" [{ value := .long 4 }]]

/-- The names are given to another group and another device, both variables get values, and the
second record processes. -/
def gaugesLater : List CatalogueEvent :=
  [.registerGroup "pump" [{ value := .long 5 }], .device (.register "0x10000000" 7),
    .operate (.act (.store ⟨0⟩ (.long 6))), .operate (.act (.store ⟨1⟩ (.long 8))),
    .operate (.act (.process ⟨1⟩))]

theorem registrations_of_gauges :
    let e := gauges.reset.undergoAll gaugesHistory
    let after := e.reset.undergoAll gaugesLater
    gauges.Grounded ∧ .reset ∉ gaugesHistory ∧
      e.refusal? (.registerGroup "pump" []) = some ⟨"pump"⟩ ∧
      (e.catalogue.registry .devices).size = 1 ∧ (e.catalogue.registry .groups).size = 1 ∧
      after.Extends (e.undergoAll (gaugesLater.filter (·.isOperation))) ∧
      (after.record? ⟨1⟩).bind (·.get? .val) = some (.long 6) := by
  intro e after
  have grounded : gauges.Grounded := by
    rintro ⟨i⟩ r b hr bound
    match i, hr with
    | 0, hr | 1, hr =>
      obtain rfl := Option.some.inj hr
      contradiction
  have lasting : CatalogueEvent.reset ∉ gaugesHistory := by simp [gaugesHistory]
  obtain ⟨-, sizes, refused, -, -, unnoticed⟩ := registrations_are_made_once grounded lasting
  refine ⟨grounded, lasting, (refused _ _).2 ⟨.groups, rfl, ?_⟩, (sizes .devices).trans ?_,
    (sizes .groups).trans ?_, (unnoticed gaugesLater ?_).1, rfl⟩
  · decide +kernel
  · decide +kernel
  · decide +kernel
  · simp [gaugesLater, CatalogueEvent.ConnectsNone]

end Controller

end ControlRecords
