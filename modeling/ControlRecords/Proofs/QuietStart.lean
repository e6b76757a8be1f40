import ControlRecords.Proofs.MultiBit
import ControlRecords.Proofs.StartingValues
import ControlRecords.Proofs.TableSize

/-! # Quiet starts

A record that is not to be processed at once is only connected when it is initialised.  Nothing
that records are connected to notices that, whether or not it succeeds
(`Controller.nothing_touched_by_initialise`).

A start that succeeded can be repeated.  The link leads to the same place as before, because what
following it entered in the catalogue is found there the next time (`Register.resolve_again`,
`Variable.resolve_again`), and what the record took over from there is taken over once more.  So a
repeated start leaves the whole state as it is (`Controller.initialise_again`). -/
namespace ControlRecords

/-! ## Nothing is touched -/

namespace Controller
variable {c d : Controller} {id : RecordId} {r q : Record}

theorem processInitially_of_quiet (there : c.record? id = some r)
    (quiet : r.common.initProcess = false) : c.processInitially id = c := by
  simp [processInitially, there, quiet]

/-- Connecting a record is no reason for it to be processed at once. -/
theorem quiet_of_connected (h : c.connected? id = some d) (there : c.record? id = some r)
    (quiet : r.common.initProcess = false) :
    ∃ q, d.record? id = some q ∧ q.common.initProcess = false := by
  have kept := (keeps_outline_of_connected h).told (·.common.initProcess) id
  rw [there] at kept
  obtain ⟨q, stands, same⟩ := Option.map_eq_some_iff.1 kept
  exact ⟨q, stands, same.trans quiet⟩

/-- **A start without processing touches nothing.**  Whether or not a record can be initialised,
and wherever that fails, no register, no cell and no variable changes, unless the record is to be
processed at once. -/
theorem nothing_touched_by_initialise (there : c.record? id = some r)
    (quiet : r.common.initProcess = false) :
    (c.initialise id).1.registers = c.registers ∧ (c.initialise id).1.vars = c.vars := by
  have untouched : c.Untouched (c.initialise id).1 := by
    cases connected : c.connected? id with
    | none =>
      have unready : c.readied? id = none := by rw [readied?_eq_map, connected, Option.map_none]
      exact untouched_initialise_of_not_readied unready
    | some d =>
      have ready : c.readied? id = some (d.joinScanList id) := by
        rw [readied?_eq_map, connected, Option.map_some]
      obtain ⟨q, stands, still⟩ := quiet_of_connected connected there quiet
      have stands' : (d.joinScanList id).record? id = some q := by simpa [record?] using stands
      rw [initialise_of_readied ready, processInitially_of_quiet stands' still]
      exact untouched_of_readied ready
  exact ⟨untouched.registers, untouched.vars⟩

/-- A valve on a register whose device is not registered yet, and a setpoint on a variable that
holds a text. -/
def coldStart : Controller :=
  let valve : Record := ⟨{ name := "valve" }, .hardware ⟨0, 0, "0x10000000,m32"⟩,
    .scalar .registers (.mbbo { bits := 3, shift := 4 } 0)⟩
  let setpoint : Record := ⟨{ name := "setpoint" }, .hardware ⟨0, 0, "g"⟩,
    .scalar .shared (.longout 0)⟩
  let c := (({} : Controller).registerGroup "g" [{ value := .string "abc" }]).1
  ((c.adopt valve none).2.adopt setpoint none).2

/-- The text is no number, which fails the setpoint and does nothing to the variable. -/
theorem nothing_touched_by_failed_start :
    (∃ e, (coldStart.initialise ⟨1⟩).2 = .error e) ∧
      (coldStart.initialise ⟨1⟩).1.registers = coldStart.registers ∧
      (coldStart.initialise ⟨1⟩).1.vars = coldStart.vars := by
  have there : coldStart.record? ⟨1⟩ = some ⟨{ name := "setpoint", handle := some ⟨1⟩ },
      .hardware ⟨0, 0, "g"⟩, .scalar .shared (.longout 0)⟩ := rfl
  exact ⟨⟨_, rfl⟩, nothing_touched_by_initialise there rfl⟩

end Controller

/-! ## Following a link again -/

namespace Registry
variable {α : Type} {r : Registry α} {name : String} {x : α}

theorem findOrInsert_of_found {y : α} (found : r.find? name = some y) :
    r.findOrInsert name x = (y, r) := by
  unfold findOrInsert
  split
  · rename_i z there
    obtain rfl := Option.some.inj (there.symm.trans found)
    rfl
  · rename_i free
    rw [free] at found
    contradiction

theorem findOrInsert_again :
    (r.findOrInsert name x).2.findOrInsert name x = r.findOrInsert name x := by
  have found : (r.findOrInsert name x).2.find? name = some (r.findOrInsert name x).1 := by
    rw [find?_findOrInsert, if_pos rfl, findOrInsert_fst]
  exact findOrInsert_of_found found

end Registry

namespace Register

theorem Device.resolve_again (devices : Registry Device) (token : String) :
    Device.resolve (Device.resolve devices token).2 token = Device.resolve devices token := by
  unfold Device.resolve
  cases Numeral.ofText? token with
  | none => rfl
  | some base =>
    dsimp only
    rw [Registry.findOrInsert_again]

/-- **A link that was followed leads to the same register.** -/
theorem resolve_again {c : Catalogue} {link : Link} {b : Binding}
    (named : (resolve c link).1 = .ok b) : resolve (resolve c link).2 link = resolve c link := by
  cases link with
  | literal text =>
    simp only [resolve]
    cases Numeral.leadingOfText? text <;> rfl
  | hardware a =>
    simp only [resolve, resolveHardware] at named ⊢
    cases parameter : Parameter.ofText a.parameter with
    | error text => simp [parameter] at named
    | ok p =>
      cases looked : p.lookUp c with
      | error e => simp [parameter, looked] at named
      | ok found =>
        rcases resolved : Device.resolve c.devices p.base with ⟨_ | device, devices⟩
        · simp [parameter, looked, resolved] at named
        · -- What is looked up is not among the devices, and the device is found again.
          have again := Device.resolve_again c.devices p.base
          have looked' : p.lookUp { c with devices } = .ok found := looked
          rw [resolved] at again
          cases place : address? device.base a.card a.signal p.offset with
          | none => simp [parameter, looked, resolved, place] at named
          | some address => simp [looked, resolved, place, looked', again]
  | other text => rfl

end Register

namespace Variable

theorem GroupTable.opened_again (t : GroupTable) (setting : Option String) :
    (t.opened setting).opened setting = t.opened setting :=
  opened_of_isSome (isSome_groups_opened t setting) setting

theorem GroupTable.followed_again (t : GroupTable) (setting : Option String) (link : Link) :
    (t.followed setting link).followed setting link = t.followed setting link := by
  cases link with
  | hardware a => exact t.opened_again setting
  | _ => rfl

/-- **A link that was followed leads to the same variable.** -/
theorem resolve_again (t : GroupTable) (setting : Option String) (link : Link) (r : Record)
    (choice : Choice) :
    resolve (t.followed setting link) setting link r choice = resolve t setting link r choice := by
  cases link with
  | hardware a =>
    have found : (t.opened setting).find setting a.parameter = t.find setting a.parameter := by
      unfold GroupTable.find
      rw [t.opened_again]
    simp only [resolve, GroupTable.followed, found]
  | _ => rfl

end Variable

/-! ## Starting again -/

namespace Controller
variable {c d e : Controller} {id : RecordId} {r q : Record} {s : Scalar}

theorem names_of_connected (h : c.connected? id = some d) (there : c.record? id = some r) :
    d.names = (c.catalogue.followed c.setting r.reference?, c.setting) := by
  obtain ⟨r', f, q, status, there', connected, -, rfl⟩ := connected?_eq_some_iff.1 h
  obtain rfl := Option.some.inj (there.symm.trans there')
  have names := names_connect (c.setRecord id r.sized) id (record?_setRecord_of_some there _)
  rw [connected, r.reference?_sized] at names
  exact names

/-- A record that connecting leaves as it is, along a link that enters nothing. -/
theorem connected?_self {x : Record} {status : Transfer} {catalogue : Catalogue}
    (here : e.record? id = some q)
    (made : (e.setRecord id q.sized).connect id =
      (({ e with catalogue } : Controller).setRecord id x, .ok status))
    (followed : e.catalogue.followed e.setting q.reference? = e.catalogue)
    (again : x.connected status = q) : e.connected? id = some e := by
  have names := names_connect (e.setRecord id q.sized) id (record?_setRecord_of_some here _)
  rw [made, q.reference?_sized] at names
  have kept : catalogue = e.catalogue := (congrArg Prod.fst names).trans followed
  subst kept
  refine connected?_eq_some_iff.2
    ⟨q, _, x, status, here, made, record?_setRecord_of_some here x, ?_⟩
  rw [again]
  simp only [setRecord, List.set_set]
  exact setRecord_self here

/-- How a record starts on a register. -/
theorem start_on_register (there : c.record? id = some r) (body : r.body = .scalar .registers s)
    (quiet : r.common.initProcess = false) (h : c.connected? id = some d) :
    ∃ b : Register.Binding, (Register.resolve c.catalogue r.link).1 = .ok b ∧
      d.registers = c.registers ∧ d.record? id = some
        ⟨r.common.fromRegister s.sized { b with owner := r.common.handle }
          (b.read c.registers).toOption, r.link,
          .scalar .registers (s.sized.fromRegister (b.read c.registers).toOption)⟩ := by
  obtain ⟨b, named, stands, registers⟩ := starts_on_register there body h
  refine ⟨b, named, registers, stands.trans (congrArg some ?_)⟩
  exact Register.connected_connect (Record.body_sized body) quiet

/-- **A record that started on a register is connected already.** -/
theorem connected?_again_on_register (there : c.record? id = some r)
    (body : r.body = .scalar .registers s) (quiet : r.common.initProcess = false)
    (clear : r.common.alarms.pending = .none) (h : c.connected? id = some d)
    (here : e.record? id = d.record? id) (registers : e.registers = d.registers)
    (names : e.names = d.names) : e.connected? id = some e := by
  obtain ⟨b, named, untouched, stands⟩ := start_on_register there body quiet h
  let x : Register.Binding := { b with owner := r.common.handle }
  let read := (b.read c.registers).toOption
  let q : Record := ⟨r.common.fromRegister s.sized x read, r.link,
    .scalar .registers (s.sized.fromRegister read)⟩
  have here' : e.record? id = some q := by rw [here, stands]
  -- The link leads to the same register.
  have followed : d.names = ((Register.resolve c.catalogue r.link).2, c.setting) := by
    rw [names_of_connected h there, Record.reference?, body]
    rfl
  have catalogue : e.catalogue = (Register.resolve c.catalogue r.link).2 :=
    congrArg Prod.fst (names.trans followed)
  have resolved : Register.resolve e.catalogue q.link = Register.resolve c.catalogue r.link := by
    rw [catalogue]
    exact Register.resolve_again named
  have named' : (Register.resolve e.catalogue q.link).1 = .ok b := by rw [resolved, named]
  obtain ⟨_, made⟩ := connect_register here' rfl named'
  have kept : (Register.resolve e.catalogue q.link).2 = e.catalogue := by rw [resolved, catalogue]
  refine connected?_self here' made kept ?_
  -- What is taken over from there is the same, too.
  obtain ⟨handle, init⟩ := r.common.keeps_fromRegister s.sized x read
  have again := Register.connected_connect (b := { b with owner := q.common.handle })
    (t := e.registers) (Record.body_sized (r := q) rfl) (init.trans quiet)
  have same : (b.read e.registers).toOption = read := by rw [registers, untouched]
  have own : q.common.handle = r.common.handle := handle
  refine again.trans ?_
  show (⟨q.common.fromRegister _ { b with owner := q.common.handle } (b.read e.registers).toOption,
    q.link, .scalar .registers (Scalar.fromRegister _ (b.read e.registers).toOption)⟩ : Record) = q
  rw [same, own, Common.fromRegister_again clear, Scalar.fromRegister_again]

/-- **A record that started on a variable is connected already.** -/
theorem connected?_again_on_variable (there : c.record? id = some r)
    (body : r.body = .scalar .shared s) (quiet : r.common.initProcess = false)
    (clear : r.common.alarms.pending = .none) (h : c.connected? id = some d)
    (here : e.record? id = d.record? id) (vars : e.vars = d.vars)
    (names : e.names = d.names) : e.connected? id = some e := by
  obtain ⟨b, v, status, named, ok, stands, untouched⟩ := starts_on_variable there body h
  obtain ⟨found, present⟩ := resolveVariable_eq_ok named
  obtain ⟨-, field⟩ := Variable.resolve_eq_ok found
  let q := (Variable.connect b s.sized r.sized v).record.connected status
  have here' : e.record? id = some q := by rw [here, stands]
  obtain ⟨s', status', (own : q.body = .scalar .shared s'), ok', start⟩ :=
    Variable.start_again body ok quiet clear field
  have same : q.skeleton = r.sized.skeleton.bind (.toVariable b) :=
    (Record.skeleton_connected _ status).trans (Variable.skeleton_connect b s.sized r.sized v)
  have type : q.body.skeleton = r.body.skeleton :=
    (congrArg Record.body same).trans (congrArg Record.body r.skeleton_sized)
  have link : q.link = r.link := congrArg (·.link) same
  have choice : Variable.Choice.ofScalar s' = .ofScalar s := by
    rw [own, body] at type
    obtain ⟨-, type⟩ := Body.scalar.inj type
    rw [← Variable.Choice.ofScalar_skeleton, type, Variable.Choice.ofScalar_skeleton]
  -- The link leads to the same variable.
  have followed : e.names = ({ c.catalogue with
      groups := c.catalogue.groups.followed c.setting r.link }, c.setting) := by
    rw [names, names_of_connected h there, Record.reference?, body]
    rfl
  have catalogue : e.catalogue = { c.catalogue with
      groups := c.catalogue.groups.followed c.setting r.link } := congrArg Prod.fst followed
  have setting : e.setting = c.setting := congrArg Prod.snd followed
  have found' : (Variable.resolve e.catalogue.groups e.setting q.link q (.ofScalar s')).1 =
      .ok b := by
    rw [catalogue, setting, link, choice, Variable.resolve_of_skeleton _ _ _ type,
      Variable.resolve_again, found]
  have present' : e.variableAt? b.target = some v := by
    rw [variableAt?, vars, untouched]
    exact present
  obtain ⟨_, made⟩ := connect_variable here' own (resolveVariable_of_ok found' present')
  rw [ok'] at made
  have kept : e.catalogue.followed e.setting q.reference? = e.catalogue := by
    simp only [Record.reference?, own, Catalogue.followed]
    rw [catalogue, setting, link, Variable.GroupTable.followed_again]
  exact connected?_self here' made kept start

/-- **The mask with which a record starts is the one for its bits, in its place.** -/
theorem get?_mask_of_connected {support : ScalarSupport} {bits shift : UInt16}
    (there : c.record? id = some r) (body : r.body = .scalar support s)
    (quiet : r.common.initProcess = false) (has : s.HasBits bits shift)
    (h : c.connected? id = some d) : ∃ q, d.record? id = some q ∧
      q.get? .mask = some (.ulong (Bits.place (Bits.low bits) bits shift)) := by
  have shown : ∀ {q : Record} {support : ScalarSupport} {u : Scalar},
      q.body = .scalar support u → q.get? .mask = u.get? .mask := by
    intro q support u own
    simp only [Record.get?, own, Body.get?]
    cases u.get? .mask <;> rfl
  cases support with
  | registers =>
    obtain ⟨b, -, -, stands⟩ := start_on_register there body quiet h
    exact ⟨_, stands, (shown rfl).trans (Scalar.get?_mask_fromRegister has _)⟩
  | shared =>
    obtain ⟨b, v, status, named, ok, stands, -⟩ := starts_on_variable there body h
    obtain ⟨-, field⟩ := Variable.resolve_eq_ok (resolveVariable_eq_ok named).1
    refine ⟨_, stands, ?_⟩
    cases output : s.isOutput with
    | false =>
      rw [Variable.start_of_input body ok output]
      exact (shown rfl).trans (Scalar.get?_mask_placed has)
    | true =>
      obtain ⟨w, takes, -, start⟩ := Variable.start_of_output body ok output quiet field
      rw [start]
      exact (shown rfl).trans (Scalar.get?_mask_fromVariable has takes _)

theorem joinScanList_of_passive (there : c.record? id = some r)
    (passive : r.common.scan = .passive) : c.joinScanList id = c := by
  simp [joinScanList, there, passive]

section Again
variable {support : ScalarSupport} (there : c.record? id = some r)
  (body : r.body = .scalar support s) (quiet : r.common.initProcess = false)
  (passive : r.common.scan = .passive) (ok : c.initialise id = (d, .ok ()))
include there quiet passive ok

/-- A record that is neither processed at once nor scanned is just connected. -/
theorem connected?_of_initialise_passive : c.connected? id = some d ∧
    ∃ q, d.record? id = some q ∧ q.common.initProcess = false ∧ q.common.scan = .passive := by
  obtain ⟨f, connected⟩ := connected?_of_initialise (congrArg Prod.snd ok)
  have kept : (f.record? id).map (fun r => (r.common.initProcess, r.common.scan)) =
      (c.record? id).map fun r => (r.common.initProcess, r.common.scan) :=
    (keeps_outline_of_connected connected).told
      (fun r => (r.common.initProcess, r.common.scan)) id
  rw [there, Option.map_some, quiet, passive] at kept
  obtain ⟨q, stands, same⟩ := Option.map_eq_some_iff.1 kept
  obtain ⟨quiet', passive'⟩ := Prod.mk.inj same
  have left := initialise_of_quiet connected stands quiet'
  rw [joinScanList_of_passive stands passive', ok] at left
  obtain rfl := congrArg Prod.fst left
  exact ⟨connected, q, stands, quiet', passive'⟩

include body in
/-- **A start that succeeded can be repeated, and nothing changes.**  This is so in every state in
which the record and all that it is connected to are as the start left them. -/
theorem initialise_again (clear : r.common.alarms.pending = .none)
    (here : e.record? id = d.record? id) (untouched : d.Untouched e) (names : e.names = d.names) :
    e.initialise id = (e, .ok ()) := by
  obtain ⟨connected, q, stands, quiet', passive'⟩ :=
    connected?_of_initialise_passive there quiet passive ok
  have again : e.connected? id = some e := by
    cases support with
    | registers =>
      exact connected?_again_on_register there body quiet clear connected here untouched.registers
        names
    | shared =>
      exact connected?_again_on_variable there body quiet clear connected here untouched.vars names
  have stands' : e.record? id = some q := here.trans stands
  rw [initialise_of_quiet again stands' quiet', joinScanList_of_passive stands' passive']

end Again

/-- **Starting twice is starting once.**  A record of a single value that is neither processed at
once nor scanned, and has no alarm pending, is initialised on whatever registers and variables.
If that succeeds, then initialising it once more succeeds and leaves the whole state as it is; and
the mask of a multi-bit record has exactly the bits from the record's shift on, as many as the
record has, or all of them if it has none. -/
theorem initialise_idempotent {support : ScalarSupport} (there : c.record? id = some r)
    (body : r.body = .scalar support s) (quiet : r.common.initProcess = false)
    (passive : r.common.scan = .passive) (clear : r.common.alarms.pending = .none)
    (ok : c.initialise id = (d, .ok ())) :
    d.initialise id = (d, .ok ()) ∧
      ∀ bits shift, r.get? .nobt = some (.ushort bits) → r.get? .shft = some (.ushort shift) →
        ∃ q mask, d.record? id = some q ∧ q.get? .mask = some (.ulong mask) ∧
          ∀ i < 32, mask.toNat.testBit i = true ↔
            shift.toNat ≤ i ∧ (bits = 0 ∨ i < shift.toNat + bits.toNat) := by
  refine ⟨initialise_again there body quiet passive ok clear rfl (.refl d) rfl, ?_⟩
  intro bits shift nobt shft
  have has : s.HasBits bits shift := by
    simp only [Record.get?, body, Body.get?] at nobt shft
    exact ⟨by simpa [Common.get?] using nobt, by simpa [Common.get?] using shft⟩
  obtain ⟨connected, -⟩ := connected?_of_initialise_passive there quiet passive ok
  obtain ⟨q, stands, mask⟩ := get?_mask_of_connected there body quiet has connected
  refine ⟨q, _, stands, mask, fun i below => ?_⟩
  rw [Bits.testBit_place bits shift below]
  by_cases far : shift.toNat ≤ i
  · have near : i - shift.toNat < bits.toNat ↔ i < shift.toNat + bits.toNat := by omega
    simp [far, near]
  · simp [far]

/-- The device of the valve is entered by the first start and found by the second. -/
theorem initialise_idempotent_valve :
    ((coldStart.initialise ⟨0⟩).1.initialise ⟨0⟩ = ((coldStart.initialise ⟨0⟩).1, .ok ())) ∧
      coldStart.catalogue.devices.size = 0 ∧
      (coldStart.initialise ⟨0⟩).1.catalogue.devices.size = 1 ∧
      ∃ q mask, (coldStart.initialise ⟨0⟩).1.record? ⟨0⟩ = some q ∧
        q.get? .mask = some (.ulong mask) ∧ mask.toNat.testBit 3 = false ∧
        mask.toNat.testBit 4 = true ∧ mask.toNat.testBit 6 = true ∧
        mask.toNat.testBit 7 = false := by
  have there : coldStart.record? ⟨0⟩ = some ⟨{ name := "valve", handle := some ⟨0⟩ },
      .hardware ⟨0, 0, "0x10000000,m32"⟩,
      .scalar .registers (.mbbo { bits := 3, shift := 4 } 0)⟩ := rfl
  have ok : coldStart.initialise ⟨0⟩ = ((coldStart.initialise ⟨0⟩).1, .ok ()) := rfl
  obtain ⟨again, masked⟩ := initialise_idempotent there rfl rfl rfl rfl ok
  obtain ⟨q, mask, stands, shown, bits⟩ := masked 3 4 rfl rfl
  have below : ¬(mask.toNat.testBit 3 = true) := by rw [bits 3 (by decide)]; decide
  have above : ¬(mask.toNat.testBit 7 = true) := by rw [bits 7 (by decide)]; decide
  exact ⟨again, rfl, rfl, q, mask, stands, shown, Bool.eq_false_iff.2 below,
    (bits 4 (by decide)).2 (by decide), (bits 6 (by decide)).2 (by decide),
    Bool.eq_false_iff.2 above⟩

end Controller

end ControlRecords
