import ControlRecords.Proofs.Occurrences

/-! # The state in which a record starts

Initialising succeeds exactly for the records that can be connected
(`Controller.connected?_of_initialise`), and a record that is not to be processed at once is
then left as it was connected (`Controller.initialise_of_quiet`).  For each support this is one
record, the one that the support's `connect` makes of the record with its mask sized, next to
registers and variables as they were. -/
namespace ControlRecords

/-- A record on registers with its mask sized. -/
theorem Record.body_sized {r : Record} {support : ScalarSupport} {s : Scalar}
    (body : r.body = .scalar support s) : r.sized.body = .scalar support s.sized := by
  simp only [sized, mapScalar, body, Body.mapScalar]

theorem Record.connected_of_array {r : Record} {archive : ArchiveId} {a : ArrayFields}
    (body : r.body = .array archive a) (status : Transfer) : r.connected status = r := by
  simp only [connected, body]

/-- A scalar record is one of the same type still. -/
theorem Record.scalar_of_skeleton {r q : Record} {support : ScalarSupport} {s : Scalar}
    (same : q.body.skeleton = r.body.skeleton) (body : r.body = .scalar support s) :
    ∃ s', q.body = .scalar support s' ∧ s'.skeleton = s.skeleton := by
  rw [body] at same
  cases own : q.body with
  | scalar support' s' =>
    rw [own] at same
    obtain ⟨rfl, type⟩ := Body.scalar.inj same
    exact ⟨s', rfl, type⟩
  | array archive a =>
    rw [own] at same
    contradiction

/-- What has its elements in an archive has them there still. -/
theorem Record.array_of_skeleton {r q : Record} {archive : ArchiveId} {a : ArrayFields}
    (same : q.body.skeleton = r.body.skeleton) (body : r.body = .array archive a) :
    ∃ a', q.body = .array archive a' := by
  rw [body] at same
  cases own : q.body with
  | scalar support s =>
    rw [own] at same
    contradiction
  | array archive' a' =>
    rw [own] at same
    obtain ⟨rfl, -⟩ := Body.array.inj same
    exact ⟨a', rfl⟩

namespace Controller
variable {c d : Controller} {id : RecordId} {r q : Record}

/-- A record is connected if its support succeeds. -/
theorem connected?_eq_some_iff : c.connected? id = some d ↔
    ∃ r e s status, c.record? id = some r ∧
      (c.setRecord id r.sized).connect id = (e, .ok status) ∧ e.record? id = some s ∧
      e.setRecord id (s.connected status) = d := by
  unfold connected?
  constructor
  · intro h
    obtain ⟨r, there, found⟩ := Option.bind_eq_some_iff.1 h
    split at found
    · contradiction
    · rename_i e status connected
      obtain ⟨s, stands, same⟩ := Option.map_eq_some_iff.1 found
      exact ⟨r, e, s, status, there, connected, stands, same⟩
  · rintro ⟨r, e, s, status, there, connected, stands, rfl⟩
    rw [there, Option.bind_some]
    simp only [connected, stands, Option.map_some]

/-- **Whatever is initialised successfully was connected.** -/
theorem connected?_of_initialise (ok : (c.initialise id).2 = .ok ()) :
    ∃ d, c.connected? id = some d := by
  cases there : c.record? id with
  | none => simp [initialise, there] at ok
  | some r =>
    simp only [initialise, there] at ok
    have sized : (c.setRecord id r.sized).record? id = some r.sized :=
      record?_setRecord_of_some there _
    rcases connected : (c.setRecord id r.sized).connect id with ⟨e, failure | status⟩
    · rw [connected] at ok
      dsimp only at ok
      split at ok <;> contradiction
    · obtain ⟨s, stands, -, -⟩ := relinked_connect sized
      rw [connected] at stands
      have stands := stands id
      rw [if_pos rfl] at stands
      exact ⟨_, connected?_eq_some_iff.2 ⟨r, e, s, status, there, connected, stands, rfl⟩⟩

/-- **A record that is not to be processed at once is left as it was connected.** -/
theorem initialise_of_quiet (h : c.connected? id = some d) (stands : d.record? id = some q)
    (quiet : q.common.initProcess = false) : c.initialise id = (d.joinScanList id, .ok ()) := by
  obtain ⟨r, e, s, status, there, connected, placed, rfl⟩ := connected?_eq_some_iff.1 h
  have stands' : ((e.setRecord id (s.connected status)).joinScanList id).record? id = some q := by
    simpa [record?] using stands
  rw [initialise_of_connect there connected placed, processInitially, stands']
  simp [quiet]

/-! ## On a register -/

section Register
variable {s : Scalar} {b : Register.Binding}

/-- How a record on a register starts. -/
def startOnRegister (c : Controller) (r : Record) (s : Scalar) (b : Register.Binding) : Record :=
  let p := Register.connect { b with owner := r.common.handle } s.sized r.sized c.registers
  p.1.connected p.2

theorem connect_register (there : c.record? id = some r) (body : r.body = .scalar .registers s)
    (named : (Register.resolve c.catalogue r.link).1 = .ok b) :
    ∃ catalogue, (c.setRecord id r.sized).connect id =
      (({ c with catalogue } : Controller).setRecord id
        (Register.connect { b with owner := r.common.handle } s.sized r.sized c.registers).1,
        .ok (Register.connect { b with owner := r.common.handle } s.sized r.sized
          c.registers).2) := by
  have sized : (c.setRecord id r.sized).record? id = some r.sized :=
    record?_setRecord_of_some there _
  obtain ⟨catalogue, connected⟩ :=
    connectRegister_of_named (c := c.setRecord id r.sized) (r := r.sized) id s.sized named
  refine ⟨catalogue, ?_⟩
  rw [connect_of_registers sized (Record.body_sized body), connected]
  simp only [setRecord, List.set_set]
  rfl

/-- **A record on a register starts in one way.** -/
theorem starts_on_register (there : c.record? id = some r)
    (body : r.body = .scalar .registers s) (h : c.connected? id = some d) :
    ∃ b, (Register.resolve c.catalogue r.link).1 = .ok b ∧
      d.record? id = some (c.startOnRegister r s b) ∧ d.registers = c.registers := by
  obtain ⟨r', e, q, status, there', connected, stands, rfl⟩ := connected?_eq_some_iff.1 h
  obtain rfl := Option.some.inj (there.symm.trans there')
  rcases named : (Register.resolve c.catalogue r.link).1 with error | b
  · have sized : (c.setRecord id r.sized).record? id = some r.sized :=
      record?_setRecord_of_some there _
    obtain ⟨catalogue, failed⟩ :=
      connectRegister_of_error (c := c.setRecord id r.sized) (r := r.sized) id s.sized named
    rw [connect_of_registers sized (Record.body_sized body), failed] at connected
    simp at connected
  · obtain ⟨catalogue, made⟩ := connect_register there body named
    rw [made] at connected
    obtain ⟨rfl, same⟩ := Prod.mk.inj connected
    obtain rfl := Except.ok.inj same
    have placed := record?_setRecord_of_some (c := ({ c with catalogue } : Controller)) there
      (Register.connect { b with owner := r.common.handle } s.sized r.sized c.registers).1
    obtain rfl := Option.some.inj (stands.symm.trans placed)
    exact ⟨b, rfl, record?_setRecord_of_some placed _, rfl⟩

/-- A record whose link names a register is connected. -/
theorem exists_connected?_on_register (there : c.record? id = some r)
    (body : r.body = .scalar .registers s)
    (named : (Register.resolve c.catalogue r.link).1 = .ok b) :
    ∃ d, c.connected? id = some d := by
  obtain ⟨catalogue, made⟩ := connect_register there body named
  exact ⟨_, connected?_eq_some_iff.2 ⟨r, _, _, _, there, made,
    record?_setRecord_of_some (c := ({ c with catalogue } : Controller)) there _, rfl⟩⟩

end Register

/-! ## On a variable -/

section Variable
variable {s : Scalar} {b : Variable.Binding} {v : Variable} {status : Transfer}

/-- What a link names is not up to the size of the mask. -/
theorem resolveVariable_sized (c : Controller) (id : RecordId) (r : Record) (s : Scalar) :
    ((c.setRecord id r.sized).resolveVariable r.sized.link r.sized (.ofScalar s.sized)).2 =
      (c.resolveVariable r.link r (.ofScalar s)).2 := by
  have choice : Variable.Choice.ofScalar s.sized = .ofScalar s := by cases s <;> rfl
  have same : Variable.resolve (c.setRecord id r.sized).catalogue.groups
      (c.setRecord id r.sized).setting r.sized.link r.sized (.ofScalar s.sized) =
        Variable.resolve c.catalogue.groups c.setting r.link r (.ofScalar s) := by
    rw [Variable.resolve_sized, choice]
    rfl
  simp only [resolveVariable, same]
  rcases Variable.resolve c.catalogue.groups c.setting r.link r (.ofScalar s) with ⟨_ | b, groups⟩
  · rfl
  · simp only [variableAt?, setRecord]
    cases c.vars[b.target.index]? <;> rfl

theorem connect_variable (there : c.record? id = some r) (body : r.body = .scalar .shared s)
    (named : (c.resolveVariable r.link r (.ofScalar s)).2 = .ok (b, v)) :
    ∃ catalogue, (c.setRecord id r.sized).connect id =
      (({ c with catalogue } : Controller).setRecord id
          (Variable.connect b s.sized r.sized v).record,
        (Variable.connect b s.sized r.sized v).result.mapError .shared) := by
  have sized : (c.setRecord id r.sized).record? id = some r.sized :=
    record?_setRecord_of_some there _
  have named' := (resolveVariable_sized c id r s).trans named
  obtain ⟨catalogue, connected⟩ := connectVariable_of_named id named'
  refine ⟨catalogue, ?_⟩
  rw [connect_of_shared sized (Record.body_sized body), connected]
  simp only [setRecord, List.set_set]

/-- **A record on a variable starts in one way.** -/
theorem starts_on_variable (there : c.record? id = some r) (body : r.body = .scalar .shared s)
    (h : c.connected? id = some d) :
    ∃ b v status, (c.resolveVariable r.link r (.ofScalar s)).2 = .ok (b, v) ∧
      (Variable.connect b s.sized r.sized v).result = .ok status ∧
      d.record? id = some ((Variable.connect b s.sized r.sized v).record.connected status) ∧
      d.vars = c.vars := by
  obtain ⟨r', e, q, status, there', connected, stands, rfl⟩ := connected?_eq_some_iff.1 h
  obtain rfl := Option.some.inj (there.symm.trans there')
  rcases named : (c.resolveVariable r.link r (.ofScalar s)).2 with error | ⟨b, v⟩
  · have sized : (c.setRecord id r.sized).record? id = some r.sized :=
      record?_setRecord_of_some there _
    have failed := (resolveVariable_sized c id r s).trans named
    rw [connect_of_shared sized (Record.body_sized body), connectVariable] at connected
    rcases hf : (c.setRecord id r.sized).resolveVariable r.sized.link r.sized
      (.ofScalar s.sized) with ⟨f, found⟩
    rw [hf] at failed connected
    obtain rfl : found = .error error := failed
    simp at connected
  · obtain ⟨catalogue, made⟩ := connect_variable there body named
    rw [made] at connected
    obtain ⟨rfl, same⟩ := Prod.mk.inj connected
    cases result : (Variable.connect b s.sized r.sized v).result with
    | error failure =>
      rw [result] at same
      cases same
    | ok status' =>
      rw [result] at same
      obtain rfl := Except.ok.inj same
      have placed := record?_setRecord_of_some (c := ({ c with catalogue } : Controller)) there
        (Variable.connect b s.sized r.sized v).record
      obtain rfl := Option.some.inj (stands.symm.trans placed)
      exact ⟨b, v, status', rfl, result, record?_setRecord_of_some placed _, rfl⟩

/-- A record whose link names a variable with a value that it can take is connected. -/
theorem exists_connected?_on_variable (there : c.record? id = some r)
    (body : r.body = .scalar .shared s)
    (named : (c.resolveVariable r.link r (.ofScalar s)).2 = .ok (b, v))
    (ok : (Variable.connect b s.sized r.sized v).result = .ok status) :
    ∃ d, c.connected? id = some d := by
  obtain ⟨catalogue, made⟩ := connect_variable there body named
  rw [ok] at made
  exact ⟨_, connected?_eq_some_iff.2 ⟨r, _, _, status, there, made,
    record?_setRecord_of_some (c := ({ c with catalogue } : Controller)) there _, rfl⟩⟩

end Variable

/-! ## On an array -/

section Archive
variable {archive : ArchiveId} {a : ArrayFields}

/-- **An array record starts in one way.** -/
theorem starts_on_archive (there : c.record? id = some r) (body : r.body = .array archive a)
    (h : c.connected? id = some d) :
    ∃ x, c.archive? archive = some x ∧
      (Archive.connect archive r ⟨x, c.files⟩).2.2 = .ok () ∧
      d.record? id = some (Archive.connect archive r ⟨x, c.files⟩).1 := by
  obtain ⟨r', e, q, status, there', connected, stands, rfl⟩ := connected?_eq_some_iff.1 h
  obtain rfl := Option.some.inj (there.symm.trans there')
  have sized : r.sized = r := by
    obtain ⟨_, _, _⟩ := r
    obtain rfl : _ = Body.array archive a := body
    rfl
  rw [sized, setRecord_self there] at connected
  simp only [connect, there, body, connectArchive] at connected
  split at connected
  · simp at connected
  · rename_i x found
    obtain ⟨rfl, same⟩ := Prod.mk.inj connected
    rcases made : Archive.connect archive r ⟨x, c.files⟩ with ⟨after, vault, failure | ⟨⟩⟩
    · rw [made] at same
      cases same
    · rw [made] at same stands
      obtain rfl := Except.ok.inj same
      have placed := record?_setRecord_of_some
        ((record?_setTarget c r (.vault vault) id).trans there) after
      obtain rfl := Option.some.inj (stands.symm.trans placed)
      obtain ⟨a', own⟩ : ∃ a', q.body = .array archive a' := by
        rcases Archive.connect_cases archive r ⟨x, c.files⟩ ⟨a, body⟩ with
          ⟨_, failed⟩ | ⟨b, -, skeleton⟩
        · rw [made] at failed
          simp at failed
        · rw [made] at skeleton
          exact Record.array_of_skeleton (congrArg Record.body skeleton) body
      refine ⟨x, found, by rw [made], ?_⟩
      rw [Record.connected_of_array own, made]
      exact record?_setRecord_of_some placed _

end Archive

end Controller

end ControlRecords
