import ControlRecords.Proofs.Operations

/-! # Connections with variables

A record is connected to a variable by its link and by nothing else, so what holds of every
connection that a link yields holds of the connections of all records whatever is done
(`AllTied.operate`).  There are two such things.  A link names one of the record's own fields
(`WellConnected.operate`), so every access is made for a record that has the field that the
access moves (`fitted_of_access?`).  And a link names a variable that is there
(`Grounded.operate`). -/
namespace ControlRecords

namespace Record

/-- A field that has a type has a value. -/
theorem isSome_get?_of_type? {r : Record} {f : Field} (h : (r.type? f).isSome = true) :
    (r.get? f).isSome = true := by
  have common : f.commonType?.isSome = (r.common.get? f).isSome := by cases f <;> rfl
  have body : (r.body.type? f).isSome = (r.body.get? f).isSome := by
    cases r.body with
    | scalar _ s => cases s <;> cases f <;> rfl
    | array _ a => cases f <;> rfl
  simp only [type?, Option.orElse_eq_orElse, Option.orElse_eq_or, Option.isSome_or] at h
  simp only [get?, Option.orElse_eq_orElse, Option.orElse_eq_or, Option.isSome_or]
  rwa [← body, ← common]

/-- If the record is connected to a variable, then the connection is as it should be for a record
of this outline. -/
def Tied (fits : Record → Variable.Binding → Prop) (r : Record) : Prop :=
  ∀ b, r.common.binding = .toVariable b → fits r.outline b

section Tied
variable {fits : Record → Variable.Binding → Prop} {r s : Record}

theorem Tied.of_skeleton (h : r.Tied fits) (same : s.skeleton = r.skeleton) : s.Tied fits := by
  intro b bound
  rw [outline_of_skeleton same]
  exact h b ((binding_of_skeleton same).symm.trans bound)

/-- A record that was connected to a variable as it should be. -/
theorem tied_of_bind {b : Variable.Binding} (same : s.skeleton = r.skeleton.bind (.toVariable b))
    (fit : fits r.outline b) : s.Tied fits := by
  intro b' bound
  obtain rfl := Binding.toVariable.inj ((binding_of_bind same).symm.trans bound)
  rwa [outline_of_bind same]

/-- A record that is not connected to a variable. -/
theorem tied_of_binding {x : Binding} (binding : s.common.binding = x)
    (elsewhere : ∀ b, x ≠ .toVariable b) : s.Tied fits :=
  fun b bound => absurd (binding.symm.trans bound) (elsewhere b)

end Tied

/-- If the record is connected to a variable, then through a field that it has. -/
def Fielded (r : Record) : Prop :=
  ∀ b, r.common.binding = .toVariable b → (r.get? b.field).isSome = true

/-- Which fields a record has is told by its outline. -/
theorem isSome_get?_outline (r : Record) (f : Field) :
    (r.outline.get? f).isSome = (r.get? f).isSome := by
  have kept : (r.outline.get? f).isSome = (r.skeleton.get? f).isSome := by cases f <;> rfl
  rw [kept, isSome_get?_skeleton]

theorem fielded_iff_tied {r : Record} :
    r.Fielded ↔ r.Tied fun o b => (o.get? b.field).isSome = true := by
  simp only [Fielded, Tied, isSome_get?_outline]

theorem Fielded.of_skeleton {r s : Record} (h : r.Fielded) (same : s.skeleton = r.skeleton) :
    s.Fielded :=
  fielded_iff_tied.2 ((fielded_iff_tied.1 h).of_skeleton same)

end Record

/-- A link names a field of the record. -/
theorem Variable.isSome_get?_of_resolve {t : GroupTable} {setting : Option String} {link : Link}
    {r : Record} {choice : Choice} {b : Binding}
    (h : (resolve t setting link r choice).1 = .ok b) : (r.get? b.field).isSome = true := by
  unfold resolve at h
  split at h
  · split at h
    · simp at h
    · split at h
      · simp at h
      · dsimp only at h
        split at h
        · simp at h
        · rename_i found
          obtain rfl := Except.ok.inj h
          obtain ⟨f, -, type⟩ := Option.bind_eq_some_iff.1 found
          obtain ⟨t, typed, same⟩ := Option.map_eq_some_iff.1 type
          obtain ⟨rfl, -⟩ := Prod.mk.inj same
          exact Record.isSome_get?_of_type? (by rw [typed]; rfl)
  · simp at h

namespace Controller

/-- Every record that is connected to a variable is so as it should be. -/
def AllTied (fits : Record → Variable.Binding → Prop) (c : Controller) : Prop :=
  ∀ id r, c.record? id = some r → r.Tied fits

/-- Where the variables are those of `c`, a link that names one of them yields a connection as
it should be. -/
def Finds (fits : Record → Variable.Binding → Prop) (c : Controller) : Prop :=
  ∀ (d : Controller) (link : Link) (r : Record) (choice : Variable.Choice) (b : Variable.Binding)
    (v : Variable), d.vars = c.vars → (d.resolveVariable link r choice).2 = .ok (b, v) →
    fits r.outline b

/-- What is in the place of a record that was replaced. -/
theorem eq_of_record?_setRecord {c : Controller} {id : RecordId} {q s : Record}
    (h : (c.setRecord id s).record? id = some q) : q = s := by
  simp only [record?, setRecord, List.getElem?_set, if_true] at h
  split at h
  · exact (Option.some.inj h).symm
  · contradiction

namespace AllTied
variable {fits : Record → Variable.Binding → Prop} {c d : Controller} (h : c.AllTied fits)
include h

theorem of_keeps (kept : Keeps Record.skeleton c d) : d.AllTied fits := by
  intro id s hs
  obtain ⟨r, hr, same⟩ := kept.record_before hs
  exact (h id r hr).of_skeleton same

theorem of_records (same : d.records = c.records) : d.AllTied fits :=
  h.of_keeps (keeps_of_records same)

theorem setRecord {s : Record} (tied : s.Tied fits) (id : RecordId) :
    (c.setRecord id s).AllTied fits := by
  intro j q hq
  by_cases e : j = id
  · subst e
    rwa [eq_of_record?_setRecord hq]
  · rw [record?_setRecord_of_ne c s e] at hq
    exact h j q hq

/-- Connecting a record to a register. -/
theorem connectRegister {id : RecordId} {r : Record} (hr : c.record? id = some r) (s : Scalar) :
    (c.connectRegister id r s).1.AllTied fits := by
  rcases named : (Register.resolve c.catalogue r.link).1 with e | b
  · obtain ⟨catalogue, failed⟩ := connectRegister_of_error id s named
    rw [failed]
    exact (h.of_records rfl).setRecord ((h id r hr).of_skeleton (r.skeleton_setActive true)) id
  · obtain ⟨catalogue, connected⟩ := connectRegister_of_named id s named
    have same := Register.skeleton_connect { b with owner := r.common.handle } s r c.registers
    rw [connected]
    refine (h.of_records rfl).setRecord ?_ id
    exact Record.tied_of_binding (Record.binding_of_bind same) (by simp)

theorem connectArchive {id : RecordId} {r : Record} (hr : c.record? id = some r)
    {archive : ArchiveId} (body : ∃ a, r.body = .array archive a) :
    (c.connectArchive id r archive).1.AllTied fits := by
  have records : ∀ v, (c.setTarget r (.vault v)).records = c.records := fun v => by
    unfold setTarget; split <;> rfl
  unfold Controller.connectArchive
  split
  · exact h
  · rename_i a found
    refine (h.of_records (records _)).setRecord ?_ id
    rcases Archive.connect_cases archive r ⟨a, c.files⟩ body with ⟨e, failed⟩ | ⟨b, -, same⟩
    · rw [failed]
      exact h id r hr
    · exact Record.tied_of_binding (Record.binding_of_bind same) (by simp)

variable (finds : c.Finds fits)
include finds

/-- Connecting a record to a variable. -/
theorem connectVariable {id : RecordId} {r : Record} (hr : c.record? id = some r) (s : Scalar) :
    (c.connectVariable id r s).1.AllTied fits := by
  have records := records_resolveVariable c r.link r (.ofScalar s)
  unfold Controller.connectVariable
  split
  · rename_i d e failed
    rw [failed] at records
    exact (h.of_records records).setRecord ((h id r hr).of_skeleton (r.skeleton_setActive true)) id
  · rename_i d b v found
    rw [found] at records
    have fit := finds c r.link r _ b v rfl (congrArg Prod.snd found)
    dsimp only
    exact ((h.of_records records).of_records rfl).setRecord
      (Record.tied_of_bind (Variable.skeleton_connect b s r v) fit) id

theorem connect (id : RecordId) : (c.connect id).1.AllTied fits := by
  unfold Controller.connect
  split
  · exact h
  · rename_i r hr
    split
    · exact h.connectRegister hr _
    · exact h.connectVariable finds hr _
    · rename_i archive a body
      exact h.connectArchive hr ⟨a, body⟩

theorem bindVariable (id : RecordId) (link : Link) (choice : Variable.Choice) (output : Bool) :
    (c.bindVariable id link choice output).1.AllTied fits := by
  unfold Controller.bindVariable
  split
  · exact h
  · rename_i r hr
    have records := records_resolveVariable c link r choice
    split
    · rename_i d e failed
      rw [failed] at records
      exact (h.of_records records).setRecord
        ((h id r hr).of_skeleton (r.skeleton_setActive true)) id
    · rename_i d b v found
      rw [found] at records
      have fit := finds c link r choice b v rfl (congrArg Prod.snd found)
      split
      · exact ((h.of_records records).of_records rfl).setRecord
          (Record.tied_of_bind (Variable.skeleton_connectOutput b r v) fit) id
      · exact (h.of_records records).setRecord
          (Record.tied_of_bind (r.skeleton_bind (.toVariable b)) fit) id

/-- Connecting a record that was sized. -/
theorem connect_sized {id : RecordId} {r : Record} (hr : c.record? id = some r) :
    ((c.setRecord id r.sized).connect id).1.AllTied fits :=
  (h.of_keeps (.setRecord hr r.skeleton_sized)).connect finds id

/-- A record that is ready for its initial pass. -/
theorem readied {id : RecordId} (ready : c.readied? id = some d) : d.AllTied fits := by
  obtain ⟨r, hr, found⟩ := Option.bind_eq_some_iff.1 ready
  have connected := h.connect_sized finds hr
  split at found
  · contradiction
  · rename_i e status ok
    obtain ⟨s, hs, rfl⟩ := Option.map_eq_some_iff.1 found
    rw [ok] at connected
    exact (connected.of_keeps (.setRecord hs (s.skeleton_connected status))).of_records
      (records_joinScanList _ id)

theorem initialise (id : RecordId) : (c.initialise id).1.AllTied fits := by
  cases ready : c.readied? id with
  | some d =>
    rw [initialise_of_readied ready]
    exact (h.readied finds ready).of_keeps (keeps_skeleton_processInitially d id)
  | none =>
    unfold Controller.initialise
    split
    · exact h
    · rename_i r hr
      have connected := h.connect_sized finds hr
      simp only [readied?, hr, Option.bind_some] at ready
      split
      · rename_i failed
        rw [failed] at connected
        split
        · rename_i s hs
          exact connected.of_keeps (.setRecord hs (s.skeleton_setActive true))
        · exact connected
      · rename_i ok
        rw [ok] at connected ready
        split
        · rename_i s hs
          simp [hs] at ready
        · exact connected

/-- **Whatever is done, every record stays connected as it should be.** -/
theorem operate (op : Operation) : (c.operate op).AllTied fits := by
  cases moves : op.connects with
  | false => exact h.of_keeps (keeps_skeleton_operate c moves)
  | true =>
    cases op with
    | initialise id => exact h.initialise finds id
    | bind id link choice output => exact h.bindVariable finds id link choice output
    | _ => contradiction

end AllTied

/-! ## Fields that are there -/

/-- Every record that is connected to a variable is so through a field that it has. -/
def WellConnected (c : Controller) : Prop := ∀ id r, c.record? id = some r → r.Fielded

theorem wellConnected_iff_allTied {c : Controller} :
    c.WellConnected ↔ c.AllTied fun o b => (o.get? b.field).isSome = true := by
  simp only [WellConnected, AllTied, Record.fielded_iff_tied]

/-- A link that names a variable names a field of the record with it. -/
theorem finds_field (c : Controller) : c.Finds fun o b => (o.get? b.field).isSome = true := by
  intro d link r choice b v _ found
  rw [Record.isSome_get?_outline]
  exact Variable.isSome_get?_of_resolve (resolveVariable_eq_ok found).1

/-- A record that is ready for its initial pass. -/
theorem WellConnected.readied {c d : Controller} (h : c.WellConnected) {id : RecordId}
    (ready : c.readied? id = some d) : d.WellConnected :=
  wellConnected_iff_allTied.2 ((wellConnected_iff_allTied.1 h).readied c.finds_field ready)

/-- **Whatever is done, every record stays connected through a field that it has.** -/
theorem WellConnected.operate {c : Controller} (h : c.WellConnected) (op : Operation) :
    (c.operate op).WellConnected :=
  wellConnected_iff_allTied.2 ((wellConnected_iff_allTied.1 h).operate c.finds_field op)

/-- **An access is made for a record that has the field that the access moves.** -/
theorem fitted_of_access? {c : Controller} (h : c.WellConnected) {op : Operation} {v : VariableId}
    {a : Variable.Access} (access : c.access? op = some (v, a)) : a.Fitted := by
  cases origin_of_access? access with
  | @record _ _ d id q r b found there same bound _ moves =>
    have connected : d.WellConnected := by
      rcases found with rfl | ready
      · exact h
      · exact h.readied ready
    exact moves.fitted ((connected id q there).of_skeleton same b bound)
  | _ => trivial

/-! ## Variables that are there -/

/-- Every record that is connected to a variable is so to one that is there. -/
def Grounded (c : Controller) : Prop :=
  ∀ id r b, c.record? id = some r → r.common.binding = .toVariable b →
    b.target.index < c.vars.length

theorem grounded_iff_allTied {c : Controller} :
    c.Grounded ↔ c.AllTied fun _ b => b.target.index < c.vars.length :=
  ⟨fun h id r hr b => h id r b hr, fun h id r b hr => h id r hr b⟩

/-- A link names a variable that is there. -/
theorem finds_variable (c : Controller) : c.Finds fun _ b => b.target.index < c.vars.length := by
  intro d link r choice b v same found
  rw [← same]
  exact (List.getElem?_eq_some_iff.1 (resolveVariable_eq_ok found).2).1

/-- No operation makes a variable or takes one away. -/
theorem length_vars_operate (c : Controller) (op : Operation) :
    (c.operate op).vars.length = c.vars.length := by
  rw [vars_operate]
  unfold accessed
  split
  · unfold modifyVariable
    split
    · exact List.length_set
    · rfl
  · rfl

/-- **Whatever is done, every record stays connected to a variable that is there.** -/
theorem Grounded.operate {c : Controller} (h : c.Grounded) (op : Operation) :
    (c.operate op).Grounded := by
  rw [grounded_iff_allTied, length_vars_operate]
  exact (grounded_iff_allTied.1 h).operate c.finds_variable op

/-! ## Records before they are connected -/

/-- Without records there is none that could be connected. -/
theorem wellConnected_of_records_eq_nil {c : Controller} (h : c.records = []) :
    c.WellConnected := by
  intro id r hr
  simp [record?, h] at hr

/-- A record that is taken into care is connected to what it was connected to. -/
theorem WellConnected.adopt {c : Controller} (h : c.WellConnected) {r : Record}
    (unbound : r.common.binding = .unbound) (scheduler : Option SchedulerId) :
    (c.adopt r scheduler).2.WellConnected := by
  intro id s hs
  rw [record?_adopt] at hs
  split at hs
  · obtain rfl := Option.some.inj hs
    exact Record.fielded_iff_tied.2 (Record.tied_of_binding unbound (by simp))
  · exact h id s hs

end Controller

end ControlRecords
