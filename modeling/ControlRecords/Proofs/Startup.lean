import ControlRecords.Controller.Initialisation
import ControlRecords.Controller.Registration
import ControlRecords.Proofs.Locality

/-! # Startup

Connecting a record decides what it is connected to and nothing else of its skeleton.  When
a record cannot be connected it is marked active, and it stays unconnected, with one
exception: a record that writes to a variable is connected first and loads the variable's
value then, so that a value which cannot be converted fails a record that is connected
already (`relinked_connect`). -/
namespace ControlRecords

namespace Scalar

@[simp] theorem skeleton_sized (s : Scalar) : s.sized.skeleton = s.skeleton := by
  cases s <;> rfl

@[simp] theorem skeleton_placed (s : Scalar) : s.placed.skeleton = s.skeleton := by
  cases s <;> rfl

end Scalar

namespace Record

/-- The part of a record that not even connecting it changes. -/
def outline (r : Record) : Record := r.skeleton.bind .unbound

theorem outline_of_skeleton {r s : Record} (h : s.skeleton = r.skeleton) :
    s.outline = r.outline := by
  simp [outline, h]

theorem outline_of_bind {r s : Record} {b : Binding} (h : s.skeleton = r.skeleton.bind b) :
    s.outline = r.outline := by
  simp [outline, h, bind, withCommon]

theorem binding_of_bind {r s : Record} {b : Binding} (h : s.skeleton = r.skeleton.bind b) :
    s.common.binding = b :=
  congrArg (·.common.binding) h

@[simp] theorem skeleton_bind (r : Record) (b : Binding) :
    (r.bind b).skeleton = r.skeleton.bind b := rfl

@[simp] theorem skeleton_sized (r : Record) : r.sized.skeleton = r.skeleton :=
  skeleton_mapScalar (fun s => s.skeleton_sized) r

@[simp] theorem skeleton_connected (r : Record) (status : Transfer) :
    (r.connected status).skeleton = r.skeleton := by
  unfold connected
  split
  · split
    · rw [skeleton_setUndefined]
      simp [skeleton]
    · rfl
  · rfl

end Record

/-! ## What the supports do -/

theorem Register.skeleton_readBack (b : Binding) (take : Scalar → UInt32 → Scalar)
    (h : ∀ s w, (take s w).skeleton = s.skeleton) (r : Record) (t : Registers) :
    (readBack b take r t).skeleton = r.skeleton := by
  unfold readBack
  split
  · exact Record.skeleton_mapScalar (fun s => h s _) r
  · rfl

/-- A record that is connected to a register is changed in its fields only. -/
theorem Register.skeleton_connect (b : Binding) (s : Scalar) (r : Record) (t : Registers) :
    (connect b s r t).1.skeleton = r.skeleton.bind (.toRegister b) := by
  have settled : ∀ r : Record, (r.withCommon Common.promoteAlarms).skeleton = r.skeleton :=
    Record.skeleton_withCommon fun c => c.skeleton_promoteAlarms
  have placed : ∀ r : Record, (r.mapScalar Scalar.placed).skeleton = r.skeleton :=
    Record.skeleton_mapScalar fun s => s.skeleton_placed
  have received := skeleton_readBack b Scalar.receive (fun s w => s.skeleton_receive w)
  cases s with
  | ai _ | longin _ => rfl
  | bi _ => rfl
  | mbbi _ => exact placed _
  | ao _ | bo _ | longout _ =>
    simp only [connect]
    split
    · rfl
    · rw [settled, received]
      rfl
  | mbbo _ _ =>
    have masked : ∀ r : Record,
        (r.mapScalar fun s => s.setWord (s.word &&& s.mask)).skeleton = r.skeleton :=
      Record.skeleton_mapScalar fun s => s.skeleton_setWord _
    have noted := skeleton_readBack b (fun s w => (s.setWord w).noteReadBack w)
      (fun s w => by simp)
    simp only [connect]
    split
    · rw [masked, noted, placed]
      rfl
    · rw [settled, masked, noted, placed]
      rfl

namespace Variable

theorem skeleton_connectOutput (b : Binding) (r : Record) (v : Variable) :
    (connectOutput b r v).record.skeleton = r.skeleton.bind (.toVariable b) := by
  have taken := skeleton_takeIn b (r.bind (.toVariable b)) v false
  unfold connectOutput
  dsimp only
  split
  · rfl
  · split
    · rw [Record.skeleton_withCommon fun c => c.skeleton_promoteAlarms, taken]
      rfl
    · exact taken

/-- A record that is connected to a variable is changed in its fields only, whether or not
it could load the value. -/
theorem skeleton_connect (b : Binding) (s : Scalar) (r : Record) (v : Variable) :
    (connect b s r v).record.skeleton = r.skeleton.bind (.toVariable b) := by
  have output := skeleton_connectOutput b r v
  have placed : ∀ r : Record, (r.mapScalar Scalar.placed).skeleton = r.skeleton :=
    Record.skeleton_mapScalar fun s => s.skeleton_placed
  have noted : ∀ r : Record, (r.mapScalar fun s => s.noteReadBack s.word).skeleton = r.skeleton :=
    Record.skeleton_mapScalar fun s => s.skeleton_noteReadBack _
  unfold connect
  split
  · rfl
  · rfl
  · rfl
  · exact placed _
  · exact output
  · exact output
  · dsimp only
    split
    · exact output
    · split
      · exact output
      · rw [skeleton_maskRaw]; exact output
  · dsimp only
    split
    · exact output
    · split
      · rw [noted, placed]; exact output
      · rw [skeleton_maskRaw, noted, placed]; exact output

/-- The value that a record starts with is loaded without a trace on the variable. -/
theorem target_connectOutput (b : Binding) (r : Record) (v : Variable) :
    (connectOutput b r v).target = v := by
  have untouched : (takeIn false b (r.bind (.toVariable b)) v).target = v := by
    simp [target_takeIn]
  unfold connectOutput
  dsimp only
  split
  · rfl
  · split
    · exact untouched
    · exact untouched

/-- **A variable does not notice that a record is connected to it.** -/
theorem target_connect (b : Binding) (s : Scalar) (r : Record) (v : Variable) :
    (connect b s r v).target = v := by
  have output := target_connectOutput b r v
  unfold connect
  split
  · rfl
  · rfl
  · rfl
  · rfl
  · exact output
  · exact output
  · dsimp only
    split
    · exact output
    · split <;> exact output
  · dsimp only
    split
    · exact output
    · split <;> exact output

/-- Once the variable is found, only the value can fail the connection. -/
theorem connect_eq_error {b : Binding} {s : Scalar} {r : Record} {v : Variable}
    {e : VariableError} (h : (connect b s r v).result = .error e) : ∃ fe, e = .field fe := by
  have output : ∀ e, (connectOutput b r v).result = .error e → ∃ fe, e = .field fe := by
    intro e h
    unfold connectOutput at h
    dsimp only at h
    split at h
    · contradiction
    · split at h
      · rename_i loaded
        rw [loaded] at h
        contradiction
      · obtain ⟨fe, -, e⟩ := takeIn_eq_error h
        exact ⟨fe, e⟩
  unfold connect at h
  split at h
  · contradiction
  · contradiction
  · contradiction
  · contradiction
  · exact output e h
  · exact output e h
  · dsimp only at h
    split at h
    · exact output e h
    · rename_i loaded
      split at h
      · contradiction
      · rw [loaded] at h
        contradiction
  · dsimp only at h
    split at h
    · exact output e h
    · rename_i loaded
      split at h
      · contradiction
      · rw [loaded] at h
        contradiction

/-- The options and the field of a connection are those that the link and the choice name. -/
theorem resolve_eq_ok {t : GroupTable} {setting : Option String} {link : Link} {r : Record}
    {choice : Choice} {b : Binding} (h : (resolve t setting link r choice).1 = .ok b) :
    (∃ signal, b.flags = choice.flags signal) ∧
      Field.ofText? (choice.fieldName b.flags) = some b.field := by
  unfold resolve at h
  split at h
  · split at h
    · simp at h
    · split at h
      · simp at h
      · dsimp only at h
        split at h
        · simp at h
        · rename_i found
          obtain rfl := Except.ok.inj h
          obtain ⟨f, named, type⟩ := Option.bind_eq_some_iff.1 found
          obtain ⟨_, -, same⟩ := Option.map_eq_some_iff.1 type
          obtain ⟨rfl, -⟩ := Prod.mk.inj same
          exact ⟨⟨_, rfl⟩, named⟩
  · simp at h

/-- What a link names depends on the type of the record only. -/
theorem resolve_of_skeleton (t : GroupTable) (setting : Option String) (link : Link) {q r : Record}
    (same : q.body.skeleton = r.body.skeleton) (choice : Choice) :
    resolve t setting link q choice = resolve t setting link r choice := by
  have type : ∀ f, q.type? f = r.type? f := fun f =>
    congrArg (· <|> f.commonType?) (Body.type?_of_skeleton same f)
  simp only [resolve, type]

theorem resolve_sized (t : GroupTable) (setting : Option String) (link : Link) (r : Record)
    (choice : Choice) :
    resolve t setting link r.sized choice = resolve t setting link r choice :=
  resolve_of_skeleton t setting link (congrArg Record.body r.skeleton_sized) choice

/-- A link that names no variable fails for another reason than a value. -/
theorem resolve_ne_field {t : GroupTable} {setting : Option String} {link : Link} {r : Record}
    {choice : Choice} {e : VariableError} (h : (resolve t setting link r choice).1 = .error e)
    (fe : FieldError) : e ≠ .field fe := by
  rintro rfl
  unfold resolve at h
  split at h
  · split at h
    · simp at h
    · split at h
      · simp at h
      · dsimp only at h
        split at h <;> simp at h
  · simp at h

end Variable

theorem Archive.skeleton_fill {archive : ArchiveId} {r : Record} {a : ArrayFields}
    (body : r.body = .array archive a) (fields : ArrayFields) (bytes : List UInt8) :
    (fill r fields archive bytes).skeleton = r.skeleton := by
  unfold fill
  split
  · simp [Record.skeleton, body, Body.skeleton]
  · simp [Record.skeleton, body, Body.skeleton, Common.skeleton]

/-- An array record that is connected is changed in its fields only, and one that is not
is not changed at all. -/
theorem Archive.connect_cases (archive : ArchiveId) (r : Record) (v : Vault)
    (h : ∃ a, r.body = .array archive a) :
    (∃ e, connect archive r v = (r, v, .error e)) ∨
      ∃ b, (connect archive r v).2.2 = .ok () ∧
        (connect archive r v).1.skeleton = r.skeleton.bind (.toArchive b) := by
  obtain ⟨a, body⟩ := h
  unfold connect
  split
  · exact Or.inl ⟨_, rfl⟩
  · rename_i info b found
    refine Or.inr ⟨b, rfl, ?_⟩
    dsimp only
    rw [Record.skeleton_bind, skeleton_fill body]

namespace Controller

/-! ## Connecting -/

theorem keeps_of_records {α : Type} {part : Record → α} {c d : Controller}
    (h : d.records = c.records) : Keeps part c d := fun id => by
  simp [record?, h]

/-- Looking for a variable opens the table of groups at most. -/
theorem resolveVariable_eq (c : Controller) (link : Link) (r : Record)
    (choice : Variable.Choice) : ∃ groups, (c.resolveVariable link r choice).1 =
      { c with catalogue := { c.catalogue with groups } } := by
  refine ⟨(Variable.resolve c.catalogue.groups c.setting link r choice).2, ?_⟩
  unfold resolveVariable
  dsimp only
  split
  · rfl
  · split <;> rfl

theorem records_resolveVariable (c : Controller) (link : Link) (r : Record)
    (choice : Variable.Choice) : (c.resolveVariable link r choice).1.records = c.records := by
  obtain ⟨groups, same⟩ := resolveVariable_eq c link r choice
  rw [same]

theorem vars_resolveVariable (c : Controller) (link : Link) (r : Record)
    (choice : Variable.Choice) : (c.resolveVariable link r choice).1.vars = c.vars := by
  obtain ⟨groups, same⟩ := resolveVariable_eq c link r choice
  rw [same]

/-- A link names a variable that is there. -/
theorem resolveVariable_eq_ok {c : Controller} {link : Link} {r : Record}
    {choice : Variable.Choice} {b : Variable.Binding} {v : Variable}
    (h : (c.resolveVariable link r choice).2 = .ok (b, v)) :
    (Variable.resolve c.catalogue.groups c.setting link r choice).1 = .ok b ∧
      c.variableAt? b.target = some v := by
  unfold resolveVariable at h
  dsimp only at h
  split at h
  · contradiction
  · rename_i found
    split at h
    · rename_i there
      obtain ⟨rfl, rfl⟩ := Prod.mk.inj (Except.ok.inj h)
      exact ⟨found, there⟩
    · contradiction

/-- The variable that a link names is the one that the controller has in its place. -/
theorem setVariable_of_resolveVariable {c d : Controller} {link : Link} {r : Record}
    {choice : Variable.Choice} {b : Variable.Binding} {v : Variable}
    (found : c.resolveVariable link r choice = (d, .ok (b, v))) : d.setVariable b.target v = d := by
  have there := (resolveVariable_eq_ok (congrArg Prod.snd found)).2
  have vars := vars_resolveVariable c link r choice
  rw [found] at vars
  apply setVariable_self
  rw [variableAt?, vars]
  exact there

theorem resolveVariable_of_ok {c : Controller} {link : Link} {r : Record}
    {choice : Variable.Choice} {b : Variable.Binding} {v : Variable}
    (found : (Variable.resolve c.catalogue.groups c.setting link r choice).1 = .ok b)
    (there : c.variableAt? b.target = some v) :
    (c.resolveVariable link r choice).2 = .ok (b, v) := by
  simp only [resolveVariable, found]
  rw [variableAt?] at there ⊢
  simp only [there]

/-- A link that names no variable fails for another reason than a value. -/
theorem resolveVariable_ne_field {c : Controller} {link : Link} {r : Record}
    {choice : Variable.Choice} {e : VariableError}
    (h : (c.resolveVariable link r choice).2 = .error e) (fe : FieldError) : e ≠ .field fe := by
  unfold resolveVariable at h
  dsimp only at h
  split at h
  · rename_i failed
    obtain rfl := Except.error.inj h
    exact Variable.resolve_ne_field failed fe
  · split at h
    · contradiction
    · obtain rfl := Except.error.inj h
      simp

/-- How connecting a record ended, by what the record was connected to before. -/
inductive Linked (before : Binding) (s : Record) (result : Except SupportError Transfer) :
    Prop where
  | connected {status : Transfer} (succeeded : result = .ok status)
      (bound : s.common.binding ≠ .unbound)
  /-- The value of the variable could not be loaded. -/
  | unloaded {fe : FieldError} (failed : result = .error (.shared (.field fe)))
      (bound : s.common.binding ≠ .unbound)
  | unlinked {e : SupportError} (failed : result = .error e)
      (reason : ∀ fe, e ≠ .shared (.field fe)) (unbound : s.common.binding = before)

/-- What connecting leaves of the records: one is replaced, by a record of the same
outline. -/
def Relinked (c : Controller) (id : RecordId) (r : Record)
    (after : Controller × Except SupportError Transfer) : Prop :=
  ∃ s, (∀ j, after.1.record? j = if j = id then some s else c.record? j) ∧
    s.outline = r.outline ∧ Linked r.common.binding s after.2

section Connect
variable {c : Controller} {id : RecordId} {r : Record}

/-- A record is replaced where the records are as they were. -/
theorem record?_setRecord_of_records {d : Controller} (there : (c.record? id).isSome)
    (same : d.records = c.records) (s : Record) (j : RecordId) :
    (d.setRecord id s).record? j = if j = id then some s else c.record? j := by
  have eq : ∀ j, d.record? j = c.record? j := fun j => by simp [record?, same]
  split
  · subst j
    exact record?_setRecord_self _ _ _ (by rwa [eq])
  · rw [record?_setRecord_of_ne d s ‹_›, eq]

/-- Nothing is done to a record that stays as it is. -/
theorem relinked_of_records {d : Controller} (h : c.record? id = some r)
    (same : d.records = c.records) {e : SupportError} (reason : ∀ fe, e ≠ .shared (.field fe)) :
    Relinked c id r (d, .error e) := by
  refine ⟨r, fun j => ?_, rfl, .unlinked rfl reason rfl⟩
  have eq : d.record? j = c.record? j := by simp [record?, same]
  split
  · subst j
    exact eq.trans h
  · exact eq

theorem connect_of_registers {s : Scalar} (h : c.record? id = some r)
    (body : r.body = .scalar .registers s) : c.connect id = c.connectRegister id r s := by
  simp only [connect, h, body]

theorem connect_of_shared {s : Scalar} (h : c.record? id = some r)
    (body : r.body = .scalar .shared s) : c.connect id = c.connectVariable id r s := by
  simp only [connect, h, body]

/-- A record whose link names a register is connected to it. -/
theorem connectRegister_of_named (id : RecordId) (s : Scalar) {b : Register.Binding}
    (named : (Register.resolve c.catalogue r.link).1 = .ok b) :
    ∃ catalogue, c.connectRegister id r s =
      (({ c with catalogue } : Controller).setRecord id
          (Register.connect { b with owner := r.common.handle } s r c.registers).1,
        .ok (Register.connect { b with owner := r.common.handle } s r c.registers).2) := by
  rcases hf : Register.resolve c.catalogue r.link with ⟨found, catalogue⟩
  obtain rfl : found = .ok b := by rw [← named, hf]
  simp only [connectRegister, Register.resolveFor, hf]
  exact ⟨catalogue, rfl⟩

/-- A record whose link names no register is marked active. -/
theorem connectRegister_of_error (id : RecordId) (s : Scalar) {e : Register.LinkError}
    (failed : (Register.resolve c.catalogue r.link).1 = .error e) :
    ∃ catalogue, c.connectRegister id r s =
      (({ c with catalogue } : Controller).setRecord id (r.setActive true), .error (.link e)) := by
  rcases hf : Register.resolve c.catalogue r.link with ⟨found, catalogue⟩
  obtain rfl : found = .error e := by rw [← failed, hf]
  simp only [connectRegister, Register.resolveFor, hf]
  exact ⟨catalogue, rfl⟩

/-- A record whose link names a variable is connected to it, and the variable stays as it is. -/
theorem connectVariable_of_named (id : RecordId) {s : Scalar} {b : Variable.Binding} {v : Variable}
    (named : (c.resolveVariable r.link r (.ofScalar s)).2 = .ok (b, v)) :
    ∃ catalogue, c.connectVariable id r s =
      (({ c with catalogue } : Controller).setRecord id (Variable.connect b s r v).record,
        (Variable.connect b s r v).result.mapError .shared) := by
  obtain ⟨groups, same⟩ := resolveVariable_eq c r.link r (.ofScalar s)
  refine ⟨{ c.catalogue with groups }, ?_⟩
  rcases hf : c.resolveVariable r.link r (.ofScalar s) with ⟨d, found⟩
  obtain rfl : found = .ok (b, v) := by rw [← named, hf]
  obtain rfl : d = { c with catalogue := { c.catalogue with groups } } := by rw [← same, hf]
  simp only [connectVariable, hf, Variable.target_connect, setVariable_of_resolveVariable hf]

theorem relinked_connectRegister (h : c.record? id = some r) (s : Scalar) :
    Relinked c id r (c.connectRegister id r s) := by
  have there : (c.record? id).isSome := by simp [h]
  rcases named : (Register.resolve c.catalogue r.link).1 with e | b
  · obtain ⟨catalogue, failed⟩ := connectRegister_of_error id s named
    rw [failed]
    exact ⟨_, record?_setRecord_of_records there rfl _, rfl, .unlinked rfl (by simp) rfl⟩
  · obtain ⟨catalogue, connected⟩ := connectRegister_of_named id s named
    have same := Register.skeleton_connect { b with owner := r.common.handle } s r c.registers
    rw [connected]
    refine ⟨_, record?_setRecord_of_records there rfl _, Record.outline_of_bind same, ?_⟩
    exact .connected rfl (by simp [Record.binding_of_bind same])

theorem relinked_connectVariable (h : c.record? id = some r) (s : Scalar) :
    Relinked c id r (c.connectVariable id r s) := by
  have there : (c.record? id).isSome := by simp [h]
  rcases named : (c.resolveVariable r.link r (.ofScalar s)).2 with e | ⟨b, v⟩
  · have records := records_resolveVariable c r.link r (.ofScalar s)
    have reason := resolveVariable_ne_field named
    rcases hf : c.resolveVariable r.link r (.ofScalar s) with ⟨d, found⟩
    rw [hf] at records named
    obtain rfl : found = .error e := named
    simp only [connectVariable, hf]
    exact ⟨_, record?_setRecord_of_records there records _, rfl,
      .unlinked rfl (fun fe he => reason fe (SupportError.shared.inj he)) rfl⟩
  · obtain ⟨catalogue, connected⟩ := connectVariable_of_named id named
    have same := Variable.skeleton_connect b s r v
    have bound : (Variable.connect b s r v).record.common.binding ≠ .unbound := by
      simp [Record.binding_of_bind same]
    rw [connected]
    refine ⟨_, record?_setRecord_of_records there rfl _, Record.outline_of_bind same, ?_⟩
    -- The record is connected by now, whatever comes of the value.
    cases result : (Variable.connect b s r v).result with
    | error e =>
      obtain ⟨fe, rfl⟩ := Variable.connect_eq_error result
      exact .unloaded rfl bound
    | ok status => exact .connected rfl bound

theorem relinked_connectArchive (h : c.record? id = some r) {archive : ArchiveId}
    (body : ∃ a, r.body = .array archive a) :
    Relinked c id r (c.connectArchive id r archive) := by
  have there : (c.record? id).isSome := by simp [h]
  have records : ∀ v, (c.setTarget r (.vault v)).records = c.records := fun v => by
    unfold setTarget; split <;> rfl
  unfold connectArchive
  split
  · exact relinked_of_records h rfl (by simp)
  · rename_i a found
    rcases Archive.connect_cases archive r ⟨a, c.files⟩ body with ⟨e, failed⟩ | ⟨b, ok, same⟩
    · rw [failed]
      refine ⟨r, record?_setRecord_of_records there (records _) r, rfl, ?_⟩
      exact .unlinked rfl (by simp) rfl
    · refine ⟨_, record?_setRecord_of_records there (records _) _, Record.outline_of_bind same, ?_⟩
      exact .connected (by simp only [ok]; rfl) (by simp [Record.binding_of_bind same])

/-- **Connecting a record changes at most what it is connected to.**  If it fails, the
record is connected to what it was connected to before, unless it was the value of its
variable that could not be loaded. -/
theorem relinked_connect (h : c.record? id = some r) : Relinked c id r (c.connect id) := by
  unfold connect
  rw [h]
  dsimp only
  split
  · exact relinked_connectRegister h _
  · exact relinked_connectVariable h _
  · rename_i archive a body
    exact relinked_connectArchive h ⟨a, body⟩

end Connect

/-! ## Initialising -/

@[simp] theorem records_joinScanList (c : Controller) (id : RecordId) :
    (c.joinScanList id).records = c.records := by
  unfold joinScanList
  split
  · rfl
  · split
    · split <;> rfl
    · rfl

@[simp] theorem vars_joinScanList (c : Controller) (id : RecordId) :
    (c.joinScanList id).vars = c.vars := by
  unfold joinScanList
  split
  · rfl
  · split
    · split <;> rfl
    · rfl

@[simp] theorem registers_joinScanList (c : Controller) (id : RecordId) :
    (c.joinScanList id).registers = c.registers := by
  unfold joinScanList
  split
  · rfl
  · split
    · split <;> rfl
    · rfl

theorem keeps_skeleton_processInitially (c : Controller) (id : RecordId) :
    Keeps Record.skeleton c (c.processInitially id) := by
  unfold processInitially
  split
  · exact .refl c
  · split
    · exact keeps_skeleton_process c id
    · exact .refl c

theorem Relinked.keeps {c : Controller} {id : RecordId} {r : Record}
    {after : Controller × Except SupportError Transfer} (h : Relinked c id r after)
    (hr : c.record? id = some r) : Keeps Record.outline c after.1 := by
  obtain ⟨s, records, outline, -⟩ := h
  intro j
  rw [records j]
  split
  · subst j
    rw [hr, Option.map_some, Option.map_some, outline]
  · rfl

section Initialise
variable {c : Controller} {id : RecordId} {r : Record}

/-- A record that could be connected is put on its scan list and processed if it is to be. -/
theorem initialise_of_connect (h : c.record? id = some r) {d : Controller} {s : Record}
    {status : Transfer}
    (connected : (c.setRecord id r.sized).connect id = (d, .ok status))
    (there : d.record? id = some s) :
    c.initialise id =
      (((d.setRecord id (s.connected status)).joinScanList id).processInitially id, .ok ()) := by
  simp only [initialise, h, connected, there]

/-- An idle record is processed when it is initialised if it is to be. -/
theorem processInitially_of_idle (h : c.record? id = some r) (idle : r.common.active = false) :
    c.processInitially id = if r.common.initProcess then c.process id else c := by
  simp [processInitially, h, idle]

/-- **Initialising keeps the outline of every record.** -/
theorem keeps_outline_initialise (c : Controller) (id : RecordId) :
    Keeps Record.outline c (c.initialise id).1 := by
  unfold initialise
  split
  · exact .refl c
  · rename_i r h
    have sized : Keeps Record.outline c (c.setRecord id r.sized) :=
      .setRecord h (Record.outline_of_skeleton r.skeleton_sized)
    have there : (c.setRecord id r.sized).record? id = some r.sized :=
      record?_setRecord_of_some h _
    have connected := sized.trans ((relinked_connect there).keeps there)
    split
    · rename_i d e hd
      rw [hd] at connected
      split
      · rename_i s hs
        exact connected.trans (.setRecord hs rfl)
      · exact connected
    · rename_i d status hd
      rw [hd] at connected
      split
      · rename_i s hs
        have marked : Keeps Record.outline d (d.setRecord id (s.connected status)) :=
          .setRecord hs (Record.outline_of_skeleton (s.skeleton_connected status))
        exact ((connected.trans marked).trans (keeps_of_records (records_joinScanList _ id))).trans
          ((keeps_skeleton_processInitially _ id).told (Record.bind · .unbound))
      · exact connected

end Initialise

/-- Connecting a record replaces no other. -/
theorem record?_connect_of_ne (c : Controller) {id j : RecordId} (h : j ≠ id) :
    (c.connect id).1.record? j = c.record? j := by
  cases hr : c.record? id with
  | none => simp [connect, hr]
  | some r =>
    obtain ⟨_, records, -, -⟩ := relinked_connect hr
    rw [records, if_neg h]

theorem record?_processInitially_of_ne (c : Controller) {id j : RecordId} (h : j ≠ id) :
    (c.processInitially id).record? j = c.record? j := by
  unfold processInitially
  split
  · rfl
  · split
    · exact record?_process_of_ne c h
    · rfl

/-- Initialising a record replaces no other. -/
theorem record?_initialise_of_ne (c : Controller) {id j : RecordId} (h : j ≠ id) :
    (c.initialise id).1.record? j = c.record? j := by
  cases hr : c.record? id with
  | none => simp [initialise, hr]
  | some r =>
    have connected : ((c.setRecord id r.sized).connect id).1.record? j = c.record? j :=
      (record?_connect_of_ne _ h).trans (record?_setRecord_of_ne c _ h)
    simp only [initialise, hr]
    split
    · rename_i d e hd
      rw [hd] at connected
      split
      · rw [record?_setRecord_of_ne d _ h, connected]
      · exact connected
    · rename_i d status hd
      rw [hd] at connected
      split
      · rename_i s hs
        have joined : ((d.setRecord id (s.connected status)).joinScanList id).record? j =
            c.record? j := by
          rw [record?, records_joinScanList]
          exact (record?_setRecord_of_ne d _ h).trans connected
        exact (record?_processInitially_of_ne _ h).trans joined
      · exact connected

/-! ## Records know themselves -/

/-- Without records there is none that could know another. -/
theorem ownHandles_of_records_eq_nil {c : Controller} (h : c.records = []) : c.OwnHandles := by
  intro id r handle hr
  simp [record?, h] at hr

/-- A record that is taken into care gets the next place, and the others keep theirs. -/
theorem record?_adopt (c : Controller) (r : Record) (scheduler : Option SchedulerId)
    (j : RecordId) : (c.adopt r scheduler).2.record? j =
      if j = (c.adopt r scheduler).1 then
        some (r.withCommon ({ · with handle := some (c.adopt r scheduler).1, scheduler }))
      else c.record? j := by
  obtain ⟨i⟩ := j
  simp only [adopt, record?, List.getElem?_append, RecordId.mk.injEq]
  by_cases old : i < c.records.length
  · rw [if_pos old, if_neg (by omega)]
  · rw [if_neg old]
    by_cases last : i = c.records.length
    · simp [last]
    · rw [if_neg last, List.getElem?_eq_none (l := c.records) (by omega),
        List.getElem?_eq_none (by simp only [List.length_singleton]; omega)]

/-- A record that is taken into care is told its own identity. -/
theorem OwnHandles.adopt {c : Controller} (own : c.OwnHandles) (r : Record)
    (scheduler : Option SchedulerId) : (c.adopt r scheduler).2.OwnHandles := by
  intro id s handle hs hh
  rw [record?_adopt] at hs
  split at hs
  · subst id
    obtain rfl := Option.some.inj hs
    exact (Option.some.inj hh).symm
  · exact own id s handle hs hh

theorem OwnHandles.initialise {c : Controller} (own : c.OwnHandles) (id : RecordId) :
    (c.initialise id).1.OwnHandles :=
  ((keeps_outline_initialise c id).told (·.common.handle)).ownHandles own

end Controller

end ControlRecords
