import ControlRecords.Proofs.MaskedWrites
import ControlRecords.Proofs.Startup

/-! # Startup of records that share a word

Whether a record owns bits of what it writes to is settled by its type and its mask, and
connecting it leaves it idle and the owner of some bits.  So a record that has been
initialised has its part of the word that it was connected to (`partOf_initialise`), and
initialising others later does not change that. -/
namespace ControlRecords

namespace Scalar
variable (s : Scalar)

@[simp] theorem merges_sized : s.sized.merges = s.merges := by cases s <;> rfl

@[simp] theorem merges_placed : s.placed.merges = s.merges := by cases s <;> rfl

@[simp] theorem merges_ofRaw : s.ofRaw.merges = s.merges := by cases s <;> rfl

@[simp] theorem merges_setWord (w : UInt32) : (s.setWord w).merges = s.merges := by
  cases s <;> rfl

@[simp] theorem merges_noteReadBack (w : UInt32) : (s.noteReadBack w).merges = s.merges := by
  cases s <;> rfl

@[simp] theorem merges_receive (w : UInt32) : (s.receive w).merges = s.merges := by
  cases s <;> rfl

end Scalar

namespace Record.Masked
variable {r : Record} {support : ScalarSupport}

theorem mapScalar (h : r.Masked support) {g : Scalar → Scalar}
    (hg : ∀ s, (g s).merges = s.merges) : (r.mapScalar g).Masked support := by
  obtain ⟨idle, s, body, merges⟩ := h
  refine ⟨idle, g s, ?_, (hg s).trans merges⟩
  simp [Record.mapScalar, body, Body.mapScalar]

theorem withCommon (h : r.Masked support) {g : Common → Common}
    (hg : ∀ c, (g c).active = c.active) : (r.withCommon g).Masked support :=
  ⟨(hg r.common).trans h.idle, h.body⟩

theorem put {q : Record} {v : Value} (h : r.Masked support) (put : r.put .rval v = .ok q) :
    q.Masked support := by
  obtain ⟨idle, s, body, merges⟩ := h
  simp only [Record.put, body, Body.type?, Scalar.type?_rval merges] at put
  split at put
  · rename_i w _
    obtain rfl := Except.ok.inj put
    have same : (s.set .rval w).merges = s.merges := by cases s <;> cases w <;> rfl
    exact ⟨idle, s.set .rval w, rfl, same.trans merges⟩
  · contradiction

theorem inherit (h : r.Masked support) (v : Variable) : (Variable.inherit r v).Masked support :=
  ⟨(Variable.active_inherit r v).trans h.idle, h.body⟩

theorem connected (h : r.Masked support) (status : Transfer) :
    (r.connected status).Masked support := by
  obtain ⟨idle, s, body, merges⟩ := h
  unfold Record.connected
  split
  · split
    · refine ⟨idle, s.ofRaw, ?_, s.merges_ofRaw.trans merges⟩
      simp [setUndefined, Record.withCommon, body, Body.ofRaw, Body.mapScalar]
    · exact ⟨idle, s, body, merges⟩
  · exact ⟨idle, s, body, merges⟩

end Record.Masked

/-! ## What the supports do -/

namespace Register
variable {r : Record} {support : ScalarSupport}

theorem masked_readBack (h : r.Masked support) (b : Binding) (take : Scalar → UInt32 → Scalar)
    (ht : ∀ s w, (take s w).merges = s.merges) (t : Registers) :
    (readBack b take r t).Masked support := by
  unfold readBack
  split
  · exact h.mapScalar fun s => ht s _
  · exact h.withCommon fun _ => rfl

theorem masked_connect (h : r.Masked support) {s : Scalar} (own : s.merges = true) (b : Binding)
    (t : Registers) : (connect b s r t).1.Masked support := by
  have bound : (r.bind (.toRegister b)).Masked support := ⟨h.idle, h.body⟩
  have settled : ∀ {q : Record}, q.Masked support →
      (q.withCommon Common.promoteAlarms).Masked support := fun h => h.withCommon fun _ => rfl
  cases s with
  | bo _ =>
    simp only [connect]
    split
    · exact bound
    · exact settled (masked_readBack bound b _ (fun s w => s.merges_receive w) t)
  | mbbo _ _ =>
    have placed := bound.mapScalar Scalar.merges_placed
    have read := masked_readBack placed b (fun s w => (s.setWord w).noteReadBack w)
      (fun s w => by simp) t
    have masked := read.mapScalar fun s => s.merges_setWord (s.word &&& s.mask)
    simp only [connect]
    split
    · exact masked
    · exact settled masked
  | _ => simp [Scalar.merges] at own

end Register

namespace Variable
variable {r : Record} {support : ScalarSupport} {b : Binding}

theorem masked_connectOutput (h : r.Masked support) (field : b.field = .rval) (v : Variable) :
    (connectOutput b r v).record.Masked support := by
  have bound : (r.bind (.toVariable b)).Masked support := ⟨h.idle, h.body⟩
  have taken : (takeIn false b (r.bind (.toVariable b)) v).record.Masked support := by
    cases put : (r.bind (.toVariable b)).put b.field v.value with
    | error e =>
      simp only [takeIn, put]
      exact (bound.inherit v).withCommon fun _ => rfl
    | ok q =>
      rw [field] at put
      have loaded := (bound.put put).inherit v
      simp only [takeIn, field, put]
      split
      · exact ⟨loaded.idle, loaded.body⟩
      · exact loaded
  unfold connectOutput
  dsimp only
  split
  · exact bound
  · split
    · exact taken.withCommon fun _ => rfl
    · exact taken

theorem masked_connect (h : r.Masked support) {s : Scalar} (own : s.merges = true)
    (field : b.field = .rval) (v : Variable) : (connect b s r v).record.Masked support := by
  have output := masked_connectOutput h field v
  have masked : ∀ {q : Record}, q.Masked support → (maskRaw q).Masked support := fun h =>
    h.mapScalar fun s => by split <;> simp
  cases s with
  | bo _ =>
    simp only [connect]
    split
    · exact output
    · split
      · exact output
      · exact masked output
  | mbbo _ _ =>
    simp only [connect]
    split
    · exact output
    · have noted := (Record.Masked.mapScalar output Scalar.merges_placed).mapScalar
        fun s => s.merges_noteReadBack s.word
      split
      · exact noted
      · exact masked noted
  | _ => simp [Scalar.merges] at own

/-- A record that owns some bits has no choice of what it moves. -/
theorem Choice.ofScalar_of_merges {s : Scalar} (own : s.merges = true) :
    ofScalar s = ⟨"RVAL", none⟩ := by
  cases s <;> simp_all [Scalar.merges, ofScalar]

/-- A record that owns some bits is connected to a variable through its raw value. -/
theorem field_of_resolve {t : GroupTable} {setting : Option String} {link : Link} {s : Scalar}
    (own : s.merges = true) (h : (resolve t setting link r (.ofScalar s)).1 = .ok b) :
    b.field = .rval := by
  have name : Field.ofText? "RVAL" = some .rval := by decide
  obtain ⟨⟨signal, flags⟩, field⟩ := resolve_eq_ok h
  rw [Choice.ofScalar_of_merges own] at flags field
  have named : Choice.fieldName ⟨"RVAL", none⟩ b.flags = "RVAL" := by
    rw [flags]
    rfl
  rw [named, name] at field
  exact (Option.some.inj field).symm

end Variable

/-! ## In a controller -/

namespace Controller

/-- The record is there with bits of its own, and if it is connected to a variable then
through its raw value; the variables are what they were. -/
structure Prepared (c d : Controller) (id : RecordId) (support : ScalarSupport) : Prop where
  record : ∃ s, d.record? id = some s ∧ s.Masked support ∧
    ∀ b, s.common.binding = .toVariable b → b.field = .rval
  vars : d.vars = c.vars

section Connect
variable {c d : Controller} {id : RecordId} {r : Record} {s : Scalar}

theorem field_of_resolveVariable {link : Link} {b : Variable.Binding} {v : Variable}
    (own : s.merges = true) (h : (c.resolveVariable link r (.ofScalar s)).2 = .ok (b, v)) :
    b.field = .rval :=
  Variable.field_of_resolve own (resolveVariable_eq_ok h).1

theorem prepared_connectRegister (h : c.record? id = some r) (masked : r.Masked .registers)
    (own : s.merges = true) {status : Transfer}
    (ok : (c.connectRegister id r s).2 = .ok status) :
    Prepared c (c.connectRegister id r s).1 id .registers := by
  rcases named : (Register.resolve c.catalogue r.link).1 with e | b
  · obtain ⟨_, failed⟩ := connectRegister_of_error id s named
    simp [failed] at ok
  · obtain ⟨catalogue, connected⟩ := connectRegister_of_named id s named
    have same := Register.skeleton_connect { b with owner := r.common.handle } s r c.registers
    have masked' := Register.masked_connect masked own { b with owner := r.common.handle }
      c.registers
    rw [connected]
    refine ⟨⟨_, record?_setRecord_self _ _ _ ?_, masked', ?_⟩, rfl⟩
    · simpa [record?] using congrArg Option.isSome h
    · simp [Record.binding_of_bind same]

theorem prepared_connectVariable (h : c.record? id = some r) (masked : r.Masked .shared)
    (own : s.merges = true) {status : Transfer}
    (ok : (c.connectVariable id r s).2 = .ok status) :
    Prepared c (c.connectVariable id r s).1 id .shared := by
  have records := records_resolveVariable c r.link r (.ofScalar s)
  have vars := vars_resolveVariable c r.link r (.ofScalar s)
  unfold connectVariable at ok ⊢
  split at ok
  · contradiction
  · rename_i d b v found
    have field := field_of_resolveVariable own (congrArg Prod.snd found)
    rw [found] at records vars
    have same := Variable.skeleton_connect b s r v
    have records' : d.records = c.records := records
    have there : (d.record? id).isSome := by
      rw [record?, records']
      exact congrArg Option.isSome h
    have masked' := Variable.masked_connect masked own field v
    dsimp only
    rw [Variable.target_connect, setVariable_of_resolveVariable found]
    refine ⟨⟨_, record?_setRecord_self _ _ _ there, masked', ?_⟩, vars⟩
    intro b' hb'
    obtain rfl := Binding.toVariable.inj ((Record.binding_of_bind same).symm.trans hb')
    exact field

theorem prepared_connect {support : ScalarSupport} (h : c.record? id = some r)
    (masked : r.Masked support) {status : Transfer} (ok : (c.connect id).2 = .ok status) :
    Prepared c (c.connect id).1 id support := by
  obtain ⟨s, body, own⟩ := masked.body
  cases support with
  | registers =>
    rw [connect_of_registers h body] at ok ⊢
    exact prepared_connectRegister h masked own ok
  | shared =>
    rw [connect_of_shared h body] at ok ⊢
    exact prepared_connectVariable h masked own ok

/-- An initialised record was prepared, and then it made a pass if it was to make one. -/
theorem prepared_initialise {support : ScalarSupport} (h : c.record? id = some r)
    (masked : r.Masked support) (ok : c.initialise id = (d, .ok ())) :
    ∃ e, Prepared c e id support ∧ d = e.processInitially id := by
  have there : (c.setRecord id r.sized).record? id = some r.sized :=
    record?_setRecord_of_some h _
  simp only [initialise, h] at ok
  split at ok
  · split at ok <;> simp at ok
  · rename_i f status connected
    obtain ⟨⟨s, hs, masked', field⟩, vars⟩ :=
      prepared_connect there (masked.mapScalar Scalar.merges_sized)
        (congrArg Prod.snd connected)
    rw [connected] at hs vars
    simp only [hs, Prod.mk.injEq, and_true] at ok
    refine ⟨_, ⟨⟨s.connected status, ?_, masked'.connected status, ?_⟩, ?_⟩, ok.symm⟩
    · have placed : (f.setRecord id (s.connected status)).record? id =
          some (s.connected status) :=
        record?_setRecord_of_some hs _
      simpa [record?] using placed
    · have same := Record.binding_of_skeleton (s.skeleton_connected status)
      intro b hb
      exact field b (same.symm.trans hb)
    · rw [vars_joinScanList]
      exact vars

end Connect

/-- What the record is connected to is the word, for writing at once. -/
def ConnectedTo (b : Binding) : Word → Prop
  | .register address method =>
    ∃ x, b = .toRegister x ∧ x.address = address ∧ x.access = .builtin method
  | .shared v => ∃ x, b = .toVariable x ∧ x.target = v ∧ x.flags.asynchronous = false

/-- **An initialised record has its part of the word that it is connected to.** -/
theorem partOf_initialise {c d : Controller} {id : RecordId} {r s : Record} {word : Word}
    (h : c.record? id = some r) (masked : r.Masked word.support) (present : word.Present c)
    (ok : c.initialise id = (d, .ok ())) (hs : d.record? id = some s)
    (connected : ConnectedTo s.common.binding word) :
    d.PartOf id word s.body.mask ∧ word.Present d := by
  obtain ⟨e, ⟨⟨q, hq, masked', field⟩, vars⟩, rfl⟩ := prepared_initialise h masked ok
  have present' : word.Present e := by
    cases word with
    | register _ _ => exact present
    | shared v => simpa [Word.Present, variableAt?, vars] using present
  have binding : s.common.binding = q.common.binding := by
    obtain ⟨s', hs', same⟩ := (keeps_skeleton_processInitially e id).record hq
    obtain rfl := Option.some.inj (hs.symm.trans hs')
    exact Record.binding_of_skeleton same
  have reaches : q.Reaches word := by
    cases word with
    | register _ _ =>
      obtain ⟨b, bound, rest⟩ := connected
      exact ⟨b, binding.symm.trans bound, rest⟩
    | shared _ =>
      obtain ⟨b, bound, target, synchronous⟩ := connected
      have bound' := binding.symm.trans bound
      exact ⟨b, bound', target, field b bound', synchronous⟩
  have part : e.PartOf id word q.body.mask := ⟨q, hq, masked', reaches, rfl⟩
  -- If the record makes a pass at once, that is a pass on its word already.
  have after : (e.processInitially id).PartOf id word q.body.mask ∧
      word.Present (e.processInitially id) := by
    unfold processInitially
    split
    · exact ⟨part, present'⟩
    · split
      · obtain ⟨part', present'', -⟩ := part.process present'
        exact ⟨part', present''⟩
      · exact ⟨part, present'⟩
  obtain ⟨⟨s', hs', masked'', reaches', mask⟩, there⟩ := after
  obtain rfl := Option.some.inj (hs.symm.trans hs')
  exact ⟨⟨s, hs, masked'', reaches', rfl⟩, there⟩

/-- Initialising another record later takes nothing of it away. -/
theorem PartOf.initialise_of_ne {c : Controller} {id other : RecordId} {word : Word}
    {mask : UInt32} (h : c.PartOf id word mask) (apart : id ≠ other) :
    (c.initialise other).1.PartOf id word mask :=
  h.of_record (record?_initialise_of_ne c apart)

end Controller

end ControlRecords
