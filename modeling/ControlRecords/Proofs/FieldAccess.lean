import ControlRecords.Controller.Processing
import ControlRecords.Proofs.Locality

/-! # Fields by name

Three functions go by the name of a field: one tells its type, one its value, and one writes it.
Each type of record has a table for its own fields, which the three functions read separately,
and behind it they fall back to the fields that every record has.  What the tables have to agree
on is said once (`Tabled`), and shown of the tables of numbers, states, bits and arrays, from
which the tables of all record types are put together.  With it an attempt to write a field has
four endings, each for a reason that the others exclude (`Record.ending_putField`). -/
namespace ControlRecords

/-- A table of fields: the type of a field is that of its value, what is written to a field is
found there, all other fields are left alone, and writing what is there changes nothing. -/
structure Tabled {σ : Type} (type? : σ → Field → Option DataType)
    (get? : σ → Field → Option Value) (set : σ → Field → Value → σ) : Prop where
  type_eq : ∀ s f, type? s f = (get? s f).map Value.type
  get?_set : ∀ s f v, type? s f = some v.type → get? (set s f v) f = some v
  get?_set_of_ne : ∀ s f v g, g ≠ f → get? (set s f v) g = get? s g
  set_get? : ∀ s f v, get? s f = some v → set s f v = s

/-! ## The tables -/

theorem Analog.tabled : Tabled (fun _ => Analog.type?) Analog.get? Analog.set where
  type_eq a f := by cases f <;> rfl
  get?_set a f v typed := by
    cases f <;> cases v <;> simp [type?, Value.type] at typed <;> rfl
  get?_set_of_ne a f v g ne := by
    unfold set
    split <;> cases g <;> simp_all [get?]
  set_get? a f v there := by
    cases f <;> simp [get?] at there <;> subst there <;> rfl

theorem Binary.tabled : Tabled (fun _ => Binary.type?) Binary.get? Binary.set where
  type_eq b f := by cases f <;> rfl
  get?_set b f v typed := by
    cases f <;> cases v <;> simp [type?, Value.type] at typed <;> rfl
  get?_set_of_ne b f v g ne := by
    unfold set
    split <;> cases g <;> simp_all [get?]
  set_get? b f v there := by
    cases f <;> simp [get?] at there <;> subst there <;> rfl

theorem MultiBit.tabled : Tabled (fun _ => MultiBit.type?) MultiBit.get? MultiBit.set where
  type_eq m f := by cases f <;> rfl
  get?_set m f v typed := by
    cases f <;> cases v <;> simp [type?, Value.type] at typed <;> rfl
  get?_set_of_ne m f v g ne := by
    unfold set
    split <;> cases g <;> simp_all [get?]
  set_get? m f v there := by
    cases f <;> simp [get?] at there <;> subst there <;> rfl

theorem ArrayFields.tabled :
    Tabled (fun _ => ArrayFields.type?) ArrayFields.get? ArrayFields.set where
  type_eq a f := by cases f <;> rfl
  get?_set a f v typed := by
    cases f <;> cases v <;> simp [type?, Value.type] at typed <;> rfl
  get?_set_of_ne a f v g ne := by
    unfold set
    split <;> cases g <;> simp_all [get?]
  set_get? a f v there := by
    cases f <;> simp [get?] at there <;> subst there <;> rfl

namespace Scalar

section Fields
variable (m : MultiBit) (readBack : UInt32) {n : Int32} {f : Field}

/-- But for the word that was read back, a multi-bit output has the fields of a multi-bit
value. -/
theorem mbbo_of_ne (other : f ≠ .rbv) :
    (mbbo m readBack).type? f = MultiBit.type? f ∧ (mbbo m readBack).get? f = m.get? f ∧
      ∀ v, (mbbo m readBack).set f v = mbbo (m.set f v) readBack :=
  ⟨by simp [type?], by simp [get?], fun v => by simp [set, other]⟩

/-- The word that was read back is written without touching the multi-bit value. -/
theorem mbbo_set_rbv (v : Value) : ∃ w, (mbbo m readBack).set .rbv v = mbbo m w := by
  cases v <;> exact ⟨_, rfl⟩

/-- A record of a whole number has no field but the number. -/
theorem long_of_ne (other : f ≠ .val) :
    ((longin n).get? f = none ∧ ∀ v, (longin n).set f v = longin n) ∧
      (longout n).get? f = none ∧ ∀ v, (longout n).set f v = longout n :=
  ⟨⟨by simp [get?], fun v => by simp [set, other]⟩, by simp [get?], fun v => by simp [set, other]⟩

theorem eq_val_of_long {t : DataType}
    (typed : (longin n).type? f = some t ∨ (longout n).type? f = some t) :
    f = .val ∧ t = .long := by
  cases f <;> simp [type?] at typed
  exact ⟨rfl, typed.symm⟩

theorem long_set_val (v : Value) :
    (∃ k, (longin n).set .val v = longin k) ∧ ∃ k, (longout n).set .val v = longout k := by
  cases v <;> exact ⟨⟨_, rfl⟩, _, rfl⟩

/-- Only a signed number of thirty-two bits has their type. -/
theorem eq_long_of_type {v : Value} (typed : v.type = .long) : ∃ k, v = .long k := by
  cases v with
  | long k => exact ⟨k, rfl⟩
  | _ => contradiction

end Fields

/-- **The tables of all types of scalar records.** -/
theorem tabled : Tabled type? get? set where
  type_eq s f := by
    cases s with
    | ai a | ao a => exact Analog.tabled.type_eq a f
    | bi b | bo b => exact Binary.tabled.type_eq b f
    | mbbi m => exact MultiBit.tabled.type_eq m f
    | mbbo _ _ | longin _ | longout _ => cases f <;> rfl
  get?_set s f v typed := by
    cases s with
    | ai a | ao a => exact Analog.tabled.get?_set a f v typed
    | bi b | bo b => exact Binary.tabled.get?_set b f v typed
    | mbbi m => exact MultiBit.tabled.get?_set m f v typed
    | mbbo m readBack =>
      by_cases own : f = .rbv
      · subst own
        cases v <;> simp [type?, Value.type] at typed
        rfl
      · obtain ⟨type, -, set⟩ := mbbo_of_ne m readBack own
        rw [set, (mbbo_of_ne _ _ own).2.1]
        exact MultiBit.tabled.get?_set m f v (type.symm.trans typed)
    | longin n =>
      obtain ⟨rfl, type⟩ := eq_val_of_long (Or.inl typed)
      obtain ⟨k, rfl⟩ := eq_long_of_type type
      rfl
    | longout n =>
      obtain ⟨rfl, type⟩ := eq_val_of_long (Or.inr typed)
      obtain ⟨k, rfl⟩ := eq_long_of_type type
      rfl
  get?_set_of_ne s f v g ne := by
    cases s with
    | ai a | ao a => exact Analog.tabled.get?_set_of_ne a f v g ne
    | bi b | bo b => exact Binary.tabled.get?_set_of_ne b f v g ne
    | mbbi m => exact MultiBit.tabled.get?_set_of_ne m f v g ne
    | mbbo m readBack =>
      by_cases own : f = .rbv
      · subst own
        obtain ⟨w, written⟩ := mbbo_set_rbv m readBack v
        rw [written, (mbbo_of_ne _ _ ne).2.1, (mbbo_of_ne _ _ ne).2.1]
      · rw [(mbbo_of_ne _ _ own).2.2]
        by_cases beside : g = .rbv
        · subst beside
          rfl
        · rw [(mbbo_of_ne _ _ beside).2.1, (mbbo_of_ne _ _ beside).2.1]
          exact MultiBit.tabled.get?_set_of_ne m f v g ne
    | longin n =>
      by_cases own : f = .val
      · subst own
        obtain ⟨k, written⟩ := (long_set_val (n := n) v).1
        rw [written, (long_of_ne ne).1.1, (long_of_ne ne).1.1]
      · rw [(long_of_ne own).1.2]
    | longout n =>
      by_cases own : f = .val
      · subst own
        obtain ⟨k, written⟩ := (long_set_val (n := n) v).2
        rw [written, (long_of_ne ne).2.1, (long_of_ne ne).2.1]
      · rw [(long_of_ne own).2.2]
  set_get? s f v there := by
    cases s with
    | ai a => exact congrArg ai (Analog.tabled.set_get? a f v there)
    | ao a => exact congrArg ao (Analog.tabled.set_get? a f v there)
    | bi b => exact congrArg bi (Binary.tabled.set_get? b f v there)
    | bo b => exact congrArg bo (Binary.tabled.set_get? b f v there)
    | mbbi m => exact congrArg mbbi (MultiBit.tabled.set_get? m f v there)
    | mbbo m readBack =>
      by_cases own : f = .rbv
      · subst own
        obtain rfl := Option.some.inj there
        rfl
      · obtain ⟨-, get, set⟩ := mbbo_of_ne m readBack own
        rw [set, MultiBit.tabled.set_get? m f v (get.symm.trans there)]
    | longin n =>
      by_cases own : f = .val
      · subst own
        obtain rfl := Option.some.inj there
        rfl
      · exact (long_of_ne own).1.2 v
    | longout n =>
      by_cases own : f = .val
      · subst own
        obtain rfl := Option.some.inj there
        rfl
      · exact (long_of_ne own).2.2 v

end Scalar

/-- The elements of an array; none for a single value. -/
def Body.elements : Body → List UInt32
  | .scalar _ _ => []
  | .array _ a => a.values

namespace Body

theorem tabled : Tabled type? get? set where
  type_eq b f := by
    cases b with
    | scalar _ s => exact Scalar.tabled.type_eq s f
    | array _ a => exact ArrayFields.tabled.type_eq a f
  get?_set b f v typed := by
    cases b with
    | scalar _ s => exact Scalar.tabled.get?_set s f v typed
    | array _ a => exact ArrayFields.tabled.get?_set a f v typed
  get?_set_of_ne b f v g ne := by
    cases b with
    | scalar _ s => exact Scalar.tabled.get?_set_of_ne s f v g ne
    | array _ a => exact ArrayFields.tabled.get?_set_of_ne a f v g ne
  set_get? b f v there := by
    cases b with
    | scalar support s => exact congrArg (scalar support) (Scalar.tabled.set_get? s f v there)
    | array archive a => exact congrArg (array archive) (ArrayFields.tabled.set_get? a f v there)

/-- The elements are behind no field. -/
theorem elements_set (b : Body) (f : Field) (v : Value) : (b.set f v).elements = b.elements := by
  cases b with
  | scalar _ _ => rfl
  | array _ a => exact a.values_set f v

/-- No table has a field that every record has. -/
theorem type?_of_common {f : Field} (shared : f.commonType?.isSome) (b : Body) :
    b.type? f = none := by
  cases b with
  | scalar _ s => cases f <;> simp [Field.commonType?] at shared <;> cases s <;> rfl
  | array _ a => cases f <;> simp [Field.commonType?] at shared <;> rfl

end Body

/-! ## The names -/

namespace Field

/-- The names of the fields that every record has. -/
def commonNames : List String :=
  ["NAME", "PACT", "UDF", "PINI", "STAT", "SEVR", "NSTA", "NSEV"]

theorem text_mem_commonNames (f : Field) : f.text ∈ commonNames ↔ f.commonType?.isSome := by
  cases f <;> decide

theorem mem_commonNames_iff {name : String} :
    name ∈ commonNames ↔ ∃ f, ofText? name = some f ∧ f.commonType?.isSome := by
  constructor
  · intro listed
    have texts : commonNames = [Field.name, pact, udf, pini, stat, sevr, nsta, nsev].map text := rfl
    obtain ⟨f, -, rfl⟩ := List.mem_map.1 (texts ▸ listed)
    exact ⟨f, ofText?_text f, (text_mem_commonNames f).1 listed⟩
  · rintro ⟨f, named, shared⟩
    exact text_of_ofText? named ▸ (text_mem_commonNames f).2 shared

theorem type_eq_of_common (f : Field) (c : Common) :
    f.commonType? = (c.get? f).map Value.type := by
  cases f <;> rfl

end Field

namespace Record
variable {r s : Record} {name : String} {f : Field} {v w : Value}

theorem type?_eq (r : Record) (f : Field) : r.type? f = (r.get? f).map Value.type := by
  unfold type? get?
  rw [Body.tabled.type_eq, f.type_eq_of_common r.common]
  cases r.body.get? f <;> rfl

theorem fieldType?_eq (r : Record) (name : String) :
    r.fieldType? name = (r.getField? name).map Value.type := by
  unfold fieldType? getField?
  cases Field.ofText? name with
  | none => rfl
  | some f => exact r.type?_eq f

/-- Every record has the fields that all have. -/
theorem isSome_fieldType? (listed : name ∈ Field.commonNames) (r : Record) :
    (r.fieldType? name).isSome := by
  obtain ⟨f, named, shared⟩ := Field.mem_commonNames_iff.1 listed
  simpa [fieldType?, named, type?, Body.type?_of_common shared] using shared

/-- Nothing can be told apart in two records but the field with a name. -/
structure SameBut (name : String) (r s : Record) : Prop where
  common : s.common = r.common
  link : s.link = r.link
  kind : s.body.skeleton = r.body.skeleton
  elements : s.body.elements = r.body.elements
  others : ∀ g, g ≠ name → s.getField? g = r.getField? g

/-- A field of the record's own, set to a value of its type. -/
theorem getField?_set {t : DataType} (named : Field.ofText? name = some f)
    (own : r.body.type? f = some t) (typed : v.type = t) :
    { r with body := r.body.set f v }.getField? name = some v := by
  subst typed
  simp [getField?, named, get?, Body.tabled.get?_set r.body f v own]

theorem sameBut_set (named : Field.ofText? name = some f) (v : Value) :
    r.SameBut name { r with body := r.body.set f v } where
  common := rfl
  link := rfl
  kind := Body.skeleton_set r.body f v
  elements := r.body.elements_set f v
  others g ne := by
    unfold getField?
    cases other : Field.ofText? g with
    | none => rfl
    | some g' =>
      have apart : g' ≠ f := by
        rintro rfl
        exact ne ((Field.text_of_ofText? other).symm.trans (Field.text_of_ofText? named))
      simp [get?, Body.tabled.get?_set_of_ne r.body f v g' apart]

/-! ## Writing -/

/-- How an attempt to write a field ends: there is no such field, the field is one that every
record has, the value cannot be converted to its type, or the field is written. -/
inductive Ending (r : Record) (name : String) (v : Value) : Except FieldError Record → Prop where
  | absent (none : r.fieldType? name = none) : Ending r name v (.error (.noSuchField name))
  | readOnly (listed : name ∈ Field.commonNames) : Ending r name v (.error (.readOnly name))
  | unconverted {t : DataType} {e : ConvertError} (own : name ∉ Field.commonNames)
      (typed : r.fieldType? name = some t) (failed : v.convert t = .error e) :
      Ending r name v (.error (.convert e))
  | written {t : DataType} {w : Value} {s : Record} (own : name ∉ Field.commonNames)
      (typed : r.fieldType? name = some t) (converted : v.convert t = .ok w)
      (here : s.getField? name = some w) (rest : r.SameBut name s) : Ending r name v (.ok s)

theorem ending_putField (r : Record) (name : String) (v : Value) :
    r.Ending name v (r.putField name v) := by
  unfold putField
  cases named : Field.ofText? name with
  | none => exact .absent (by simp [fieldType?, named])
  | some f =>
    obtain rfl := Field.text_of_ofText? named
    dsimp only [put]
    cases own : r.body.type? f with
    | none =>
      cases shared : f.commonType? with
      | none => exact .absent (by simp [fieldType?, named, type?, own, shared])
      | some _ => exact .readOnly ((Field.text_mem_commonNames f).2 (by simp [shared]))
    | some t =>
      have apart : f.text ∉ Field.commonNames := fun listed => by
        have := Body.type?_of_common ((Field.text_mem_commonNames f).1 listed) r.body
        simp [own] at this
      have typed : r.fieldType? f.text = some t := by simp [fieldType?, named, type?, own]
      cases converted : v.convert t with
      | error e =>
        simp only [converted]
        exact .unconverted apart typed converted
      | ok w =>
        simp only [converted]
        exact .written apart typed converted
          (getField?_set named own (Value.type_convert converted)) (sameBut_set named w)

/-! ## Why a write fails -/

theorem putField_eq_noSuchField_iff {n : String} :
    r.putField name v = .error (.noSuchField n) ↔ n = name ∧ r.fieldType? name = none := by
  have ends := r.ending_putField name v
  generalize r.putField name v = result at ends ⊢
  cases ends with
  | absent none => simp [none, eq_comm]
  | readOnly listed => simp [Option.isSome_iff_ne_none.1 (isSome_fieldType? listed r)]
  | unconverted _ typed _ | written _ typed _ _ _ => simp [typed]

theorem putField_eq_readOnly_iff {n : String} :
    r.putField name v = .error (.readOnly n) ↔ n = name ∧ name ∈ Field.commonNames := by
  have ends := r.ending_putField name v
  generalize r.putField name v = result at ends ⊢
  cases ends with
  | absent none =>
    have own : name ∉ Field.commonNames := fun listed => by
      simpa [none] using isSome_fieldType? listed r
    simp [own]
  | readOnly listed => simp [listed, eq_comm]
  | unconverted own _ _ | written own _ _ _ _ => simp [own]

theorem putField_eq_convert_iff {e : ConvertError} :
    r.putField name v = .error (.convert e) ↔
      name ∉ Field.commonNames ∧ ∃ t, r.fieldType? name = some t ∧ v.convert t = .error e := by
  have ends := r.ending_putField name v
  generalize r.putField name v = result at ends ⊢
  cases ends with
  | absent none => simp [none]
  | readOnly listed => simp [listed]
  | unconverted own typed failed => simp [own, typed, failed]
  | written own typed converted _ _ => simp [typed, converted]

/-- A field that can be written, and a value that can be converted. -/
theorem putField_of_convert {t : DataType} (own : name ∉ Field.commonNames)
    (typed : r.fieldType? name = some t) (converted : v.convert t = .ok w) :
    ∃ s, r.putField name v = .ok s ∧ s.getField? name = some w ∧ r.SameBut name s := by
  have ends := r.ending_putField name v
  generalize r.putField name v = result at ends ⊢
  cases ends with
  | absent none => simp [none] at typed
  | readOnly listed => exact absurd listed own
  | unconverted _ typed' failed =>
    obtain rfl := Option.some.inj (typed.symm.trans typed')
    simp [failed] at converted
  | written _ typed' converted' here rest =>
    obtain rfl := Option.some.inj (typed.symm.trans typed')
    obtain rfl := Except.ok.inj (converted.symm.trans converted')
    exact ⟨_, rfl, here, rest⟩

/-- A field of the record's own that is set to its own value. -/
theorem putField_itself (there : r.getField? name = some v) (own : name ∉ Field.commonNames) :
    r.putField name v = .ok r := by
  unfold getField? at there
  unfold putField
  cases named : Field.ofText? name with
  | none => simp [named] at there
  | some f =>
    rw [named, Option.bind_some] at there
    have unshared : r.common.get? f = none := by
      have := f.type_eq_of_common r.common
      cases shared : f.commonType? with
      | none => simpa [shared] using this.symm
      | some _ => exact absurd (Field.mem_commonNames_iff.2 ⟨f, named, by simp [shared]⟩) own
    have held : r.body.get? f = some v := by simpa [get?, unshared] using there
    have typed : r.body.type? f = some v.type := by rw [Body.tabled.type_eq, held]; rfl
    simp only [put, typed, v.convert_self, Body.tabled.set_get? r.body f v held]

end Record

namespace Controller
variable {c : Controller} {id : RecordId} {r : Record} {name : String} {v : Value}

theorem putField_of_ok {s : Record} (there : c.record? id = some r)
    (written : r.putField name v = .ok s) :
    c.putField id name v = (c.setRecord id s, .ok ()) := by
  simp [putField, there, written]

theorem putField_eq_error_iff {e : FieldError} (there : c.record? id = some r) :
    (c.putField id name v).2 = .error e ↔ r.putField name v = .error e := by
  unfold putField
  rw [there]
  dsimp only
  split <;> simp [*]

theorem putField_of_error {e : FieldError} (failed : (c.putField id name v).2 = .error e) :
    (c.putField id name v).1 = c := by
  unfold putField at failed ⊢
  split
  · rfl
  · split <;> simp_all

/-- How the three functions that go by the name of a field agree. -/
structure FieldAccess (c : Controller) (id : RecordId) (r : Record) (name : String) (v : Value) :
    Prop where
  typed : r.fieldType? name = (r.getField? name).map Value.type
  absent : ∀ n, (c.putField id name v).2 = .error (.noSuchField n) ↔
    n = name ∧ r.fieldType? name = none
  readOnly : ∀ n, (c.putField id name v).2 = .error (.readOnly n) ↔
    n = name ∧ name ∈ Field.commonNames
  unconverted : ∀ e, (c.putField id name v).2 = .error (.convert e) ↔
    name ∉ Field.commonNames ∧ ∃ t, r.fieldType? name = some t ∧ v.convert t = .error e
  /-- Whatever is refused changes nothing. -/
  refused : ∀ e, (c.putField id name v).2 = .error e → (c.putField id name v).1 = c
  /-- A field that is written has the converted value, and all else is as it was. -/
  written : ∀ t w, name ∉ Field.commonNames → r.fieldType? name = some t → v.convert t = .ok w →
    ∃ s, c.putField id name v = (c.setRecord id s, .ok ()) ∧ s.getField? name = some w ∧
      r.SameBut name s
  /-- A field that is given its own value changes nothing. -/
  itself : r.getField? name = some v → (c.putField id name v).1 = c

/-- **Fields are written by their names.**  For every record and every name, the type of the field
is that of its value.  A write fails for want of a field exactly if there is no type, because the
field is read only exactly if every record has it, and otherwise exactly if the value does not
convert, and then nothing changes.  Else the field has the converted value, and nothing but the
field has changed; so a field that is given its own value leaves all as it is. -/
theorem fields_are_written_by_name (there : c.record? id = some r) (name : String) (v : Value) :
    c.FieldAccess id r name v where
  typed := r.fieldType?_eq name
  absent _ := (putField_eq_error_iff there).trans Record.putField_eq_noSuchField_iff
  readOnly _ := (putField_eq_error_iff there).trans Record.putField_eq_readOnly_iff
  unconverted _ := (putField_eq_error_iff there).trans Record.putField_eq_convert_iff
  refused _ failed := putField_of_error failed
  written t w own typed converted := by
    obtain ⟨s, written, here, rest⟩ := Record.putField_of_convert own typed converted
    exact ⟨s, putField_of_ok there written, here, rest⟩
  itself held := by
    by_cases listed : name ∈ Field.commonNames
    · exact putField_of_error ((putField_eq_error_iff there).2
        (Record.putField_eq_readOnly_iff.2 ⟨rfl, listed⟩))
    · rw [putField_of_ok there (Record.putField_itself held listed), setRecord_self there]

/-- One record of several states, in three bits. -/
def gear : Controller :=
  let selector : Record :=
    ⟨{ name := "gear" }, .literal "", .scalar .registers (.mbbo { bits := 3 } 0)⟩
  (({} : Controller).adopt selector none).2

theorem gear_written :
    ∃ r, gear.record? ⟨0⟩ = some r ∧ gear.FieldAccess ⟨0⟩ r "NOBT" (.long (-1)) ∧
      ∃ s, gear.putField ⟨0⟩ "NOBT" (.long (-1)) = (gear.setRecord ⟨0⟩ s, .ok ()) ∧
        s.getField? "NOBT" = some (.ushort 65535) ∧ r.SameBut "NOBT" s := by
  obtain ⟨r, there⟩ : ∃ r, gear.record? ⟨0⟩ = some r := ⟨_, rfl⟩
  have access := fields_are_written_by_name there "NOBT" (.long (-1))
  have typed : r.fieldType? "NOBT" = some .ushort := by
    obtain rfl := Option.some.inj there
    decide
  exact ⟨r, there, access, access.written .ushort (.ushort 65535) (by decide) typed rfl⟩

end Controller

end ControlRecords
