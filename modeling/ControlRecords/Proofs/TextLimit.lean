import ControlRecords.Proofs.LastValue

/-! # Texts that fit into a text field

A text field holds `Text.fieldLimit` bytes.  What becomes a text by being written is clipped
to that (`Value.fits_ofText`), and what is kept of it is as many whole characters as fit, from
the first one on (`Value.longest_beginning_is_kept`).  All texts that records have are of this
kind (`Record.fits_get?`), but a text that is converted to a text stays as long as it is.  So a
variable that holds a text has one that fits in all its states exactly if it starts with one
and the driver stores none that is too long (`text_fits_iff`). -/
namespace ControlRecords

namespace Text

/-- The longest beginning of a text, in whole characters, that takes at most `room` bytes. -/
structure LongestBeginning (room : Nat) (s kept : String) : Prop where
  begins : kept.toList <+: s.toList
  fits : kept.utf8ByteSize ≤ room
  longest : ∀ front : String, front.toList <+: s.toList → front.utf8ByteSize ≤ room →
    front.toList <+: kept.toList

/-- There is one longest beginning at most. -/
theorem LongestBeginning.unique {room : Nat} {s t u : String} (h : LongestBeginning room s t)
    (k : LongestBeginning room s u) : t = u := by
  have forth : t.toList <+: u.toList := k.longest t h.begins h.fits
  have back : u.toList <+: t.toList := h.longest u k.begins k.fits
  exact String.toList_injective (forth.eq_of_length_le back.length_le)

theorem longestBeginning_clip (s : String) : LongestBeginning fieldLimit s (clip s) where
  begins := by
    rw [clip, String.toList_ofList]
    exact clipChars_isPrefix fieldLimit s.toList
  fits := utf8ByteSize_clip_le s
  longest front begins fits := by
    rw [clip, String.toList_ofList]
    exact prefix_clipChars begins (by rwa [String.ofList_toList])

end Text

namespace Value

/-- **The longest beginning that fits is kept of a text.**  There is just one, it is the whole
text exactly if that fits, and nothing is taken away from it if it is clipped again. -/
theorem longest_beginning_is_kept (s : String) :
    ∃ kept, ofText s = .string kept ∧
      (∀ t, Text.LongestBeginning Text.fieldLimit s t ↔ t = kept) ∧
      (kept = s ↔ s.utf8ByteSize ≤ Text.fieldLimit) ∧ ofText kept = .string kept := by
  have kept := Text.longestBeginning_clip s
  have again : Text.clip (Text.clip s) = Text.clip s := Text.clip_eq_self_iff.2 kept.fits
  exact ⟨Text.clip s, rfl, fun t => ⟨fun h => h.unique kept, fun same => same ▸ kept⟩,
    Text.clip_eq_self_iff, congrArg string again⟩

/-- A character that does not fit ends the text, also if a narrower one behind it would fit. -/
example : ofText (String.ofList (List.replicate 38 'x') ++ "éy") =
    .string (String.ofList (List.replicate 38 'x')) := by
  cbv

/-- A text fits into a text field; any other value has a field of its own size. -/
def Fits : Value → Prop
  | string s => s.utf8ByteSize ≤ Text.fieldLimit
  | _ => True

/-- A text that was clipped fits. -/
theorem fits_ofText (s : String) : (ofText s).Fits := Text.utf8ByteSize_clip_le s

/-- A value of any type but text fits. -/
theorem fits_of_type_ne {x : Value} (h : x.type ≠ .string) : x.Fits := by
  cases x with
  | string s => exact absurd rfl h
  | _ => trivial

/-- **Every value can be converted to a text, and the text fits if and only if the value
does.** -/
theorem convert_string (x : Value) : ∃ y, x.convert .string = .ok y ∧ (y.Fits ↔ x.Fits) := by
  by_cases text : x.type = .string
  · refine ⟨x, ?_, Iff.rfl⟩
    rw [← text]
    exact x.convert_self
  · have written : x.convert .string = .ok (ofText x.text) := by simp [convert, text]
    exact ⟨_, written, iff_of_true (fits_ofText _) (fits_of_type_ne text)⟩

/-- What fits is converted to what fits. -/
theorem Fits.convert {x y : Value} {t : DataType} (h : x.Fits) (converted : x.convert t = .ok y) :
    y.Fits := by
  by_cases text : t = .string
  · subst text
    obtain ⟨z, same, fits⟩ := x.convert_string
    obtain rfl := Except.ok.inj (same.symm.trans converted)
    exact fits.2 h
  · exact fits_of_type_ne (by rw [type_convert converted]; exact text)

end Value

/-- No field of a record type's own is a text. -/
theorem Body.fits_get? {b : Body} {f : Field} {x : Value} (h : b.get? f = some x) : x.Fits := by
  cases b with
  | scalar _ s =>
    cases s <;> cases f <;> first | contradiction | (obtain rfl := Option.some.inj h; trivial)
  | array _ a => cases f <;> first | contradiction | (obtain rfl := Option.some.inj h; trivial)

/-- The fields of a record fit: its name is clipped, and the others are numbers. -/
theorem Record.fits_get? {r : Record} {f : Field} {x : Value} (h : r.get? f = some x) : x.Fits := by
  rw [get?, Option.orElse_eq_orElse, Option.orElse_eq_or, Option.or_eq_some_iff] at h
  rcases h with own | ⟨-, common⟩
  · exact Body.fits_get? own
  · cases f with
    | name =>
      obtain rfl := Option.some.inj common
      exact Value.fits_ofText _
    | pact | udf | pini | stat | sevr | nsta | nsev =>
      obtain rfl := Option.some.inj common
      trivial
    | _ => contradiction

namespace Variable
variable {v : Variable}

/-- **After an access the text fits, if it did before and no text was stored that does not.** -/
theorem fits_after_iff (text : v.type = .string) (fits : v.value.Fits) (a : Access) :
    (v.after a).value.Fits ↔ ∀ value, a = .store value → value.Fits := by
  rw [value_after]
  cases stored : v.stored? a with
  | none =>
    refine iff_of_true fits ?_
    rintro value rfl
    obtain ⟨y, converted, -⟩ := value.convert_string
    simp [stored?, text, converted, Except.toOption] at stored
  | some x =>
    obtain ⟨y, converted, source⟩ := stored?_eq_some stored
    rw [text] at converted
    rcases source with rfl | ⟨p, write, -, field⟩
    · obtain ⟨z, same, fits⟩ := y.convert_string
      obtain rfl := Except.ok.inj (same.symm.trans converted)
      simpa using fits
    · -- What a record writes is one of its fields, and those fit.
      refine iff_of_true ((Record.fits_get? field).convert converted) ?_
      rintro value rfl
      simp [write?] at write

end Variable

namespace Controller
variable {c : Controller} {v : VariableId} {w : Variable}

/-- The variable is there, and its value fits. -/
def HoldsFitting (v : VariableId) (c : Controller) : Prop :=
  ∃ w, c.variableAt? v = some w ∧ w.value.Fits

/-- The driver alone stores values as they are. -/
theorem accessTo?_eq_store_iff {op : Operation} {value : Value} :
    c.accessTo? v op = some (.store value) ↔ op = .act (.store v value) := by
  constructor
  · intro h
    cases origin_of_access? (access?_of_accessTo? h) with
    | store _ => rfl
    | record _ _ _ _ _ moves => exact moves.elim
  · rintro rfl
    simp [accessTo?, access?]

/-- After an operation the text fits, if it did before and the driver stored none that does
not. -/
theorem holdsFitting_operate_iff (there : c.variableAt? v = some w) (text : w.type = .string)
    (fits : w.value.Fits) (op : Operation) :
    HoldsFitting v (c.operate op) ↔ ∀ value, op = .act (.store v value) → value.Fits := by
  have after : HoldsFitting v (c.operate op) ↔
      ((c.accessTo? v op).elim w w.after).value.Fits := by
    simp [HoldsFitting, variableAt?_operate there op]
  simp only [after, ← accessTo?_eq_store_iff (c := c)]
  cases c.accessTo? v op with
  | none => simpa using fits
  | some a => simpa using Variable.fits_after_iff text fits a

/-- **A text fits in every state exactly if the first one does and so do all that the driver
stores.**  Records store none that does not.  Conversion to a text always succeeds, and what
it yields fits if and only if the converted value does. -/
theorem text_fits_iff (there : c.variableAt? v = some w) (text : w.type = .string)
    (history : List Operation) :
    ((∀ earlier, earlier <+: history → HoldsFitting v (c.operateAll earlier)) ↔
      w.value.Fits ∧ ∀ value, .act (.store v value) ∈ history → value.Fits) ∧
    ∀ x : Value, ∃ y, x.convert .string = .ok y ∧ (y.Fits ↔ x.Fits) := by
  refine ⟨?_, Value.convert_string⟩
  have first : HoldsFitting v c ↔ w.value.Fits := by simp [HoldsFitting, there]
  induction history generalizing c w with
  | nil => simp [first]
  | cons op rest ih =>
    obtain ⟨x, hx, type, -⟩ := value_operate there op
    have second : HoldsFitting v (c.operate op) ↔ x.value.Fits := by simp [HoldsFitting, hx]
    have later := ih hx (type.trans text) second
    constructor
    · intro always
      have fits := first.1 (always [] List.nil_prefix)
      have rest_fits := later.1 fun earlier shorter =>
        always (op :: earlier) ((List.prefix_cons_inj op).2 shorter)
      have stored := (holdsFitting_operate_iff there text fits op).1 (second.2 rest_fits.1)
      refine ⟨fits, fun value mem => ?_⟩
      rcases List.mem_cons.1 mem with same | mem
      · exact stored value same.symm
      · exact rest_fits.2 value mem
    · rintro ⟨fits, stored⟩ earlier shorter
      have next := second.1 ((holdsFitting_operate_iff there text fits op).2 fun value same =>
        stored value (same ▸ List.mem_cons_self))
      rcases List.prefix_cons_iff.1 shorter with rfl | ⟨begun, rfl, short⟩
      · exact first.2 fits
      · exact later.2 ⟨next, fun value mem => stored value (List.mem_cons_of_mem op mem)⟩
          begun short

/-- A variable that holds a text. -/
def label : Controller :=
  (({} : Controller).registerGroup "g" [{ value := .ofText "abc" }]).1

theorem text_fits_in_label :
    label.variableAt? ⟨0⟩ = some { value := .ofText "abc" } ∧
      (Value.ofText "abc").type = .string ∧
      ∀ earlier, earlier <+: [.act (.store ⟨0⟩ (.ulong 7)), .act (.store ⟨0⟩ (.string "def"))] →
        HoldsFitting ⟨0⟩ (label.operateAll earlier) := by
  refine ⟨rfl, rfl, (text_fits_iff (c := label) rfl rfl _).1.2 ⟨Value.fits_ofText _, ?_⟩⟩
  intro value mem
  simp only [List.mem_cons, Operation.act.injEq, Action.store.injEq, true_and, List.not_mem_nil,
    or_false] at mem
  rcases mem with rfl | rfl
  · trivial
  · show "def".utf8ByteSize ≤ Text.fieldLimit
    decide

/-- A text that is one byte too long. -/
def tooLong : String := String.ofList (List.replicate 40 'x')

/-- Such a text is stored as it is, and converted to itself. -/
theorem text_too_long_in_label :
    label.variableAt? ⟨0⟩ = some { value := .ofText "abc" } ∧
      ¬HoldsFitting ⟨0⟩ (label.operateAll [.act (.store ⟨0⟩ (.string tooLong))]) ∧
      ∃ y, (Value.string tooLong).convert .string = .ok y ∧ ¬y.Fits := by
  have long : ¬tooLong.utf8ByteSize ≤ Text.fieldLimit := by decide
  refine ⟨rfl, ?_, _, rfl, long⟩
  rintro ⟨w, there, fits⟩
  obtain rfl := Option.some.inj there
  exact long fits

end Controller

end ControlRecords
