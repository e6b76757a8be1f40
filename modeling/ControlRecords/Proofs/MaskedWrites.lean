import ControlRecords.Controller.Initialisation
import ControlRecords.Controller.Registration
import ControlRecords.Proofs.Locality
import ControlRecords.Proofs.MaskedPass

/-! # Words that records share

Several records may write to one word, a register or a variable, as long as each owns bits
of its own there.  No record undoes what another wrote, in whatever order they process: at
any time the bits under a record's mask are what its value was when it last processed, and
the bits that nobody wrote are what they were (`bits_after_masked_writes`). -/
namespace ControlRecords

/-! ## Words and their records -/

/-- A word that records write to. -/
inductive Word where
  | register (address : Nat) (method : Register.Builtin)
  | shared (id : VariableId)

namespace Word

/-- How many bits the word has. -/
def width (c : Controller) : Word → Nat
  | register _ method => method.bits
  | shared v => ((c.variableAt? v).map (·.type.bits)).getD 0

/-- A bit of the word. -/
def bit (c : Controller) (i : Nat) : Word → Bool
  | register address method => (method.stored address c.registers.memory).testBit i
  | shared v => ((c.variableAt? v).map (·.value.pattern.testBit i)).getD false

/-- The word is there: the register is inside register memory and at an address for its
width, and the variable is of an integer type. -/
def Present (c : Controller) : Word → Prop
  | register address method => method.check address = .ok ()
  | shared v => ∃ w, c.variableAt? v = some w ∧ w.type.isInteger = true

end Word

/-- What moves values to and from the word. -/
def Word.support : Word → ScalarSupport
  | register _ _ => .registers
  | shared _ => .shared

/-- The record is connected to the word, and it waits for no driver to write there. -/
def Record.Reaches (r : Record) : Word → Prop
  | .register address method =>
    ∃ b, r.common.binding = .toRegister b ∧ b.address = address ∧ b.access = .builtin method
  | .shared v =>
    ∃ b, r.common.binding = .toVariable b ∧ b.target = v ∧ b.field = .rval ∧
      b.flags.asynchronous = false

theorem Record.Reaches.congr {r s : Record} {word : Word} (h : r.Reaches word)
    (same : s.common.binding = r.common.binding) : s.Reaches word := by
  cases word with
  | register _ _ =>
    obtain ⟨b, bound, rest⟩ := h
    exact ⟨b, same.trans bound, rest⟩
  | shared _ =>
    obtain ⟨b, bound, rest⟩ := h
    exact ⟨b, same.trans bound, rest⟩

/-- What a bit under the mask has to be for the present value. -/
def Body.chosenBit (i : Nat) : Body → Bool
  | scalar _ s => s.chosenBit i
  | array _ _ => false

namespace Controller

/-- The bits of the word under the mask are the record's own. -/
def PartOf (c : Controller) (id : RecordId) (word : Word) (mask : UInt32) : Prop :=
  ∃ r, c.record? id = some r ∧ r.Masked word.support ∧ r.Reaches word ∧ r.body.mask = mask

/-- What a bit of a record has to be for its present value. -/
def chosenBit (c : Controller) (id : RecordId) (i : Nat) : Bool :=
  ((c.record? id).map (·.body.chosenBit i)).getD false

end Controller

/-! ## Passes and writes of values in a controller -/

/-- Writing the value changes the value alone. -/
theorem Record.putField_val {r s : Record} {value : Value}
    (h : r.putField "VAL" value = .ok s) : ∃ x, s = { r with body := r.body.set .val x } := by
  have name : Field.ofText? "VAL" = some .val := by decide
  simp only [putField, name, put] at h
  split at h
  · split at h
    · exact ⟨_, (Except.ok.inj h).symm⟩
    · contradiction
  · contradiction

theorem Scalar.set_val (s : Scalar) (x : Value) :
    (s.set .val x).mask = s.mask ∧ (s.set .val x).merges = s.merges := by
  cases s <;> cases x <;> exact ⟨rfl, rfl⟩

namespace Controller

section Steps
variable {c : Controller} {id : RecordId} {word : Word} {mask : UInt32}

theorem PartOf.of_record {d : Controller} {j : RecordId} (h : c.PartOf id word mask)
    (same : d.record? j = c.record? id) : d.PartOf j word mask := by
  obtain ⟨r, hr, rest⟩ := h
  exact ⟨r, same.trans hr, rest⟩

/-- **One pass of a record on its word.** -/
theorem PartOf.process (h : c.PartOf id word mask) (present : word.Present c) :
    (c.process id).PartOf id word mask ∧ word.Present (c.process id) ∧
      word.width (c.process id) = word.width c ∧
      ∀ i < word.width c, word.bit (c.process id) i =
        if mask.toNat.testBit i then c.chosenBit id i else word.bit c i := by
  obtain ⟨r, hr, masked, reaches, rfl⟩ := h
  obtain ⟨s, body, merges⟩ := masked.body
  have mask : r.body.mask = s.mask := by rw [body]; rfl
  have chosen : ∀ i, c.chosenBit id i = s.chosenBit i := fun i => by
    simp [chosenBit, hr, body, Body.chosenBit]
  -- Whatever the word is, the record afterwards is one that was rewritten.
  have part : ∀ r', r.Rewritten word.support s r' → (c.process id).record? id = some r' →
      (c.process id).PartOf id word r.body.mask := by
    intro r' rewritten hr'
    obtain ⟨masked', mask'⟩ := rewritten.masked merges
    have binding := Record.binding_of_skeleton rewritten.skeleton
    exact ⟨r', hr', masked', reaches.congr binding, mask'.trans mask.symm⟩
  cases word with
  | register address m =>
    obtain ⟨b, bound, rfl, access⟩ := reaches
    obtain ⟨r', w, pass, rewritten, bits⟩ :=
      Record.process_into_register body merges masked.idle bound access present c.registers
    have target : c.target r = .registers c.registers := by
      simp [target, body, Word.support]
    have after : c.process id =
        ({ c with registers :=
          { c.registers with
            memory := c.registers.memory.store b.address (m.octetsOf w) } } : Controller).setRecord
              id r' := by
      rw [process_of_record hr, target, pass]
      rfl
    refine ⟨part r' rewritten ?_, present, rfl, ?_⟩
    · rw [record?_process_self hr, target, pass]
    · intro i hi
      rw [chosen, mask, after]
      show (m.stored b.address (c.registers.memory.store b.address (m.octetsOf w))).testBit i = _
      rw [Register.Builtin.stored_store, Nat.testBit_mod_two_pow, bits i hi]
      have below : decide (i < m.bits) = true := decide_eq_true hi
      rw [below, Bool.true_and]
      rfl
  | shared v =>
    obtain ⟨b, bound, rfl, field, synchronous⟩ := reaches
    obtain ⟨w, hw, type⟩ := present
    obtain ⟨r', w', pass, type', rewritten, bits⟩ :=
      Record.process_into_variable body merges masked.idle bound field synchronous type
    have target : c.target r = .shared w := target_of_shared body bound hw
    have after : c.process id = (c.setVariable b.target w').setRecord id r' := by
      have left : variableAfter r w = w' := by simp [variableAfter, pass]
      rw [process_of_shared hr body bound hw, left, pass]
    have there : (c.process id).variableAt? b.target = some w' := by
      rw [after, variableAt?_setRecord, variableAt?_setVariable_of_some hw]
    refine ⟨part r' rewritten ?_, ⟨w', there, by rw [type', type]⟩, ?_, ?_⟩
    · rw [record?_process_self hr, target, pass]
    · simp [Word.width, there, hw, type']
    · intro i hi
      have below : i < w.type.bits := by simpa [Word.width, hw] using hi
      rw [chosen, mask]
      simp only [Word.bit, there, hw, Option.map_some, Option.getD_some]
      exact bits i below

/-- Writing the value of a record leaves all words and whose bits are whose. -/
theorem PartOf.putField (h : c.PartOf id word mask) {j : RecordId} {r s : Record}
    {value : Value} (hr : c.record? j = some r) (put : r.putField "VAL" value = .ok s) :
    (c.setRecord j s).PartOf id word mask := by
  by_cases mine : j = id
  · subst mine
    obtain ⟨r', hr', ⟨idle, t, body, merges⟩, reaches, rfl⟩ := h
    obtain rfl := Option.some.inj (hr.symm.trans hr')
    obtain ⟨x, rfl⟩ := Record.putField_val put
    obtain ⟨mask, merges'⟩ := t.set_val x
    have body' : r.body.set .val x = .scalar word.support (t.set .val x) := by rw [body]; rfl
    refine ⟨_, record?_setRecord_of_some hr _,
      ⟨idle, _, body', merges'.trans merges⟩, reaches.congr rfl, ?_⟩
    rw [body', body]
    exact mask
  · exact h.of_record (record?_setRecord_of_ne c s (Ne.symm mine))

end Steps

/-! ## Runs -/

/-- Clients write values, and the records make passes. -/
def PutsAndPasses (ids : List RecordId) : Action → Prop
  | .put _ field _ => field = "VAL"
  | .process id => id ∈ ids
  | _ => False

/-- Records that write to one word, each with bits of its own. -/
structure Sharing (c : Controller) (word : Word) (ids : List RecordId)
    (masks : RecordId → UInt32) : Prop where
  present : word.Present c
  part : ∀ id ∈ ids, c.PartOf id word (masks id)

section Runs
variable {c : Controller} {word : Word} {ids : List RecordId} {masks : RecordId → UInt32}

/-- What a step leaves: the records share the word still, it has the same width, and a bit
that is not of the record that makes a pass is as it was. -/
theorem Sharing.act (h : c.Sharing word ids masks) {a : Action} (allowed : PutsAndPasses ids a) :
    (c.act a).Sharing word ids masks ∧ word.width (c.act a) = word.width c ∧
      ∀ i < word.width c, (∀ id, a = .process id → (masks id).toNat.testBit i = false) →
        word.bit (c.act a) i = word.bit c i := by
  cases a with
  | put j field value =>
    obtain rfl : field = "VAL" := allowed
    rcases act_put_cases c j "VAL" value with e | ⟨r, s, hr, put, e⟩
    · rw [e]
      exact ⟨h, rfl, fun _ _ _ => rfl⟩
    · rw [e]
      have untouched : word.width (c.setRecord j s) = word.width c ∧
          ∀ i, word.bit (c.setRecord j s) i = word.bit c i := by
        cases word <;> exact ⟨rfl, fun _ => rfl⟩
      have present : word.Present (c.setRecord j s) := by
        have := h.present
        cases word <;> exact this
      exact ⟨⟨present, fun id mem => (h.part id mem).putField hr put⟩, untouched.1,
        fun i _ _ => untouched.2 i⟩
  | process j =>
    obtain ⟨part, present, width, bits⟩ := (h.part j allowed).process h.present
    refine ⟨⟨present, fun id mem => ?_⟩, width, fun i hi others => ?_⟩
    · by_cases mine : id = j
      · subst mine
        exact part
      · exact (h.part id mem).of_record (record?_process_of_ne c mine)
    · have outside := others j rfl
      exact (bits i hi).trans (if_neg (by simp [outside]))
  | _ => exact allowed.elim

/-- A run leaves the records sharing the word. -/
theorem Sharing.perform {actions : List Action} (h : c.Sharing word ids masks)
    (run : ∀ a ∈ actions, PutsAndPasses ids a) :
    (c.perform actions).Sharing word ids masks ∧
      word.width (c.perform actions) = word.width c := by
  induction actions generalizing c with
  | nil => exact ⟨h, rfl⟩
  | cons a rest ih =>
    obtain ⟨shared, width, -⟩ := h.act (run a List.mem_cons_self)
    obtain ⟨shared', width'⟩ := ih shared fun b hb => run b (List.mem_cons_of_mem a hb)
    exact ⟨shared', width'.trans width⟩

/-- A bit that is of no record that makes a pass stays what it is. -/
theorem Sharing.bit_perform {actions : List Action} (h : c.Sharing word ids masks)
    (run : ∀ a ∈ actions, PutsAndPasses ids a) {i : Nat} (hi : i < word.width c)
    (others : ∀ id, .process id ∈ actions → (masks id).toNat.testBit i = false) :
    word.bit (c.perform actions) i = word.bit c i := by
  induction actions generalizing c with
  | nil => rfl
  | cons a rest ih =>
    obtain ⟨shared, width, bits⟩ := h.act (run a List.mem_cons_self)
    have later := ih shared (fun b hb => run b (List.mem_cons_of_mem a hb)) (width ▸ hi)
      fun id hid => others id (List.mem_cons_of_mem a hid)
    have now := bits i hi fun id hid => others id (hid ▸ List.mem_cons_self)
    exact later.trans now

/-- **Writes under masks do not lose each other.**  Records with masks that have no bit in
common write to one word, in any order, while clients change their values.  Afterwards each
record that has processed has its bits in the word as its value was when it last processed,
and every bit that is under no such mask is what it was. -/
theorem bits_after_masked_writes {actions : List Action} (h : c.Sharing word ids masks)
    (apart : ∀ id ∈ ids, ∀ j ∈ ids, id ≠ j → masks id &&& masks j = 0)
    (run : ∀ a ∈ actions, PutsAndPasses ids a) :
    (∀ before id after, actions = before ++ .process id :: after → .process id ∉ after →
      ∀ i < word.width c, (masks id).toNat.testBit i = true →
        word.bit (c.perform actions) i = (c.perform before).chosenBit id i) ∧
      ∀ i < word.width c,
        (∀ id, .process id ∈ actions → (masks id).toNat.testBit i = false) →
          word.bit (c.perform actions) i = word.bit c i := by
  refine ⟨?_, fun i hi others => h.bit_perform run hi others⟩
  rintro before id after rfl last i hi mine
  have first : ∀ a ∈ before, PutsAndPasses ids a := fun a ha =>
    run a (List.mem_append_left _ ha)
  have then_ : ∀ a ∈ after, PutsAndPasses ids a := fun a ha =>
    run a (List.mem_append_right _ (List.mem_cons_of_mem _ ha))
  have member : id ∈ ids := run (.process id) (List.mem_append_right _ List.mem_cons_self)
  -- The last pass puts the bits there, and nothing after it reaches them.
  obtain ⟨shared, width⟩ := h.perform first
  have pass : PutsAndPasses ids (.process id) := member
  obtain ⟨shared', width', -⟩ := shared.act pass
  obtain ⟨-, -, -, bits⟩ := (shared.part id member).process shared.present
  have written := bits i (width ▸ hi)
  rw [if_pos mine] at written
  -- Records that make a pass afterwards are others, and have their bits elsewhere.
  have elsewhere : ∀ j, .process j ∈ after → (masks j).toNat.testBit i = false := by
    intro j hj
    have other : id ≠ j := by
      rintro rfl
      exact last hj
    have none := congrArg (fun w => w.toNat.testBit i) (apart id member j (then_ _ hj) other)
    simpa [UInt32.toNat_and, Nat.testBit_and, mine] using none
  rw [perform_append, perform_cons]
  exact (shared'.bit_perform then_ (width' ▸ width ▸ hi) elsewhere).trans written

end Runs

/-- A binary output with the lowest bit of a variable, and a multi-bit output with the two
bits next to it; both are initialised. -/
def lampAndMode : Controller :=
  let lamp : Record :=
    ⟨{ name := "lamp" }, .hardware ⟨0, 0, "g"⟩, .scalar .shared (.bo { mask := 1 })⟩
  let mode : Record :=
    ⟨{ name := "mode" }, .hardware ⟨0, 0, "g"⟩, .scalar .shared (.mbbo { bits := 2, shift := 1 } 0)⟩
  let c := (({} : Controller).registerGroup "g" [{ value := .char (-16) }]).1
  let (first, c) := c.adopt lamp none
  let (second, c) := c.adopt mode none
  ((c.initialise first).1.initialise second).1

/-- Which bits are whose. -/
def lampAndModeMasks (id : RecordId) : UInt32 := if id = ⟨0⟩ then 1 else 6

theorem bits_after_lampAndMode :
    lampAndMode.Sharing (.shared ⟨0⟩) [⟨0⟩, ⟨1⟩] lampAndModeMasks ∧
      (∀ id ∈ [⟨0⟩, ⟨1⟩], ∀ j ∈ [⟨0⟩, ⟨1⟩], id ≠ j →
        lampAndModeMasks id &&& lampAndModeMasks j = 0) ∧
      ∀ i < 8, (lampAndModeMasks ⟨1⟩).toNat.testBit i = true →
        (Word.shared ⟨0⟩).bit (lampAndMode.perform [.put ⟨1⟩ "VAL" (.long 3), .process ⟨1⟩,
          .put ⟨1⟩ "VAL" (.long 0), .put ⟨0⟩ "VAL" (.long 1), .process ⟨0⟩]) i =
            (lampAndMode.perform [.put ⟨1⟩ "VAL" (.long 3)]).chosenBit ⟨1⟩ i := by
  have lamp : lampAndMode.PartOf ⟨0⟩ (.shared ⟨0⟩) 1 :=
    ⟨_, rfl, ⟨rfl, _, rfl, rfl⟩, ⟨_, rfl, rfl, rfl, rfl⟩, rfl⟩
  have mode : lampAndMode.PartOf ⟨1⟩ (.shared ⟨0⟩) 6 :=
    ⟨_, rfl, ⟨rfl, _, rfl, rfl⟩, ⟨_, rfl, rfl, rfl, rfl⟩, rfl⟩
  have sharing : lampAndMode.Sharing (.shared ⟨0⟩) [⟨0⟩, ⟨1⟩] lampAndModeMasks := by
    refine ⟨⟨_, rfl, rfl⟩, fun id mem => ?_⟩
    simp only [List.mem_cons, List.not_mem_nil, or_false] at mem
    rcases mem with rfl | rfl
    · exact lamp
    · exact mode
  have apart : ∀ id ∈ [⟨0⟩, ⟨1⟩], ∀ j ∈ [⟨0⟩, ⟨1⟩], id ≠ j →
      lampAndModeMasks id &&& lampAndModeMasks j = 0 := by decide
  refine ⟨sharing, apart, ?_⟩
  exact (bits_after_masked_writes sharing apart (by simp [PutsAndPasses])).1
    [.put ⟨1⟩ "VAL" (.long 3)] ⟨1⟩
    [.put ⟨1⟩ "VAL" (.long 0), .put ⟨0⟩ "VAL" (.long 1), .process ⟨0⟩] rfl (by simp)

end Controller

end ControlRecords
