import ControlRecords.Proofs.Pass
import ControlRecords.Proofs.Words

/-! # Passes over a word of thirty-two bits

A record of whole numbers or bits may have its word in a register of thirty-two bits or in a
variable of that size.  The supports for the two were written apart: one masks what it reads
where the other masks what it stores, and one keeps in the raw value what it merged where the
other keeps what the value asked for.  But the raw value is worked out anew in every pass, so
it does not count (`Scalar.shown`), and then a pass is the same for both: it leaves
`Scalar.leaves` in the word and makes of the fields what `Scalar.passed` says
(`Record.pass_register`, `Record.pass_variable`). -/
namespace ControlRecords

namespace Bits

/-- A state is the same if bits under the mask were selected before. -/
theorem state_and (w mask : UInt32) (shift : UInt16) :
    state (w &&& mask) mask shift = state w mask shift := by
  unfold state
  rw [UInt32.and_assoc, UInt32.and_self]

theorem state_masked (w mask : UInt32) (shift : UInt16) :
    state (masked w mask) mask shift = state w mask shift := by
  unfold masked
  split
  · exact state_and w mask shift
  · rfl

end Bits

namespace Scalar

/-- The record type has whole numbers or bits for values. -/
def isDiscrete : Scalar → Bool
  | ai _ | ao _ => false
  | _ => true

/-- The fields without the raw value. -/
def shown : Scalar → Scalar
  | ai a => ai { a with raw := 0 }
  | ao a => ao { a with raw := 0 }
  | bi b => bi { b with raw := 0 }
  | bo b => bo { b with raw := 0 }
  | mbbi m => mbbi { m with raw := 0 }
  | mbbo m readBack => mbbo { m with raw := 0 } readBack
  | s => s

/-- What an exchange makes of the fields if it finds a word. -/
def exchanged (s : Scalar) (w : UInt32) : Scalar :=
  if s.isOutput then s.noteReadBack w else s.receive w

/-- The word that an exchange leaves if it finds a word. -/
def sent (s : Scalar) (w : UInt32) : UInt32 :=
  if s.isOutput then if s.merges then Bits.merge w s.word s.mask else s.word else w

/-- What a pass makes of the fields if it finds a word. -/
def passed (s : Scalar) (w : UInt32) : Scalar :=
  if s.isOutput then s.noteReadBack w else (s.receive w).ofRaw

/-- The word that a pass leaves if it finds a word. -/
def leaves (s : Scalar) (w : UInt32) : UInt32 := s.toRaw.sent w

/-- The fields that a client sets, without the raw value and what was read back. -/
def settings (s : Scalar) : Scalar := s.shown.noteReadBack 0

/-- The field through which the word moves: the raw value, or the value where there is no raw
one. -/
def wordField : Scalar → Field
  | longin _ | longout _ => .val
  | _ => .rval

section Told
variable (s : Scalar) (w : UInt32)

@[simp] theorem shown_toRaw : s.toRaw.shown = s.shown := by cases s <;> rfl

@[simp] theorem isOutput_toRaw : s.toRaw.isOutput = s.isOutput := by cases s <;> rfl

@[simp] theorem isOutput_exchanged : (s.exchanged w).isOutput = s.isOutput := by
  cases s <;> rfl

@[simp] theorem skeleton_settings : s.settings.skeleton = s.skeleton := by cases s <;> rfl

@[simp] theorem skeleton_passed : (s.passed w).skeleton = s.skeleton := by cases s <;> rfl

theorem isDiscrete_skeleton : s.skeleton.isDiscrete = s.isDiscrete := by cases s <;> rfl

theorem wordField_skeleton : s.skeleton.wordField = s.wordField := by cases s <;> rfl

theorem shown_passed_settings : (s.settings.passed w).shown = (s.passed w).shown := by
  cases s <;> rfl

theorem leaves_settings : s.settings.leaves w = s.leaves w := by
  cases s with
  | ao a => simp [settings, shown, noteReadBack, leaves, toRaw, Analog.toRaw]
  | _ => rfl

/-- An exchange is all of a pass but that an input works its value out. -/
theorem shown_exchanged_toRaw :
    (if s.isOutput then s.toRaw.exchanged w else (s.toRaw.exchanged w).ofRaw).shown =
      (s.passed w).shown := by
  cases s with
  | ao a => simp [exchanged, passed, toRaw, isOutput, noteReadBack, shown]
  | _ => rfl

/-- Bits outside the mask are taken away, if there is a mask. -/
theorem setWord_masked :
    (if s.mask ≠ 0 then s.setWord (s.word &&& s.mask) else s) =
      s.setWord (Bits.masked s.word s.mask) := by
  have own : s.setWord s.word = s := by cases s <;> simp [setWord, word]
  unfold Bits.masked
  split
  · rfl
  · exact own.symm

end Told

/-! What the settings tell. -/

section SameSettings
variable {s t : Scalar} (h : s.settings = t.settings)
include h

theorem skeleton_of_settings : s.skeleton = t.skeleton := by
  rw [← skeleton_settings s, h, skeleton_settings]

theorem passed_of_settings (w : UInt32) : (s.passed w).shown = (t.passed w).shown := by
  rw [← shown_passed_settings s, h, shown_passed_settings]

theorem leaves_of_settings (w : UInt32) : s.leaves w = t.leaves w := by
  rw [← leaves_settings s, h, leaves_settings]

end SameSettings

theorem settings_of_shown {s t : Scalar} (h : s.shown = t.shown) : s.settings = t.settings :=
  congrArg (·.noteReadBack 0) h

theorem skeleton_of_shown {s t : Scalar} (h : s.shown = t.shown) : s.skeleton = t.skeleton :=
  skeleton_of_settings (settings_of_shown h)

/-- Whether a record type is discrete is up to the type. -/
theorem isDiscrete_of_skeleton {s t : Scalar} (h : s.skeleton = t.skeleton) :
    s.isDiscrete = t.isDiscrete := by
  rw [← isDiscrete_skeleton s, h, isDiscrete_skeleton]

end Scalar

theorem Variable.maskRaw_scalar (common : Common) (link : Link) (support : ScalarSupport)
    (s : Scalar) : maskRaw ⟨common, link, .scalar support s⟩ =
      ⟨common, link, .scalar support (s.setWord (Bits.masked s.word s.mask))⟩ := by
  simp only [maskRaw, Record.mapScalar, Body.mapScalar, Scalar.setWord_masked]

/-- The record is idle, has no alarm, and its fields are these but for the raw value. -/
structure Record.Shows (r : Record) (support : ScalarSupport) (s : Scalar) : Prop where
  idle : r.common.active = false
  alarms : r.common.alarms = {}
  body : ∃ t, r.body = .scalar support t ∧ t.shown = s.shown

/-- A defined value and no alarm are still so at the end of processing. -/
theorem Common.finish_of_quiet {c : Common} (defined : c.undefined = false)
    (alarms : c.alarms = {}) :
    c.finish.active = false ∧ c.finish.alarms = {} ∧ c.finish.undefined = false := by
  refine ⟨rfl, ?_, c.undefined_finish.trans defined⟩
  simp only [finish, defined, Bool.false_eq_true, if_false, promoteAlarms,
    alarms_stampFromClock, alarms]
  rfl

namespace Record
variable {r : Record} {support : ScalarSupport} {s : Scalar} (body : r.body = .scalar support s)
  (discrete : s.isDiscrete = true)
include body discrete

/-- A value that moved as a raw one is defined, and an input works it out. -/
theorem settle_of_discrete :
    r.settle (.ok .raw) = ⟨{ r.common with undefined := false }, r.link,
      .scalar support (if s.isOutput then s else s.ofRaw)⟩ := by
  have number : s.ofRaw.isNaN = false := by
    cases s with
    | ai _ | ao _ => simp [Scalar.isDiscrete] at discrete
    | _ => rfl
  obtain ⟨common, link, _⟩ := r
  obtain rfl : _ = Body.scalar support s := body
  cases output : s.isOutput with
  | true => simp [settle, Body.isOutput, output, setUndefined, withCommon]
  | false => simp [settle, Body.isOutput, output, Body.ofRaw, Body.mapScalar, Body.isNaN, number]

/-- A pass that succeeded without an alarm ends without one. -/
theorem shows_finish (alarms : r.common.alarms = {}) :
    (r.finish (.ok .raw)).Shows support (if s.isOutput then s else s.ofRaw) ∧
      (r.finish (.ok .raw)).common.undefined = false := by
  obtain ⟨idle, quiet, defined⟩ :=
    Common.finish_of_quiet (c := { r.common with undefined := false }) rfl alarms
  simp only [finish, settle_of_discrete body discrete]
  exact ⟨⟨idle, quiet, _, rfl, rfl⟩, defined⟩

end Record

/-! ## A word in a register -/

namespace Register

/-- The register has thirty-two bits, and it can be accessed. -/
structure Binding.IsWord (b : Binding) (m : Builtin) : Prop where
  access : b.access = .builtin m
  width : m.width = 4
  accessible : m.check b.address = .ok ()

section IsWord
variable {b : Binding} {m : Builtin} (word : b.IsWord m)
include word

theorem Binding.IsWord.read (t : Registers) :
    b.read t = .ok (UInt32.ofNat (m.stored b.address t.memory)) := by
  have unsigned : m.isSigned = false := by
    have width := word.width
    cases m <;> first | rfl | contradiction
  simp only [Binding.read, word.access, Access.read, Builtin.read, word.accessible, Builtin.extend,
    unsigned, Bool.false_eq_true, if_false]
  rfl

/-- The state after a word was written. -/
theorem Binding.IsWord.write (w : UInt32) (t : Registers) :
    b.write w t = .ok { t with memory := t.memory.store b.address (m.octetsOf w) } := by
  simp only [Binding.write, word.access, Access.write, Builtin.write, word.accessible]

/-- The word that was written is read. -/
theorem Binding.IsWord.read_store (w : UInt32) (t : Registers) :
    b.read { t with memory := t.memory.store b.address (m.octetsOf w) } = .ok w := by
  have bits : 2 ^ m.bits = 2 ^ 32 := by
    rw [← Builtin.pow_width, word.width]
    rfl
  have fits : w.toNat % 2 ^ 32 = w.toNat := Nat.mod_eq_of_lt w.toNat_lt
  rw [word.read, Builtin.stored_store, bits, fits, UInt32.ofNat_toNat]

end IsWord

end Register

/-- The exchange with a register. -/
theorem Register.exchange_word {r : Record} {b : Binding} {m : Builtin} {s : Scalar}
    {t : Registers} {w : UInt32} (word : b.IsWord m) (body : r.body = .scalar .registers s)
    (bound : r.common.binding = .toRegister b) (read : b.read t = .ok w) :
    ∃ t', exchange r t = ⟨{ r with body := .scalar .registers (s.exchanged w) }, t', .ok .raw⟩ ∧
      b.read t' = .ok (s.sent w) := by
  have unchanged : { r with body := .scalar .registers s } = r := by
    obtain ⟨_, _, _⟩ := r
    obtain rfl : _ = Body.scalar .registers s := body
    rfl
  simp only [exchange, body, bound, exchangeBound, read, send, word.write, Scalar.sent]
  cases output : s.isOutput with
  | false =>
    simp [Scalar.exchanged, output, Record.mapScalar, body, Body.mapScalar, read]
  | true =>
    cases merges : s.merges with
    | true =>
      simp [Scalar.exchanged, output, Record.mapScalar, body, Body.mapScalar, word.read_store]
    | false =>
      have silent : s.noteReadBack w = s := by
        cases s <;> first | rfl | simp [Scalar.merges] at merges
      simp [Scalar.exchanged, output, silent, unchanged, word.read_store]

/-- A pass shows what a pass makes of the fields, if the exchange in it raised no alarm. -/
theorem Record.shows_of_exchange {r : Record} {support : ScalarSupport} {s u x : Scalar}
    {t t' : Target} {c : Common} {w : UInt32} (shows : r.Shows support s)
    (body : r.body = .scalar support u) (discrete : s.isDiscrete = true)
    (bound : r.common.binding ≠ .unbound)
    (moved : Target.exchange r.prepare t = ⟨⟨c, r.link, .scalar support x⟩, t', .ok .raw⟩)
    (quiet : c.active = false ∧ c.alarms = {})
    (fields : (if x.isOutput then x else x.ofRaw).shown = (u.passed w).shown) :
    ∃ r', r.process Target.exchange t = (r', t') ∧ r'.Shows support (s.passed w) ∧
      r'.common.undefined = false := by
  obtain ⟨y, body', same⟩ := shows.body
  obtain rfl : y = u := (Body.scalar.inj (body'.symm.trans body)).2
  have discrete' : x.isDiscrete = true := by
    have type : x.skeleton = (if x.isOutput then x else x.ofRaw).skeleton := by split <;> simp
    rw [← discrete]
    refine Scalar.isDiscrete_of_skeleton ?_
    rw [type, Scalar.skeleton_of_shown fields, Scalar.skeleton_passed,
      Scalar.skeleton_of_shown same]
  have finished := process_of_idle (t := t) bound (by rw [moved]; exact quiet.1)
  rw [moved] at finished
  obtain ⟨ended, defined⟩ :=
    shows_finish (r := ⟨c, r.link, .scalar support x⟩) rfl discrete' quiet.2
  refine ⟨_, finished, ⟨ended.idle, ended.alarms, ?_⟩, defined⟩
  obtain ⟨z, body'', same'⟩ := ended.body
  have passed := Scalar.passed_of_settings (Scalar.settings_of_shown same) w
  exact ⟨z, body'', same'.trans (fields.trans passed)⟩

/-- **A pass over a register.** -/
theorem Record.pass_register {r : Record} {b : Register.Binding} {m : Register.Builtin}
    {s : Scalar} {t : Register.Registers} {w : UInt32} (word : b.IsWord m)
    (shows : r.Shows .registers s) (discrete : s.isDiscrete = true)
    (bound : r.common.binding = .toRegister b) (read : b.read t = .ok w) :
    ∃ r' t', r.process Target.exchange (.registers t) = (r', .registers t') ∧
      r'.Shows .registers (s.passed w) ∧ r'.common.undefined = false ∧
      b.read t' = .ok (s.leaves w) := by
  obtain ⟨u, body, same⟩ := shows.body
  have prepared := prepare_of_idle body shows.idle
  obtain ⟨t', moved, left⟩ := Register.exchange_word (r := r.prepare) word (by rw [prepared])
    ((congrArg Common.binding r.common_prepare).trans bound) read
  have moved' : Target.exchange r.prepare (.registers t) =
      ⟨⟨r.common, r.link, .scalar .registers (u.toRaw.exchanged w)⟩, .registers t', .ok .raw⟩ := by
    rw [prepared] at moved ⊢
    simp only [Target.exchange, moved]
  obtain ⟨r', passed, shows', defined⟩ := shows_of_exchange shows body discrete (by simp [bound])
    moved' ⟨shows.idle, shows.alarms⟩ (by simpa using Scalar.shown_exchanged_toRaw u w)
  refine ⟨r', t', passed, shows', defined, ?_⟩
  rw [← Scalar.leaves_of_settings (Scalar.settings_of_shown same)]
  exact left

/-! ## A word in a variable -/

theorem Int32.ofInt_toNat (w : UInt32) : Int32.ofInt w.toNat = w.toInt32 := by
  apply Int32.toBitVec_inj.1
  simp [Int32.ofInt]
  rfl

theorem UInt32.ofInt_toInt (n : Int32) : UInt32.ofInt n.toInt = n.toUInt32 := by
  apply UInt32.toNat_inj.1
  have word : n.toUInt32.toNat = n.toBitVec.toNat := rfl
  have number : n.toInt = n.toBitVec.toInt := rfl
  have below := n.toBitVec.isLt
  have wrapped := Int.bmod_emod (x := n.toBitVec.toNat) (m := 2 ^ 32)
  rw [UInt32.ofInt, UInt32.toNat_ofNat', word, number, BitVec.toInt_eq_toNat_bmod]
  omega

section Fields
variable {s : Scalar} (discrete : s.isDiscrete = true)
include discrete

/-- A word is taken through its field. -/
theorem Record.put_word {r : Record} {support : ScalarSupport} (body : r.body = .scalar support s)
    (w : UInt32) :
    r.put s.wordField (.ulong w) = .ok { r with body := .scalar support (s.setWord w) } := by
  have long : (Value.ulong w).convert .long = .ok (.long w.toInt32) := by
    have converted : (Value.ulong w).convert .long = .ok (.long (Int32.ofInt w.toNat)) := rfl
    rw [converted, Int32.ofInt_toNat]
  cases s with
  | ai _ | ao _ => simp [Scalar.isDiscrete] at discrete
  | longin _ | longout _ =>
    simp [put, Scalar.wordField, body, Body.type?, Scalar.type?, long, Body.set, Scalar.set,
      Scalar.setWord]
  | _ =>
    simp [put, Scalar.wordField, body, Body.type?, Scalar.type?, Binary.type?, MultiBit.type?,
      Value.convert, Value.type, Body.set, Scalar.set, Binary.set, MultiBit.set, Scalar.setWord]

/-- The word is handed over through its field. -/
theorem Record.get_word {r : Record} {support : ScalarSupport} (body : r.body = .scalar support s) :
    ∃ value, r.get? s.wordField = some value ∧ value.convert .ulong = .ok (.ulong s.word) := by
  have word : ∀ n : Int32, (Value.long n).convert .ulong = .ok (.ulong n.toUInt32) := by
    intro n
    have converted : (Value.long n).convert .ulong = .ok (.ulong (UInt32.ofInt n.toInt)) := rfl
    rw [converted, UInt32.ofInt_toInt]
  cases s with
  | ai _ | ao _ => simp [Scalar.isDiscrete] at discrete
  | longin n | longout n =>
    exact ⟨.long n, by simp [get?, Scalar.wordField, body, Body.get?, Scalar.get?], word n⟩
  | bi b | bo b =>
    exact ⟨.ulong b.raw,
      by simp [get?, Scalar.wordField, body, Body.get?, Scalar.get?, Binary.get?], rfl⟩
  | mbbi m | mbbo m _ =>
    exact ⟨.ulong m.raw,
      by simp [get?, Scalar.wordField, body, Body.get?, Scalar.get?, MultiBit.get?], rfl⟩

end Fields

namespace Variable

/-- The variable has a word for its value, and no alarm. -/
structure Holds (v : Variable) (w : UInt32) : Prop where
  value : v.value = .ulong w
  alarm : v.alarm = .none

theorem Holds.post {v : Variable} {w : UInt32} (h : v.Holds w) (flags : Flags) :
    (v.post flags).Holds w := by
  unfold Variable.post
  split
  · exact h
  · exact ⟨h.value, h.alarm⟩

/-- The word of a record moves as it is, and at once. -/
structure Binding.IsWord (b : Binding) (s : Scalar) : Prop where
  raw : b.flags.noConvert = false
  synchronous : b.flags.asynchronous = false
  field : b.field = s.wordField

section Word
variable {b : Binding} {r : Record} {support : ScalarSupport} {s : Scalar} {v : Variable}
  {w : UInt32} (body : r.body = .scalar support s) (discrete : s.isDiscrete = true)
  (word : b.IsWord s) (holds : v.Holds w)
include body discrete word holds

theorem takeIn_word (signals : Bool) :
    ∃ c v', takeIn signals b r v = ⟨⟨c, r.link, .scalar support (s.setWord w)⟩, v', .ok .raw⟩ ∧
      c.active = r.common.active ∧ c.alarms = r.common.alarms ∧ v'.Holds w := by
  have put := Record.put_word discrete body w
  have quiet : ∀ a : Alarms, a.raise .none = a := by
    intro a
    have mild : ¬a.pending.severity < Severity.noAlarm := by simp [Severity.lt_def, Severity.code]
    simp [Alarms.raise, Alarms.yieldsTo, Alarm.none, mild]
  let taken : Record := { r with body := .scalar support (s.setWord w) }
  refine ⟨(inherit taken v).common, if signals then v.post b.flags else v, ?_, ?_, ?_, ?_⟩
  · simp only [takeIn, word.field, holds.value, put, word.raw, Bool.false_eq_true, if_false]
    rfl
  · exact active_inherit taken v
  · exact (alarms_inherit taken v).trans (by rw [holds.alarm, quiet])
  · split
    · exact holds.post _
    · exact holds

theorem readBack_word :
    readBack b r v = ({ r with body := .scalar support (s.setWord w) }, v, .ok ()) := by
  simp only [readBack, word.field, holds.value, Record.put_word discrete body w]

theorem deliver_word (alarms : r.common.alarms = {}) :
    ∃ v', deliver b r v = ⟨r, v', .ok .raw⟩ ∧ v'.Holds s.word := by
  obtain ⟨value, got, converted⟩ := Record.get_word discrete body
  have store : v.store value = .ok { v with value := .ulong s.word } := by
    simp only [store, type, holds.value, Value.type, converted]
  let stored : Variable := { v with value := .ulong s.word, alarm := r.common.alarms.pending }
  refine ⟨stored.post b.flags, ?_, ?_⟩
  · simp only [deliver, word.field, got, store]
    rfl
  · exact Holds.post ⟨rfl, by simp [stored, alarms]⟩ _

/-- A record with bits of its own stores what it merged from the word and its raw value. -/
theorem mergeOut_word (merges : s.merges = true) (idle : r.common.active = false)
    (alarms : r.common.alarms = {}) :
    ∃ x v', mergeOut b s.word r v = ⟨⟨r.common, r.link, .scalar support x⟩, v', .ok .raw⟩ ∧
      x.isOutput = true ∧ x.shown = (s.noteReadBack w).shown ∧
      v'.Holds (Bits.merge w s.word s.mask) := by
  let read := s.setWord w
  let merged := (read.noteReadBack read.word).setWord (Bits.merge read.word s.word read.mask)
  have facts : merged.isDiscrete = true ∧ merged.wordField = s.wordField ∧
      merged.isOutput = true ∧ merged.shown = (s.noteReadBack w).shown ∧
      merged.word = Bits.merge w s.word s.mask := by
    cases s with
    | bo _ | mbbo _ _ => exact ⟨rfl, rfl, rfl, rfl, rfl⟩
    | _ => simp [Scalar.merges] at merges
  obtain ⟨discrete', field, output, shown, left⟩ := facts
  have word' : b.IsWord merged := ⟨word.raw, word.synchronous, word.field.trans field.symm⟩
  obtain ⟨v', delivered, held⟩ :=
    deliver_word (r := ⟨r.common, r.link, .scalar support merged⟩) rfl discrete' word' holds alarms
  refine ⟨merged, v', ?_, output, shown, left ▸ held⟩
  simp only [mergeOut, readBack_word body discrete word holds]
  rw [giveOut_of_synchronous (by exact idle) word.synchronous]
  exact delivered

end Word

/-- **The exchange with a variable.** -/
theorem exchange_word {b : Binding} {r : Record} {s : Scalar} {v : Variable} {w : UInt32}
    (body : r.body = .scalar .shared s) (discrete : s.isDiscrete = true)
    (bound : r.common.binding = .toVariable b) (word : b.IsWord s) (holds : v.Holds w)
    (idle : r.common.active = false) (alarms : r.common.alarms = {}) :
    ∃ c x v', exchange r v = ⟨⟨c, r.link, .scalar .shared x⟩, v', .ok .raw⟩ ∧
      c.active = false ∧ c.alarms = {} ∧
      (if x.isOutput then x else x.ofRaw).shown = (s.passed w).shown ∧ v'.Holds (s.sent w) := by
  obtain ⟨common, link, _⟩ := r
  obtain rfl : _ = Body.scalar .shared s := body
  have first : secondPhase ⟨common, link, .scalar .shared s⟩ v = none := by
    have idle : common.active = false := idle
    simp [secondPhase, idle]
  obtain ⟨c, v', taken, active, quiet, held⟩ :=
    takeIn_word (r := ⟨common, link, .scalar .shared s⟩) rfl discrete word holds true
  obtain ⟨x, delivered, held'⟩ :=
    deliver_word (r := ⟨common, link, .scalar .shared s⟩) rfl discrete word holds alarms
  have stored := (giveOut_of_synchronous idle word.synchronous v).trans delivered
  have bound : common.binding = .toVariable b := bound
  simp only [exchange, bound]
  cases s with
  | ai _ | ao _ => simp [Scalar.isDiscrete] at discrete
  | longin n =>
    simp only [move, taken]
    exact ⟨c, _, v', rfl, active.trans idle, quiet.trans alarms, rfl, held⟩
  | bi d =>
    simp only [move, taken, maskRaw_scalar]
    exact ⟨c, _, v', rfl, active.trans idle, quiet.trans alarms, rfl, held⟩
  | mbbi m =>
    simp only [move, taken, maskRaw_scalar]
    refine ⟨c, _, v', rfl, active.trans idle, quiet.trans alarms, ?_, held⟩
    -- The value is worked out under the mask once more, so masking before makes no difference.
    simp [Scalar.mask, Scalar.setWord, Scalar.passed, Scalar.receive, Scalar.isOutput, Scalar.word,
      Scalar.ofRaw, MultiBit.ofRaw, Bits.state_masked, Bits.state_and, Scalar.shown]
  | longout n =>
    simp only [move, stored]
    exact ⟨common, .longout n, x, rfl, idle, alarms, rfl, held'⟩
  | bo d =>
    cases merges : (Scalar.bo d).merges with
    | true =>
      obtain ⟨y, z, merged, output, shown, held''⟩ :=
        mergeOut_word (r := ⟨common, link, _⟩) rfl discrete word holds merges idle alarms
      simp only [move, first, merges, if_true, merged]
      refine ⟨common, y, z, rfl, idle, alarms, ?_, ?_⟩
      · rw [output]
        exact shown
      · simpa [Scalar.sent, Scalar.isOutput, merges] using held''
    | false =>
      simp only [move, first, merges, Bool.false_eq_true, if_false, stored]
      refine ⟨common, .bo d, x, rfl, idle, alarms, rfl, ?_⟩
      simpa [Scalar.sent, Scalar.isOutput, merges] using held'
  | mbbo m readBack =>
    obtain ⟨y, z, merged, output, shown, held''⟩ :=
      mergeOut_word (r := ⟨common, link, _⟩) rfl discrete word holds rfl idle alarms
    simp only [move, first, Scalar.merges, if_true, merged]
    refine ⟨common, y, z, rfl, idle, alarms, ?_, held''⟩
    rw [output]
    exact shown

theorem Binding.IsWord.of_skeleton {b : Binding} {s t : Scalar} (word : b.IsWord s)
    (h : s.skeleton = t.skeleton) : b.IsWord t := by
  refine ⟨word.raw, word.synchronous, word.field.trans ?_⟩
  rw [← Scalar.wordField_skeleton s, h, Scalar.wordField_skeleton]

end Variable

/-- **A pass over a variable.** -/
theorem Record.pass_variable {r : Record} {b : Variable.Binding} {s : Scalar} {v : Variable}
    {w : UInt32} (word : b.IsWord s) (shows : r.Shows .shared s) (discrete : s.isDiscrete = true)
    (bound : r.common.binding = .toVariable b) (holds : v.Holds w) :
    ∃ r' v', r.process Target.exchange (.shared v) = (r', .shared v') ∧
      r'.Shows .shared (s.passed w) ∧ r'.common.undefined = false ∧ v'.Holds (s.leaves w) := by
  obtain ⟨u, body, same⟩ := shows.body
  have prepared := prepare_of_idle body shows.idle
  have same' : u.toRaw.shown = s.shown := by rw [Scalar.shown_toRaw, same]
  have type := Scalar.skeleton_of_shown same'
  have discrete' : u.toRaw.isDiscrete = true :=
    (Scalar.isDiscrete_of_skeleton type).trans discrete
  obtain ⟨c, x, v', moved, idle, alarms, fields, held⟩ :=
    Variable.exchange_word (r := ⟨r.common, r.link, .scalar .shared u.toRaw⟩) rfl discrete' bound
      (word.of_skeleton type.symm) holds shows.idle shows.alarms
  have moved' : Target.exchange r.prepare (.shared v) =
      ⟨⟨c, r.link, .scalar .shared x⟩, .shared v', .ok .raw⟩ := by
    rw [prepared]
    simp only [Target.exchange, moved]
  have fields' : (if x.isOutput then x else x.ofRaw).shown = (u.passed w).shown :=
    fields.trans (Scalar.passed_of_settings (Scalar.settings_of_shown (Scalar.shown_toRaw u)) w)
  obtain ⟨r', passed, shows', defined⟩ := shows_of_exchange shows body discrete (by simp [bound])
    moved' ⟨idle, alarms⟩ fields'
  refine ⟨r', v', passed, shows', defined, ?_⟩
  rw [← Scalar.leaves_of_settings (Scalar.settings_of_shown same)]
  exact held

end ControlRecords
