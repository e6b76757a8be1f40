import ControlRecords.Proofs.Refusals
import ControlRecords.Proofs.SecondPass
import ControlRecords.Proofs.StartingValues

/-! # What an input takes over

A pass of an input takes over the variable's value, its alarm and its time.  Three alarms may
compete in it: the variable's own, the failure to read when the value does not go into the field,
and that the record has no defined value.  They are raised in this order, and the first of the
worst stays.  So a failure to read gives way to the variable's alarm exactly if that is of the
highest severity, and that the value is undefined is never reported: a value that was taken over
is defined, and after a failure an alarm of the highest severity is pending already
(`inputs_take_over`).

The value itself goes into one field, which the link chooses.  Of a raw value of bits those under
the mask are kept, if there is a mask, and the state is worked out from them afterwards
(`Scalar.takingOver`). -/
namespace ControlRecords

/-- A failure to read is what is pending, unless the alarm before it was as bad. -/
theorem Alarms.pending_raise_read {s : Alarms} (clear : s.pending = .none) (a : Alarm) :
    ((s.raise a).raise ⟨.read, .invalid⟩).pending =
      ⟨if a.severity = .invalid then a.status else .read, .invalid⟩ := by
  obtain ⟨status, severity⟩ := a
  rw [pending_raise, pending_raise, clear]
  cases severity <;> rfl

/-! ## Fields -/

namespace Scalar

/-- What a record keeps of a value for one of its fields: of a raw value of bits those under the
mask, if there is a mask. -/
def admitted (s : Scalar) : Field → Value → Value
  | .rval, .ulong w => .ulong (Bits.masked w s.mask)
  | _, w => w

/-- The fields of an input after a pass that loads a value, by whether it is the final one. -/
def takingOver (s : Scalar) (f : Field) (w : Value) (final : Bool) : Scalar :=
  let loaded := s.set f w
  if final then loaded else (loaded.setWord (Bits.masked loaded.word loaded.mask)).ofRaw

section Input
variable {s : Scalar} (input : s.isOutput = false) (discrete : s.isDiscrete = true)
include input discrete

/-- The inputs of whole numbers, of one bit and of several bits. -/
theorem input_cases : (∃ n, s = longin n) ∨ (∃ d, s = bi d) ∨ ∃ m, s = mbbi m := by
  cases s with
  | longin n => exact Or.inl ⟨n, rfl⟩
  | bi d => exact Or.inr (Or.inl ⟨d, rfl⟩)
  | mbbi m => exact Or.inr (Or.inr ⟨m, rfl⟩)
  | ai _ => simp [isDiscrete] at discrete
  | _ => simp [isOutput] at input

/-- What became of such an input is one still. -/
theorem input_of_skeleton {t : Scalar} (same : t.skeleton = s.skeleton) :
    t.isOutput = false ∧ t.isDiscrete = true :=
  ⟨by rw [← isOutput_skeleton, same, isOutput_skeleton, input],
    (isDiscrete_of_skeleton same).trans discrete⟩

/-- The field that a link chooses is there. -/
theorem exists_type?_chosen (direct : Bool) : ∃ t, s.type? (s.chosen direct) = some t := by
  obtain ⟨n, rfl⟩ | ⟨d, rfl⟩ | ⟨m, rfl⟩ := input_cases input discrete
  · exact ⟨.long, rfl⟩
  · cases direct <;> exact ⟨_, rfl⟩
  · cases direct <;> exact ⟨_, rfl⟩

/-- **The chosen field holds what the record keeps of the value.** -/
theorem get?_takingOver {direct : Bool} {t : DataType} {w : Value}
    (type : s.type? (s.chosen direct) = some t) (typed : w.type = t) :
    (s.takingOver (s.chosen direct) w direct).get? (s.chosen direct) =
      some (s.admitted (s.chosen direct) w) := by
  obtain ⟨n, rfl⟩ | ⟨d, rfl⟩ | ⟨m, rfl⟩ := input_cases input discrete
  · obtain ⟨x, rfl⟩ := Value.exists_long (typed.trans (Option.some.inj type).symm)
    -- A whole number has no mask, so that none of its bits is taken away.
    have whole : (longin x).setWord (Bits.masked (longin x).word (longin x).mask) = longin x :=
      (setWord_masked (longin x)).symm
    cases direct with
    | true => rfl
    | false => exact congrArg (fun u : Scalar => u.ofRaw.get? .val) whole
  · cases direct with
    | true =>
      obtain ⟨x, rfl⟩ := Value.exists_enum (typed.trans (Option.some.inj type).symm)
      rfl
    | false =>
      obtain ⟨x, rfl⟩ := Value.exists_ulong (typed.trans (Option.some.inj type).symm)
      rfl
  · cases direct with
    | true =>
      obtain ⟨x, rfl⟩ := Value.exists_enum (typed.trans (Option.some.inj type).symm)
      rfl
    | false =>
      obtain ⟨x, rfl⟩ := Value.exists_ulong (typed.trans (Option.some.inj type).symm)
      rfl

end Input

end Scalar

/-! ## The move of the value -/

namespace Variable
variable {b : Binding} {r x : Record} {s : Scalar} {v : Variable}

@[simp] theorem time_post (v : Variable) (flags : Flags) : (v.post flags).time = v.time := by
  unfold post; split <;> rfl

@[simp] theorem undefined_inherit (r : Record) (v : Variable) :
    (inherit r v).common.undefined = r.common.undefined := by
  simp only [inherit, Record.withCommon, Common.stampFromDevice, Common.raise]
  split <;> rfl

/-- A whole number that was loaded has no bits to take away. -/
theorem maskRaw_of_longin {n : Int32} {f : Field} {w : Value}
    (loaded : x.body = .scalar .shared ((Scalar.longin n).set f w)) : maskRaw x = x := by
  have unmasked : ((Scalar.longin n).set f w).mask = 0 := by
    unfold Scalar.set
    split <;> first | rfl | contradiction
  simp only [maskRaw, Record.mapScalar, loaded, Body.mapScalar, unmasked, ne_eq, not_true_eq_false,
    if_false]
  rw [← loaded]

/-- An input that loads a raw value takes away the bits that are not its own. -/
theorem move_of_put (input : s.isOutput = false) (discrete : s.isDiscrete = true) {w : Value}
    (loaded : x.body = .scalar .shared (s.set b.field w))
    (put : r.put b.field v.value = .ok x) :
    move b s r v =
      if b.flags.noConvert then ⟨(inherit x v).setUndefined false, v.post b.flags, .ok .final⟩
      else ⟨maskRaw (inherit x v), v.post b.flags, .ok .raw⟩ := by
  have taken : takeIn true b r v =
      if b.flags.noConvert then ⟨(inherit x v).setUndefined false, v.post b.flags, .ok .final⟩
      else ⟨inherit x v, v.post b.flags, .ok .raw⟩ := by
    simp only [takeIn, put, if_true]
  obtain ⟨n, rfl⟩ | ⟨d, rfl⟩ | ⟨m, rfl⟩ := Scalar.input_cases input discrete
  · have whole : maskRaw (inherit x v) = inherit x v := maskRaw_of_longin loaded
    rw [whole, ← taken]
    rfl
  all_goals
    cases direct : b.flags.noConvert <;>
      simp only [move, taken, direct, Bool.false_eq_true, if_false, if_true]

/-- A value that does not go into the field is reported. -/
theorem move_of_refused (input : s.isOutput = false) {e : FieldError}
    (refused : r.put b.field v.value = .error e) :
    move b s r v =
      ⟨(inherit r v).raise .read .invalid, v.post b.flags, .error (.field e)⟩ := by
  cases s with
  | ai _ | bi _ | mbbi _ | longin _ => simp only [move, takeIn, refused, if_true]
  | _ => simp [Scalar.isOutput] at input

end Variable

/-! ## The pass -/

namespace Record
variable {r : Record} {s : Scalar} {b : Variable.Binding} {v : Variable}

/-- A record that reads has nothing left to settle when the value is in its final form. -/
theorem finish_of_final {support : ScalarSupport} (body : r.body = .scalar support s)
    (input : s.isOutput = false) : r.finish (.ok .final) = r.withCommon Common.finish := by
  simp only [finish, settle, body, Body.isOutput, input]

/-- The pass of an input is the move of its value, and then it is over. -/
theorem process_of_input {q : Record} {w : Variable} {result : Except VariableError Transfer}
    (body : r.body = .scalar .shared s) (input : s.isOutput = false)
    (bound : r.common.binding = .toVariable b)
    (moved : Variable.move b s r v = ⟨q, w, result⟩) (idle : q.common.active = false) :
    r.process Target.exchange (.shared v) =
      (q.finish (result.mapError .shared), .shared w) := by
  have prepared : r.prepare = r := by simp [prepare, body, Body.isOutput, input]
  have exchanged : Target.exchange r.prepare (.shared v) =
      ⟨q, .shared w, result.mapError .shared⟩ := by
    rw [prepared]
    simp only [Target.exchange, Variable.exchange, body, bound, moved]
  rw [process_of_idle (by simp [bound]) (by rw [exchanged]; exact idle), exchanged]

section Input
variable {t : DataType} (body : r.body = .scalar .shared s) (input : s.isOutput = false)
  (idle : r.common.active = false) (bound : r.common.binding = .toVariable b)
  (type : s.type? b.field = some t)
include body input idle bound type

/-- **A pass that takes a value over.**  The value is defined at its end. -/
theorem process_of_converted (discrete : s.isDiscrete = true) {w : Value}
    (converted : v.value.convert t = .ok w) :
    r.process Target.exchange (.shared v) =
      (⟨({ (Variable.inherit r v).common with undefined := false } : Common).finish, r.link,
          .scalar .shared (s.takingOver b.field w b.flags.noConvert)⟩,
        .shared (v.post b.flags)) := by
  let u := s.set b.field w
  let x : Record := { r with body := .scalar .shared u }
  have put : r.put b.field v.value = .ok x := by
    simp only [Record.put, body, Body.type?, type, converted]
    rfl
  have idle' : (Variable.inherit x v).common.active = false :=
    (Variable.active_inherit x v).trans idle
  have moved := Variable.move_of_put input discrete rfl put
  cases direct : b.flags.noConvert with
  | true =>
    rw [direct, if_pos rfl] at moved
    obtain ⟨reads, -⟩ := Scalar.input_of_skeleton input discrete (s.skeleton_set b.field w)
    have ended : ((Variable.inherit x v).setUndefined false).finish (.ok .final) =
        ((Variable.inherit x v).setUndefined false).withCommon Common.finish :=
      finish_of_final rfl reads
    rw [process_of_input body input bound moved idle']
    exact congrArg (·, _) ended
  | false =>
    let kept := u.setWord (Bits.masked u.word u.mask)
    have masked : Variable.maskRaw (Variable.inherit x v) =
        { Variable.inherit x v with body := .scalar .shared kept } :=
      Variable.maskRaw_scalar _ _ _ _
    rw [direct, if_neg Bool.false_ne_true, masked] at moved
    obtain ⟨reads, discrete'⟩ := Scalar.input_of_skeleton input discrete
      ((u.skeleton_setWord _).trans (s.skeleton_set b.field w))
    have settled : ({ Variable.inherit x v with body := .scalar .shared kept } : Record).settle
        (.ok .raw) = ⟨{ (Variable.inherit r v).common with undefined := false }, r.link,
          .scalar .shared kept.ofRaw⟩ := by
      rw [settle_of_discrete rfl discrete', reads]
      rfl
    rw [process_of_input body input bound moved idle', finish]
    exact congrArg (fun q : Record => (q.withCommon Common.finish, _)) settled

/-- **A pass that fails to take a value over.** -/
theorem process_of_refused {e : ConvertError} (refused : v.value.convert t = .error e) :
    r.process Target.exchange (.shared v) =
      (((Variable.inherit r v).raise .read .invalid).finish
          (.error (.shared (.field (.convert e)))),
        .shared (v.post b.flags)) := by
  have put : r.put b.field v.value = .error (.convert e) := by
    simp only [Record.put, body, Body.type?, type, refused]
  exact process_of_input body input bound (Variable.move_of_refused input put)
    ((Variable.active_inherit r v).trans idle)

end Input

/-! ## What the record has then -/

/-- What an input has after a pass in which it was to take over the variable's value as one of a
type, and what the variable has. -/
structure TakesOver (r q : Record) (s : Scalar) (b : Variable.Binding) (t : DataType)
    (v w : Variable) : Prop where
  /-- The value goes into the field: the field holds what the record keeps of it, the value is
  defined, and the alarm is the variable's, if that has one. -/
  converted : ∀ x, v.value.convert t = .ok x →
    q.get? b.field = some (s.admitted b.field x) ∧ q.common.undefined = false ∧
      q.common.alarms.current = if .noAlarm < v.alarm.severity then v.alarm else .none
  /-- It does not: the record has the values that it had, and an alarm of the highest severity. -/
  refused : ∀ e, v.value.convert t = .error e →
    q.get? .val = r.get? .val ∧ q.get? .rval = r.get? .rval ∧
      q.common.undefined = r.common.undefined ∧
      q.common.alarms.current =
        ⟨if v.alarm.severity = .invalid then v.alarm.status else .read, .invalid⟩
  /-- In either case the time is the variable's, if the record's time comes from the device. -/
  time : q.common.time = if r.common.timeSource = .device then v.time else .clock
  value : w.value = v.value
  alarm : w.alarm = v.alarm
  stamp : w.time = v.time
  attached : w.attached = v.attached

/-- The time of a record that has taken over the variable's is that or the clock's. -/
theorem time_finish_inherit {c : Common} (source : c.timeSource = r.common.timeSource)
    (time : c.time = (Variable.inherit r v).common.time) :
    c.finish.time = if r.common.timeSource = .device then v.time else .clock := by
  rw [Common.time_finish, source, time, Variable.time_inherit]
  cases r.common.timeSource <;> rfl

section Input
variable {t : DataType} (clear : r.common.alarms.pending = .none)
include clear

/-- What there is after a pass that took a value over. -/
theorem takesOver_of_converted (input : s.isOutput = false) (discrete : s.isDiscrete = true)
    (field : b.field = s.chosen b.flags.noConvert) (type : s.type? b.field = some t) {x : Value}
    (converted : v.value.convert t = .ok x) :
    r.TakesOver ⟨({ (Variable.inherit r v).common with undefined := false } : Common).finish,
      r.link, .scalar .shared (s.takingOver b.field x b.flags.noConvert)⟩ s b t v
      (v.post b.flags) := by
  let defined : Common := { (Variable.inherit r v).common with undefined := false }
  have held : (s.takingOver b.field x b.flags.noConvert).get? b.field =
      some (s.admitted b.field x) := by
    rw [field] at type ⊢
    exact Scalar.get?_takingOver input discrete type (Value.type_convert converted)
  have alarms : defined.alarms = r.common.alarms.raise v.alarm := Variable.alarms_inherit r v
  have current : defined.finish.alarms.current =
      if .noAlarm < v.alarm.severity then v.alarm else .none := by
    rw [Common.current_finish, if_neg Bool.false_ne_true, alarms, Alarms.pending_raise, clear]
    rfl
  exact
    { converted := by
        intro y ok
        obtain rfl := Except.ok.inj (converted.symm.trans ok)
        refine ⟨?_, defined.undefined_finish, current⟩
        simp only [get?, Body.get?, held]
        rfl
      refused := by
        intro e failed
        rw [converted] at failed
        contradiction
      time := time_finish_inherit (Variable.timeSource_inherit r v) rfl
      value := v.value_post _
      alarm := v.alarm_post _
      stamp := v.time_post _
      attached := v.attached_post _ }

/-- What there is after a pass that failed to take a value over. -/
theorem takesOver_of_refused {e : ConvertError} (refused : v.value.convert t = .error e)
    (error : SupportError) :
    r.TakesOver (((Variable.inherit r v).raise .read .invalid).finish (.error error)) s b t v
      (v.post b.flags) := by
  let failed := (Variable.inherit r v).raise .read .invalid
  have same : (failed.finish (.error error)).body = r.body := body_finish_of_error failed error
  have ended : (failed.finish (.error error)).common = failed.common.finish :=
    congrArg (fun q : Record => q.common.finish) (settle_of_error failed error)
  have raised : failed.common.alarms = (r.common.alarms.raise v.alarm).raise ⟨.read, .invalid⟩ :=
    congrArg (·.raise ⟨.read, .invalid⟩) (Variable.alarms_inherit r v)
  have pending : failed.common.alarms.pending =
      ⟨if v.alarm.severity = .invalid then v.alarm.status else .read, .invalid⟩ := by
    rw [raised, Alarms.pending_raise_read clear]
  have undefined : (failed.finish (.error error)).common.undefined = r.common.undefined := by
    rw [ended, Common.undefined_finish]
    exact Variable.undefined_inherit r v
  have current : (failed.finish (.error error)).common.alarms.current =
      ⟨if v.alarm.severity = .invalid then v.alarm.status else .read, .invalid⟩ := by
    rw [current_finish_of_invalid (by rw [pending]), pending]
  exact
    { converted := by
        intro x ok
        rw [refused] at ok
        contradiction
      refused := fun _ _ => ⟨get?_of_body same rfl, get?_of_body same rfl, undefined, current⟩
      time := by
        rw [ended]
        exact time_finish_inherit (Variable.timeSource_inherit r v) rfl
      value := v.value_post _
      alarm := v.alarm_post _
      stamp := v.time_post _
      attached := v.attached_post _ }

/-- **What the pass of an input takes over.** -/
theorem takesOver_process (body : r.body = .scalar .shared s) (input : s.isOutput = false)
    (discrete : s.isDiscrete = true) (idle : r.common.active = false)
    (bound : r.common.binding = .toVariable b) (field : b.field = s.chosen b.flags.noConvert)
    (type : s.type? b.field = some t) :
    ∃ q, r.process Target.exchange (.shared v) = (q, .shared (v.post b.flags)) ∧
      r.TakesOver q s b t v (v.post b.flags) := by
  rcases attempt : v.value.convert t with e | x
  · exact ⟨_, process_of_refused body input idle bound type attempt,
      takesOver_of_refused clear attempt _⟩
  · exact ⟨_, process_of_converted body input idle bound type discrete attempt,
      takesOver_of_converted clear input discrete field type attempt⟩

end Input

end Record

namespace Controller

/-- **Inputs take over the variable's value, alarm and time.**  An idle input of whole numbers, of
one bit or of several bits has no alarm pending and is connected to the variable that its link was
resolved to, of whatever type and with whatever options.  Then its pass takes the variable's value
over, or fails to: the field that the link chooses has a type, and which of the two happens is up
to whether the value converts to that. -/
theorem inputs_take_over {c : Controller} {id : RecordId} {r : Record} {s : Scalar}
    {b : Variable.Binding} {v : Variable} {table : Variable.GroupTable} {setting : Option String}
    {link : Link} (there : c.record? id = some r) (body : r.body = .scalar .shared s)
    (input : s.isOutput = false) (discrete : s.isDiscrete = true)
    (idle : r.common.active = false) (clear : r.common.alarms.pending = .none)
    (bound : r.common.binding = .toVariable b)
    (named : (Variable.resolve table setting link r (.ofScalar s)).1 = .ok b)
    (present : c.variableAt? b.target = some v) :
    ∃ t q w, s.type? b.field = some t ∧ (c.process id).record? id = some q ∧
      (c.process id).variableAt? b.target = some w ∧ r.TakesOver q s b t v w := by
  have field : b.field = s.chosen b.flags.noConvert :=
    Variable.field_eq_chosen (Variable.resolve_eq_ok named).2
  obtain ⟨t, type⟩ := Scalar.exists_type?_chosen input discrete b.flags.noConvert
  rw [← field] at type
  obtain ⟨q, pass, takes⟩ :=
    Record.takesOver_process (v := v) clear body input discrete idle bound field type
  have after : variableAfter r v = v.post b.flags := by simp only [variableAfter, pass]
  have moved := process_of_shared there body bound present
  refine ⟨t, q, v.post b.flags, type, ?_, ?_, takes⟩
  · rw [moved, pass]
    exact record?_setRecord_of_some there _
  · rw [moved, after, variableAt?_setRecord]
    exact variableAt?_setVariable_self _ _ _ (by simp [present])

/-- Two variables with alarms, one of them a text that is no number, and an input of several bits
and one of a single bit that are connected to them.  The first record takes its time from the
device. -/
def alarmedTank : Controller :=
  let level : Variable := { value := .ulong 0x75, alarm := ⟨.high, .minor⟩, time := .moment 5 }
  let valve : Variable := { value := .string "open", alarm := ⟨.communication, .invalid⟩ }
  let c : Controller := (({} : Controller).registerGroup "tank" [level, valve]).1
  let c := (c.adopt ⟨{ name := "level", timeSource := .device }, .hardware ⟨0, 0, "tank"⟩,
    .scalar .shared (.mbbi { bits := 3, shift := 4 })⟩ none).2
  let c := (c.adopt ⟨{ name := "valve" }, .hardware ⟨1, 0, "tank"⟩,
    .scalar .shared (.bi {})⟩ none).2
  ((c.initialise ⟨0⟩).1.initialise ⟨1⟩).1

/-- The level is taken over without the bits that are not the record's; the text is not, and the
alarm of its variable is reported and not that the record has no value. -/
theorem inputs_take_over_tank :
    (∃ q w, (alarmedTank.process ⟨0⟩).record? ⟨0⟩ = some q ∧ q.get? .rval = some (.ulong 0x70) ∧
      q.common.undefined = false ∧ q.common.alarms.current = ⟨.high, .minor⟩ ∧
      q.common.time = .moment 5 ∧ (alarmedTank.process ⟨0⟩).variableAt? ⟨0⟩ = some w ∧
      w.value = .ulong 0x75) ∧
    ∃ q, (alarmedTank.process ⟨1⟩).record? ⟨1⟩ = some q ∧ q.common.undefined = true ∧
      q.common.alarms.current = ⟨.communication, .invalid⟩ := by
  let b (card : Nat) : Variable.Binding :=
    { target := ⟨card⟩, flags := (Variable.Choice.ofScalar (.bi {})).flags 0, field := .rval,
      fieldType := .ulong }
  let level : Record :=
    ⟨{ name := "level", timeSource := .device, binding := .toVariable (b 0), handle := some ⟨0⟩ },
      .hardware ⟨0, 0, "tank"⟩, .scalar .shared (.mbbi { mask := 0x70, bits := 3, shift := 4 })⟩
  let valve : Record :=
    ⟨{ name := "valve", binding := .toVariable (b 1), handle := some ⟨1⟩ },
      .hardware ⟨1, 0, "tank"⟩, .scalar .shared (.bi {})⟩
  have there : alarmedTank.record? ⟨0⟩ = some level := rfl
  have there' : alarmedTank.record? ⟨1⟩ = some valve := rfl
  let groups : Variable.GroupTable := alarmedTank.catalogue.groups
  have named : (Variable.resolve groups none level.link level (.ofScalar (.mbbi {}))).1 =
      .ok (b 0) := rfl
  have named' : (Variable.resolve groups none valve.link valve (.ofScalar (.bi {}))).1 =
      .ok (b 1) := rfl
  obtain ⟨e, garbled⟩ : ∃ e, (Value.string "open").convert .ulong = .error e := ⟨_, rfl⟩
  obtain ⟨t, q, w, type, stands, left, takes⟩ :=
    inputs_take_over there rfl rfl rfl rfl rfl rfl named rfl
  obtain ⟨t', q', w', type', stands', left', takes'⟩ :=
    inputs_take_over there' rfl rfl rfl rfl rfl rfl named' rfl
  obtain rfl : DataType.ulong = t := Option.some.inj type
  obtain rfl : DataType.ulong = t' := Option.some.inj type'
  obtain ⟨value, defined, current⟩ := takes.converted _ rfl
  obtain ⟨-, -, undefined, current'⟩ := takes'.refused e garbled
  exact ⟨⟨q, w, stands, value, defined, current, takes.time, left, takes.value⟩,
    q', stands', undefined, current'⟩

end Controller

end ControlRecords
