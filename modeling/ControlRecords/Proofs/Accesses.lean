import ControlRecords.Proofs.Pass

/-! # Accesses to a variable

Whatever happens to a variable is one of a few accesses: its driver stores a value, reports an
alarm, completes a write or asks for the event, and records take the value, give it or read it
back.  `Variable.after` is the variable after an access.

What an access does can be told beforehand, from the variable and, where the access is made
for a record, from that record alone: the value that it stores, if it stores one (`stored?`),
and whether the event is signalled (`completes`, `spoils`).  That the routines which move
values between records and variables do just this is `value_after` and `event_after`. -/
namespace ControlRecords

namespace Record

/-- The fields that a record has are told by its skeleton. -/
theorem isSome_get?_skeleton (r : Record) (f : Field) :
    (r.skeleton.get? f).isSome = (r.get? f).isSome := by
  have common : (r.common.skeleton.get? f).isSome = (r.common.get? f).isSome := by cases f <;> rfl
  have body : (r.body.skeleton.get? f).isSome = (r.body.get? f).isSome := by
    cases r.body with
    | scalar _ s => cases s <;> cases f <;> rfl
    | array _ a => cases f <;> rfl
  simp only [get?, skeleton, Option.orElse_eq_orElse, Option.orElse_eq_or, Option.isSome_or,
    common, body]

theorem isSome_get?_of_skeleton {r s : Record} (h : s.skeleton = r.skeleton) (f : Field) :
    (s.get? f).isSome = (r.get? f).isSome := by
  rw [← isSome_get?_skeleton s, h, isSome_get?_skeleton]

end Record

namespace Variable

/-- What can be done to a variable, by its driver or for a record.  An access that is made for
a record comes with the record as it is at that moment. -/
inductive Access where
  /-- The driver stores a value. -/
  | store (value : Value)
  /-- The driver sets the alarm. -/
  | report (alarm : Alarm)
  /-- The driver sets the time. -/
  | stamp (time : TimeStamp)
  /-- The driver completes the write that waits. -/
  | release
  /-- The driver signals the event. -/
  | signal
  /-- The driver asks whether the event is signalled, and does not wait for it. -/
  | poll
  /-- The value is loaded into a record's field. -/
  | take (b : Binding) (r : Record)
  /-- A record's field is stored. -/
  | give (b : Binding) (r : Record)
  /-- The value is read back into a record's field. -/
  | readBack (b : Binding) (r : Record)
  /-- The value is read back, and stored again with the record's own bits replaced. -/
  | merge (b : Binding) (wanted : UInt32) (r : Record)

/-- The variable after an access. -/
def after (v : Variable) : Access → Variable
  | .store value =>
    match v.store value with
    | .ok w => w
    | .error _ => v
  | .report alarm => { v with alarm }
  | .stamp time => { v with time }
  | .release => { v with attached := none }
  | .signal => v.signal
  | .poll => (v.wait 0).2
  | .take b r => (takeIn true b r v).target
  | .give b r => (giveOut b r v).target
  | .readBack b r => (Variable.readBack b r v).2.1
  | .merge b wanted r => (mergeOut b wanted r v).target

/-- A record that has read its variable back, with its own bits replaced. -/
def merged (wanted : UInt32) (r : Record) : Record :=
  r.mapScalar fun s => (s.noteReadBack s.word).setWord (Bits.merge s.word wanted s.mask)

/-- The write that belongs to an access: the record as it is when its field is stored. -/
def write? (v : Variable) : Access → Option (Binding × Record)
  | .give b r => some (b, r)
  | .merge b wanted r =>
    match Variable.readBack b r v with
    | (back, _, .ok ()) => some (b, merged wanted back)
    | (_, _, .error _) => none
  | _ => none

/-- A write is a first pass and is not refused.  An asynchronous write is refused if there is
no scheduler for its second pass, or if another write waits to be completed. -/
def admits (v : Variable) (b : Binding) (r : Record) : Bool :=
  !r.common.active && (!b.flags.asynchronous ||
    (r.common.handle.isSome && r.common.scheduler.isSome && v.attached.isNone))

/-- The value that a write stores, if it is admitted and the field can be converted.  A record
that has to wait is active by the time its field is read. -/
def given? (v : Variable) (b : Binding) (r : Record) : Option Value :=
  if v.admits b r then
    ((r.setActive b.flags.asynchronous).get? b.field).bind fun x => (x.convert v.type).toOption
  else none

/-- The value that an access stores, if it stores one. -/
def stored? (v : Variable) : Access → Option Value
  | .store value => (value.convert v.type).toOption
  | a => (v.write? a).bind fun p => v.given? p.1 p.2

/-- The access is one that the event tells of: the driver signals, or a record for whose
accesses the event is signalled has the value loaded or makes a first pass that is not
refused. -/
def completes (v : Variable) : Access → Bool
  | .signal => true
  | .take b r => !b.flags.noPost && (r.put b.field v.value).isOk
  | a => (v.write? a).any fun p => !p.1.flags.noPost && v.admits p.1 p.2

/-- The event is signalled for a record that the value could not be loaded into. -/
def spoils (v : Variable) : Access → Bool
  | .take b r => !b.flags.noPost && !(r.put b.field v.value).isOk
  | _ => false

/-- The access is made for a record, through its connection. -/
def Access.Moves (b : Binding) (r : Record) : Access → Prop
  | .take b' r' | .give b' r' | .readBack b' r' | .merge b' _ r' => b' = b ∧ r' = r
  | _ => False

/-- The record has the fields that an access moves. -/
def Access.Fitted : Access → Prop
  | .take b r | .give b r | .readBack b r | .merge b _ r => (r.get? b.field).isSome = true
  | _ => True

theorem Access.Moves.fitted {a : Access} {b : Binding} {r : Record} (h : a.Moves b r)
    (field : (r.get? b.field).isSome = true) : a.Fitted := by
  cases a with
  | take _ _ | give _ _ | readBack _ _ | merge _ _ _ =>
    obtain ⟨rfl, rfl⟩ := h
    exact field
  | _ => trivial

/-! ## Polling -/

/-- Asking for the event tells whether it is signalled, and it is not afterwards. -/
theorem wait_zero (v : Variable) :
    v.wait 0 = match v.event with
      | none => (.noEvent, v)
      | some signalled =>
        (if signalled then .ok else .timedOut, { v with event := some false }) := by
  -- Zero is neither a limit below zero, nor none, nor no number.
  have notNegative : ¬(0 : Float) < 0 := by decide
  have finite : ((0 : Float) == 1.0 / 0.0) = false := by decide
  have number : (0 : Float).isNaN = false := by decide
  unfold wait
  cases h : v.event with
  | none => rfl
  | some signalled =>
    simp only [notNegative, finite, number, decide_false, Bool.or_self, Bool.and_false,
      Bool.false_eq_true, if_false]
    cases signalled <;> rfl

/-! ## Writes -/

/-- How a write goes. -/
inductive Gave (b : Binding) (r : Record) (v : Variable) (x : Exchanged) : Prop where
  /-- It is the second pass of a write that was completed. -/
  | second (active : r.common.active = true) (same : x = ⟨inherit r v, v, .ok .raw⟩)
  /-- It is refused. -/
  | refused {e : VariableError} (refused : v.admits b r = false)
      (reason : e = .conflict ∨ e = .noScheduler)
      (same : x = ⟨r.raise .write .invalid, v, .error e⟩)
  /-- It is admitted, and the record is attached if it has to wait. -/
  | admitted (attached : Option Attachment) (admitted : v.admits b r = true)
      (same : x = deliver b (r.setActive b.flags.asynchronous) { v with attached })

/-- Attaching a record fails for lack of a scheduler, or since the variable is taken. -/
theorem attachRecord_eq (r : Record) (v : Variable) :
    (∃ e, attachRecord r v = .error e ∧ (e = .conflict ∨ e = .noScheduler) ∧
      (r.common.handle.isSome && r.common.scheduler.isSome && v.attached.isNone) = false) ∨
    (∃ a, attachRecord r v = .ok { v with attached := some a } ∧
      (r.common.handle.isSome && r.common.scheduler.isSome && v.attached.isNone) = true) := by
  unfold attachRecord
  split
  · rename_i record scheduler handle runs
    unfold attach
    split
    · rename_i taken
      exact Or.inl ⟨_, rfl, Or.inl rfl, by simp [taken]⟩
    · rename_i free
      exact Or.inr ⟨_, rfl, by simpa [handle, runs] using free⟩
  · rename_i incomplete
    refine Or.inl ⟨_, rfl, Or.inr rfl, ?_⟩
    cases handle : r.common.handle with
    | none => rfl
    | some record =>
      cases runs : r.common.scheduler with
      | none => rfl
      | some scheduler => exact absurd runs (incomplete record scheduler handle)

/-- **A write is a second pass, is refused, or is admitted.** -/
theorem gave_giveOut (b : Binding) (r : Record) (v : Variable) : Gave b r v (giveOut b r v) := by
  cases active : r.common.active with
  | true => exact .second active (by simp [giveOut, secondPhase, active])
  | false =>
    have first : secondPhase r v = none := by simp [secondPhase, active]
    cases waits : b.flags.asynchronous with
    | false =>
      have same : r.setActive false = r := by
        rw [← active]
        rfl
      refine .admitted v.attached (by simp [admits, active, waits]) ?_
      rw [waits, same]
      exact giveOut_of_synchronous active waits v
    | true =>
      simp only [giveOut, first, waits, if_true]
      rcases attachRecord_eq r v with ⟨e, failed, reason, refused⟩ | ⟨a, taken, admitted⟩
      · rw [failed]
        exact .refused (by simp [admits, active, waits, refused]) reason rfl
      · rw [taken]
        refine .admitted (some a) (by simp [admits, active, waits, admitted]) ?_
        rw [waits]

/-- **A first pass is refused exactly if it ends with one of the errors of an attachment.** -/
theorem admits_eq_false_iff {b : Binding} {r : Record} (idle : r.common.active = false)
    (v : Variable) : v.admits b r = false ↔
      (giveOut b r v).result = .error .conflict ∨ (giveOut b r v).result = .error .noScheduler := by
  cases gave_giveOut b r v with
  | second active => simp [idle] at active
  | refused refused reason same =>
    rw [same]
    rcases reason with rfl | rfl <;> simp [refused]
  | admitted _ admitted same =>
    -- What is delivered fails for the field or for its value, or not at all.
    rw [same, admitted]
    simp only [deliver]
    split
    · simp
    · split <;> simp

section Deliver
variable (b : Binding) (r : Record) (v : Variable)

/-- What is delivered is the field's value, converted to the variable's type. -/
theorem value_deliver :
    (deliver b r v).target.value =
      ((r.get? b.field).bind fun x => (x.convert v.type).toOption).getD v.value := by
  unfold deliver
  split
  · rename_i absent
    rw [absent]
    rfl
  · rename_i x field
    rw [field, Option.bind_some]
    cases converted : x.convert v.type with
    | ok y =>
      simp only [store, converted, post]
      split <;> rfl
    | error e =>
      simp only [store, converted, post]
      split <;> rfl

theorem event_post (v : Variable) (flags : Flags) :
    (v.post flags).event = if flags.noPost then v.event else v.event.map fun _ => true := by
  unfold post
  split <;> rfl

/-- The event is signalled whether or not the value could be converted. -/
theorem event_deliver (field : (r.get? b.field).isSome = true) :
    (deliver b r v).target.event =
      if b.flags.noPost then v.event else v.event.map fun _ => true := by
  obtain ⟨x, field⟩ := Option.isSome_iff_exists.1 field
  unfold deliver
  rw [field]
  dsimp only
  split
  · rename_i w stored
    obtain ⟨y, -, rfl⟩ := store_eq_ok stored
    exact event_post _ _
  · exact event_post _ _

end Deliver

section Give
variable {b : Binding} {r : Record} {v : Variable}

theorem value_giveOut (b : Binding) (r : Record) (v : Variable) :
    (giveOut b r v).target.value = (v.given? b r).getD v.value := by
  cases gave_giveOut b r v with
  | second active same => simp [same, given?, admits, active]
  | refused refused _ same => simp [same, given?, refused]
  | admitted _ admitted same =>
    rw [same, value_deliver]
    simp only [given?, admitted, if_true]
    rfl

theorem event_giveOut (v : Variable) (field : (r.get? b.field).isSome = true) :
    (giveOut b r v).target.event =
      if !b.flags.noPost && v.admits b r then v.event.map fun _ => true else v.event := by
  cases gave_giveOut b r v with
  | second active same => simp [same, admits, active]
  | refused refused _ same => simp [same, refused]
  | admitted _ admitted same =>
    have field' : ((r.setActive b.flags.asynchronous).get? b.field).isSome = true :=
      (Record.isSome_get?_of_skeleton (r.skeleton_setActive _) _).trans field
    rw [same, event_deliver _ _ _ field']
    cases b.flags.noPost <;> simp [admitted]

end Give

/-! ## What an access does -/

section After
variable {b : Binding} {r : Record} {v : Variable}

/-- Where the value can be read back, merging ends with a write. -/
theorem mergeOut_of_write {wanted : UInt32} {p : Binding × Record}
    (h : v.write? (.merge b wanted r) = some p) :
    p.1 = b ∧ (∃ back, r.put b.field v.value = .ok back ∧ p.2 = merged wanted back) ∧
      mergeOut b wanted r v = giveOut p.1 p.2 v := by
  simp only [write?] at h
  cases put : r.put b.field v.value with
  | error e => simp [Variable.readBack, put] at h
  | ok back =>
    simp only [Variable.readBack, put] at h
    obtain rfl := Option.some.inj h
    refine ⟨rfl, ⟨back, rfl, rfl⟩, ?_⟩
    simp only [mergeOut, Variable.readBack, put]
    rfl

/-- A write leaves of the variable what the exchange that it belongs to leaves. -/
theorem after_of_write {a : Access} {p : Binding × Record} (h : v.write? a = some p) :
    v.after a = (giveOut p.1 p.2 v).target := by
  cases a with
  | give b r =>
    obtain rfl := Option.some.inj h
    rfl
  | merge b wanted r => exact congrArg Exchanged.target (mergeOut_of_write h).2.2
  | _ => simp [write?] at h

/-- The record that is written is the one that the access is made for, but for its fields. -/
theorem skeleton_merged {wanted : UInt32} {back : Record} (put : r.put b.field v.value = .ok back) :
    (merged wanted back).skeleton = r.skeleton :=
  (Record.skeleton_mapScalar (fun s => by simp) back).trans (Record.skeleton_put put)

/-- The record that is written has the field that is written if the access fits it. -/
theorem field_of_write {a : Access} {p : Binding × Record} (fitted : a.Fitted)
    (h : v.write? a = some p) : (p.2.get? p.1.field).isSome = true := by
  cases a with
  | give b r =>
    obtain rfl := Option.some.inj h
    exact fitted
  | merge b wanted r =>
    obtain ⟨target, ⟨back, put, record⟩, -⟩ := mergeOut_of_write h
    rw [target, record]
    exact (Record.isSome_get?_of_skeleton (skeleton_merged put) _).trans fitted
  | _ => simp [write?] at h

/-- Where the value cannot be read back, nothing is stored and only the alarm is changed. -/
theorem after_merge_of_none {wanted : UInt32} (h : v.write? (.merge b wanted r) = none) :
    ∃ alarm, v.after (.merge b wanted r) = { v with alarm } := by
  cases put : r.put b.field v.value with
  | ok back => simp [write?, Variable.readBack, put] at h
  | error e =>
    simp only [after, mergeOut, Variable.readBack, put]
    exact ⟨_, rfl⟩

/-- Reading back changes at most the alarm. -/
theorem after_readBack (v : Variable) (b : Binding) (r : Record) :
    ∃ alarm, v.after (.readBack b r) = { v with alarm } := by
  simp only [after, Variable.readBack]
  split <;> exact ⟨_, rfl⟩

/-- **The value after an access is the one that the access stored, or what it was.** -/
theorem value_after (v : Variable) (a : Access) :
    (v.after a).value = (v.stored? a).getD v.value := by
  have written : ∀ p, v.write? a = some p →
      (v.after a).value = ((v.write? a).bind fun p => v.given? p.1 p.2).getD v.value := by
    intro p h
    rw [after_of_write h, value_giveOut, h, Option.bind_some]
  cases a with
  | store value =>
    simp only [after, stored?, Variable.store]
    cases value.convert v.type <;> rfl
  | report _ | stamp _ | release | signal => rfl
  | poll =>
    simp only [after, wait_zero]
    split <;> rfl
  | take b r =>
    simp only [after, target_takeIn, if_true, post]
    split <;> rfl
  | readBack b r =>
    obtain ⟨alarm, same⟩ := after_readBack v b r
    rw [same]
    rfl
  | give b r => exact written _ rfl
  | merge b wanted r =>
    cases h : v.write? (.merge b wanted r) with
    | some p => exact written p h
    | none =>
      obtain ⟨alarm, same⟩ := after_merge_of_none h
      rw [same]
      simp [stored?, h]

/-- A value that is stored is one that the driver or a record gives, converted. -/
theorem stored?_eq_some {a : Access} {x : Value} (h : v.stored? a = some x) :
    ∃ y, y.convert v.type = .ok x ∧ (a = .store y ∨
      ∃ p : Binding × Record, v.write? a = some p ∧ v.admits p.1 p.2 = true ∧
        (p.2.setActive p.1.flags.asynchronous).get? p.1.field = some y) := by
  have converted : ∀ y : Value, (y.convert v.type).toOption = some x →
      y.convert v.type = .ok x := by
    intro y hy
    cases hc : y.convert v.type with
    | error e => simp [hc, Except.toOption] at hy
    | ok z => simpa [hc, Except.toOption] using hy
  have written : ∀ o, (o.bind fun p : Binding × Record => v.given? p.1 p.2) = some x →
      ∃ y, y.convert v.type = .ok x ∧ ∃ p, o = some p ∧ v.admits p.1 p.2 = true ∧
        (p.2.setActive p.1.flags.asynchronous).get? p.1.field = some y := by
    intro o ho
    obtain ⟨p, rfl, given⟩ := Option.bind_eq_some_iff.1 ho
    unfold given? at given
    split at given
    · rename_i admitted
      obtain ⟨y, field, hy⟩ := Option.bind_eq_some_iff.1 given
      exact ⟨y, converted y hy, p, rfl, admitted, field⟩
    · contradiction
  cases a with
  | store value => exact ⟨value, converted value h, .inl rfl⟩
  | _ =>
    simp only [stored?] at h
    obtain ⟨y, hy, p, write, rest⟩ := written _ h
    exact ⟨y, hy, .inr ⟨p, write, rest⟩⟩

/-- **No access changes the type.** -/
theorem type_after (v : Variable) (a : Access) : (v.after a).type = v.type := by
  rw [type, value_after]
  cases h : v.stored? a with
  | none => rfl
  | some x =>
    obtain ⟨y, converted, -⟩ := stored?_eq_some h
    exact Value.type_convert converted

/-- **The event is signalled by what it tells of, and for a record that the value could not be
loaded into; asking for it takes the signal away.** -/
theorem event_after {a : Access} (v : Variable) (fitted : a.Fitted) :
    (v.after a).event =
      if v.completes a || v.spoils a then v.event.map fun _ => true
      else match a with
        | .poll => v.event.map fun _ => false
        | _ => v.event := by
  have written : ∀ p, v.write? a = some p → (v.after a).event =
      if !p.1.flags.noPost && v.admits p.1 p.2 then v.event.map fun _ => true else v.event := by
    intro p h
    rw [after_of_write h]
    exact event_giveOut v (field_of_write fitted h)
  cases a with
  | store value =>
    simp only [after, Variable.store]
    cases value.convert v.type <;> rfl
  | report _ | stamp _ | release | signal => rfl
  | poll =>
    simp only [after, wait_zero]
    cases h : v.event <;> simp [h, completes, spoils, write?]
  | take b r =>
    have loaded : (v.after (.take b r)).event =
        if b.flags.noPost then v.event else v.event.map fun _ => true := by
      simp only [after, target_takeIn, if_true, event_post]
    rw [loaded]
    by_cases quiet : b.flags.noPost = true
    · simp [completes, spoils, quiet]
    · simp [completes, spoils, quiet]
  | readBack b r =>
    obtain ⟨alarm, same⟩ := after_readBack v b r
    rw [same]
    rfl
  | give b r => simpa [completes, spoils, write?] using written _ rfl
  | merge b wanted r =>
    cases h : v.write? (.merge b wanted r) with
    | some p => simpa [completes, spoils, h] using written p h
    | none =>
      obtain ⟨alarm, same⟩ := after_merge_of_none h
      rw [same]
      simp [completes, spoils, h]

/-- No access gives the variable an event or takes it away. -/
theorem isSome_event_after {a : Access} (v : Variable) (fitted : a.Fitted) :
    (v.after a).event.isSome = v.event.isSome := by
  rw [event_after v fitted]
  split
  · exact Option.isSome_map
  · split
    · exact Option.isSome_map
    · rfl

end After

end Variable

end ControlRecords
