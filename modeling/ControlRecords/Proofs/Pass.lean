import ControlRecords.Controller.Processing

/-! # What a pass changes

A pass moves a value between a record and its target.  Most of a record is out of its
reach: what the record is called and linked to, what it is connected to, who processes it,
and of what type it is.  `Record.skeleton` is that part, and every support keeps it.

A variable is changed in its value, its alarm, its event and its attachment.  The
attachment is what an asynchronous write leaves behind: a pass attaches exactly the record
that makes it, exactly when it turns the record active (`Handover`). -/
namespace ControlRecords

/-! ## The part of a record that no pass changes -/

/-- The common part without what processing changes. -/
def Common.skeleton (c : Common) : Common :=
  { c with active := false, undefined := true, time := .epoch, alarms := {} }

/-- The record type alone. -/
def Scalar.skeleton : Scalar → Scalar
  | ai _ => ai {}
  | ao _ => ao {}
  | bi _ => bi {}
  | bo _ => bo {}
  | mbbi _ => mbbi {}
  | mbbo _ _ => mbbo {} 0
  | longin _ => longin 0
  | longout _ => longout 0

/-- The record type and the support. -/
def Body.skeleton : Body → Body
  | scalar support s => scalar support s.skeleton
  | array archive _ => array archive {}

/-- The part of a record that no pass changes. -/
def Record.skeleton (r : Record) : Record := ⟨r.common.skeleton, r.link, r.body.skeleton⟩

namespace Common

@[simp] theorem skeleton_raise (c : Common) (status : AlarmStatus) (severity : Severity) :
    (c.raise status severity).skeleton = c.skeleton := rfl

@[simp] theorem skeleton_promoteAlarms (c : Common) :
    c.promoteAlarms.skeleton = c.skeleton := rfl

@[simp] theorem skeleton_stampFromDevice (c : Common) (time : TimeStamp) :
    (c.stampFromDevice time).skeleton = c.skeleton := by
  unfold stampFromDevice; split <;> rfl

@[simp] theorem skeleton_stampFromClock (c : Common) :
    c.stampFromClock.skeleton = c.skeleton := by
  unfold stampFromClock; split <;> rfl

@[simp] theorem alarms_stampFromClock (c : Common) : c.stampFromClock.alarms = c.alarms := by
  unfold stampFromClock; split <;> rfl

@[simp] theorem undefined_stampFromClock (c : Common) :
    c.stampFromClock.undefined = c.undefined := by
  unfold stampFromClock; split <;> rfl

theorem time_stampFromClock (c : Common) :
    c.stampFromClock.time = if c.timeSource = .database then .clock else c.time := by
  unfold stampFromClock; split <;> rfl

@[simp] theorem skeleton_finish (c : Common) : c.finish.skeleton = c.skeleton := by
  have cleared : ∀ d : Common, { d with active := false }.skeleton = d.skeleton := fun _ => rfl
  unfold finish
  split <;> simp [cleared]

@[simp] theorem undefined_finish (c : Common) : c.finish.undefined = c.undefined := by
  simp only [finish, promoteAlarms, undefined_stampFromClock]
  split <;> rfl

/-- The alarm that was pending is reported, and that the value is undefined if nothing worse
was. -/
theorem current_finish (c : Common) : c.finish.alarms.current =
    (if c.undefined then c.alarms.raise ⟨.undefined, .invalid⟩ else c.alarms).pending := by
  simp only [finish, promoteAlarms, alarms_stampFromClock, Alarms.current_promote]
  split <;> rfl

theorem time_finish (c : Common) :
    c.finish.time = if c.timeSource = .database then .clock else c.time := by
  simp only [finish, promoteAlarms, time_stampFromClock]
  split <;> rfl

end Common

namespace Scalar

@[simp] theorem skeleton_set (s : Scalar) (f : Field) (v : Value) :
    (s.set f v).skeleton = s.skeleton := by
  unfold set; split <;> rfl

@[simp] theorem skeleton_ofRaw (s : Scalar) : s.ofRaw.skeleton = s.skeleton := by
  cases s <;> rfl

@[simp] theorem skeleton_toRaw (s : Scalar) : s.toRaw.skeleton = s.skeleton := by
  cases s <;> rfl

@[simp] theorem skeleton_setWord (s : Scalar) (w : UInt32) :
    (s.setWord w).skeleton = s.skeleton := by
  cases s <;> rfl

@[simp] theorem skeleton_noteReadBack (s : Scalar) (w : UInt32) :
    (s.noteReadBack w).skeleton = s.skeleton := by
  cases s <;> rfl

@[simp] theorem skeleton_receive (s : Scalar) (w : UInt32) :
    (s.receive w).skeleton = s.skeleton := by
  cases s <;> rfl

@[simp] theorem isOutput_skeleton (s : Scalar) : s.skeleton.isOutput = s.isOutput := by
  cases s <;> rfl

end Scalar

namespace Body

@[simp] theorem skeleton_set (b : Body) (f : Field) (v : Value) :
    (b.set f v).skeleton = b.skeleton := by
  cases b <;> simp [set, skeleton]

theorem skeleton_mapScalar {g : Scalar → Scalar} (hg : ∀ s, (g s).skeleton = s.skeleton)
    (b : Body) : (b.mapScalar g).skeleton = b.skeleton := by
  cases b <;> simp [mapScalar, skeleton, hg]

@[simp] theorem skeleton_ofRaw (b : Body) : b.ofRaw.skeleton = b.skeleton :=
  skeleton_mapScalar Scalar.skeleton_ofRaw b

@[simp] theorem skeleton_toRaw (b : Body) : b.toRaw.skeleton = b.skeleton :=
  skeleton_mapScalar Scalar.skeleton_toRaw b

@[simp] theorem isOutput_skeleton (b : Body) : b.skeleton.isOutput = b.isOutput := by
  cases b <;> simp [skeleton, isOutput]

/-- The types of the fields are told by the skeleton. -/
theorem type?_skeleton (b : Body) (f : Field) : b.skeleton.type? f = b.type? f := by
  cases b with
  | scalar support s => cases s <;> cases f <;> rfl
  | array archive a => rfl

theorem type?_of_skeleton {a b : Body} (same : a.skeleton = b.skeleton) (f : Field) :
    a.type? f = b.type? f := by
  rw [← a.type?_skeleton, same, b.type?_skeleton]

end Body

namespace Record

theorem skeleton_withCommon {g : Common → Common} (hg : ∀ c, (g c).skeleton = c.skeleton)
    (r : Record) : (r.withCommon g).skeleton = r.skeleton := by
  simp [withCommon, skeleton, hg]

theorem skeleton_mapScalar {g : Scalar → Scalar} (hg : ∀ s, (g s).skeleton = s.skeleton)
    (r : Record) : (r.mapScalar g).skeleton = r.skeleton := by
  simp [mapScalar, skeleton, Body.skeleton_mapScalar hg]

@[simp] theorem skeleton_raise (r : Record) (status : AlarmStatus) (severity : Severity) :
    (r.raise status severity).skeleton = r.skeleton := rfl

@[simp] theorem skeleton_setActive (r : Record) (active : Bool) :
    (r.setActive active).skeleton = r.skeleton := rfl

@[simp] theorem skeleton_setUndefined (r : Record) (undefined : Bool) :
    (r.setUndefined undefined).skeleton = r.skeleton := rfl

/-- Writing a field changes the fields of the record's type only. -/
theorem put_eq_ok {r s : Record} {f : Field} {v : Value} (h : r.put f v = .ok s) :
    ∃ w, s = { r with body := r.body.set f w } := by
  unfold put at h
  split at h
  · split at h
    · exact ⟨_, (Except.ok.inj h).symm⟩
    · contradiction
  · contradiction

theorem putField_eq_ok {r s : Record} {name : String} {v : Value}
    (h : r.putField name v = .ok s) : ∃ f w, s = { r with body := r.body.set f w } := by
  unfold putField at h
  split at h
  · exact ⟨_, put_eq_ok h⟩
  · contradiction

@[simp] theorem skeleton_put {r s : Record} {f : Field} {v : Value} (h : r.put f v = .ok s) :
    s.skeleton = r.skeleton := by
  obtain ⟨w, rfl⟩ := put_eq_ok h
  simp [skeleton]

@[simp] theorem skeleton_putField {r s : Record} {name : String} {v : Value}
    (h : r.putField name v = .ok s) : s.skeleton = r.skeleton := by
  obtain ⟨f, w, rfl⟩ := putField_eq_ok h
  simp [skeleton]

/-- Writing a field leaves the common part alone. -/
theorem common_put {r s : Record} {f : Field} {v : Value} (h : r.put f v = .ok s) :
    s.common = r.common := by
  obtain ⟨w, rfl⟩ := put_eq_ok h
  rfl

theorem common_putField {r s : Record} {name : String} {v : Value}
    (h : r.putField name v = .ok s) : s.common = r.common := by
  obtain ⟨f, w, rfl⟩ := putField_eq_ok h
  rfl

section SameSkeleton
variable {r s : Record} (h : s.skeleton = r.skeleton)
include h

theorem binding_of_skeleton : s.common.binding = r.common.binding :=
  congrArg (·.common.binding) h

theorem handle_of_skeleton : s.common.handle = r.common.handle :=
  congrArg (·.common.handle) h

/-- What moves its value to or from a variable does so still, in the same direction. -/
theorem shared_of_skeleton {t : Scalar} (body : r.body = .scalar .shared t) :
    ∃ t', s.body = .scalar .shared t' ∧ t'.isOutput = t.isOutput := by
  have same : s.body.skeleton = r.body.skeleton := congrArg Record.body h
  rw [body] at same
  cases hs : s.body with
  | scalar support t' =>
    rw [hs] at same
    obtain ⟨rfl, type⟩ := Body.scalar.inj same
    refine ⟨t', rfl, ?_⟩
    rw [← Scalar.isOutput_skeleton t', type, Scalar.isOutput_skeleton]
  | array archive a =>
    rw [hs] at same
    contradiction

theorem isOutput_of_skeleton : s.body.isOutput = r.body.isOutput := by
  have := congrArg (·.body.isOutput) h
  simpa [skeleton] using this

end SameSkeleton

@[simp] theorem skeleton_settle (r : Record) (result : Except SupportError Transfer) :
    (r.settle result).skeleton = r.skeleton := by
  unfold settle
  split
  · rfl
  · simp [skeleton, Common.skeleton]
  · rfl

@[simp] theorem skeleton_prepare (r : Record) : r.prepare.skeleton = r.skeleton := by
  unfold prepare
  split
  · simp [skeleton]
  · rfl

@[simp] theorem common_prepare (r : Record) : r.prepare.common = r.common := by
  unfold prepare; split <;> rfl

/-- A field of the record's type is none of the common part. -/
theorem get?_of_body {r t : Record} (h : t.body = r.body) {f : Field}
    (own : f.commonType? = none) : t.get? f = r.get? f := by
  have absent : ∀ c : Common, c.get? f = none := fun c => by cases f <;> first | rfl | contradiction
  simp only [get?, h, absent]

end Record

/-- What an exchange does to an attachment: nothing, or it attaches its own record, which
it turns active. -/
inductive Handover (r after : Record) (before now : Option Attachment) : Prop where
  | kept (active : after.common.active = r.common.active) (attached : now = before)
  | made {record : RecordId} {scheduler : SchedulerId} (idle : r.common.active = false)
      (active : after.common.active = true) (free : before = none)
      (handle : r.common.handle = some record) (attached : now = some ⟨record, scheduler⟩)

/-! ## Exchanges with a variable -/

namespace Variable

@[simp] theorem attached_post (v : Variable) (flags : Flags) :
    (v.post flags).attached = v.attached := by
  unfold post; split <;> rfl

@[simp] theorem alarm_post (v : Variable) (flags : Flags) : (v.post flags).alarm = v.alarm := by
  unfold post; split <;> rfl

/-- Storing a value changes the value only. -/
theorem store_eq_ok {v w : Variable} {value : Value} (h : v.store value = .ok w) :
    ∃ x, value.convert v.type = .ok x ∧ w = { v with value := x } := by
  unfold store at h
  split at h
  · exact ⟨_, ‹_›, (Except.ok.inj h).symm⟩
  · contradiction

theorem attached_store {v w : Variable} {value : Value} (h : v.store value = .ok w) :
    w.attached = v.attached := by
  obtain ⟨x, -, rfl⟩ := store_eq_ok h
  rfl

@[simp] theorem skeleton_inherit (r : Record) (v : Variable) :
    (inherit r v).skeleton = r.skeleton :=
  Record.skeleton_withCommon (fun c => by simp) r

@[simp] theorem active_inherit (r : Record) (v : Variable) :
    (inherit r v).common.active = r.common.active := by
  simp only [inherit, Record.withCommon, Common.stampFromDevice, Common.raise]
  split <;> rfl

@[simp] theorem alarms_inherit (r : Record) (v : Variable) :
    (inherit r v).common.alarms = r.common.alarms.raise v.alarm := by
  simp only [inherit, Record.withCommon, Common.stampFromDevice, Common.raise]
  split <;> rfl

@[simp] theorem skeleton_maskRaw (r : Record) : (maskRaw r).skeleton = r.skeleton :=
  Record.skeleton_mapScalar (fun s => by split <;> simp) r

section Exchanges
variable (b : Binding) (r : Record) (v : Variable)

/-- Loading leaves the variable alone but for its event. -/
theorem target_takeIn (signals : Bool) :
    (takeIn signals b r v).target = if signals then v.post b.flags else v := by
  cases h : r.put b.field v.value with
  | error e => simp only [takeIn, h]
  | ok s => simp only [takeIn, h]; split <;> rfl

variable {b r v} in
/-- Loading fails only if the value cannot be written to the field. -/
theorem takeIn_eq_error {signals : Bool} {e : VariableError}
    (h : (takeIn signals b r v).result = .error e) :
    ∃ fe, r.put b.field v.value = .error fe ∧ e = .field fe := by
  cases put : r.put b.field v.value with
  | error fe =>
    simp only [takeIn, put] at h
    exact ⟨fe, rfl, (Except.error.inj h).symm⟩
  | ok s =>
    simp only [takeIn, put] at h
    split at h <;> contradiction

@[simp] theorem attached_takeIn (signals : Bool) :
    (takeIn signals b r v).target.attached = v.attached := by
  rw [target_takeIn]; split <;> simp

@[simp] theorem alarm_takeIn (signals : Bool) :
    (takeIn signals b r v).target.alarm = v.alarm := by
  rw [target_takeIn]; split <;> simp

@[simp] theorem skeleton_takeIn (signals : Bool) :
    (takeIn signals b r v).record.skeleton = r.skeleton := by
  cases h : r.put b.field v.value with
  | error e => simp [takeIn, h]
  | ok s =>
    have same := Record.skeleton_put h
    simp only [takeIn, h]
    split <;> simp [same]

@[simp] theorem active_takeIn (signals : Bool) :
    (takeIn signals b r v).record.common.active = r.common.active := by
  cases h : r.put b.field v.value with
  | error e => simp only [takeIn, h]; exact active_inherit r v
  | ok s =>
    have same : (inherit s v).common.active = r.common.active :=
      (active_inherit s v).trans (congrArg Common.active (Record.common_put h))
    simp only [takeIn, h]
    split <;> exact same

@[simp] theorem skeleton_readBack : (readBack b r v).1.skeleton = r.skeleton := by
  unfold readBack
  split
  · exact Record.skeleton_put ‹_›
  · rfl

@[simp] theorem active_readBack : (readBack b r v).1.common.active = r.common.active := by
  unfold readBack
  split
  · exact congrArg Common.active (Record.common_put ‹_›)
  · rfl

@[simp] theorem handle_readBack : (readBack b r v).1.common.handle = r.common.handle :=
  Record.handle_of_skeleton (skeleton_readBack b r v)

@[simp] theorem attached_readBack : (readBack b r v).2.1.attached = v.attached := by
  unfold readBack; split <;> rfl

@[simp] theorem skeleton_deliver : (deliver b r v).record.skeleton = r.skeleton := by
  unfold deliver
  split
  · rfl
  · split <;> rfl

@[simp] theorem active_deliver :
    (deliver b r v).record.common.active = r.common.active := by
  unfold deliver
  split
  · rfl
  · split <;> rfl

@[simp] theorem attached_deliver : (deliver b r v).target.attached = v.attached := by
  unfold deliver
  split
  · rfl
  · split
    · rename_i w hw
      simp [attached_store hw]
    · simp

end Exchanges

/-- Attaching a record takes a free variable, and attaches that very record. -/
theorem attachRecord_eq_ok {r : Record} {v w : Variable} (h : attachRecord r v = .ok w) :
    ∃ record scheduler, r.common.handle = some record ∧ r.common.scheduler = some scheduler ∧
      v.attached = none ∧ w = { v with attached := some ⟨record, scheduler⟩ } := by
  unfold attachRecord at h
  split at h
  · rename_i record scheduler hh hs
    unfold attach at h
    split at h
    · contradiction
    · rename_i free
      exact ⟨record, scheduler, hh, hs, by simpa using free, (Except.ok.inj h).symm⟩
  · contradiction

theorem skeleton_secondPhase {r s : Record} {v : Variable} (h : secondPhase r v = some s) :
    s.skeleton = r.skeleton := by
  unfold secondPhase at h
  split at h
  · obtain rfl := Option.some.inj h
    exact skeleton_inherit r v
  · contradiction

theorem active_secondPhase {r s : Record} {v : Variable} (h : secondPhase r v = some s) :
    s.common.active = r.common.active := by
  unfold secondPhase at h
  split at h
  · obtain rfl := Option.some.inj h
    exact active_inherit r v
  · contradiction

/-- An idle record writes at once if it waits for no driver. -/
theorem giveOut_of_synchronous {b : Binding} {r : Record} (idle : r.common.active = false)
    (synchronous : b.flags.asynchronous = false) (v : Variable) :
    giveOut b r v = deliver b r v := by
  simp [giveOut, secondPhase, idle, synchronous]

@[simp] theorem skeleton_giveOut (b : Binding) (r : Record) (v : Variable) :
    (giveOut b r v).record.skeleton = r.skeleton := by
  unfold giveOut
  split
  · exact skeleton_secondPhase ‹_›
  · split
    · split <;> simp
    · simp

/-- A first pass that writes asynchronously attaches its record, or is refused; any other
pass that writes attaches nothing. -/
theorem handover_giveOut (b : Binding) (r : Record) (v : Variable) :
    Handover r (giveOut b r v).record v.attached (giveOut b r v).target.attached := by
  unfold giveOut
  split
  · exact .kept (active_secondPhase ‹_›) rfl
  · rename_i first
    -- It is not a second pass, and every pass of an active record is one.
    have idle : r.common.active = false := by
      unfold secondPhase at first
      split at first
      · contradiction
      · simp_all
    split
    · split
      · exact .kept rfl rfl
      · rename_i w hw
        obtain ⟨record, scheduler, handle, -, free, rfl⟩ := attachRecord_eq_ok hw
        exact .made idle (by rw [active_deliver]; rfl) free handle (by rw [attached_deliver])
    · exact .kept (active_deliver b r v) (attached_deliver b r v)

/-- Reading back and merging first changes nothing about the handover. -/
theorem handover_mergeOut (b : Binding) (wanted : UInt32) (r : Record) (v : Variable) :
    Handover r (mergeOut b wanted r v).record v.attached
      (mergeOut b wanted r v).target.attached := by
  have active := active_readBack b r v
  have handle := handle_readBack b r v
  have attached := attached_readBack b r v
  unfold mergeOut
  split
  · rename_i s w e h
    rw [h] at active attached
    exact .kept active attached
  · rename_i s w h
    rw [h] at active attached handle
    cases handover_giveOut b
        (s.mapScalar fun t => (t.noteReadBack t.word).setWord (Bits.merge t.word wanted t.mask))
        w with
    | kept a t => exact .kept (a.trans active) (t.trans attached)
    | made i a f h' t =>
      exact .made (active.symm.trans i) a (attached.symm.trans f) (handle.symm.trans h') t

theorem skeleton_mergeOut (b : Binding) (wanted : UInt32) (r : Record) (v : Variable) :
    (mergeOut b wanted r v).record.skeleton = r.skeleton := by
  have back := skeleton_readBack b r v
  unfold mergeOut
  split
  · rename_i s w e h
    rw [h] at back
    exact back
  · rename_i s w h
    rw [h] at back
    rw [skeleton_giveOut, Record.skeleton_mapScalar (fun t => by simp), back]

theorem skeleton_move (b : Binding) (s : Scalar) (r : Record) (v : Variable) :
    (move b s r v).record.skeleton = r.skeleton := by
  have taken := skeleton_takeIn b r v true
  unfold move
  split
  · dsimp only
    split
    · exact taken
    · exact taken
  · exact taken
  · dsimp only
    split
    · exact (skeleton_maskRaw _).trans taken
    · exact taken
  · dsimp only
    split
    · exact (skeleton_maskRaw _).trans taken
    · exact taken
  · exact skeleton_giveOut b r v
  · exact skeleton_giveOut b r v
  all_goals
    split
    · exact skeleton_secondPhase ‹_›
    · split
      · exact skeleton_mergeOut b _ r v
      · exact skeleton_giveOut b r v

theorem handover_move (b : Binding) (s : Scalar) (r : Record) (v : Variable) :
    Handover r (move b s r v).record v.attached (move b s r v).target.attached := by
  have active := active_takeIn b r v true
  have attached := attached_takeIn b r v true
  unfold move
  split
  · dsimp only
    split
    · exact .kept active attached
    · exact .kept active attached
  · exact .kept active attached
  · dsimp only
    split
    · exact .kept active attached
    · exact .kept active attached
  · dsimp only
    split
    · exact .kept active attached
    · exact .kept active attached
  · exact handover_giveOut b r v
  · exact handover_giveOut b r v
  all_goals
    split
    · exact .kept (active_secondPhase ‹_›) rfl
    · split
      · exact handover_mergeOut b _ r v
      · exact handover_giveOut b r v

theorem skeleton_exchange (r : Record) (v : Variable) :
    (exchange r v).record.skeleton = r.skeleton := by
  unfold exchange
  split
  · exact skeleton_move _ _ r v
  · rfl

theorem handover_exchange (r : Record) (v : Variable) :
    Handover r (exchange r v).record v.attached (exchange r v).target.attached := by
  unfold exchange
  split
  · exact handover_move _ _ r v
  · exact .kept rfl rfl

/-- In the second pass nothing moves: the record takes over the variable's alarm and time. -/
theorem move_of_active (b : Binding) {s : Scalar} {r : Record} (v : Variable)
    (output : s.isOutput = true) (active : r.common.active = true) :
    move b s r v = ⟨inherit r v, v, .ok .raw⟩ := by
  have second : secondPhase r v = some (inherit r v) := by simp [secondPhase, active]
  cases s <;> simp_all [Scalar.isOutput, move, giveOut]

/-- A record that reads leaves the variable's alarm alone. -/
theorem alarm_move_of_input (b : Binding) {s : Scalar} (r : Record) (v : Variable)
    (input : s.isOutput = false) : (move b s r v).target.alarm = v.alarm := by
  have taken := alarm_takeIn b r v true
  cases s with
  | ao _ | bo _ | mbbo _ _ | longout _ => simp [Scalar.isOutput] at input
  | longin _ => exact taken
  | ai _ =>
    simp only [move]
    split
    · exact taken
    · exact taken
  | bi _ | mbbi _ =>
    simp only [move]
    split
    · exact taken
    · exact taken

end Variable

/-! ## Exchanges with registers and archives -/

namespace Register

theorem skeleton_send (b : Binding) (r : Record) (word : UInt32) (t : Registers) :
    (send b r word t).record.skeleton = r.skeleton := by
  unfold send; split <;> simp

theorem active_send (b : Binding) (r : Record) (word : UInt32) (t : Registers) :
    (send b r word t).record.common.active = r.common.active := by
  unfold send; split <;> rfl

theorem skeleton_exchange (r : Record) (t : Registers) :
    (exchange r t).record.skeleton = r.skeleton := by
  unfold exchange
  split
  · rename_i s b _ _
    unfold exchangeBound
    split
    · exact skeleton_send b r _ t
    · split
      · simp
      · split
        · rw [skeleton_send, Record.skeleton_mapScalar (fun s => by simp)]
        · exact Record.skeleton_mapScalar (fun s => by simp) r
  · rfl

theorem active_exchange (r : Record) (t : Registers) :
    (exchange r t).record.common.active = r.common.active := by
  unfold exchange
  split
  · rename_i s b _ _
    unfold exchangeBound
    split
    · exact active_send b r _ t
    · split
      · rfl
      · split
        · exact active_send b _ _ t
        · rfl
  · rfl

end Register

namespace Archive

theorem skeleton_exchange (r : Record) (t : Vault) :
    (exchange r t).record.skeleton = r.skeleton := by
  unfold exchange
  split
  · rename_i h _
    simp [Record.skeleton, h, Body.skeleton]
  · rfl

theorem active_exchange (r : Record) (t : Vault) :
    (exchange r t).record.common.active = r.common.active := by
  unfold exchange; split <;> rfl

end Archive

/-! ## Passes -/

namespace Target

/-- The attachment of a target; only a variable has one. -/
def attached : Target → Option Attachment
  | shared v => v.attached
  | _ => none

theorem skeleton_exchange (r : Record) (t : Target) :
    (exchange r t).record.skeleton = r.skeleton := by
  cases t with
  | registers t => exact Register.skeleton_exchange r t
  | shared v => exact Variable.skeleton_exchange r v
  | vault t => exact Archive.skeleton_exchange r t
  | nothing => rfl

theorem handover_exchange (r : Record) (t : Target) :
    Handover r (exchange r t).record t.attached (exchange r t).target.attached := by
  cases t with
  | registers t => exact .kept (Register.active_exchange r t) rfl
  | shared v => exact Variable.handover_exchange r v
  | vault t => exact .kept (Archive.active_exchange r t) rfl
  | nothing => exact .kept rfl rfl

end Target

namespace Record

/-- A record that is connected to nothing makes no pass. -/
theorem process_of_unbound {τ : Type} (support : Record → τ → Pass τ) {r : Record} (t : τ)
    (h : r.common.binding = .unbound) : r.process support t = (r, t) := by
  simp [process, h, Binding.isBound]

/-- The end of a pass. -/
def finish (r : Record) (result : Except SupportError Transfer) : Record :=
  (r.settle result).withCommon Common.finish

@[simp] theorem skeleton_finish (r : Record) (result : Except SupportError Transfer) :
    (r.finish result).skeleton = r.skeleton := by
  rw [finish, skeleton_withCommon (fun c => by simp), skeleton_settle]

/-- The end of a pass does not touch the fields of a record that writes. -/
theorem body_finish {r : Record} (h : r.body.isOutput = true)
    (result : Except SupportError Transfer) : (r.finish result).body = r.body := by
  simp only [finish, withCommon, settle, h]
  cases result <;> rfl

/-- A pass of a connected record ends in one of two ways: the record is left active, which
it was not before, or the pass is finished. -/
theorem process_cases {τ : Type} (support : Record → τ → Pass τ) {r : Record} (t : τ)
    (h : r.common.binding ≠ .unbound) :
    let p := support r.prepare t
    (r.common.active = false ∧ p.record.common.active = true ∧
        r.process support t = (p.record, p.target)) ∨
      ((r.common.active = false → p.record.common.active = false) ∧
        r.process support t = (p.record.finish p.result, p.target)) := by
  have bound : r.common.binding.isBound = true := by
    cases hb : r.common.binding with
    | unbound => exact absurd hb h
    | _ => rfl
  simp only [process, bound, if_true]
  split
  · rename_i started
    simp only [Bool.and_eq_true, Bool.not_eq_true'] at started
    exact Or.inl ⟨started.1, started.2, rfl⟩
  · rename_i finished
    refine Or.inr ⟨fun idle => ?_, rfl⟩
    simpa [idle] using finished

/-- The pass of an idle record is over after the exchange, unless the exchange makes the
record active. -/
theorem process_of_idle {r : Record} {t : Target} (bound : r.common.binding ≠ .unbound)
    (idle : (Target.exchange r.prepare t).record.common.active = false) :
    r.process Target.exchange t =
      ((Target.exchange r.prepare t).record.finish (Target.exchange r.prepare t).result,
        (Target.exchange r.prepare t).target) := by
  rcases process_cases Target.exchange t bound with ⟨-, started, -⟩ | ⟨-, e⟩
  · rw [idle] at started
    contradiction
  · exact e

/-- An idle record works its raw value out first, if it writes; one that reads has none to
work out. -/
theorem prepare_of_idle {support : ScalarSupport} {r : Record} {s : Scalar}
    (body : r.body = .scalar support s) (idle : r.common.active = false) :
    r.prepare = { r with body := .scalar support s.toRaw } := by
  obtain ⟨common, link, _⟩ := r
  obtain rfl : _ = Body.scalar support s := body
  have idle : common.active = false := idle
  unfold prepare
  split
  · rfl
  · rename_i reads
    have input : s.isOutput = false := by simpa [Body.isOutput, idle] using reads
    cases s <;> first | rfl | contradiction

/-- A pass of a connected record does to the target what the exchange does. -/
theorem target_process_of_bound {r : Record} (t : Target) (h : r.common.binding ≠ .unbound) :
    (r.process Target.exchange t).2 = (Target.exchange r.prepare t).target := by
  rcases process_cases Target.exchange t h with ⟨-, -, e⟩ | ⟨-, e⟩
  · rw [e]
  · rw [e]

/-- A pass is left out, or it does to the target what the exchange does. -/
theorem target_process (r : Record) (t : Target) :
    (r.process Target.exchange t).2 = t ∨
      (r.process Target.exchange t).2 = (Target.exchange r.prepare t).target := by
  by_cases h : r.common.binding = .unbound
  · exact Or.inl (by rw [process_of_unbound _ t h])
  · exact Or.inr (target_process_of_bound t h)

/-- No pass changes a record's skeleton. -/
theorem skeleton_process (r : Record) (t : Target) :
    (r.process Target.exchange t).1.skeleton = r.skeleton := by
  by_cases h : r.common.binding = .unbound
  · rw [process_of_unbound _ t h]
  · have kept := (Target.skeleton_exchange r.prepare t).trans r.skeleton_prepare
    rcases process_cases Target.exchange t h with ⟨-, -, e⟩ | ⟨-, e⟩
    · rw [e]; exact kept
    · rw [e]; exact (skeleton_finish _ _).trans kept

/-- **A pass ends idle and attaches nothing, or it turns its record active and attaches
it.** -/
theorem handover_process {r : Record} (t : Target) (h : r.common.binding ≠ .unbound) :
    let after := (r.process Target.exchange t).1
    let now := (r.process Target.exchange t).2.attached
    (after.common.active = false ∧ now = t.attached) ∨
      (r.common.active = false ∧ after.common.active = true ∧ t.attached = none ∧
        ∃ record scheduler, r.common.handle = some record ∧
          now = some ⟨record, scheduler⟩) := by
  have common := r.common_prepare
  rcases process_cases Target.exchange t h with ⟨idle, started, e⟩ | ⟨idle, e⟩
  · -- The exchange has turned the record active, so it has attached it.
    rw [e]
    cases Target.handover_exchange r.prepare t with
    | kept active _ =>
      rw [active, common, idle] at started
      contradiction
    | @made record scheduler _ active free handle attached =>
      rw [common] at handle
      exact Or.inr ⟨idle, active, free, record, scheduler, handle, attached⟩
  · -- An exchange that attaches the record turns it active, and that pass is not finished.
    rw [e]
    cases Target.handover_exchange r.prepare t with
    | kept _ attached => exact Or.inl ⟨rfl, attached⟩
    | made wasIdle active =>
      rw [common] at wasIdle
      rw [idle wasIdle] at active
      contradiction

/-- **The second pass of a write makes the record idle; the variable does not notice.** -/
theorem process_of_active {r : Record} {s : Scalar} {b : Variable.Binding} (v : Variable)
    (body : r.body = .scalar .shared s) (output : s.isOutput = true)
    (bound : r.common.binding = .toVariable b) (active : r.common.active = true) :
    r.process Target.exchange (.shared v) =
      ((Variable.inherit r v).finish (.ok .raw), .shared v) := by
  have prepared : r.prepare = r := by simp [prepare, active]
  have moved : Target.exchange r (.shared v) = ⟨Variable.inherit r v, .shared v, .ok .raw⟩ := by
    simp only [Target.exchange, Variable.exchange, body, bound,
      Variable.move_of_active b v output active]
    rfl
  have connected : r.common.binding ≠ .unbound := by simp [bound]
  rcases process_cases Target.exchange (.shared v) connected with ⟨idle, -, -⟩ | ⟨-, e⟩
  · simp [active] at idle
  · rw [e, prepared, moved]

/-- The alarm that the second pass ends with is the more severe of the record's own and the
variable's. -/
theorem current_of_second_pass {r : Record} (v : Variable) (output : r.body.isOutput = true) :
    ((Variable.inherit r v).finish (.ok .raw)).common.alarms.current =
      (r.common.alarms.raise v.alarm).pending := by
  have alarms := Variable.alarms_inherit r v
  have body : (Variable.inherit r v).body.isOutput = true := output
  simp only [finish, settle, body, withCommon, setUndefined, Common.current_finish,
    Bool.false_eq_true, if_false, alarms]

end Record

end ControlRecords
