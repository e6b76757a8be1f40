import ControlRecords.Proofs.Startup

/-! # Records that could not be connected

A record that could not be connected is marked active, and a record that is connected to
nothing makes no pass, so neither a request nor a direct pass does anything to it or by it:
it stays as it is for good (`StaysInactive`).

That holds as long as the record is connected to nothing.  A record that writes to a
variable is connected before the variable's value is loaded, and when that value cannot be
converted the record is active and connected, which is what a record looks like whose write
waits for its second pass.  The next pass takes it for that second pass and ends it. -/
namespace ControlRecords.Controller

/-- Everything that can make a record process. -/
def Triggers (id : RecordId) : Action → Prop
  | .process j => j = id
  | .send _ request => request.record = id
  | .serve _ => True
  | _ => False

/-- In a later state a record is active as it was, its value is as defined as it was, and
nothing can make it do anything. -/
def StaysInactive (id : RecordId) (c d : Controller) : Prop :=
  ∃ r s, c.record? id = some r ∧ d.record? id = some s ∧ s.common.active = true ∧
    s.common.undefined = r.common.undefined ∧ d.process id = d ∧
      ∀ request : Request, request.record = id → d.dispatch request = d

section Unconnected
variable {c : Controller} {id : RecordId} {r : Record}

/-- A request for a record that is connected to nothing does nothing. -/
theorem dispatch_of_unbound (h : c.record? id = some r) (unbound : r.common.binding = .unbound)
    {request : Request} (mine : request.record = id) : c.dispatch request = c := by
  subst mine
  rcases dispatch_cases c request with e | ⟨_, -, -, e⟩
  · exact e
  · rw [e, process_of_unbound h unbound]

/-- No action changes the common part of a record that is connected to nothing. -/
theorem common_act_of_unbound (h : c.record? id = some r)
    (unbound : r.common.binding = .unbound) (a : Action) :
    ∃ s, (c.act a).record? id = some s ∧ s.common = r.common := by
  by_cases processed : c.Processes id a
  · obtain ⟨schedulers, e⟩ := act_of_processes processed
    have there : ({ c with schedulers } : Controller).record? id = some r := h
    exact ⟨r, by rw [e, process_of_unbound there unbound, there], rfl⟩
  · exact common_act_of_not_processes h processed

/-- No run changes it either. -/
theorem common_perform_of_unbound (h : c.record? id = some r)
    (unbound : r.common.binding = .unbound) (actions : List Action) :
    ∃ s, (c.perform actions).record? id = some s ∧ s.common = r.common := by
  induction actions generalizing c r with
  | nil => exact ⟨r, h, rfl⟩
  | cons a rest ih =>
    obtain ⟨s, hs, same⟩ := common_act_of_unbound h unbound a
    obtain ⟨t, ht, same'⟩ := ih hs (same ▸ unbound)
    exact ⟨t, ht, same'.trans same⟩

/-- **No run of whatever actions wakes a record that is active and connected to nothing.** -/
theorem staysInactive_of_unbound (h : c.record? id = some r)
    (unbound : r.common.binding = .unbound) (active : r.common.active = true)
    (actions : List Action) : StaysInactive id c (c.perform actions) := by
  obtain ⟨s, hs, same⟩ := common_perform_of_unbound h unbound actions
  have unbound' : s.common.binding = .unbound := by rw [same, unbound]
  exact ⟨r, s, h, hs, by rw [same, active], by rw [same], process_of_unbound hs unbound',
    fun request mine => dispatch_of_unbound hs unbound' mine⟩

end Unconnected

/-- A pass of a record that is active and connected ends its being active. -/
theorem not_staysInactive_of_bound {c : Controller} {id : RecordId} {r : Record}
    (h : c.record? id = some r) (bound : r.common.binding ≠ .unbound)
    (active : r.common.active = true) : ¬StaysInactive id c (c.perform [.process id]) := by
  rintro ⟨_, s, -, hs, still, -⟩
  have after : (c.process id).record? id = some s := hs
  rw [record?_process_self h] at after
  obtain rfl := Option.some.inj after
  cases outcome_of_process h with
  | omitted unbound => exact bound unbound
  | finished _ idle => simp [idle] at still
  | started idle => simp [active] at idle

/-- **What a failed initialisation leaves behind:** the record is active, and it is
connected to nothing unless it was the value of its variable that could not be loaded. -/
theorem initialise_eq_error {c d : Controller} {id : RecordId} {r : Record} {e : SupportError}
    (h : c.record? id = some r) (failed : c.initialise id = (d, .error e))
    (fresh : r.common.binding = .unbound) :
    ∃ s, d.record? id = some s ∧ s.common.active = true ∧
      (s.common.binding = .unbound ↔ ∀ fe, e ≠ .shared (.field fe)) := by
  have there : (c.setRecord id r.sized).record? id = some r.sized :=
    record?_setRecord_of_some h _
  obtain ⟨s, records, -, linked⟩ := relinked_connect there
  simp only [initialise, h] at failed
  split at failed
  · rename_i f e' hf
    rw [hf] at records linked
    have found : f.record? id = some s := by rw [records, if_pos rfl]
    rw [found] at failed
    simp only [Prod.mk.injEq, Except.error.injEq] at failed
    obtain ⟨rfl, rfl⟩ := failed
    refine ⟨s.setActive true, record?_setRecord_of_some found _, rfl, ?_⟩
    -- The record was connected to nothing before, so that is where a bad link leaves it.
    cases linked with
    | connected succeeded => contradiction
    | @unloaded fe failed bound =>
      obtain rfl := Except.error.inj failed
      exact iff_of_false bound fun other => other fe rfl
    | unlinked failed reason unbound =>
      obtain rfl := Except.error.inj failed
      exact iff_of_true (unbound.trans fresh) reason
  · split at failed <;> simp at failed

/-- **A record whose initialisation failed stays inactive for good, exactly if it failed for
another reason than the value of its variable.**  The runs are those of everything that can
make the record process, in any order. -/
theorem staysInactive_iff {c d : Controller} {id : RecordId} {r : Record} {e : SupportError}
    (h : c.record? id = some r) (fresh : r.common.binding = .unbound)
    (failed : c.initialise id = (d, .error e)) :
    (∀ actions, (∀ a ∈ actions, Triggers id a) → StaysInactive id d (d.perform actions)) ↔
      ∀ fe, e ≠ .shared (.field fe) := by
  obtain ⟨s, hs, active, unbound⟩ := initialise_eq_error h failed fresh
  constructor
  · intro inactive
    rw [← unbound]
    by_cases bound : s.common.binding = .unbound
    · exact bound
    · -- One pass is enough to end the activity of a record that is connected.
      have woken := inactive [.process id] (by simp [Triggers])
      exact absurd woken (not_staysInactive_of_bound hs bound active)
  · intro reason actions _
    exact staysInactive_of_unbound hs (unbound.2 reason) active actions

/-- One record in the care of one scheduler, and a group of one variable, `g`. -/
def withRecord (value : Value) (r : Record) : Controller :=
  let (s, c) := (({} : Controller).registerGroup "g" [{ value }]).1.newScheduler
  (c.adopt r (some s)).2

/-- The link of the record names a device that is not there. -/
def unplugged : Controller :=
  withRecord (.long 0)
    ⟨{ name := "r" }, .hardware ⟨0, 0, "nodevice"⟩, .scalar .registers (.longout 0)⟩

/-- The variable of the record holds a text that is no number. -/
def garbled : Controller :=
  withRecord (.string "abc") ⟨{ name := "r" }, .hardware ⟨0, 0, "g"⟩, .scalar .shared (.longout 0)⟩

/-- The record without its device, as it is before it is initialised. -/
def unpluggedRecord : Record :=
  ⟨{ name := "r", handle := some ⟨0⟩, scheduler := some ⟨0⟩ }, .hardware ⟨0, 0, "nodevice"⟩,
    .scalar .registers (.longout 0)⟩

theorem staysInactive_without_device :
    unplugged.record? ⟨0⟩ = some unpluggedRecord ∧
    unplugged.initialise ⟨0⟩ =
      ((unplugged.initialise ⟨0⟩).1, .error (.link (.noDevice "nodevice"))) ∧
    StaysInactive ⟨0⟩ (unplugged.initialise ⟨0⟩).1
      ((unplugged.initialise ⟨0⟩).1.perform
        [.process ⟨0⟩, .send ⟨0⟩ (.complete ⟨0⟩), .send ⟨0⟩ (.scan ⟨0⟩), .serve ⟨0⟩,
          .serve ⟨0⟩]) := by
  have there : unplugged.record? ⟨0⟩ = some unpluggedRecord := rfl
  have failed : unplugged.initialise ⟨0⟩ =
      ((unplugged.initialise ⟨0⟩).1, .error (.link (.noDevice "nodevice"))) := rfl
  refine ⟨there, failed, ?_⟩
  exact (staysInactive_iff there rfl failed).2 (by simp) _
    (by simp [Triggers, Request.record])

/-- A text where a number is expected fails the initialisation, and the next pass makes the
record idle. -/
theorem woken_with_garbled_value :
    (∃ fe, (garbled.initialise ⟨0⟩).2 = .error (.shared (.field fe))) ∧
      ((garbled.initialise ⟨0⟩).1.record? ⟨0⟩).map (·.common.active) = some true ∧
      ((garbled.initialise ⟨0⟩).1.record? ⟨0⟩).map (·.common.undefined) = some true ∧
      (((garbled.initialise ⟨0⟩).1.process ⟨0⟩).record? ⟨0⟩).map (·.common.active) =
        some false ∧
      (((garbled.initialise ⟨0⟩).1.process ⟨0⟩).record? ⟨0⟩).map (·.common.undefined) =
        some false :=
  ⟨⟨_, rfl⟩, by decide, by decide, by decide, by decide⟩

end ControlRecords.Controller
