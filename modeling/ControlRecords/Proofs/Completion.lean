import ControlRecords.Proofs.TwoPhase

/-! # What a completed write reports

The driver sets the alarm of a variable and completes the write that waits there; the
record takes the alarm over in its second pass.  The completion takes the attachment away at
once, but the second pass has to wait for its turn, and the alarm waits on the variable that
the record shares with others.  Whether the record reports what the driver gave it is
decided by what the variable's alarm is when the second pass is made
(`current_after_completion`): in between, another record that starts to write to the
variable puts its own alarm there.  Nothing else that records do changes the alarm. -/
namespace ControlRecords

/-- An alarm more severe than the pending one is pending afterwards only if it was raised. -/
theorem Alarms.pending_raise_eq_iff {s : Alarms} {a b : Alarm}
    (h : s.pending.severity < b.severity) : (s.raise a).pending = b ↔ a = b := by
  rw [pending_raise]
  constructor
  · intro raised
    split at raised
    · exact raised
    · subst raised
      exact absurd h (Nat.lt_irrefl _)
  · rintro rfl
    exact if_pos h

namespace Controller

/-- The alarm of a variable. -/
def alarm? (c : Controller) (v : VariableId) : Option Alarm := (c.variableAt? v).map (·.alarm)

/-- A pass of the record would be the first of a write to the variable. -/
def StartsWrite (c : Controller) (id : RecordId) (v : VariableId) : Prop :=
  ∃ r b, c.record? id = some r ∧ r.common.active = false ∧ r.body.isOutput = true ∧
    r.common.binding = .toVariable b ∧ b.target = v

/-- The driver leaves the alarm of the variable alone, and no write to it is started. -/
def Undisturbed (v : VariableId) (c : Controller) : Action → Prop
  | .report u _ => u ≠ v
  | a => ∀ id, c.Processes id a → ¬c.StartsWrite id v

/-- A record whose write to a variable waits for the driver. -/
structure InFlight (c : Controller) (id : RecordId) (r : Record) (v : VariableId) : Prop where
  record : c.record? id = some r
  active : r.common.active = true
  shared : ∃ s, r.body = .scalar .shared s ∧ s.isOutput = true
  bound : ∃ b, r.common.binding = .toVariable b ∧ b.target = v
  attached : c.AttachedTo id v

/-! ## The variable's alarm -/

section Alarm
variable {c : Controller} {v : VariableId}

theorem alarm?_setVariable_of_ne (c : Controller) {u : VariableId} (w : Variable) (h : v ≠ u) :
    (c.setVariable u w).alarm? v = c.alarm? v := by
  rw [alarm?, alarm?, variableAt?_setVariable_of_ne c w h]

/-- A variable that is replaced by one with the same alarm. -/
theorem alarm?_setVariable_kept {u : VariableId} {w w' : Variable}
    (h : c.variableAt? u = some w) (same : w'.alarm = w.alarm) :
    (c.setVariable u w').alarm? v = c.alarm? v := by
  by_cases e : v = u
  · subst e
    rw [alarm?, alarm?, variableAt?_setVariable_of_some h, h, Option.map_some,
      Option.map_some, same]
  · exact alarm?_setVariable_of_ne c w' e

/-- The second pass of a write changes its record and nothing else. -/
theorem process_of_active {id : RecordId} {r : Record} {s : Scalar} {b : Variable.Binding}
    {w : Variable} (h : c.record? id = some r) (body : r.body = .scalar .shared s)
    (output : s.isOutput = true) (bound : r.common.binding = .toVariable b)
    (active : r.common.active = true) (hw : c.variableAt? b.target = some w) :
    c.process id = c.setRecord id ((Variable.inherit r w).finish (.ok .raw)) := by
  have pass := Record.process_of_active w body output bound active
  have kept : variableAfter r w = w := by simp [variableAfter, pass]
  rw [process_of_shared h body bound hw, pass, kept, setVariable_self hw]

/-- A pass of a record that reads leaves its variable's alarm. -/
theorem alarm_variableAfter {r : Record} {s : Scalar} {b : Variable.Binding} (w : Variable)
    (body : r.body = .scalar .shared s) (input : s.isOutput = false)
    (bound : r.common.binding = .toVariable b) : (variableAfter r w).alarm = w.alarm := by
  have prepared : r.prepare = r := by simp [Record.prepare, body, Body.isOutput, input]
  rw [variableAfter_of_bound w (by simp [bound]), prepared]
  simp only [Variable.exchange, body, bound]
  exact Variable.alarm_move_of_input b r w input

/-- **A pass that does not start a write to the variable leaves its alarm.** -/
theorem alarm?_process {id : RecordId} (h : ¬c.StartsWrite id v) :
    (c.process id).alarm? v = c.alarm? v := by
  cases hr : c.record? id with
  | none => rw [process_of_none hr]
  | some r =>
    by_cases apart : ∀ b, r.common.binding = .toVariable b → b.target ≠ v
    · rw [alarm?, alarm?, variableAt?_process_of_ne hr apart]
    · obtain ⟨b, bound, rfl⟩ : ∃ b, r.common.binding = .toVariable b ∧ b.target = v := by
        simpa using apart
      cases reached_of_process hr with
      | @own s b' w body bound' there after =>
        obtain rfl := Binding.toVariable.inj (bound.symm.trans bound')
        have kind : r.body.isOutput = s.isOutput := by rw [body]; rfl
        cases output : s.isOutput with
        | false =>
          rw [after]
          exact alarm?_setVariable_kept there (alarm_variableAfter w body output bound)
        | true =>
          -- The record is active, since it would start a write otherwise.
          have active : r.common.active = true := by
            cases idle : r.common.active with
            | true => rfl
            | false => exact absurd ⟨r, b, hr, idle, kind.trans output, bound, rfl⟩ h
          rw [process_of_active hr body output bound active there]
          rfl
      | none vars => rw [alarm?, variableAt?, vars]; rfl

/-- What does not disturb the variable leaves its alarm. -/
theorem alarm?_act {a : Action} (h : c.Undisturbed v a) : (c.act a).alarm? v = c.alarm? v := by
  cases a with
  | send s request =>
    rcases act_send_cases c s request with e | ⟨_, -, e⟩
    · rw [e]
    · rw [e]; rfl
  | serve s =>
    rcases act_serve_cases c s with e | ⟨request, rest, queue, e⟩
    · rw [e]
    · rcases dispatch_cases (c.setQueue s rest) request with e' | ⟨r, hr, active, e'⟩
      · rw [e, e']; rfl
      · have quiet : ¬(c.setQueue s rest).StartsWrite request.record v :=
          h request.record ⟨request, rest, queue, rfl, r, hr, active⟩
        rw [e, e', alarm?_process quiet]
        rfl
  | process id => exact alarm?_process (h id rfl)
  | put id field value =>
    rcases act_put_cases c id field value with e | ⟨_, _, -, -, e⟩
    · rw [e]
    · rw [e]; rfl
  | store u value =>
    rcases act_store_cases c u value with e | ⟨w, x, hw, stored, e⟩
    · rw [e]
    · obtain ⟨y, -, rfl⟩ := Variable.store_eq_ok stored
      rw [e]
      exact alarm?_setVariable_kept hw rfl
  | report u alarm =>
    rcases act_report_cases c u alarm with e | ⟨w, -, e⟩
    · rw [e]
    · rw [e]
      exact alarm?_setVariable_of_ne c _ (Ne.symm h)
  | complete u =>
    rcases act_complete_cases c u with e | ⟨w, a, queue, hw, -, -, e⟩
    · rw [e]
    · have there : (c.setQueue a.scheduler (queue ++ [.complete a.record])).variableAt? u =
          some w := hw
      rw [e]
      exact alarm?_setVariable_kept there rfl

theorem alarm?_perform {actions : List Action} (run : Allows (Undisturbed v) c actions) :
    (c.perform actions).alarm? v = c.alarm? v :=
  run.invariant (P := fun d => d.alarm? v = c.alarm? v)
    (fun h allowed => (alarm?_act allowed).trans h) rfl

end Alarm

/-! ## The second pass -/

/-- What is left of a record in flight when the write has been completed. -/
theorem InFlight.completed {c d : Controller} {id : RecordId} {r : Record} {v : VariableId}
    {alarm : Alarm} (flight : InFlight c id r v)
    (completed : (c.report v alarm).completeProcessing v = (d, .ok ())) :
    d.record? id = some r ∧ d.alarm? v = some alarm := by
  obtain ⟨w, a, queue, hw, -, -, rfl⟩ := completeProcessing_eq_ok completed
  refine ⟨?_, ?_⟩
  · rw [record?_setVariable, record?_setQueue, report, modifyVariable]
    split
    · exact flight.record
    · exact flight.record
  · have reported : w.alarm = alarm := by
      rw [report, modifyVariable] at hw
      split at hw
      · rename_i w' hw'
        rw [variableAt?_setVariable_of_some hw'] at hw
        obtain rfl := Option.some.inj hw
        rfl
      · rename_i absent
        simp [absent] at hw
    have there : ((c.report v alarm).setQueue a.scheduler
        (queue ++ [.complete a.record])).variableAt? v = some w := hw
    rw [alarm?, variableAt?_setVariable_of_some there, Option.map_some, reported]

/-- **What a completed write reports.**  A record is in flight, the driver sets an alarm
that is more severe than what the record has pending, and completes the write.  Whatever
happens then until the second pass of the record is handled, it reports the driver's alarm
if and only if that is the variable's alarm still; and that it is, if no other write to the
variable is started meanwhile. -/
theorem current_after_completion {c d : Controller} {id : RecordId} {r : Record}
    {v : VariableId} {alarm : Alarm} {between : List Action} {s : SchedulerId} {rest : Queue}
    (flight : InFlight c id r v) (worse : r.common.alarms.pending.severity < alarm.severity)
    (completed : (c.report v alarm).completeProcessing v = (d, .ok ()))
    (spared : Allows (fun e a => ¬e.Processes id a) d between)
    (next : (d.perform between).queue? s = some (.complete id :: rest)) :
    let last := d.perform between
    let reported := ((last.act (.serve s)).record? id).map (·.common.alarms.current)
    (reported = some alarm ↔ last.alarm? v = some alarm) ∧
      (Allows (Undisturbed v) d between → reported = some alarm) := by
  intro last reported
  obtain ⟨there, given⟩ := flight.completed completed
  obtain ⟨t, ht, common⟩ := common_perform_of_not_processes there spared
  have active : t.common.active = true := by rw [common, flight.active]
  obtain ⟨scalar, body, output⟩ := flight.shared
  obtain ⟨b, bound, rfl⟩ := flight.bound
  obtain ⟨t', ht', skeleton⟩ := (keeps_skeleton_perform d between).record there
  obtain rfl := Option.some.inj (ht.symm.trans ht')
  obtain ⟨scalar', body', kind⟩ := Record.shared_of_skeleton skeleton body
  have bound' : t.common.binding = .toVariable b := by rw [common, bound]
  obtain ⟨w, hw⟩ : ∃ w, last.variableAt? b.target = some w := by
    have given' : (d.variableAt? b.target).isSome := by
      obtain ⟨w, hw, -⟩ := Option.map_eq_some_iff.1 given
      simp [hw]
    exact Option.isSome_iff_exists.1 (isSome_variableAt?_perform given' between)
  have still : last.alarm? b.target = some w.alarm := by rw [alarm?, hw, Option.map_some]
  -- The second pass finds the record as it was left, and the variable as it is now.
  have due : last.Processes id (.serve s) := ⟨.complete id, rest, next, rfl, t, ht, active⟩
  obtain ⟨schedulers, second⟩ := act_of_processes due
  have now : ({ last with schedulers } : Controller).record? id = some t := ht
  rw [process_of_active now body' (kind.trans output) bound' active hw] at second
  have outcome : reported = some (r.common.alarms.raise w.alarm).pending := by
    have isOutput : t.body.isOutput = true := by rw [body']; exact kind.trans output
    simp only [reported, second]
    rw [record?_setRecord_of_some now, Option.map_some,
      Record.current_of_second_pass w isOutput, common]
  have exact_when : reported = some alarm ↔ last.alarm? b.target = some alarm := by
    rw [outcome, still, Option.some_inj, Option.some_inj]
    exact Alarms.pending_raise_eq_iff worse
  exact ⟨exact_when, fun undisturbed => exact_when.2 ((alarm?_perform undisturbed).trans given)⟩

/-- The write of the first record waits for the driver, and a scan of the second one waits
for the scheduler. -/
def pairInFlight : Controller :=
  asynchronousPair.perform [.send ⟨0⟩ (.scan ⟨0⟩), .serve ⟨0⟩, .send ⟨0⟩ (.scan ⟨1⟩)]

/-- The driver has completed the write with an alarm. -/
def pairCompleted : Controller :=
  ((pairInFlight.report ⟨0⟩ ⟨.write, .minor⟩).completeProcessing ⟨0⟩).1

/-- The first record while its write waits. -/
def pairRecord : Record where
  common :=
    { name := "first", active := true, undefined := false
      binding := .toVariable ⟨⟨0⟩, { asynchronous := true }, .val, .long⟩
      handle := some ⟨0⟩, scheduler := some ⟨0⟩ }
  link := .hardware ⟨0, 2, "g"⟩
  body := .scalar .shared (.longout 7)

theorem completed_pairInFlight :
    (pairInFlight.report ⟨0⟩ ⟨.write, .minor⟩).completeProcessing ⟨0⟩ = (pairCompleted, .ok ()) :=
  rfl

theorem current_after_overtaking_scan :
    InFlight pairInFlight ⟨0⟩ pairRecord ⟨0⟩ ∧
      pairRecord.common.alarms.pending.severity < .minor ∧
      Allows (fun e a => ¬e.Processes ⟨0⟩ a) pairCompleted [.serve ⟨0⟩] ∧
      ((((pairCompleted.act (.serve ⟨0⟩)).act (.serve ⟨0⟩)).record? ⟨0⟩).map
          (·.common.alarms.current) = some ⟨.write, .minor⟩ ↔
        (pairCompleted.act (.serve ⟨0⟩)).alarm? ⟨0⟩ = some ⟨.write, .minor⟩) := by
  have flight : InFlight pairInFlight ⟨0⟩ pairRecord ⟨0⟩ :=
    ⟨rfl, rfl, ⟨_, rfl, rfl⟩, ⟨_, rfl, rfl⟩, ⟨_, rfl, rfl⟩⟩
  have worse : pairRecord.common.alarms.pending.severity < .minor := by decide
  have spared : Allows (fun e a => ¬e.Processes ⟨0⟩ a) pairCompleted [.serve ⟨0⟩] := by
    refine ⟨?_, trivial⟩
    rintro ⟨request, rest, queue, mine, -⟩
    have waiting : pairCompleted.queue? ⟨0⟩ = some [.scan ⟨1⟩, .complete ⟨0⟩] := rfl
    rw [waiting] at queue
    obtain ⟨rfl, -⟩ := List.cons.inj (Option.some.inj queue)
    exact absurd mine (by decide)
  exact ⟨flight, worse, spared,
    (current_after_completion flight worse completed_pairInFlight spared rfl).1⟩

/-- The scan of the second record is handled first, which puts its own alarm on the
variable: of the driver's alarm the first record reports nothing. -/
theorem current_lost_to_overtaking_scan :
    pairInFlight.AttachedTo ⟨0⟩ ⟨0⟩ ∧
      (pairInFlight.record? ⟨0⟩).map (·.common.alarms.pending) = some .none ∧
      (pairInFlight.report ⟨0⟩ ⟨.write, .minor⟩).completeProcessing ⟨0⟩ = (pairCompleted, .ok ()) ∧
      pairCompleted.queue? ⟨0⟩ = some [.scan ⟨1⟩, .complete ⟨0⟩] ∧
      (((pairCompleted.act (.serve ⟨0⟩)).act (.serve ⟨0⟩)).record? ⟨0⟩).map
        (·.common.alarms.current) = some .none :=
  ⟨⟨_, rfl, rfl⟩, by decide, rfl, rfl, by decide⟩

end Controller

end ControlRecords
