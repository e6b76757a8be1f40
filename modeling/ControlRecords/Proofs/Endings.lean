import ControlRecords.Proofs.TwoPhase

/-! # How a pass ends

A pass is left out, it begins an asynchronous write, or it is completed, and there is no
fourth way (`process_endings`).  A pass that begins a write shows nothing of itself yet: the
alarm, the time and whether the value is defined are those of the pass before
(`Common.report`).  A pass that is completed leaves no alarm pending, and reports an
undefined value as an alarm of the highest severity. -/
namespace ControlRecords

/-- What a record reports of the last pass that was completed. -/
def Common.report (c : Common) : Alarm × Bool × TimeStamp :=
  (c.alarms.current, c.undefined, c.time)

@[simp] theorem Common.report_raise (c : Common) (status : AlarmStatus) (severity : Severity) :
    (c.raise status severity).report = c.report := by
  simp [report, raise]

/-- The pass of a record is ended: no alarm is pending, and a value that is undefined is
reported as one that cannot be relied upon. -/
structure Record.Completed (s : Record) : Prop where
  idle : s.common.active = false
  pending : s.common.alarms.pending = .none
  undefined : s.common.undefined = true → s.common.alarms.current.severity = .invalid

/-- Raising the highest severity makes it the pending one. -/
theorem Alarms.severity_raise_invalid (s : Alarms) (status : AlarmStatus) :
    (s.raise ⟨status, .invalid⟩).pending.severity = .invalid := by
  rw [pending_raise]
  split
  · rfl
  · rename_i worse
    cases h : s.pending.severity with
    | invalid => rfl
    | _ => simp [h, Severity.lt_def, Severity.code] at worse

/-- **A pass that is finished is completed.** -/
theorem Record.completed_finish (r : Record) (result : Except SupportError Transfer) :
    (r.finish result).Completed := by
  refine ⟨rfl, rfl, ?_⟩
  simp only [finish, withCommon, Common.undefined_finish, Common.current_finish]
  intro h
  rw [if_pos h]
  exact Alarms.severity_raise_invalid _ _

/-! ## Writes that begin -/

namespace Variable

section Reports
variable (b : Binding) (r : Record) (v : Variable)

@[simp] theorem report_readBack : (readBack b r v).1.common.report = r.common.report := by
  unfold readBack
  split
  · exact congrArg Common.report (Record.common_put ‹_›)
  · exact Common.report_raise _ _ _

@[simp] theorem report_deliver : (deliver b r v).record.common.report = r.common.report := by
  unfold deliver
  split
  · rfl
  · split
    · rfl
    · exact Common.report_raise _ _ _

end Reports

/-- The first pass of an asynchronous write has begun: the record writes to a variable whose
driver it has to wait for, and reports what it reported before. -/
structure Begins (b : Binding) (r after : Record) : Prop where
  asynchronous : b.flags.asynchronous = true
  report : after.common.report = r.common.report

section Idle
variable {b : Binding} {r : Record} {v : Variable}

/-- Storing the value turns a record active only if the driver is to complete the write. -/
theorem begins_giveOut (idle : r.common.active = false)
    (started : (giveOut b r v).record.common.active = true) :
    Begins b r (giveOut b r v).record := by
  have first : secondPhase r v = none := by simp [secondPhase, idle]
  by_cases waits : b.flags.asynchronous = true
  · refine ⟨waits, ?_⟩
    simp only [giveOut, first, waits, if_true]
    split
    · exact Common.report_raise _ _ _
    · exact report_deliver b _ _
  · have same := (active_deliver b r v).trans idle
    rw [giveOut_of_synchronous idle (by simpa using waits)] at started
    exact absurd (same.symm.trans started) (by decide)

/-- So does storing what was merged with the other bits. -/
theorem begins_mergeOut {wanted : UInt32} (idle : r.common.active = false)
    (started : (mergeOut b wanted r v).record.common.active = true) :
    Begins b r (mergeOut b wanted r v).record := by
  have active := active_readBack b r v
  have report := report_readBack b r v
  unfold mergeOut at started ⊢
  split at started
  · rename_i s w e back
    rw [back, idle] at active
    rw [active] at started
    contradiction
  · rename_i s w back
    rw [back] at active report
    obtain ⟨waits, same⟩ := begins_giveOut (r := s.mapScalar _) (active.trans idle) started
    exact ⟨waits, same.trans report⟩

/-- **An exchange turns an idle record active only to begin an asynchronous write.** -/
theorem begins_move {s : Scalar} (idle : r.common.active = false)
    (started : (move b s r v).record.common.active = true) :
    s.isOutput = true ∧ Begins b r (move b s r v).record := by
  -- A record that reads stays as active as it was.
  have read : (takeIn true b r v).record.common.active = false :=
    (active_takeIn b r v true).trans idle
  have first : secondPhase r v = none := by simp [secondPhase, idle]
  cases s with
  | longin _ =>
    simp only [move, read] at started
    contradiction
  | ai _ | bi _ | mbbi _ =>
    simp only [move] at started
    split at started
    · exact absurd (read.symm.trans started) (by decide)
    · exact absurd (read.symm.trans started) (by decide)
  | ao _ | longout _ => exact ⟨rfl, begins_giveOut idle started⟩
  | bo _ | mbbo _ _ =>
    simp only [move, first] at started ⊢
    split at started
    · rename_i merges
      simp only [merges, if_true]
      exact ⟨rfl, begins_mergeOut idle started⟩
    · rename_i merges
      simp only [merges]
      exact ⟨rfl, begins_giveOut idle started⟩

end Idle

end Variable

/-- **Only a write to a variable begins without being completed.** -/
theorem Target.begins_exchange {r : Record} {t : Target} (idle : r.common.active = false)
    (started : (exchange r t).record.common.active = true) :
    r.body.isOutput = true ∧ ∃ b, r.common.binding = .toVariable b ∧
      Variable.Begins b r (exchange r t).record := by
  cases t with
  | registers t =>
    have same := (Register.active_exchange r t).trans idle
    exact absurd (same.symm.trans started) (by decide)
  | vault t =>
    have same := (Archive.active_exchange r t).trans idle
    exact absurd (same.symm.trans started) (by decide)
  | nothing => exact absurd (idle.symm.trans started) (by decide)
  | shared v =>
    simp only [exchange, Variable.exchange] at started ⊢
    split at started
    · rename_i s b body bound
      obtain ⟨output, begins⟩ := Variable.begins_move idle started
      refine ⟨?_, b, bound, ?_⟩
      · rw [body]
        exact output
      · exact begins
    · exact absurd (idle.symm.trans started) (by decide)

/-! ## Passes -/

/-- A pass has begun an asynchronous write: the record is active now, it is attached to its
variable until the driver completes the write, and it reports what it reported before. -/
structure Controller.Begun (d : Controller) (r s : Record) : Prop where
  idle : r.common.active = false
  active : s.common.active = true
  alarm : s.common.alarms.current = r.common.alarms.current
  undefined : s.common.undefined = r.common.undefined
  time : s.common.time = r.common.time
  output : r.body.isOutput = true
  attached : ∃ b a, r.common.binding = .toVariable b ∧ b.flags.asynchronous = true ∧
    d.attachment? b.target = some a

/-- What a record does that is left active by its pass. -/
theorem Record.begins_process {r : Record} {t : Target} (bound : r.common.binding ≠ .unbound)
    (idle : r.common.active = false)
    (started : (r.process Target.exchange t).1.common.active = true) :
    r.body.isOutput = true ∧ ∃ b, r.common.binding = .toVariable b ∧
      Variable.Begins b r (r.process Target.exchange t).1 := by
  have idle' : r.prepare.common.active = false := by rw [common_prepare, idle]
  rcases process_cases Target.exchange t bound with ⟨-, active, e⟩ | ⟨-, e⟩
  · obtain ⟨output, b, binding, waits, report⟩ := Target.begins_exchange idle' active
    rw [common_prepare] at binding report
    rw [e]
    exact ⟨(isOutput_of_skeleton r.skeleton_prepare).symm.trans output, b, binding, waits, report⟩
  · rw [e] at started
    exact absurd started (by simp [(completed_finish _ _).idle])

/-- A pass of a connected record that does not leave it active is completed. -/
theorem Record.completed_process {r : Record} {t : Target} (bound : r.common.binding ≠ .unbound)
    (ended : (r.process Target.exchange t).1.common.active = false) :
    (r.process Target.exchange t).1.Completed := by
  rcases process_cases Target.exchange t bound with ⟨-, active, e⟩ | ⟨-, e⟩
  · rw [e] at ended
    exact absurd (ended.symm.trans active) (by decide)
  · rw [e]
    exact completed_finish _ _

namespace Controller

/-- **Every pass ends in one of three ways.**  A record that is connected to nothing makes
no pass, and nothing at all is changed.  Any other record begins an asynchronous write, or
its pass is completed; and the pass of a record that was active is always completed. -/
theorem process_endings {c : Controller} {id : RecordId} {r : Record}
    (h : c.record? id = some r) :
    (r.common.binding = .unbound ∧ c.process id = c) ∨
      (r.common.binding ≠ .unbound ∧ ∃ s, (c.process id).record? id = some s ∧
        ((c.process id).Begun r s ∨ s.Completed) ∧
          (r.common.active = true → s.Completed)) := by
  cases outcome_of_process h with
  | omitted unbound same => exact Or.inl ⟨unbound, same⟩
  | finished bound ended =>
    have completed := Record.completed_process bound ended
    exact Or.inr ⟨bound, _, record?_process_self h, Or.inr completed, fun _ => completed⟩
  | @started b record scheduler idle active binding handle free attached =>
    have bound : r.common.binding ≠ .unbound := by simp [binding]
    obtain ⟨output, b', binding', waits, report⟩ := Record.begins_process bound idle active
    obtain rfl := Binding.toVariable.inj (binding.symm.trans binding')
    have taken : (c.process id).attachment? b.target = some ⟨record, scheduler⟩ := by
      rw [attached, if_pos rfl]
    refine Or.inr ⟨bound, _, record?_process_self h, Or.inl ?_, fun was => ?_⟩
    · simp only [Common.report, Prod.mk.injEq] at report
      obtain ⟨alarm, undefined, time⟩ := report
      exact ⟨idle, active, alarm, undefined, time, output, b, _, binding, waits, taken⟩
    · exact absurd (idle.symm.trans was) (by decide)

/-- The first pass of a record that writes asynchronously begins the write. -/
theorem begun_of_asynchronousPair :
    ∃ r s, asynchronousPair.record? ⟨0⟩ = some r ∧
      (asynchronousPair.process ⟨0⟩).record? ⟨0⟩ = some s ∧
        (asynchronousPair.process ⟨0⟩).Begun r s := by
  have active : ((asynchronousPair.process ⟨0⟩).record? ⟨0⟩).map (·.common.active) = some true := by
    decide
  have bound : (asynchronousPair.record? ⟨0⟩).map (·.common.binding.isBound) = some true := by
    decide
  obtain ⟨r, hr⟩ : ∃ r, asynchronousPair.record? ⟨0⟩ = some r := ⟨_, rfl⟩
  rw [hr] at bound
  rcases process_endings hr with ⟨unbound, -⟩ | ⟨-, s, hs, begun | completed, -⟩
  · simp [unbound, Binding.isBound] at bound
  · exact ⟨r, s, hr, hs, begun⟩
  · simp [hs, completed.idle] at active

end Controller

end ControlRecords
