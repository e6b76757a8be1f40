import ControlRecords.Proofs.Connections

/-! # What an event tells

A driver that asks for the event of a variable is told whether something has been done with
the value since it was last told so: the driver has signalled, a record has loaded the value,
or a record has made the first pass of a write that was not refused (`Completes`).  There is
one thing more that signals the event, a record that the value could not be loaded into
(`Spoils`), so the answer is what it ought to be exactly if no such record has signalled
without one of the others (`polled_after_history`). -/
namespace ControlRecords.Controller

variable {c : Controller} {v : VariableId} {w : Variable}

/-- Something is done with the variable that its event tells of. -/
def Completes (v : VariableId) (c : Controller) (op : Operation) : Prop :=
  ∃ w a, c.variableAt? v = some w ∧ c.accessTo? v op = some a ∧ w.completes a = true

/-- The value could not be loaded into a record, and the event is signalled. -/
def Spoils (v : VariableId) (c : Controller) (op : Operation) : Prop :=
  ∃ w a, c.variableAt? v = some w ∧ c.accessTo? v op = some a ∧ w.spoils a = true

/-- The driver asks for the event and is told that it is signalled. -/
def Answered (v : VariableId) (c : Controller) (op : Operation) : Prop :=
  op = .poll v ∧ (c.wait v 0).2 = .ok

/-- The variable is there with an event, and the records are connected through fields that
they have. -/
structure HasEvent (v : VariableId) (c : Controller) : Prop where
  connected : c.WellConnected
  event : ∃ w, c.variableAt? v = some w ∧ w.event.isSome = true

/-- The event is signalled. -/
def Signalled (v : VariableId) (c : Controller) : Prop :=
  ∃ w, c.variableAt? v = some w ∧ w.event = some true

/-! ## One operation -/

theorem wait_of_event (h : c.variableAt? v = some w) {signalled : Bool}
    (event : w.event = some signalled) :
    (c.wait v 0).2 = if signalled then .ok else .timedOut := by
  simp only [wait, h, Variable.wait_zero, event]

/-- The driver alone asks for the event. -/
theorem accessTo?_eq_poll_iff {op : Operation} :
    c.accessTo? v op = some .poll ↔ op = .poll v := by
  constructor
  · intro h
    cases origin_of_access? (access?_of_accessTo? h) with
    | poll => rfl
    | record _ _ _ _ _ moves => exact moves.elim
  · rintro rfl
    simp [accessTo?, access?]

/-- An event stays where it is. -/
theorem HasEvent.operate (h : HasEvent v c) (op : Operation) : HasEvent v (c.operate op) := by
  obtain ⟨w, there, event⟩ := h.event
  refine ⟨h.connected.operate op, _, variableAt?_operate there op, ?_⟩
  cases access : c.accessTo? v op with
  | none => exact event
  | some a =>
    have fitted := fitted_of_access? h.connected (access?_of_accessTo? access)
    exact (Variable.isSome_event_after w fitted).trans event

/-- **The event is signalled after an operation that signals it, or if it was signalled and
the driver was not told so.** -/
theorem signalled_operate (h : HasEvent v c) (op : Operation) :
    Signalled v (c.operate op) ↔
      (Completes v c op ∨ Spoils v c op) ∨ (Signalled v c ∧ ¬Answered v c op) := by
  obtain ⟨w, there, event⟩ := h.event
  obtain ⟨signalled, event⟩ := Option.isSome_iff_exists.1 event
  have told : Answered v c op ↔ op = .poll v ∧ signalled = true := by
    rw [Answered, wait_of_event there event]
    cases signalled <;> simp
  have after : Signalled v (c.operate op) ↔
      ((c.accessTo? v op).elim w w.after).event = some true := by
    simp [Signalled, variableAt?_operate there op]
  have before : Signalled v c ↔ signalled = true := by simp [Signalled, there, event]
  cases access : c.accessTo? v op with
  | none =>
    have other : op ≠ .poll v := fun e => by simp [accessTo?_eq_poll_iff.2 e] at access
    rw [after, before, told]
    simp [Completes, Spoils, access, event, other]
  | some a =>
    have completes : Completes v c op ↔ w.completes a = true := by
      simp [Completes, there, access]
    have spoils : Spoils v c op ↔ w.spoils a = true := by simp [Spoils, there, access]
    have asks : op = .poll v ↔ a = .poll := by
      rw [← accessTo?_eq_poll_iff, access, Option.some_inj]
    have fitted := fitted_of_access? h.connected (access?_of_accessTo? access)
    rw [after, before, told, completes, spoils, asks, access, Option.elim_some,
      Variable.event_after w fitted, event]
    by_cases sets : (w.completes a || w.spoils a) = true
    · have signals : w.completes a = true ∨ w.spoils a = true := by simpa using sets
      rw [if_pos sets]
      exact iff_of_true rfl (.inl signals)
    · -- Nothing signals, so the event stays what it was unless the driver asks for it.
      have silent : ¬(w.completes a = true ∨ w.spoils a = true) := by simpa using sets
      rw [if_neg sets]
      cases a with
      | poll => simp [silent]
      | _ => simp [silent]

/-! ## Histories -/

/-- The driver is told that the event is signalled if it is, and that the time is out
otherwise. -/
theorem HasEvent.answer (h : HasEvent v c) :
    ((c.wait v 0).2 = .ok ↔ Signalled v c) ∧
      ((c.wait v 0).2 ≠ .ok → (c.wait v 0).2 = .timedOut) := by
  obtain ⟨w, there, event⟩ := h.event
  obtain ⟨signalled, event⟩ := Option.isSome_iff_exists.1 event
  simp only [wait_of_event there event, Signalled, there]
  cases signalled <;> simp [event]

/-- **The event tells what has been done since it was last told.**  A driver that asks for
an event is told that it is signalled if, since it was last told so, the driver has signalled
it, or the value was loaded into a record or written in a first pass that was not refused, by
a record whose accesses are posted; or if such a record could not have the value loaded.
Otherwise it is told that the time is out.  So the completed accesses alone decide the answer
exactly if none of the others is left unanswered without them. -/
theorem polled_after_history (connected : c.WellConnected) (there : c.variableAt? v = some w)
    (fresh : w.event = some false) (history : List Operation) :
    let answer := ((c.operateAll history).wait v 0).2
    (answer = .ok ↔ Since (Completes v) (Answered v) c history ∨
        Since (Spoils v) (Answered v) c history) ∧
      (answer ≠ .ok → answer = .timedOut) ∧
      ((answer = .ok ↔ Since (Completes v) (Answered v) c history) ↔
        (Since (Spoils v) (Answered v) c history →
          Since (Completes v) (Answered v) c history)) := by
  intro answer
  have hasEvent : HasEvent v c := ⟨connected, w, there, by simp [fresh]⟩
  have silent : ¬Signalled v c := by simp [Signalled, there, fresh]
  have keep : ∀ {d : Controller} op, HasEvent v d → HasEvent v (d.operate op) :=
    fun op h => h.operate op
  have last := invariant_operateAll keep history hasEvent
  obtain ⟨ok, other⟩ := last.answer
  have exact_when : answer = .ok ↔ Since (Completes v) (Answered v) c history ∨
      Since (Spoils v) (Answered v) c history := by
    have bit := bit_operateAll keep (fun op h => signalled_operate h op) history hasEvent
    rw [← since_or, ok, bit]
    simp [silent]
  refine ⟨exact_when, other, ?_⟩
  rw [exact_when]
  constructor
  · intro same spoilt
    exact same.1 (.inr spoilt)
  · intro covered
    exact ⟨fun either => either.elim id covered, .inl⟩

/-- A variable with an event, and a record that reads a whole number from it. -/
def watched (value : Value) : Controller :=
  ((({} : Controller).registerGroup "g" [{ value, event := some false }]).1.adopt
    ⟨{ name := "reader" }, .hardware ⟨0, 0, "g"⟩, .scalar .shared (.longin 0)⟩ none).2

theorem wellConnected_watched (value : Value) : (watched value).WellConnected :=
  (wellConnected_of_records_eq_nil rfl).adopt rfl none

/-- The record is connected, and loads the value once. -/
def readOnce : List Operation := [.initialise ⟨0⟩, .get ⟨0⟩]

theorem polled_after_reading :
    (watched (.ulong 5)).WellConnected ∧
      (watched (.ulong 5)).variableAt? ⟨0⟩ = some { value := .ulong 5, event := some false } ∧
      (((watched (.ulong 5)).operateAll readOnce).wait ⟨0⟩ 0).2 = .ok ∧
      ((((watched (.ulong 5)).operateAll readOnce).wait ⟨0⟩ 0).2 = .ok ↔
        Since (Completes ⟨0⟩) (Answered ⟨0⟩) (watched (.ulong 5)) readOnce ∨
          Since (Spoils ⟨0⟩) (Answered ⟨0⟩) (watched (.ulong 5)) readOnce) := by
  have connected := wellConnected_watched (.ulong 5)
  exact ⟨connected, rfl, by decide, (polled_after_history connected rfl rfl readOnce).1⟩

/-- A text that is no number cannot be loaded, and yet the driver is told that the event is
signalled. -/
theorem polled_after_failed_reading :
    (((watched (.string "abc")).operateAll readOnce).wait ⟨0⟩ 0).2 = .ok ∧
      ¬Since (Completes ⟨0⟩) (Answered ⟨0⟩) (watched (.string "abc")) readOnce := by
  refine ⟨by decide, ?_⟩
  rintro ((h | ⟨⟨w, a, there, access, done⟩, -⟩) | ⟨⟨w, a, there, access, done⟩, -⟩)
  · exact h
  · obtain rfl := Option.some.inj there
    obtain rfl := Option.some.inj access
    exact absurd done (by decide)
  · -- Connecting the record makes no access.
    have none : (watched (.string "abc")).accessTo? ⟨0⟩ (.initialise ⟨0⟩) = none := rfl
    rw [none] at access
    contradiction

end ControlRecords.Controller
