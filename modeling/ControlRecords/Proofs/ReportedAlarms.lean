import ControlRecords.Record.Basic

/-! # The alarm that is reported

Several alarms may be raised against a record before its processing ends, but only one is
reported.  Which one is a matter of the order in which they came and of their severities alone:
it is the first of the most severe, and nothing if none is severe at all (`Reported`).  This is
also the invariant of raising: at any time the pending alarm is the one to be reported of those
raised so far (`Reported.raise`), so that it tells how severe a further one has to be to take its
place (`Reported.severity_lt_iff`), and when processing ends it becomes the current one
(`first_of_worst_is_reported`). -/
namespace ControlRecords

/-- What is to be reported of alarms that were raised one after another. -/
inductive Reported (raised : List Alarm) : Alarm → Prop where
  /-- Nothing, if none of them has a severity. -/
  | nothing (harmless : ∀ b ∈ raised, b.severity = .noAlarm) : Reported raised .none
  /-- The first of the most severe: those before it are milder, and those behind it no worse. -/
  | first {earlier later : List Alarm} {a : Alarm} (split : raised = earlier ++ a :: later)
      (severe : .noAlarm < a.severity) (above : ∀ b ∈ earlier, b.severity < a.severity)
      (worst : ∀ b ∈ later, b.severity ≤ a.severity) : Reported raised a

namespace Reported
variable {raised : List Alarm} {a b : Alarm}

/-- What is more severe than the alarm to be reported is so than all alarms. -/
theorem severity_lt_iff (h : Reported raised a) (x : Severity) :
    a.severity < x ↔ .noAlarm < x ∧ ∀ b ∈ raised, b.severity < x := by
  cases h with
  | nothing harmless =>
    refine ⟨fun worse => ⟨worse, fun b mem => ?_⟩, fun worse => worse.1⟩
    rw [harmless b mem]
    exact worse
  | first split severe above worst =>
    subst split
    refine ⟨fun worse => ⟨Nat.lt_trans severe worse, fun b mem => ?_⟩,
      fun worse => worse.2 a (by simp)⟩
    rcases List.mem_append.1 mem with before | rest
    · exact Nat.lt_trans (above b before) worse
    · rcases List.mem_cons.1 rest with rfl | behind
      · exact worse
      · exact Nat.lt_of_le_of_lt (worst b behind) worse

/-- An alarm to be reported that has a severity is the first with this severity. -/
theorem find?_eq_some (h : Reported raised a) (severe : .noAlarm < a.severity) :
    raised.find? (·.severity = a.severity) = some a := by
  cases h with
  | nothing _ => exact absurd severe (Nat.lt_irrefl _)
  | first split _ above _ =>
    subst split
    rw [List.find?_append, List.find?_eq_none.2, Option.none_or, List.find?_cons_of_pos (by simp)]
    intro b mem same
    have less := above b mem
    rw [of_decide_eq_true same] at less
    exact Nat.lt_irrefl _ less

/-- There is one alarm at most to be reported. -/
theorem unique (h : Reported raised a) (k : Reported raised b) : a = b := by
  have below : ∀ x, a.severity < x ↔ b.severity < x := fun x =>
    (h.severity_lt_iff x).trans (k.severity_lt_iff x).symm
  have same : a.severity = b.severity := by
    have not_above := mt (below a.severity).2 (Nat.lt_irrefl _)
    have not_below := mt (below b.severity).1 (Nat.lt_irrefl _)
    exact Severity.code_injective
      (Nat.le_antisymm (Nat.le_of_not_lt not_above) (Nat.le_of_not_lt not_below))
  by_cases severe : .noAlarm < a.severity
  · have found := h.find?_eq_some severe
    rw [same, k.find?_eq_some (same ▸ severe)] at found
    exact (Option.some.inj found).symm
  · cases h with
    | first _ severe' => exact absurd severe' severe
    | nothing _ =>
      cases k with
      | first _ severe' => exact absurd (same ▸ severe') severe
      | nothing _ => rfl

/-- **The pending alarm stays the one to be reported when another is raised.** -/
theorem raise {s : Alarms} (h : Reported raised s.pending) (a : Alarm) :
    Reported (raised ++ [a]) (s.raise a).pending := by
  rw [Alarms.pending_raise]
  split
  case isTrue worse =>
    obtain ⟨severe, above⟩ := (h.severity_lt_iff a.severity).1 worse
    exact .first rfl severe above (by simp)
  case isFalse mild =>
    generalize s.pending = kept at h mild
    cases h with
    | nothing harmless =>
      refine .nothing fun b mem => ?_
      rcases List.mem_append.1 mem with before | last
      · exact harmless b before
      · obtain rfl := List.mem_singleton.1 last
        exact Severity.code_injective (Nat.le_zero.1 (Nat.le_of_not_lt mild))
    | first split severe above worst =>
      subst split
      refine .first (List.append_assoc ..) severe above fun b mem => ?_
      rcases List.mem_append.1 mem with behind | last
      · exact worst b behind
      · obtain rfl := List.mem_singleton.1 last
        exact Nat.le_of_not_lt mild

end Reported

namespace Record

/-- Raise alarms one after another: whether each becomes the pending one, and the record
afterwards. -/
def raiseAll (r : Record) : List Alarm → List Bool × Record
  | [] => ([], r)
  | a :: rest =>
    let (answers, s) := (r.raise a.status a.severity).raiseAll rest
    (r.common.alarms.yieldsTo a :: answers, s)

/-- The alarms of a record apart, nothing changes while alarms are raised, and what is current
does not either. -/
theorem raiseAll_snd (r : Record) (raised : List Alarm) :
    (r.raiseAll raised).2 = r.withCommon ({ · with
      alarms := ⟨r.common.alarms.current, (r.raiseAll raised).2.common.alarms.pending⟩ }) := by
  induction raised generalizing r with
  | nil => rfl
  | cons a rest ih =>
    have current : (r.raise a.status a.severity).common.alarms.current =
        r.common.alarms.current := Alarms.current_raise ..
    have later := ih (r.raise a.status a.severity)
    rw [current] at later
    exact later

/-- The answer to an alarm is how it compares with what is pending after those before it. -/
theorem answer_raiseAll (r : Record) (raised : List Alarm) (i : Nat) :
    (r.raiseAll raised).1[i]? =
      raised[i]?.map fun a => (r.raiseAll (raised.take i)).2.common.alarms.yieldsTo a := by
  induction raised generalizing r i with
  | nil => rfl
  | cons a rest ih =>
    cases i with
    | zero => rfl
    | succ i => exact ih (r.raise a.status a.severity) i

/-- **Whatever is raised, the pending alarm is the one to be reported.** -/
theorem reported_raiseAll {r : Record} {earlier : List Alarm}
    (h : Reported earlier r.common.alarms.pending) (raised : List Alarm) :
    Reported (earlier ++ raised) (r.raiseAll raised).2.common.alarms.pending := by
  induction raised generalizing r earlier with
  | nil =>
    rw [List.append_nil]
    exact h
  | cons a rest ih =>
    have next : Reported (earlier ++ [a])
        (r.raise a.status a.severity).common.alarms.pending := h.raise a
    have later := ih next
    rw [List.append_assoc] at later
    exact later

/-- **The first of the most severe alarms is reported.**  For a record without a pending alarm
each alarm that is raised becomes the pending one exactly if it has a severity and is more severe
than all before it.  There is just one alarm to be reported of them, and when processing ends it
is the current one, nothing is pending, and the rest of the record is as it was. -/
theorem first_of_worst_is_reported {r : Record} (clear : r.common.alarms.pending = .none)
    (raised : List Alarm) :
    (∀ i, (r.raiseAll raised).1[i]? = raised[i]?.map fun a =>
      decide (.noAlarm < a.severity ∧ ∀ b ∈ raised.take i, b.severity < a.severity)) ∧
    ∃ a, (∀ b, Reported raised b ↔ b = a) ∧
      (r.raiseAll raised).2.withCommon Common.promoteAlarms =
        r.withCommon ({ · with alarms := ⟨a, .none⟩ }) := by
  have first : Reported [] r.common.alarms.pending := by
    rw [clear]
    exact .nothing (by simp)
  have pending : ∀ part, Reported part (r.raiseAll part).2.common.alarms.pending :=
    reported_raiseAll first
  refine ⟨fun i => ?_, (r.raiseAll raised).2.common.alarms.pending, fun b => ?_, ?_⟩
  · rw [answer_raiseAll]
    congr 1
    funext a
    exact decide_eq_decide.2 ((pending (raised.take i)).severity_lt_iff a.severity)
  · exact ⟨fun h => h.unique (pending raised), fun same => same ▸ pending raised⟩
  · rw [raiseAll_snd]
    rfl

/-- A record that nothing was raised against. -/
def gauge : Record :=
  { common := { name := "gauge" }, link := default, body := .scalar .shared (.longin 0) }

/-- A condition without a severity is not reported, and of two major alarms the first is. -/
theorem first_of_worst_on_gauge :
    gauge.common.alarms.pending = .none ∧
      let raised : List Alarm :=
        [⟨.soft, .noAlarm⟩, ⟨.high, .minor⟩, ⟨.link, .major⟩, ⟨.hihi, .major⟩, ⟨.low, .minor⟩]
      (gauge.raiseAll raised).1[2]? = some true ∧ (gauge.raiseAll raised).1[3]? = some false ∧
      ((gauge.raiseAll raised).2.withCommon Common.promoteAlarms).common.alarms =
        ⟨⟨.link, .major⟩, .none⟩ := by
  refine ⟨rfl, ?_⟩
  intro raised
  obtain ⟨answers, a, reported, settled⟩ := first_of_worst_is_reported (r := gauge) rfl raised
  have split : raised = [⟨.soft, .noAlarm⟩, ⟨.high, .minor⟩] ++
      ⟨.link, .major⟩ :: [⟨.hihi, .major⟩, ⟨.low, .minor⟩] := rfl
  have link : Reported raised ⟨.link, .major⟩ := .first split (by decide) (by decide) (by decide)
  obtain rfl := (reported _).1 link
  refine ⟨(answers 2).trans (by decide), (answers 3).trans (by decide), ?_⟩
  rw [settled]
  rfl

end Record

end ControlRecords
