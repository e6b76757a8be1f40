/-! Alarms, and the times that stand beside them. An alarm is a condition together with a
severity. While a record processes, alarms are raised against it and the first of the most
severe ones is kept as pending; when processing ends the pending alarm becomes the current
one.

A time is a moment that somebody set, counted in nanoseconds from the epoch, or the clock's
reading when a record finished processing. What the clock reads is outside this library, so
one value stands for every reading of it. -/
namespace ControlRecords

/-- How bad an alarm is. -/
inductive Severity where
  | noAlarm
  | minor
  | major
  /-- The value cannot be relied upon. -/
  | invalid
  deriving DecidableEq, Repr, Inhabited

namespace Severity

/-- The number of a severity; a worse one has a greater number. -/
def code : Severity → Nat
  | noAlarm => 0
  | minor => 1
  | major => 2
  | invalid => 3

/-- Every severity, the mildest first. -/
def all : List Severity := [noAlarm, minor, major, invalid]

/-- The severity with a number. -/
def ofCode? (n : Nat) : Option Severity := all.find? (·.code == n)

theorem ofCode?_code (s : Severity) : ofCode? s.code = some s := by cases s <;> decide

/-- One severity is milder than another when its number is less. -/
instance : LT Severity := ⟨fun a b => a.code < b.code⟩

/-- One severity is no worse than another when its number is no greater. -/
instance : LE Severity := ⟨fun a b => a.code ≤ b.code⟩

instance (a b : Severity) : Decidable (a < b) := inferInstanceAs (Decidable (a.code < b.code))

instance (a b : Severity) : Decidable (a ≤ b) := inferInstanceAs (Decidable (a.code ≤ b.code))

theorem lt_def {a b : Severity} : a < b ↔ a.code < b.code := Iff.rfl

theorem code_injective {a b : Severity} (h : a.code = b.code) : a = b := by
  have := ofCode?_code a
  rw [h, ofCode?_code] at this
  exact (Option.some.inj this).symm

/-- The keyword of a severity. -/
def text : Severity → String
  | noAlarm => "NO_ALARM"
  | minor => "MINOR"
  | major => "MAJOR"
  | invalid => "INVALID"

end Severity

/-- The condition that an alarm reports. -/
inductive AlarmStatus where
  | noAlarm
  | read
  | write
  | hihi
  | high
  | lolo
  | low
  | state
  | changeOfState
  | communication
  | timeout
  | hardwareLimit
  | calculation
  | scan
  | link
  | soft
  | badSubroutine
  /-- The record has no defined value. -/
  | undefined
  | disable
  | simulation
  | readAccess
  | writeAccess
  deriving DecidableEq, Repr, Inhabited

namespace AlarmStatus

/-- Every condition, in the order of the numbers. -/
def all : List AlarmStatus :=
  [noAlarm, read, write, hihi, high, lolo, low, state, changeOfState, communication, timeout,
    hardwareLimit, calculation, scan, link, soft, badSubroutine, undefined, disable, simulation,
    readAccess, writeAccess]

/-- The number of a condition. -/
def code : AlarmStatus → Nat
  | noAlarm => 0
  | read => 1
  | write => 2
  | hihi => 3
  | high => 4
  | lolo => 5
  | low => 6
  | state => 7
  | changeOfState => 8
  | communication => 9
  | timeout => 10
  | hardwareLimit => 11
  | calculation => 12
  | scan => 13
  | link => 14
  | soft => 15
  | badSubroutine => 16
  | undefined => 17
  | disable => 18
  | simulation => 19
  | readAccess => 20
  | writeAccess => 21

/-- The condition with a number. -/
def ofCode? (n : Nat) : Option AlarmStatus := all.find? (·.code == n)

theorem ofCode?_code (s : AlarmStatus) : ofCode? s.code = some s := by cases s <;> decide

/-- The keyword of a condition. -/
def text : AlarmStatus → String
  | noAlarm => "NO_ALARM"
  | read => "READ"
  | write => "WRITE"
  | hihi => "HIHI"
  | high => "HIGH"
  | lolo => "LOLO"
  | low => "LOW"
  | state => "STATE"
  | changeOfState => "COS"
  | communication => "COMM"
  | timeout => "TIMEOUT"
  | hardwareLimit => "HWLIMIT"
  | calculation => "CALC"
  | scan => "SCAN"
  | link => "LINK"
  | soft => "SOFT"
  | badSubroutine => "BAD_SUB"
  | undefined => "UDF"
  | disable => "DISABLE"
  | simulation => "SIMM"
  | readAccess => "READ_ACCESS"
  | writeAccess => "WRITE_ACCESS"

end AlarmStatus

/-- A condition and how bad it is. -/
structure Alarm where
  status : AlarmStatus := .noAlarm
  severity : Severity := .noAlarm
  deriving DecidableEq, Repr, Inhabited

namespace Alarm

/-- Nothing to report. -/
def none : Alarm := {}

/-- The two keywords with a stroke between them. -/
def text (a : Alarm) : String := a.status.text ++ "/" ++ a.severity.text

end Alarm

/-- The alarms of a record. -/
structure Alarms where
  /-- The alarm of the last finished processing. -/
  current : Alarm := .none
  /-- The alarm gathered since then. -/
  pending : Alarm := .none
  deriving DecidableEq, Repr, Inhabited

namespace Alarms

/-- Raising the alarm would change what is pending: it is the more severe of the two. -/
def yieldsTo (s : Alarms) (a : Alarm) : Bool := decide (s.pending.severity < a.severity)

/-- Raise an alarm: it becomes the pending one if it is more severe. -/
def raise (s : Alarms) (a : Alarm) : Alarms := if s.yieldsTo a then { s with pending := a } else s

/-- Processing has ended: the pending alarm becomes the current one. -/
def promote (s : Alarms) : Alarms := { current := s.pending, pending := .none }

@[simp] theorem current_raise (s : Alarms) (a : Alarm) : (s.raise a).current = s.current := by
  unfold raise; split <;> rfl

theorem pending_raise (s : Alarms) (a : Alarm) :
    (s.raise a).pending = if s.pending.severity < a.severity then a else s.pending := by
  simp only [raise, yieldsTo, decide_eq_true_eq]
  split <;> rfl

@[simp] theorem current_promote (s : Alarms) : s.promote.current = s.pending := rfl

@[simp] theorem pending_promote (s : Alarms) : s.promote.pending = .none := rfl

end Alarms

/-- When a value was taken. -/
inductive TimeStamp where
  | moment (nanoseconds : Int)
  | clock
  deriving DecidableEq, Repr

namespace TimeStamp

/-- The moment from which time is counted. -/
def epoch : TimeStamp := moment 0

instance : Inhabited TimeStamp := ⟨epoch⟩

end TimeStamp

end ControlRecords
