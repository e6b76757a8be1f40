import ControlRecords.Identifier

/-! Requests to process records. A scheduler keeps requests in the order in which it took
them; a scan list names the records that are to process together, each with its scheduler. -/
namespace ControlRecords

/-- A request to a scheduler. -/
inductive Request where
  /-- Process the record, unless it is active. -/
  | scan (record : RecordId)
  /-- Run the second pass of the record's write, if it is active. -/
  | complete (record : RecordId)
  deriving DecidableEq, Repr

/-- The record that a request is for. -/
def Request.record : Request → RecordId
  | scan id => id
  | complete id => id

/-- A record on a scan list, and the scheduler that processes it. -/
structure Member where
  record : RecordId
  scheduler : SchedulerId
  deriving DecidableEq, Repr

/-- The requests that wait for a scheduler, the oldest first. -/
abbrev Queue := List Request

/-- The records that process together. -/
abbrev ScanList := List Member

end ControlRecords
