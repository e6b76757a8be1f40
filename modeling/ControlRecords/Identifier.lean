/-! Identities of the things in a controller. A record may be dropped while others still
refer to it, so things refer to each other by number and not by holding one another; a
number is given once and never to anything else. -/
namespace ControlRecords

/-- The identity of a record. -/
structure RecordId where
  index : Nat
  deriving DecidableEq, Repr

/-- The identity of a scheduler. -/
structure SchedulerId where
  index : Nat
  deriving DecidableEq, Repr

/-- The identity of a scan list. -/
structure ScanListId where
  index : Nat
  deriving DecidableEq, Repr

/-- The identity of a variable. -/
structure VariableId where
  index : Nat
  deriving DecidableEq, Repr

/-- The identity of an archive. -/
structure ArchiveId where
  index : Nat
  deriving DecidableEq, Repr

end ControlRecords
