import ControlRecords.Record.Array

/-! Arrays of a driver that are kept in files. An array has a number of instances of one
capacity, one for each record that is connected to it. The driver may read all instances
from storage of its own, where they lie one behind the other. -/
namespace ControlRecords.Archive

/-- Why an array record cannot be connected or saved. -/
inductive ArchiveError where
  | badLinkType
  | badCard (card : UInt32) (count : Nat)
  | badInstance (slot : UInt32) (count : Nat)
  | alreadyConnected
  | storageTooSmall (length needed : Nat)
  | notConnected
  | queueFull
  | writerStopped
  deriving DecidableEq, Repr

/-- The message of an error about an array. -/
def ArchiveError.message : ArchiveError → String
  | badLinkType => "Link must be of type VME_IO"
  | badCard card count =>
    "Invalid array descriptor #" ++ toString card.toNat ++ "; only " ++ toString count
      ++ " are configured"
  | badInstance slot count =>
    "Invalid instance #" ++ toString slot.toNat ++ "; the array has only " ++ toString count
  | alreadyConnected => "Record is already connected to an array"
  | storageTooSmall length needed =>
    "Array storage holds " ++ toString length ++ " elements, " ++ toString needed
      ++ " are needed"
  | notConnected => "Record is not connected to an array"
  | queueFull => "The data writer queue is full"
  | writerStopped => "The data writer has stopped"

/-- An array that records can be connected to. -/
structure ArrayInfo where
  instances : Nat
  /-- How many elements an instance can hold. -/
  capacity : Nat
  /-- How many elements are in use at the start. -/
  initial : UInt32
  /-- The driver's storage, if it has any. -/
  storage : Option (List UInt32) := none
  deriving DecidableEq, Repr

/-- The instance of an array that a record is connected to. -/
structure Binding where
  /-- Which array. -/
  array : Nat
  /-- Which instance of it. -/
  slot : Nat
  /-- How many elements were in use when the record was connected. -/
  initial : UInt32
  /-- The elements are saved and restored. -/
  persists : Bool
  deriving DecidableEq, Repr

/-- Elements with those from `start` on replaced by others, as far as they reach. -/
def replaceAt (storage : List UInt32) (start : Nat) (values : List UInt32) : List UInt32 :=
  storage.take start ++ ArrayFields.overwrite (storage.drop start) values

@[simp] theorem length_replaceAt (storage : List UInt32) (start : Nat) (values : List UInt32) :
    (replaceAt storage start values).length = storage.length := by
  simp only [replaceAt, List.length_append, List.length_take, ArrayFields.length_overwrite,
    List.length_drop]
  omega

namespace ArrayInfo

/-- Copy the elements of an instance to the driver's storage, at most as many as an
instance can hold. -/
def publish (a : ArrayInfo) (slot : Nat) (values : List UInt32) : ArrayInfo :=
  { a with storage := a.storage.map fun s =>
      replaceAt s (slot * a.capacity) (values.take a.capacity) }

@[simp] theorem instances_publish (a : ArrayInfo) (slot : Nat) (values : List UInt32) :
    (a.publish slot values).instances = a.instances := rfl

@[simp] theorem capacity_publish (a : ArrayInfo) (slot : Nat) (values : List UInt32) :
    (a.publish slot values).capacity = a.capacity := rfl

@[simp] theorem initial_publish (a : ArrayInfo) (slot : Nat) (values : List UInt32) :
    (a.publish slot values).initial = a.initial := rfl

end ArrayInfo

end ControlRecords.Archive
