import ControlRecords.Archive.Arrays
import ControlRecords.Archive.Files
import ControlRecords.Archive.Image
import ControlRecords.Record.Processing
import ControlRecords.Text

/-! The support that keeps array records in files. When a record is connected, its elements
are set to zero and then overwritten with what its file holds; each time it processes, the
elements that a short write left over are set to zero, and the elements in use are written
to the file. The file is named after the record. A link with `norest` in its parameter has
no file.

Files are written in the background by a writer, one for each archive. What it is given
waits in its queue, which is of limited depth, and nobody waits for the writer: what finds
the queue full is refused, and the record is not saved. -/
namespace ControlRecords

namespace Archive

/-- The writer of an archive's files. -/
structure Writer where
  /-- How many files wait to be written. -/
  waiting : Nat := 0
  /-- How many of those that wait the writer has taken by the time that it is offered the
  next one, and so on for later ones. When it gets to work is decided outside. -/
  pace : List Nat := []
  running : Bool := true
  deriving DecidableEq, Repr

namespace Writer

/-- How many files may wait. -/
def depth : Nat := 10

/-- How many files wait when the next one is offered. -/
def backlog (w : Writer) : Nat := w.waiting - w.pace.headD 0

/-- The writer takes the next file: it is there, and has room for it. -/
def takes (w : Writer) : Bool := w.running && decide (w.backlog < depth)

/-- Offer the writer one more file. -/
def offer (w : Writer) : Writer × Except ArchiveError Unit :=
  if w.takes then ({ w with waiting := w.backlog + 1, pace := w.pace.tail }, .ok ())
  else
    ({ w with waiting := w.backlog, pace := w.pace.tail },
      .error (if w.running then .queueFull else .writerStopped))

/-- Everything that waited has been written. -/
def flush (w : Writer) : Writer := { w with waiting := 0 }

end Writer

end Archive

/-- Arrays with the writer of their files, and whether there is a directory for these. -/
structure Archive where
  arrays : List Archive.ArrayInfo := []
  hasDirectory : Bool := true
  writer : Archive.Writer := {}
  deriving DecidableEq, Repr

namespace Archive

/-- An archive together with the files, as they are when the writer has written everything
that waits. -/
structure Vault where
  archive : Archive
  files : Files

namespace Vault

/-- Copy the elements of an instance to the driver's storage. -/
def publish (v : Vault) (array slot : Nat) (values : List UInt32) : Vault :=
  { v with archive := { v.archive with
      arrays := v.archive.arrays.modify array (·.publish slot values) } }

/-- There is a directory in which to look for a path; one that starts at the root needs none. -/
def reaches (v : Vault) (path : String) : Bool := v.archive.hasDirectory || Files.isAbsolute path

/-- Write a file, if that is possible. -/
def write (v : Vault) (name : String) (bytes : List UInt8) : Vault :=
  if v.reaches name then
    match v.files.dump name bytes with
    | .ok files => { v with files }
    | .error _ => v
  else v

/-- Have a file written. Only that the writer does not take it is an error; what becomes of
a file that it takes is not reported. -/
def save (v : Vault) (name : String) (bytes : List UInt8) : Vault × Except ArchiveError Unit :=
  let (writer, result) := v.archive.writer.offer
  let v := { v with archive := { v.archive with writer } }
  match result with
  | .ok () => (v.write name bytes, .ok ())
  | .error e => (v, .error e)

/-- Save a record, if it persists. -/
def keep (v : Vault) (b : Binding) (name : String) (bytes : List UInt8) :
    Vault × Except ArchiveError Unit :=
  if b.persists then v.save name bytes else (v, .ok ())

/-- The first octets of a file, none if there is no such file. -/
def saved (v : Vault) (name : String) (count : Nat) : List UInt8 :=
  if v.reaches name then
    match v.files.restore name count with
    | .ok bytes => bytes
    | .error _ => []
  else []

end Vault

/-- The array, and the binding to an instance of it, that a record's link names. -/
def resolve (a : Archive) (r : Record) : Except ArchiveError (ArrayInfo × Binding) :=
  match r.link with
  | .hardware address =>
    match a.arrays[address.card.toNat]? with
    | none => .error (.badCard address.card a.arrays.length)
    | some info =>
      if r.common.binding.isBound then .error .alreadyConnected
      else if info.instances ≤ address.signal.toNat then
        .error (.badInstance address.signal info.instances)
      else
        let binding : Binding :=
          { array := address.card.toNat, slot := address.signal.toNat, initial := info.initial,
            persists := !Text.contains "norest".toList address.parameter.toList }
        match info.storage with
        | none => .ok (info, binding)
        | some storage =>
          if storage.length < info.instances * info.capacity then
            .error (.storageTooSmall storage.length (info.instances * info.capacity))
          else .ok (info, binding)
  | _ => .error .badLinkType

/-- Fill the elements of a record from octets. No octets at all leave the record as it is;
any others make its value defined. -/
def fill (r : Record) (fields : ArrayFields) (archive : ArchiveId) (bytes : List UInt8) : Record :=
  if bytes = [] then { r with body := .array archive fields }
  else
    { r with
      body := .array archive
        { fields with values := ArrayFields.overwrite fields.values (decode bytes) }
      common := { r.common with undefined := false, alarms := r.common.alarms.promote } }

/-- How many elements of a record are saved. -/
def savedCount (initial : UInt32) (values : List UInt32) : Nat := min initial.toNat values.length

/-- Connect an array record. -/
def connect (archive : ArchiveId) (r : Record) (v : Vault) :
    Record × Vault × Except ArchiveError Unit :=
  match resolve v.archive r with
  | .error e => (r, v, .error e)
  | .ok (info, b) =>
    let fields : ArrayFields :=
      { values := List.replicate info.capacity 0, inUse := info.initial, written := info.initial }
    let bytes :=
      if b.persists then v.saved r.common.name (4 * savedCount b.initial fields.values) else []
    let r := fill r fields archive bytes
    let values := match r.body with
      | .array _ a => a.values
      | .scalar _ _ => []
    (r.bind (.toArchive b), v.publish b.array b.slot values, .ok ())

/-- The fields of an array record after a write: what lies behind the elements in use is
set to zero, and all elements are in use again. -/
def padded (a : ArrayFields) (initial : UInt32) : ArrayFields :=
  let count := savedCount initial a.values
  let written := min a.inUse.toNat count
  { values := a.values.take written ++ List.replicate (count - written) 0 ++ a.values.drop count
    inUse := initial
    written := UInt32.ofNat written }

/-- Write the elements of a record. -/
def exchange (r : Record) (v : Vault) : Pass Vault :=
  match r.body, r.common.binding with
  | .array archive a, .toArchive b =>
    let a := padded a b.initial
    let v := v.publish b.array b.slot a.values
    let saved := encode (a.values.take (savedCount b.initial a.values))
    let (v, result) := v.keep b r.common.name saved
    ⟨{ r with body := .array archive a }, v, (result.mapError .archive).map fun _ => .raw⟩
  | _, _ => ⟨r, v, .error (.archive .notConnected)⟩

end Archive

end ControlRecords
