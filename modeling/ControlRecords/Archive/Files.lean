/-! The files that arrays are saved to: octets under names, all in one directory, which
holds no other directory. A name is a path of parts between strokes. A part that is empty
or one dot stays where it is, and two dots lead to the directory above; a path that starts
with a stroke starts at the root instead. Nothing is known of the directories outside but
that they are there: their only files are those that were written through such paths.

Paths are refused for their length before they are followed, and parts when they are looked
up; a path with a stroke at its end can only be a directory's, so that it is refused for a
new file before its last part is looked up. -/
namespace ControlRecords.Archive

/-- Why the file system refuses a name. -/
inductive FileErrorKind where
  | notFound
  | isADirectory
  | notADirectory
  /-- The path or a part of it is too long. -/
  | invalidFilename
  /-- A character that no path may have. -/
  | invalidInput
  deriving DecidableEq, Repr

/-- What was being done when it failed. -/
inductive FileAction where
  | create
  | openFile
  | read
  deriving DecidableEq, Repr

/-- A failure of the file system. -/
structure FileError where
  action : FileAction
  kind : FileErrorKind
  deriving DecidableEq, Repr

/-- The files of the directory, and those that were written outside. -/
structure Files where
  /-- The contents by name, in the order of the names. The name of a file outside has the
  way to its directory in front. -/
  contents : List (String × List UInt8) := []
  /-- How many octets of a path the directory takes, with the stroke behind it. -/
  directoryRoom : Nat := 0
  deriving DecidableEq, Repr

/-- What a path leads to. -/
inductive Place where
  | directory
  | file (name : String)
  /-- A name with a stroke behind it, which only a directory may have, and why it is none. -/
  | slashed (refusal : FileErrorKind)
  deriving DecidableEq, Repr

/-- Where the files are: in the directory that the environment names, or else in the usual
one if it exists, or else wherever the program runs. -/
def dataDirectory (setting : Option String) (usualExists : Bool) : Option String :=
  match setting with
  | some path => some path
  | none => if usualExists then some "/dat" else none

namespace Files

instance : Inhabited Files := ⟨{}⟩

/-- How many octets a part of a path may take. -/
def partLimit : Nat := 255

/-- A path has fewer octets than this, the directory in front of it included. -/
def pathLimit : Nat := 4096

/-- The content of a file. -/
def content? (f : Files) (name : String) : Option (List UInt8) := f.contents.lookup name

/-- Contents with one more among them, in its place by name. -/
def place (name : String) (bytes : List UInt8) :
    List (String × List UInt8) → List (String × List UInt8)
  | [] => [(name, bytes)]
  | (n, b) :: rest =>
    if name < n then (name, bytes) :: (n, b) :: rest
    else if name = n then (name, bytes) :: rest
    else (n, b) :: place name bytes rest

/-- Write a whole file. -/
def write (f : Files) (name : String) (bytes : List UInt8) : Files :=
  { f with contents := place name bytes f.contents }

/-- The path starts at the root. -/
def isAbsolute (path : String) : Bool := path.toList.head? == some '/'

/-- The way to the directory above the one at the end of a way. The way to the directory of
the files is empty, and the root is above itself. -/
def above (way : String) : String := if isAbsolute way then way else "../" ++ way

/-- Why a part of a path is no directory. -/
def refusal (f : Files) (way part : String) : FileErrorKind :=
  if partLimit < part.utf8ByteSize then .invalidFilename
  else if (f.content? (way ++ part)).isSome then .notADirectory
  else .notFound

/-- Follow the parts of a path from the directory at the end of a way. -/
def follow (f : Files) (way : String) : List String → Except FileErrorKind Place
  | [] => .ok .directory
  | part :: rest =>
    if part = "" ∨ part = "." then f.follow way rest
    else if part = ".." then f.follow (above way) rest
    else if rest = [] then
      if partLimit < part.utf8ByteSize then .error .invalidFilename
      else .ok (.file (way ++ part))
    else if rest.all (· == "") then .ok (.slashed (f.refusal way part))
    else .error (f.refusal way part)

/-- Where a path leads. -/
def locate (f : Files) (path : String) : Except FileErrorKind Place :=
  let (way, room) := if isAbsolute path then ("/", 0) else ("", f.directoryRoom)
  if path.toList.contains (Char.ofNat 0) then .error .invalidInput
  else if pathLimit ≤ room + path.utf8ByteSize then .error .invalidFilename
  else f.follow way (path.splitOn "/")

/-- The files of the directory itself, in the order of their names. -/
def listing (f : Files) : List (String × List UInt8) :=
  f.contents.filter fun (name, _) => !name.toList.contains '/'

/-- Create a file with a content, in place of the one there was. -/
def dump (f : Files) (path : String) (bytes : List UInt8) : Except FileError Files :=
  match f.locate path with
  | .error kind => .error ⟨.create, kind⟩
  | .ok .directory | .ok (.slashed _) => .error ⟨.create, .isADirectory⟩
  | .ok (.file name) => .ok (f.write name bytes)

/-- Read at most `count` octets from the beginning of a file. A directory can be opened,
but nothing can be read from it. -/
def restore (f : Files) (path : String) (count : Nat) : Except FileError (List UInt8) :=
  match f.locate path with
  | .error kind => .error ⟨.openFile, kind⟩
  | .ok .directory => if count = 0 then .ok [] else .error ⟨.read, .isADirectory⟩
  | .ok (.slashed refusal) => .error ⟨.openFile, refusal⟩
  | .ok (.file name) =>
    match f.content? name with
    | none => .error ⟨.openFile, .notFound⟩
    | some bytes => .ok (bytes.take count)

theorem lookup_place (name other : String) (bytes : List UInt8)
    (cs : List (String × List UInt8)) :
    (place name bytes cs).lookup other = if other = name then some bytes else cs.lookup other := by
  induction cs with
  | nil => simp [place, List.lookup_cons]; grind
  | cons e es ih =>
    obtain ⟨n, b⟩ := e
    simp only [place]
    split
    · simp only [List.lookup_cons]; grind
    · split
      · simp only [List.lookup_cons]; grind
      · simp only [List.lookup_cons, ih]; grind

/-- A file has the content that was last written to it, and every other file its own. -/
theorem content?_write (f : Files) (name other : String) (bytes : List UInt8) :
    (f.write name bytes).content? other = if other = name then some bytes else f.content? other :=
  lookup_place name other bytes f.contents

end Files

end ControlRecords.Archive
