import ControlRecords.Archive.Exchange

/-! # Where arrays are saved

An array record is saved to the file to which its name leads as a path.  Which file that is
depends on the name and on the directory, and not on what files there are
(`Files.fileAt?_congr`), so a record finds its file again whatever else was written in
between.  Saving a record moves the writer on, and it writes that file alone, if the writer takes
it (`Vault.keep_eq`). -/
namespace ControlRecords.Archive

namespace Files

/-- What files there are does not tell to which of them a path leads. -/
theorem follow_eq_file {f : Files} (g : Files) {way : String} {parts : List String}
    {name : String} (h : f.follow way parts = .ok (.file name)) :
    g.follow way parts = .ok (.file name) := by
  -- The way is general, since the rest of the parts is followed from further on.
  induction parts generalizing way with
  | nil => simp [follow] at h
  | cons part rest ih =>
    unfold follow at h ⊢
    split
    · rw [if_pos ‹_›] at h
      exact ih h
    · rw [if_neg ‹_›] at h
      split
      · rw [if_pos ‹_›] at h
        exact ih h
      · rw [if_neg ‹_›] at h
        split
        · rwa [if_pos ‹_›] at h
        · rw [if_neg ‹_›] at h
          split at h <;> simp at h

theorem locate_eq_file {f g : Files} (room : g.directoryRoom = f.directoryRoom)
    {path name : String} (h : f.locate path = .ok (.file name)) :
    g.locate path = .ok (.file name) := by
  unfold locate at h ⊢
  rw [room]
  generalize (if isAbsolute path then ("/", 0) else ("", f.directoryRoom)) = start at h ⊢
  dsimp only at h ⊢
  split
  · rw [if_pos ‹_›] at h
    contradiction
  · rw [if_neg ‹_›] at h
    split
    · rw [if_pos ‹_›] at h
      contradiction
    · rw [if_neg ‹_›] at h
      exact follow_eq_file g h

/-- The file to which a path leads, if it leads to one. -/
def fileAt? (f : Files) (path : String) : Option String :=
  match f.locate path with
  | .ok (.file name) => some name
  | _ => none

theorem fileAt?_eq_some {f : Files} {path name : String} :
    f.fileAt? path = some name ↔ f.locate path = .ok (.file name) := by
  unfold fileAt?
  split
  · rename_i located
    simp [located]
  · rename_i other
    constructor
    · simp
    · exact fun h => absurd h (other name)

theorem fileAt?_congr {f g : Files} (room : g.directoryRoom = f.directoryRoom) (path : String) :
    g.fileAt? path = f.fileAt? path := by
  apply Option.ext
  intro name
  rw [fileAt?_eq_some, fileAt?_eq_some]
  exact ⟨locate_eq_file room.symm, locate_eq_file room⟩

end Files

namespace Vault

/-- The file that a record is saved to and restored from, if there is one. -/
def file? (v : Vault) (b : Binding) (name : String) : Option String :=
  if b.persists && v.reaches name then v.files.fileAt? name else none

/-- What the writer answers when a record is saved; one that does not persist asks nothing. -/
def reply (v : Vault) (b : Binding) : Except ArchiveError Unit :=
  if b.persists then v.archive.writer.offer.2 else .ok ()

/-- The file that is written when a record is saved: its own, if the writer takes it. -/
def written? (v : Vault) (b : Binding) (name : String) : Option String :=
  match v.reply b with
  | .ok () => v.file? b name
  | .error _ => none

theorem write_eq (v : Vault) {b : Binding} (name : String) (bytes : List UInt8)
    (persists : b.persists = true) :
    v.write name bytes =
      match v.file? b name with
      | some file => { v with files := v.files.write file bytes }
      | none => v := by
  unfold write file? Files.dump Files.fileAt?
  rw [persists]
  cases v.reaches name with
  | false => rfl
  | true =>
    rcases v.files.locate name with _ | (_ | _ | _)
    all_goals rfl

end Vault

/-- The archive after its writer was asked to save a record. -/
def asked (a : Archive) (b : Binding) : Archive :=
  if b.persists then { a with writer := a.writer.offer.1 } else a

namespace Vault

/-- **Saving a record** moves the writer on and writes one file, if the writer takes it. -/
theorem keep_eq (v : Vault) (b : Binding) (name : String) (bytes : List UInt8) :
    v.keep b name bytes =
      (⟨v.archive.asked b, match v.written? b name with
        | some file => v.files.write file bytes
        | none => v.files⟩, v.reply b) := by
  unfold keep written? reply asked
  cases persists : b.persists with
  | false => simp [file?, persists]
  | true =>
    simp only [if_true, save]
    rcases v.archive.writer.offer with ⟨writer, e | ⟨⟩⟩
    · rfl
    · have file : file? { v with archive := { v.archive with writer } } b name =
          v.file? b name := rfl
      simp only [write_eq _ name bytes persists, file]
      cases v.file? b name <;> rfl

/-- Restoring a record reads its file. -/
theorem saved_eq (v : Vault) (b : Binding) (name : String) (count : Nat) :
    (if b.persists then v.saved name count else []) =
      match v.file? b name with
      | some file => ((v.files.content? file).getD []).take count
      | none => [] := by
  unfold saved file? Files.restore Files.fileAt?
  cases b.persists with
  | false => rfl
  | true =>
    cases v.reaches name with
    | false => rfl
    | true =>
      rcases v.files.locate name with _ | (_ | file | _)
      · rfl
      · by_cases empty : count = 0 <;> simp [empty]
      · cases found : v.files.content? file <;> simp [found]
      · rfl

end Vault

end ControlRecords.Archive
