import ControlRecords.Proofs.Copies
import ControlRecords.Proofs.Footprint
import ControlRecords.Proofs.Startup
import ControlRecords.Proofs.StoredForm

/-! # Arrays after a restart

Each pass of an array record that is saved writes the elements that are in use at the start
to the record's file, after what a short write left over was set to zero.  A record that is
initialised with the same name finds the file again and reads as many elements, so it starts
with what the other record had at its last pass, and with zeros behind that
(`restored_after_restart`).  What clients write in between may be shorter or longer than the
array, and the number of elements in use may be anything. -/
namespace ControlRecords

namespace Archive

/-! ## Elements -/

/-- A pass keeps the number of elements. -/
@[simp] theorem length_padded (a : ArrayFields) (initial : UInt32) :
    (padded a initial).values.length = a.values.length := by
  simp only [padded, savedCount, List.length_append, List.length_take, List.length_replicate,
    List.length_drop]
  omega

/-- Nothing is left over if all elements are in use that are in use at the start. -/
theorem values_padded_of_full {a : ArrayFields} {initial : UInt32} (full : a.inUse = initial) :
    (padded a initial).values = a.values := by
  have all : min initial.toNat (min initial.toNat a.values.length) =
      min initial.toNat a.values.length := by omega
  simp only [padded, savedCount, full, all, Nat.sub_self, List.replicate_zero, List.append_nil,
    List.take_append_drop]

/-- The elements with which a record starts whose file has a content. -/
def restored (capacity : Nat) (initial : UInt32) (content : List UInt8) : List UInt32 :=
  ArrayFields.overwrite (List.replicate capacity 0)
    (decode (content.take (4 * min initial.toNat capacity)))

/-- **What was saved is restored, with zeros behind it.** -/
theorem restored_encode (values : List UInt32) (initial : UInt32) :
    restored values.length initial (encode (values.take (savedCount initial values))) =
      values.take (min initial.toNat values.length) ++
        List.replicate (values.length - min initial.toNat values.length) 0 := by
  have whole : (encode (values.take (savedCount initial values))).take
      (4 * min initial.toNat values.length) = encode (values.take (savedCount initial values)) := by
    apply List.take_of_length_le
    simp only [length_encode, List.length_take, savedCount]
    omega
  have fits : (values.take (min initial.toNat values.length)).length =
      min initial.toNat values.length := by
    rw [List.length_take]
    omega
  rw [restored, whole, decode_encode, ArrayFields.overwrite, savedCount, List.length_replicate,
    List.drop_replicate, fits, List.take_of_length_le (by omega)]

/-! ## Connecting -/

theorem body_fill (r : Record) (fields : ArrayFields) (id : ArchiveId) (bytes : List UInt8) :
    (fill r fields id bytes).body =
      .array id { fields with values := ArrayFields.overwrite fields.values (decode bytes) } := by
  unfold fill
  split
  · rename_i empty
    subst empty
    simp [decode, ArrayFields.overwrite]
  · rfl

/-- A record that is connected holds the elements that octets make up, and is as well defined as
it was if there are no octets at all. -/
theorem connect_fills {r : Record} {v : Vault} {info : ArrayInfo} {b : Binding} {id : ArchiveId}
    {a : ArrayFields} {bytes : List UInt8} (body : r.body = .array id a)
    (resolved : resolve v.archive r = .ok (info, b))
    (given : (if b.persists then
        v.saved r.common.name (4 * savedCount b.initial (List.replicate info.capacity 0))
      else []) = bytes) :
    ∃ s values, connect id r v = (s, v.publish b.array b.slot values, .ok ()) ∧
      s.skeleton = r.skeleton.bind (.toArchive b) ∧
      s.body = .array id { values, inUse := info.initial, written := info.initial } ∧
      values = ArrayFields.overwrite (List.replicate info.capacity 0) (decode bytes) ∧
      (bytes = [] → s.common.undefined = r.common.undefined) := by
  simp only [connect, resolved, given, body_fill]
  refine ⟨_, _, rfl, ?_, body_fill .., rfl, fun none => ?_⟩
  · rw [Record.skeleton_bind, skeleton_fill body]
  · rw [fill, if_pos none]
    rfl

/-- A record that is connected holds what its file gives back. -/
theorem connect_restores {r : Record} {v : Vault} {info : ArrayInfo} {b : Binding} {file : String}
    {id : ArchiveId} {a : ArrayFields} (body : r.body = .array id a)
    (resolved : resolve v.archive r = .ok (info, b)) (initial : b.initial = info.initial)
    (saved : v.file? b r.common.name = some file) :
    ∃ s values, connect id r v = (s, v.publish b.array b.slot values, .ok ()) ∧
      s.skeleton = r.skeleton.bind (.toArchive b) ∧
      s.body = .array id
        { values := restored info.capacity info.initial ((v.files.content? file).getD [])
          inUse := info.initial
          written := info.initial } := by
  have count : savedCount info.initial (List.replicate info.capacity 0) =
      min info.initial.toNat info.capacity := by simp [savedCount]
  obtain ⟨s, values, connected, skeleton, filled, rfl, -⟩ := connect_fills body resolved rfl
  refine ⟨s, _, connected, skeleton, ?_⟩
  rw [filled, Vault.saved_eq, saved, initial, count]
  rfl

end Archive

namespace Controller

/-! ## While the record is in use -/

/-- What is done to an array record while it is in use. -/
inductive Use where
  /-- A client writes elements. -/
  | write (values : List UInt32)
  /-- A client writes a field, such as the number of elements in use. -/
  | put (field : String) (value : Value)
  | process

/-- The state after one use of a record. -/
def use (c : Controller) (id : RecordId) : Use → Controller
  | .write values => c.putArray id values
  | .put field value => (c.putField id field value).1
  | .process => c.process id

/-- The state after a record was used for a while. -/
def useAll (c : Controller) (id : RecordId) (uses : List Use) : Controller :=
  uses.foldl (fun c u => c.use id u) c

/-- A record is connected to an instance of an array that holds so many elements, it is saved
to a file, and it has these fields. -/
inductive Holds (c : Controller) (id : RecordId) (capacity : Nat) (initial : UInt32)
    (file : String) (a : ArrayFields) : Prop where
  | intro {r : Record} {archive : ArchiveId} {b : Archive.Binding} {x : Archive}
      (there : c.record? id = some r) (body : r.body = .array archive a)
      (bound : r.common.binding = .toArchive b) (found : c.archive? archive = some x)
      (saved : Archive.Vault.file? ⟨x, c.files⟩ b r.common.name = some file)
      (count : b.initial = initial) (length : a.values.length = capacity)

section Uses
variable {c : Controller} {id : RecordId} {capacity : Nat} {initial : UInt32} {file : String}
  {a : ArrayFields}

/-- What becomes of an array record in a pass. -/
theorem body_after {r : Record} {archive : ArchiveId} {b : Archive.Binding} {x : Archive}
    (body : r.body = .array archive a) (bound : r.common.binding = .toArchive b)
    (found : c.archive? archive = some x) :
    (c.after r).body = .array archive (Archive.padded a b.initial) := by
  have prepared := Record.prepare_of_array body
  have connected : r.common.binding ≠ .unbound := by simp [bound]
  have exchanged : (Target.exchange r.prepare (c.target r)).record.body =
      .array archive (Archive.padded a b.initial) := by
    simp only [prepared, target, body, found, Target.exchange, Archive.exchange, bound]
  unfold after
  rcases Record.process_cases Target.exchange (c.target r) connected with ⟨-, -, e⟩ | ⟨-, e⟩
  · rw [e]
    exact exchanged
  · rw [e, Record.body_finish (by simp [exchanged, Body.isOutput]), exchanged]

/-- **A pass of a record that is saved leaves its elements in the file,** if the writer takes
them. -/
theorem Holds.process (h : c.Holds id capacity initial file a) :
    (c.process id).Holds id capacity initial file (Archive.padded a initial) ∧
      ((c.record? id).map c.reply = some (.ok ()) → (c.process id).files.content? file =
        some (Archive.encode ((Archive.padded a initial).values.take
          (Archive.savedCount initial (Archive.padded a initial).values)))) := by
  obtain ⟨there, body, bound, found, saved, rfl, rfl⟩ := h
  rename_i r archive b x
  have skeleton : (c.after r).skeleton = r.skeleton := Record.skeleton_process r _
  have name : (c.after r).common.name = r.common.name := congrArg (·.common.name) skeleton
  have alike := alike_process c id
  obtain ⟨y, found', same⟩ := alike.some _ _ found
  refine ⟨?_, fun taken => ?_⟩
  · refine .intro (record?_process_self there) (body_after body bound found)
      ((Record.binding_of_skeleton skeleton).trans bound) found' ?_ rfl (Archive.length_padded ..)
    show Archive.Vault.file? _ b (c.after r).common.name = some file
    rw [name]
    exact (same.file? alike.room b r.common.name).trans saved
  · have reply : Archive.Vault.reply ⟨x, c.files⟩ b = .ok () := by
      simpa [there, Controller.reply, body, bound, found] using taken
    have written : c.writes r = Archive.writes archive b r.common.name a ⟨x, c.files⟩ := by
      simp only [writes, Record.prepare_of_array body, body, bound, found]
    have files : (c.process id).files = (c.writeAll (c.writes r)).files := by
      rw [process_eq_writes there]
      unfold asked
      split <;> rfl
    -- The file is written last.
    rw [files, written, Archive.writes, Archive.Vault.written?, reply, saved, writeAll_append]
    exact (Archive.Files.content?_write _ file file _).trans (if_pos rfl)

/-- A record gets other fields with as many elements. -/
theorem Holds.replace {r : Record} {archive : ArchiveId} (h : c.Holds id capacity initial file a)
    (there : c.record? id = some r) (body : r.body = .array archive a) {a' : ArrayFields}
    (length : a'.values.length = a.values.length) :
    (c.setRecord id { r with body := .array archive a' }).Holds id capacity initial file a' := by
  obtain ⟨there', body', bound, found, saved, rfl, rfl⟩ := h
  obtain rfl := Option.some.inj (there.symm.trans there')
  obtain ⟨rfl, -⟩ := Body.array.inj (body.symm.trans body')
  exact .intro (record?_setRecord_of_some there _) rfl bound found saved rfl length

/-- What a client writes to an array record. -/
theorem putArray_of_array {r : Record} {archive : ArchiveId} (there : c.record? id = some r)
    (body : r.body = .array archive a) (values : List UInt32) :
    c.putArray id values = c.setRecord id { r with body := .array archive (a.put values) } := by
  simp only [putArray, there, body]

/-- A field of an array record is written without touching the elements, if it is written. -/
theorem putField_of_array {r : Record} {archive : ArchiveId} (there : c.record? id = some r)
    (body : r.body = .array archive a) (field : String) (value : Value) :
    ∃ a', a'.values = a.values ∧
      (c.putField id field value).1 = c.setRecord id { r with body := .array archive a' } := by
  rcases act_put_cases c id field value with refused | ⟨r', s, there', put, written⟩
  · have same : { r with body := .array archive a } = r := by rw [← body]
    exact ⟨a, rfl, refused.trans (by rw [same, setRecord_self there])⟩
  · obtain rfl := Option.some.inj (there.symm.trans there')
    obtain ⟨f, w, rfl⟩ := Record.putField_eq_ok put
    rw [body] at written
    exact ⟨a.set f w, a.values_set f w, written⟩

theorem Holds.record (h : c.Holds id capacity initial file a) :
    ∃ r archive, c.record? id = some r ∧ r.body = .array archive a := by
  cases h with
  | intro there body => exact ⟨_, _, there, body⟩

theorem Holds.write (h : c.Holds id capacity initial file a) (values : List UInt32) :
    (c.putArray id values).Holds id capacity initial file (a.put values) := by
  obtain ⟨r, archive, there, body⟩ := h.record
  rw [putArray_of_array there body]
  exact h.replace there body (ArrayFields.length_overwrite ..)

theorem Holds.put (h : c.Holds id capacity initial file a) (field : String) (value : Value) :
    ∃ b, (c.putField id field value).1.Holds id capacity initial file b := by
  obtain ⟨r, archive, there, body⟩ := h.record
  obtain ⟨b, same, written⟩ := putField_of_array there body field value
  rw [written]
  exact ⟨b, h.replace there body (congrArg List.length same)⟩

theorem Holds.useAll (h : c.Holds id capacity initial file a) (uses : List Use) :
    ∃ b, (c.useAll id uses).Holds id capacity initial file b := by
  induction uses generalizing c a with
  | nil => exact ⟨a, h⟩
  | cons u rest ih =>
    cases u with
    | write values => exact ih (h.write values)
    | put field value =>
      obtain ⟨b, later⟩ := h.put field value
      exact ih later
    | process => exact ih h.process.1

end Uses

/-! ## When the record is initialised -/

/-- A record was made under a name for an instance of an array, is not connected yet, and
has a file to be saved to. -/
inductive MadeFor (c : Controller) (id : RecordId) (name : String) (address : HardwareAddress)
    (info : Archive.ArrayInfo) (file : String) : Prop where
  | intro {r : Record} {archive : ArchiveId} {fields : ArrayFields} {x : Archive}
      (there : c.record? id = some r) (named : r.common.name = name)
      (unbound : r.common.binding = .unbound) (link : r.link = .hardware address)
      (body : r.body = .array archive fields) (found : c.archive? archive = some x)
      (described : x.arrays[address.card.toNat]? = some info)
      (valid : address.signal.toNat < info.instances)
      (roomy : ∀ storage, info.storage = some storage →
        info.instances * info.capacity ≤ storage.length)
      (persistent : Text.contains "norest".toList address.parameter.toList = false)
      (reached : Archive.Vault.reaches ⟨x, c.files⟩ name = true)
      (located : c.files.locate name = .ok (.file file))

/-- The state after an array record was connected. -/
theorem holds_connected {c : Controller} {id : RecordId} {r s : Record} {archive : ArchiveId}
    {fields : ArrayFields} {x : Archive} {b : Archive.Binding} {capacity : Nat} {file : String}
    {a : ArrayFields} {values : List UInt32} (there : c.record? id = some r)
    (body : r.body = .array archive fields) (found : c.archive? archive = some x)
    (saved : Archive.Vault.file? ⟨x, c.files⟩ b r.common.name = some file)
    (skeleton : s.skeleton = r.skeleton.bind (.toArchive b)) (filled : s.body = .array archive a)
    (length : a.values.length = capacity) :
    ((c.setTarget r (.vault (Archive.Vault.publish ⟨x, c.files⟩ b.array b.slot values))).setRecord
      id s).Holds id capacity b.initial file a := by
  have name : s.common.name = r.common.name := congrArg (·.common.name) skeleton
  refine .intro (record?_setRecord_of_some ((record?_setTarget c r _ id).trans there) _) filled
    (Record.binding_of_bind skeleton) (b := b)
    (x := (Archive.Vault.publish ⟨x, c.files⟩ b.array b.slot values).archive) ?_ ?_ rfl length
  · have lt := (List.getElem?_eq_some_iff.1 (show c.archives[archive.index]? = some x from found)).1
    simp [archive?, setRecord, setTarget, body, lt]
  · rw [name]
    simp only [setRecord, setTarget, body]
    exact saved

/-- An array record whose link names an instance is connected to it, joins no scan list, and is
processed if it is to be. -/
theorem initialise_of_resolved {c : Controller} {id : RecordId} {r s : Record}
    {archive : ArchiveId} {fields a : ArrayFields} {x : Archive} {info : Archive.ArrayInfo}
    {b : Archive.Binding} {v : Archive.Vault} (there : c.record? id = some r)
    (body : r.body = .array archive fields) (found : c.archive? archive = some x)
    (resolved : Archive.resolve x r = .ok (info, b))
    (connected : Archive.connect archive r ⟨x, c.files⟩ = (s, v, .ok ()))
    (skeleton : s.skeleton = r.skeleton.bind (.toArchive b)) (filled : s.body = .array archive a) :
    c.initialise id =
      (((c.setTarget r (.vault v)).setRecord id s).processInitially id, .ok ()) := by
  let d := (c.setTarget r (.vault v)).setRecord id s
  have there' : d.record? id = some s :=
    record?_setRecord_of_some ((record?_setTarget c r _ id).trans there) s
  have bound : s.common.binding = .toArchive b := Record.binding_of_bind skeleton
  have sized : r.sized = r := by
    obtain ⟨_, _, _⟩ := r
    obtain rfl : _ = Body.array archive fields := body
    rfl
  have connect : (c.setRecord id r.sized).connect id = (d, .ok .raw) := by
    rw [sized, setRecord_self there]
    simp only [Controller.connect, there, body, connectArchive, found, connected]
    rfl
  have kept : s.connected .raw = s := by simp [Record.connected, filled]
  have unlisted : d.joinScanList id = d := by
    simp [joinScanList, there', scanListOf, variableScanList, bound]
  rw [initialise_of_connect there connect there', kept, setRecord_self there', unlisted]

/-- **A record that was made for an instance is initialised, and holds what its file gives
back.** -/
theorem MadeFor.initialise {c : Controller} {id : RecordId} {name : String}
    {address : HardwareAddress} {info : Archive.ArrayInfo} {file : String}
    (h : c.MadeFor id name address info file) :
    (c.initialise id).2 = .ok () ∧
      ∃ a, (c.initialise id).1.Holds id info.capacity info.initial file a ∧
        a.values = Archive.restored info.capacity info.initial
          ((c.files.content? file).getD []) := by
  obtain ⟨there, rfl, unbound, link, body, found, described, valid, roomy, persistent, reached,
    located⟩ := h
  rename_i r archive fields x
  let b : Archive.Binding := ⟨address.card.toNat, address.signal.toNat, info.initial, true⟩
  have resolved : Archive.resolve x r = .ok (info, b) :=
    Archive.resolve_eq_ok_iff.2 ⟨address, link, described, by rw [unbound]; rfl, ⟨valid, roomy⟩, by
      rw [Archive.excepts, persistent]
      rfl⟩
  have saved : Archive.Vault.file? ⟨x, c.files⟩ b r.common.name = some file := by
    simp only [Archive.Vault.file?, b, reached, Bool.and_self, if_true]
    exact Archive.Files.fileAt?_eq_some.2 located
  obtain ⟨s, values, connected, skeleton, filled⟩ :=
    Archive.connect_restores (v := ⟨x, c.files⟩) body resolved rfl saved
  let a : ArrayFields :=
    { values := Archive.restored info.capacity info.initial ((c.files.content? file).getD [])
      inUse := info.initial
      written := info.initial }
  let vault := Archive.Vault.publish ⟨x, c.files⟩ b.array b.slot values
  let d := (c.setTarget r (.vault vault)).setRecord id s
  have holds : d.Holds id info.capacity info.initial file a :=
    holds_connected there body found saved skeleton filled (by simp [a, Archive.restored])
  have there' : d.record? id = some s :=
    record?_setRecord_of_some ((record?_setTarget c r _ id).trans there) s
  have done : c.initialise id = (d.processInitially id, .ok ()) :=
    initialise_of_resolved there body found resolved connected skeleton filled
  rw [done]
  refine ⟨rfl, ?_⟩
  -- A record that is processed at once has nothing left over from a short write.
  simp only [processInitially, there']
  split
  · exact ⟨_, holds.process.1, Archive.values_padded_of_full rfl⟩
  · exact ⟨a, holds, rfl⟩

/-- **What was saved is there again after a restart.**  A record that is saved was
initialised, used in any way and then processed once more, and the writer took what it saved then;
after that nothing was written to its file.  A record that is made with the same name and the same
link, for an instance of the same size, then starts with as many elements of the other record as are
in use at the start, and with zeros behind them. -/
theorem restored_after_restart {c d : Controller} {id j : RecordId} {name file : String}
    {address : HardwareAddress} {info info' : Archive.ArrayInfo}
    (old : c.MadeFor id name address info file) (uses : List Use)
    (new : d.MadeFor j name address info' file) (capacity : info'.capacity = info.capacity)
    (initial : info'.initial = info.initial)
    (taken : (((c.initialise id).1.useAll id uses).record? id).map
      ((c.initialise id).1.useAll id uses).reply = some (.ok ()))
    (left : d.files.content? file =
      ((c.initialise id).1.useAll id (uses ++ [.process])).files.content? file) :
    (c.initialise id).2 = .ok () ∧ (d.initialise j).2 = .ok () ∧
      ∃ kept start, ((c.initialise id).1.useAll id (uses ++ [.process])).Holds id info.capacity
          info.initial file kept ∧
        (d.initialise j).1.Holds j info.capacity info.initial file start ∧
        start.values = kept.values.take (min info.initial.toNat info.capacity) ++
          List.replicate (info.capacity - min info.initial.toNat info.capacity) 0 := by
  obtain ⟨initialised, a, holds, -⟩ := old.initialise
  obtain ⟨restarted, start, holds', values⟩ := new.initialise
  obtain ⟨b, used⟩ := holds.useAll uses
  have last : (c.initialise id).1.useAll id (uses ++ [.process]) =
      ((c.initialise id).1.useAll id uses).process id := by
    simp only [useAll, List.foldl_append, List.foldl_cons, List.foldl_nil, use]
  obtain ⟨kept, content⟩ := used.process
  rw [last] at left ⊢
  rw [capacity, initial] at holds' values
  refine ⟨initialised, restarted, _, start, kept, holds', ?_⟩
  have length : (Archive.padded b info.initial).values.length = info.capacity := by
    cases kept with
    | intro _ _ _ _ _ _ length => exact length
  rw [values, left, content taken, Option.getD_some, ← length]
  exact Archive.restored_encode _ _

/-- One array record for the only instance of an array of three elements, two of them in use
at the start, with files from before. -/
def logger (files : Archive.Files) : Controller :=
  let log : Record := ⟨{ name := "log" }, .hardware ⟨0, 0, ""⟩, .array ⟨0⟩ {}⟩
  let c := (({ files } : Controller).newArchive { arrays := [⟨1, 3, 2, none⟩] }).2
  (c.adopt log none).2

theorem madeFor_logger {files : Archive.Files} (room : files.directoryRoom = 0) :
    (logger files).MadeFor ⟨0⟩ "log" ⟨0, 0, ""⟩ ⟨1, 3, 2, none⟩ "log" := by
  have located : Archive.Files.locate {} "log" = .ok (.file "log") := by cbv
  exact .intro rfl rfl rfl rfl rfl rfl rfl (by decide) (by simp) (by decide) rfl
    (Archive.Files.locate_eq_file room located)

/-- The logger is used for two writes, the second one shorter than the array. -/
def loggerUsed : Controller :=
  ((logger {}).initialise ⟨0⟩).1.useAll ⟨0⟩
    ([.write [5, 6, 7, 8], .process, .write [9]] ++ [.process])

theorem restarted_logger :
    (logger {}).MadeFor ⟨0⟩ "log" ⟨0, 0, ""⟩ ⟨1, 3, 2, none⟩ "log" ∧
      (logger loggerUsed.files).MadeFor ⟨0⟩ "log" ⟨0, 0, ""⟩ ⟨1, 3, 2, none⟩ "log" ∧
      ((logger loggerUsed.files).initialise ⟨0⟩).2 = .ok () ∧
      ∃ kept start, loggerUsed.Holds ⟨0⟩ 3 2 "log" kept ∧
        ((logger loggerUsed.files).initialise ⟨0⟩).1.Holds ⟨0⟩ 3 2 "log" start ∧
        start.values = kept.values.take 2 ++ [0] := by
  have room : loggerUsed.files.directoryRoom = 0 := by cbv
  have taken : ((((logger {}).initialise ⟨0⟩).1.useAll ⟨0⟩
      [.write [5, 6, 7, 8], .process, .write [9]]).record? ⟨0⟩).map
        (((logger {}).initialise ⟨0⟩).1.useAll ⟨0⟩
          [.write [5, 6, 7, 8], .process, .write [9]]).reply = some (.ok ()) := by cbv
  obtain ⟨-, restarted, restored⟩ := restored_after_restart (madeFor_logger rfl)
    [.write [5, 6, 7, 8], .process, .write [9]] (madeFor_logger room) rfl rfl taken rfl
  exact ⟨madeFor_logger rfl, madeFor_logger room, restarted, restored⟩

end Controller

end ControlRecords
