import ControlRecords.Proofs.Mirror

/-! # What a write leaves behind

Three numbers bound what becomes of the elements of an array record.  A client writes as many as
the array can hold; a pass sets to zero what a short write left over, but only among as many as
were in use at the start; and what is copied to the driver's storage is all of them.  So the
elements in use are those of the last write with zeros behind them, while each of the elements
behind stays what the last write made it that was long enough to reach it (`reached`).  That
carries through any number of writes and passes (`OnInstance.useAll`), and it tells exactly when
no element of an earlier write is left (`elements_after_write`). -/
namespace ControlRecords

/-! ## One write and one pass -/

namespace Archive

theorem getElem?_overwrite (values new : List UInt32) (i : Nat) :
    (ArrayFields.overwrite values new)[i]? =
      if i < new.length ∧ i < values.length then new[i]? else values[i]? := by
  rw [← replaceAt_zero, getElem?_replaceAt]
  simp only [Nat.zero_le, Nat.zero_add, true_and, Nat.sub_zero]

theorem getElem?_overwrite_of_lt {values new : List UInt32} {i : Nat} (inside : i < values.length) :
    (ArrayFields.overwrite values new)[i]? = new[i]?.or values[i]? := by
  rw [getElem?_overwrite]
  by_cases reached : i < new.length
  · rw [if_pos ⟨reached, inside⟩, List.getElem?_eq_getElem reached, Option.some_or]
  · have short : new[i]? = none := List.getElem?_eq_none (Nat.le_of_not_lt reached)
    rw [if_neg (by omega), short, Option.none_or]

section Padded
variable (a : ArrayFields) (initial : UInt32)

/-- A pass writes as many elements as are in use, and no more than were at the start. -/
theorem written_padded :
    (padded a initial).written.toNat = min a.inUse.toNat (savedCount initial a.values) := by
  have fits : min a.inUse.toNat (savedCount initial a.values) < UInt32.size :=
    Nat.lt_of_le_of_lt (Nat.min_le_left ..) a.inUse.toNat_lt_size
  exact UInt32.toNat_ofNat_of_lt' fits

/-- A pass sets to zero what lies between the elements in use and those in use at the start. -/
theorem getElem?_padded (i : Nat) :
    (padded a initial).values[i]? =
      if (padded a initial).written.toNat ≤ i ∧ i < savedCount initial a.values then some 0
      else a.values[i]? := by
  have high : savedCount initial a.values ≤ a.values.length := Nat.min_le_right ..
  have low : min a.inUse.toNat (savedCount initial a.values) ≤ savedCount initial a.values :=
    Nat.min_le_right ..
  have replaced : (padded a initial).values =
      replaceAt a.values (min a.inUse.toNat (savedCount initial a.values))
        (List.replicate (savedCount initial a.values -
          min a.inUse.toNat (savedCount initial a.values)) 0) := (replaceAt_replicate low high).symm
  rw [written_padded, replaced, getElem?_replaceAt, List.length_replicate]
  by_cases between : min a.inUse.toNat (savedCount initial a.values) ≤ i ∧
      i < savedCount initial a.values
  · rw [if_pos (by omega), if_pos between, List.getElem?_replicate_of_lt (by omega)]
  · rw [if_neg (by omega), if_neg between]

end Padded

/-- The elements of an array that can hold so many, after a client wrote these values and a pass
was made: behind the elements in use at the start there is something else. -/
structure Leaves (capacity : Nat) (initial : UInt32) (values : List UInt32)
    (behind : Nat → Option UInt32) (a : ArrayFields) : Prop where
  length : a.values.length = capacity
  written : a.written.toNat =
    min (min values.length capacity % UInt32.size) (min initial.toNat capacity)
  kept : ∀ i, i < a.written.toNat → a.values[i]? = values[i]?
  zero : ∀ i, a.written.toNat ≤ i → i < min initial.toNat capacity → a.values[i]? = some 0
  rest : ∀ i, min initial.toNat capacity ≤ i → i < capacity → a.values[i]? = behind i

/-- No element is left but those that were written, and zeros. -/
def NoneStale (values : List UInt32) (a : ArrayFields) : Prop :=
  ∀ i, i < a.values.length → a.values[i]? = if i < a.written.toNat then values[i]? else some 0

/-- A write and a pass. -/
theorem leaves_padded_put (a : ArrayFields) (initial : UInt32) (values : List UInt32) :
    Leaves a.values.length initial values (fun i => values[i]?.or a.values[i]?)
      (padded (a.put values) initial) := by
  have length : (a.put values).values.length = a.values.length :=
    ArrayFields.length_overwrite a.values values
  have count : savedCount initial (a.put values).values = min initial.toNat a.values.length := by
    rw [savedCount, length]
  have written := written_padded (a.put values) initial
  rw [count, show (a.put values).inUse.toNat = min values.length a.values.length % UInt32.size
    from UInt32.toNat_ofNat'] at written
  have fewer := Nat.mod_le (min values.length a.values.length) UInt32.size
  have element : ∀ i, (a.put values).values[i]? =
      if i < values.length ∧ i < a.values.length then values[i]? else a.values[i]? :=
    getElem?_overwrite a.values values
  refine ⟨(length_padded ..).trans length, written, fun i low => ?_, fun i high low => ?_,
    fun i high low => ?_⟩
  · rw [getElem?_padded, if_neg (by omega), element, if_pos (by omega)]
  · rw [getElem?_padded, count, if_pos ⟨high, low⟩]
  · rw [getElem?_padded, count, if_neg (by omega), ArrayFields.put, getElem?_overwrite_of_lt low]

/-- Nothing is stale exactly if there are zeros behind the elements in use. -/
theorem Leaves.noneStale_iff {capacity : Nat} {initial : UInt32} {values : List UInt32}
    {behind : Nat → Option UInt32} {a : ArrayFields}
    (h : Leaves capacity initial values behind a) :
    NoneStale values a ↔
      ∀ i, min initial.toNat capacity ≤ i → i < capacity → behind i = some 0 := by
  have fewer : a.written.toNat ≤ min initial.toNat capacity := by
    rw [h.written]
    exact Nat.min_le_right ..
  constructor
  · intro fresh i high low
    rw [← h.rest i high low, fresh i (by rw [h.length]; exact low), if_neg (by omega)]
  · intro zeros i inside
    rw [h.length] at inside
    split
    · exact h.kept i ‹_›
    · rcases Nat.lt_or_ge i (min initial.toNat capacity) with low | high
      · exact h.zero i (by omega) low
      · rw [h.rest i high inside, zeros i high inside]

end Archive

namespace Controller

/-- What the last of these writes that is long enough made of an element; what it was before if
none is. -/
def reached (i : Nat) (before : Option UInt32) (uses : List Use) : Option UInt32 :=
  uses.foldl (fun e u =>
    match u with
    | .write values => values[i]?.or e
    | _ => e) before

/-- A record is connected to an instance of an array, and has these fields. -/
inductive OnInstance (c : Controller) (id : RecordId) (info : Archive.ArrayInfo)
    (b : Archive.Binding) (a : ArrayFields) : Prop where
  | intro {r : Record} {archive : ArchiveId} {x : Archive} (there : c.record? id = some r)
      (body : r.body = .array archive a) (bound : r.common.binding = .toArchive b)
      (found : c.archive? archive = some x) (described : x.arrays[b.array]? = some info)
      (room : info.HasRoom b.slot) (initial : b.initial = info.initial)
      (length : a.values.length = info.capacity)

/-- The window of the instance in the driver's storage, if there is any, holds the elements. -/
def Shown (info : Archive.ArrayInfo) (slot : Nat) (a : ArrayFields) : Prop :=
  ∀ storage, info.storage = some storage →
    Archive.window storage (slot * info.capacity) info.capacity = a.values

section Uses
variable {c : Controller} {id : RecordId} {info : Archive.ArrayInfo} {b : Archive.Binding}
  {a : ArrayFields}

theorem OnInstance.replace (h : c.OnInstance id info b a) {r : Record} {archive : ArchiveId}
    (there : c.record? id = some r) (body : r.body = .array archive a) {a' : ArrayFields}
    (length : a'.values.length = a.values.length) :
    (c.setRecord id { r with body := .array archive a' }).OnInstance id info b a' := by
  obtain ⟨there', body', bound, found, described, room, initial, capacity⟩ := h
  obtain rfl := Option.some.inj (there.symm.trans there')
  obtain ⟨rfl, -⟩ := Body.array.inj (body.symm.trans body')
  exact .intro (record?_setRecord_of_some there _) rfl bound found described room initial
    (length.trans capacity)

theorem OnInstance.record (h : c.OnInstance id info b a) :
    ∃ r archive, c.record? id = some r ∧ r.body = .array archive a := by
  cases h with
  | intro there body => exact ⟨_, _, there, body⟩

theorem OnInstance.write (h : c.OnInstance id info b a) (values : List UInt32) :
    (c.putArray id values).OnInstance id info b (a.put values) := by
  obtain ⟨r, archive, there, body⟩ := h.record
  rw [putArray_of_array there body]
  exact h.replace there body (ArrayFields.length_overwrite ..)

theorem OnInstance.put (h : c.OnInstance id info b a) (field : String) (value : Value) :
    ∃ a', (c.putField id field value).1.OnInstance id info b a' ∧ a'.values = a.values := by
  obtain ⟨r, archive, there, body⟩ := h.record
  obtain ⟨a', same, written⟩ := putField_of_array there body field value
  rw [written]
  exact ⟨a', h.replace there body (congrArg List.length same), same⟩

/-- A record that is connected and has just copied its elements. -/
theorem onInstance_of_copied {d : Controller} {q : Record} {archive : ArchiveId} {x y : Archive}
    (there : d.record? id = some q) (body : q.body = .array archive a)
    (bound : q.common.binding = .toArchive b) (found : c.archive? archive = some x)
    (described : x.arrays[b.array]? = some info) (room : info.HasRoom b.slot)
    (initial : b.initial = info.initial) (length : a.values.length = info.capacity)
    (copied : d.archives = c.archives.set archive.index y)
    (arrays : y.arrays = x.arrays.modify b.array (·.publish b.slot a.values)) :
    d.OnInstance id (info.publish b.slot a.values) b a ∧
      Shown (info.publish b.slot a.values) b.slot a := by
  have placed : d.archive? archive = some y := by
    rw [archive?, copied, List.getElem?_set_self (List.getElem?_eq_some_iff.1 found).1]
  have described' : y.arrays[b.array]? = some (info.publish b.slot a.values) := by
    rw [arrays, List.getElem?_modify_eq, described]
    rfl
  have room' : (info.publish b.slot a.values).HasRoom b.slot := by
    refine ⟨room.valid, fun storage stored => ?_⟩
    obtain ⟨before, had, rfl⟩ := Option.map_eq_some_iff.1 stored
    rw [Archive.length_replaceAt]
    exact room.roomy before had
  refine ⟨.intro there body bound placed described' room' initial length,
    fun storage stored => ?_⟩
  obtain ⟨before, had, rfl⟩ := Option.map_eq_some_iff.1 stored
  have within : b.slot * info.capacity + info.capacity ≤ before.length :=
    Nat.le_trans (Archive.end_le_of_lt room.valid) (room.roomy before had)
  rw [Archive.ArrayInfo.capacity_publish, List.take_of_length_le (Nat.le_of_eq length), ← length]
  exact Archive.window_replaceAt_self (by rwa [length])

/-- **A pass pads the elements and shows them to the driver.** -/
theorem OnInstance.process (h : c.OnInstance id info b a) :
    (c.process id).OnInstance id (info.publish b.slot (Archive.padded a info.initial).values) b
        (Archive.padded a info.initial) ∧
      Shown (info.publish b.slot (Archive.padded a info.initial).values) b.slot
        (Archive.padded a info.initial) := by
  obtain ⟨there, body, bound, found, described, room, initial, length⟩ := h
  rename_i r archive x
  obtain ⟨y, copied, arrays⟩ := archives_process there body bound found
  rw [← initial]
  exact onInstance_of_copied (record?_process_self there) (body_after body bound found)
    ((Record.binding_of_skeleton (Record.skeleton_process r _)).trans bound) found described room
    initial ((Archive.length_padded ..).trans length) copied arrays

/-- **A record that is initialised with success is connected to an instance, whose window holds
its elements.** -/
theorem onInstance_initialise {r : Record} {archive : ArchiveId} (there : c.record? id = some r)
    (body : r.body = .array archive a) (done : (c.initialise id).2 = .ok ()) :
    ∃ info b a', (c.initialise id).1.OnInstance id info b a' ∧ Shown info b.slot a' := by
  rcases initialise_cases there body with ⟨e, failed⟩ | ⟨x, info, b, found, resolved⟩
  · rw [failed] at done
    contradiction
  · obtain ⟨d, q, a', initialised, there', filled, bound, length, copied⟩ :=
      initialise_of_instance there body found resolved
    obtain ⟨described, room⟩ := Archive.hasRoom_of_resolve resolved
    obtain ⟨connected, shown⟩ := onInstance_of_copied there' filled bound found described room
      (Archive.initial_of_resolve resolved) length copied rfl
    rw [initialised, processInitially, there']
    dsimp only
    split
    · exact ⟨_, b, _, connected.process⟩
    · exact ⟨_, b, a', connected, shown⟩

/-- **Whatever is done with a record, the elements behind those in use at the start are what the
last writes that reached them made of them.** -/
theorem OnInstance.useAll (h : c.OnInstance id info b a) (uses : List Use) :
    ∃ info' a', (c.useAll id uses).OnInstance id info' b a' ∧ info'.capacity = info.capacity ∧
      info'.initial = info.initial ∧
      ∀ i, min info.initial.toNat info.capacity ≤ i → i < info.capacity →
        a'.values[i]? = reached i a.values[i]? uses := by
  induction uses generalizing c info a with
  | nil => exact ⟨info, a, h, rfl, rfl, fun _ _ _ => rfl⟩
  | cons u rest ih =>
    have length : a.values.length = info.capacity := by
      cases h with
      | intro _ _ _ _ _ _ _ length => exact length
    cases u with
    | write values =>
      obtain ⟨info', a', later, capacity, initial, elements⟩ := ih (h.write values)
      refine ⟨info', a', later, capacity, initial, fun i high low => ?_⟩
      rw [elements i high low, ArrayFields.put, Archive.getElem?_overwrite_of_lt (length ▸ low)]
      rfl
    | put field value =>
      obtain ⟨a₁, after, same⟩ := h.put field value
      obtain ⟨info', a', later, capacity, initial, elements⟩ := ih after
      refine ⟨info', a', later, capacity, initial, fun i high low => ?_⟩
      rw [elements i high low, same]
      rfl
    | process =>
      obtain ⟨info', a', later, capacity, initial, elements⟩ := ih h.process.1
      refine ⟨info', a', later, capacity, initial, fun i high low => ?_⟩
      rw [elements i high low, Archive.getElem?_padded, Archive.savedCount, length,
        if_neg (by omega)]
      rfl

/-- **What a write leaves behind.**  A record that is connected is written to and processed any
number of times, then written to and processed once more.  As many elements as were written, but
no more than were in use at the start, are those of that last write; behind them there are zeros
as far as elements were in use at the start; and from there on each element is what the last
write that reached it made of it.  The driver is shown the same elements.  So nothing is stale
exactly if those last elements are zero, and never if all elements are in use at the start. -/
theorem elements_after_write (h : c.OnInstance id info b a) (uses : List Use)
    (values : List UInt32) :
    ∃ info' a', (c.useAll id (uses ++ [.write values, .process])).OnInstance id info' b a' ∧
      info'.capacity = info.capacity ∧ info'.initial = info.initial ∧ Shown info' b.slot a' ∧
      Archive.Leaves info.capacity info.initial values
        (fun i => reached i a.values[i]? (uses ++ [.write values])) a' ∧
      (Archive.NoneStale values a' ↔
        ∀ i, min info.initial.toNat info.capacity ≤ i → i < info.capacity →
          reached i a.values[i]? (uses ++ [.write values]) = some 0) := by
  obtain ⟨info', a', later, capacity, initial, elements⟩ := h.useAll uses
  have length : a'.values.length = info.capacity := by
    cases later with
    | intro _ _ _ _ _ _ _ length => exact length.trans capacity
  obtain ⟨processed, shown⟩ := (later.write values).process
  rw [initial] at processed shown
  have last : c.useAll id (uses ++ [.write values, .process]) =
      ((c.useAll id uses).putArray id values).process id := by
    simp only [Controller.useAll, List.foldl_append, List.foldl_cons, List.foldl_nil, use]
  have leaves : Archive.Leaves info.capacity info.initial values
      (fun i => reached i a.values[i]? (uses ++ [.write values]))
      (Archive.padded (a'.put values) info.initial) := by
    have := Archive.leaves_padded_put a' info.initial values
    rw [length] at this
    refine ⟨this.length, this.written, this.kept, this.zero, fun i high low => ?_⟩
    rw [this.rest i high low, elements i high low, reached, reached, List.foldl_append]
    rfl
  rw [last]
  exact ⟨_, _, processed, capacity, initial, shown, leaves, leaves.noneStale_iff⟩

end Uses

/-- One array record that is not saved, for the only instance of an array of three elements, two of
them in use at the start, which the driver reads from storage of its own. -/
def tray : Controller :=
  let record : Record := ⟨{ name := "tray" }, .hardware ⟨0, 0, "norest"⟩, .array ⟨0⟩ {}⟩
  let c := (({} : Controller).newArchive { arrays := [⟨1, 3, 2, some [7, 7, 7]⟩] }).2
  ((c.adopt record none).2.initialise ⟨0⟩).1

theorem onInstance_tray :
    tray.OnInstance ⟨0⟩ ⟨1, 3, 2, some [0, 0, 0]⟩ ⟨0, 0, 2, false⟩ ⟨[0, 0, 0], 2, 2⟩ :=
  .intro rfl rfl rfl rfl rfl ⟨by decide, by simp⟩ rfl rfl

/-- A long write to the tray, and a short one after the next pass. -/
theorem elements_of_tray :
    tray.OnInstance ⟨0⟩ ⟨1, 3, 2, some [0, 0, 0]⟩ ⟨0, 0, 2, false⟩ ⟨[0, 0, 0], 2, 2⟩ ∧
      ∃ info a, (tray.useAll ⟨0⟩ [.write [5, 6, 8], .process, .write [9], .process]).OnInstance ⟨0⟩
          info ⟨0, 0, 2, false⟩ a ∧ Shown info 0 a ∧ a.written.toNat = 1 ∧
        a.values[0]? = some 9 ∧ a.values[1]? = some 0 ∧ a.values[2]? = some 8 := by
  obtain ⟨info, a, later, -, -, shown, leaves, -⟩ :=
    elements_after_write onInstance_tray [.write [5, 6, 8], .process] [9]
  have written : a.written.toNat = 1 := leaves.written
  exact ⟨onInstance_tray, info, a, later, shown, written, leaves.kept 0 (by omega),
    leaves.zero 1 (by omega) (by decide), leaves.rest 2 (by decide) (by decide)⟩

/-- **An element of an earlier write is left behind the zeros of a short one.**  The elements are
the single-precision numbers one, two and three, then four. -/
theorem stale_element_in_tray :
    ∃ a x info, (tray.useAll ⟨0⟩ [.write [0x3f800000, 0x40000000, 0x40400000], .process,
          .write [0x40800000], .process]).fields? ⟨0⟩ = some a ∧
        (tray.useAll ⟨0⟩ [.write [0x3f800000, 0x40000000, 0x40400000], .process,
          .write [0x40800000], .process]).archive? ⟨0⟩ = some x ∧ x.arrays[0]? = some info ∧
        a = ⟨[0x40800000, 0, 0x40400000], 2, 1⟩ ∧
        info.storage = some [0x40800000, 0, 0x40400000] ∧
        ¬Archive.NoneStale [0x40800000] a := by
  refine ⟨⟨[0x40800000, 0, 0x40400000], 2, 1⟩, _, _, rfl, rfl, rfl, rfl, rfl, fun fresh => ?_⟩
  have last := fresh 2 (by decide)
  contradiction

end Controller

end ControlRecords
