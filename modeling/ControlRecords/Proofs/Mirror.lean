import ControlRecords.Proofs.Copies
import ControlRecords.Proofs.Restart

/-! # Storage mirrors the records

A driver may read the instances of an array from storage of its own.  Each record that is
connected to an instance has the window of that instance in the storage, and whenever the record
is initialised or processed it copies its elements there.  Two facts carry this through any
number of records and turns: a turn of a record copies to the record's own window or leaves all
storage alone (`Seated.take`), and the windows of different instances lie apart.  So the storage
mirrors what each record last copied (`storage_mirrors_records`). -/
namespace ControlRecords

/-- Where the windows of an array lie: in the storage of an archive's array, so many of them,
and each so long. -/
structure Shelf where
  archive : ArchiveId
  array : Nat
  instances : Nat
  capacity : Nat

namespace Archive

/-- A record that is connected has as many elements as the instance can hold, and copies them
to the storage. -/
theorem connect_of_resolved {r : Record} {v : Vault} {info : ArrayInfo} {b : Binding}
    {id : ArchiveId} {a : ArrayFields} (body : r.body = .array id a)
    (resolved : resolve v.archive r = .ok (info, b)) :
    ∃ s a', connect id r v = (s, v.publish b.array b.slot a'.values, .ok ()) ∧
      s.skeleton = r.skeleton.bind (.toArchive b) ∧ s.body = .array id a' ∧
      a'.values.length = info.capacity := by
  obtain ⟨s, values, connected, skeleton, filled, rfl, -⟩ := connect_fills body resolved rfl
  exact ⟨s, _, connected, skeleton, filled, by
    rw [ArrayFields.length_overwrite, List.length_replicate]⟩

/-- The instance that a record was just connected to has its range in the storage. -/
theorem fits_of_connect {r q : Record} {v w : Vault} {id : ArchiveId} {a : ArrayFields}
    {b : Binding} (body : r.body = .array id a) (connected : connect id r v = (q, w, .ok ()))
    (bound : q.common.binding = .toArchive b) : b.Fits w.archive := by
  rcases resolved : resolve v.archive r with e | ⟨info, b'⟩
  · simp only [connect, resolved, Prod.mk.injEq, reduceCtorEq, and_false] at connected
  · obtain ⟨q', a', connected', skeleton, -⟩ := connect_of_resolved body resolved
    obtain ⟨rfl, rfl, -⟩ := Prod.mk.inj (connected.symm.trans connected')
    obtain rfl := Binding.toArchive.inj (bound.symm.trans (Record.binding_of_bind skeleton))
    exact (fits_of_resolve resolved).publish _ _ _

end Archive

namespace Controller

/-- Something is done to an array record. -/
inductive Turn where
  | initialise (record : RecordId)
  | use (record : RecordId) (u : Use)

/-- The record that it is done to. -/
def Turn.record : Turn → RecordId
  | initialise id => id
  | use id _ => id

/-- The state after a turn. -/
def take (c : Controller) : Turn → Controller
  | .initialise id => (c.initialise id).1
  | .use id u => c.use id u

/-- The state after one turn after the other. -/
def takeAll (c : Controller) (turns : List Turn) : Controller := turns.foldl take c

/-- The record copies its elements in the turn: it is initialised with success, or processed
while it is connected. -/
def copies (c : Controller) : Turn → Bool
  | .initialise id => (c.initialise id).2.isOk
  | .use id .process => (c.record? id).any (·.common.binding.isBound)
  | .use _ _ => false

/-- The fields of an array record. -/
def fields? (c : Controller) (id : RecordId) : Option ArrayFields :=
  (c.record? id).bind fun r =>
    match r.body with
    | .array _ a => some a
    | .scalar _ _ => none

/-- The shelf is there, with this storage, which has room for all windows. -/
inductive Stocked (c : Controller) (s : Shelf) (storage : List UInt32) : Prop where
  | intro {x : Archive} {info : Archive.ArrayInfo} (found : c.archive? s.archive = some x)
      (described : x.arrays[s.array]? = some info) (instances : info.instances = s.instances)
      (capacity : info.capacity = s.capacity) (stored : info.storage = some storage)
      (roomy : s.instances * s.capacity ≤ storage.length)

/-- The record is for a window of the shelf: it is connected to the instance, or its link names
the instance and it is not connected yet. -/
inductive Seated (c : Controller) (s : Shelf) (id : RecordId) (slot : Nat) : Prop where
  | waiting {r : Record} {a : ArrayFields} {address : HardwareAddress}
      (there : c.record? id = some r) (body : r.body = .array s.archive a)
      (unbound : r.common.binding = .unbound) (link : r.link = .hardware address)
      (card : address.card.toNat = s.array) (signal : address.signal.toNat = slot)
  | connected {r : Record} {a : ArrayFields} {b : Archive.Binding}
      (there : c.record? id = some r) (body : r.body = .array s.archive a)
      (bound : r.common.binding = .toArchive b) (array : b.array = s.array) (place : b.slot = slot)
      (valid : slot < s.instances) (length : a.values.length = s.capacity)

section Shelves
variable {c d : Controller} {s : Shelf} {storage : List UInt32} {id : RecordId} {slot : Nat}

theorem fields?_of_record {r : Record} {archive : ArchiveId} {a : ArrayFields}
    (there : c.record? id = some r) (body : r.body = .array archive a) :
    c.fields? id = some a := by
  rw [fields?, there, Option.bind_some, body]

theorem record?_of_fields? {a : ArrayFields} (h : c.fields? id = some a) :
    ∃ r archive, c.record? id = some r ∧ r.body = .array archive a := by
  obtain ⟨r, there, fields⟩ := Option.bind_eq_some_iff.1 h
  split at fields
  · rename_i archive a' body
    obtain rfl := Option.some.inj fields
    exact ⟨r, archive, there, body⟩
  · contradiction

theorem Stocked.congr (h : c.Stocked s storage) (same : d.archives = c.archives) :
    d.Stocked s storage := by
  obtain ⟨found, described, instances, capacity, stored, roomy⟩ := h
  refine .intro ?_ described instances capacity stored roomy
  rw [archive?, same]
  exact found

theorem Seated.congr (h : c.Seated s id slot) (same : d.record? id = c.record? id) :
    d.Seated s id slot := by
  cases h with
  | waiting there body unbound link card signal =>
    exact .waiting (same.trans there) body unbound link card signal
  | connected there body bound array place valid length =>
    exact .connected (same.trans there) body bound array place valid length

/-- A copy to a window of the shelf. -/
theorem Stocked.copy (h : c.Stocked s storage) {x y : Archive}
    (found : c.archive? s.archive = some x) {values : List UInt32}
    (length : values.length = s.capacity)
    (copied : d.archives = c.archives.set s.archive.index y)
    (arrays : y.arrays = x.arrays.modify s.array (·.publish slot values)) :
    d.Stocked s (Archive.replaceAt storage (slot * s.capacity) values) := by
  obtain ⟨found', described, instances, capacity, stored, roomy⟩ := h
  rename_i _ info
  obtain rfl := Option.some.inj (found.symm.trans found')
  have lt : s.archive.index < c.archives.length := (List.getElem?_eq_some_iff.1 found).1
  have placed : d.archive? s.archive = some y := by
    rw [archive?, copied, List.getElem?_set_self lt]
  have published : y.arrays[s.array]? = some (info.publish slot values) := by
    rw [arrays, List.getElem?_modify_eq, described]
    rfl
  refine .intro placed published instances capacity ?_ ?_
  · rw [Archive.ArrayInfo.publish, stored, Option.map_some, capacity,
      List.take_of_length_le (Nat.le_of_eq length)]
  · rw [Archive.length_replaceAt]
    exact roomy

theorem Stocked.dimensions (h : c.Stocked s storage) {x : Archive} {info : Archive.ArrayInfo}
    (found : c.archive? s.archive = some x) (described : x.arrays[s.array]? = some info) :
    info.instances = s.instances ∧ info.capacity = s.capacity := by
  obtain ⟨found', described', instances, capacity, -, -⟩ := h
  obtain rfl := Option.some.inj (found.symm.trans found')
  obtain rfl := Option.some.inj (described.symm.trans described')
  exact ⟨instances, capacity⟩

/-- A connected record has the window of its instance, and no other. -/
theorem Seated.slot_unique {slot' : Nat} (h : c.Seated s id slot) (h' : c.Seated s id slot') :
    slot = slot' := by
  cases h with
  | waiting there _ unbound link _ signal =>
    cases h' with
    | waiting there' _ _ link' _ signal' =>
      obtain rfl := Option.some.inj (there.symm.trans there')
      obtain rfl := Link.hardware.inj (link.symm.trans link')
      exact signal.symm.trans signal'
    | connected there' _ bound =>
      obtain rfl := Option.some.inj (there.symm.trans there')
      rw [unbound] at bound
      contradiction
  | connected there _ bound _ place =>
    cases h' with
    | waiting there' _ unbound =>
      obtain rfl := Option.some.inj (there.symm.trans there')
      rw [unbound] at bound
      contradiction
    | connected there' _ bound' _ place' =>
      obtain rfl := Option.some.inj (there.symm.trans there')
      obtain rfl := Binding.toArchive.inj (bound.symm.trans bound')
      exact place.symm.trans place'

end Shelves

/-! ## One turn -/

/-- What a turn of a record does to the shelf. -/
inductive Turned (c : Controller) (s : Shelf) (storage : List UInt32) (t : Turn) (slot : Nat) :
    Prop where
  /-- The record copies its elements to its window. -/
  | copied {a : ArrayFields} (copies : c.copies t = true)
      (seated : (c.take t).Seated s t.record slot) (valid : slot < s.instances)
      (fields : (c.take t).fields? t.record = some a) (length : a.values.length = s.capacity)
      (stocked : (c.take t).Stocked s (Archive.replaceAt storage (slot * s.capacity) a.values))
  /-- No storage is touched. -/
  | left (copies : c.copies t = false) (seated : (c.take t).Seated s t.record slot)
      (archives : (c.take t).archives = c.archives)

section OneTurn
variable {c : Controller} {s : Shelf} {storage : List UInt32} {id : RecordId} {slot : Nat}
  {r : Record} {a : ArrayFields} {archive : ArchiveId}

/-- The archives after a pass of a record that is connected. -/
theorem archives_process {b : Archive.Binding} {x : Archive} (there : c.record? id = some r)
    (body : r.body = .array archive a) (bound : r.common.binding = .toArchive b)
    (found : c.archive? archive = some x) :
    ∃ y, (c.process id).archives = c.archives.set archive.index y ∧
      y.arrays =
        x.arrays.modify b.array (·.publish b.slot (Archive.padded a b.initial).values) := by
  have connected : r.common.binding ≠ .unbound := by rw [bound]; simp
  have target : c.target r = .vault ⟨x, c.files⟩ := by simp only [target, body, found]
  have exchanged : (r.process Target.exchange (c.target r)).2 =
      .vault (Archive.exchange r ⟨x, c.files⟩).target := by
    rw [Record.target_process_of_bound _ connected, Record.prepare_of_array body, target]
    rfl
  refine ⟨(Archive.exchange r ⟨x, c.files⟩).target.archive, ?_, ?_⟩
  · rw [process_of_record there, exchanged]
    simp only [setTarget, body, setRecord]
  · simp only [Archive.exchange, body, bound, Archive.Vault.keep_eq, Archive.asked]
    split <;> rfl

/-- A pass of a record that is connected copies its elements. -/
theorem turned_process {b : Archive.Binding} (stocked : c.Stocked s storage)
    (there : c.record? id = some r) (body : r.body = .array s.archive a)
    (bound : r.common.binding = .toArchive b) (array : b.array = s.array)
    (valid : b.slot < s.instances) (length : a.values.length = s.capacity) :
    ∃ a', (c.process id).Seated s id b.slot ∧ (c.process id).fields? id = some a' ∧
      a'.values.length = s.capacity ∧
      (c.process id).Stocked s (Archive.replaceAt storage (b.slot * s.capacity) a'.values) := by
  obtain ⟨x, found⟩ : ∃ x, c.archive? s.archive = some x := by
    cases stocked with
    | intro found => exact ⟨_, found⟩
  have there' : (c.process id).record? id = some (c.after r) := record?_process_self there
  have body' := body_after body bound found
  have bound' : (c.after r).common.binding = .toArchive b :=
    (Record.binding_of_skeleton (Record.skeleton_process r _)).trans bound
  have length' : (Archive.padded a b.initial).values.length = s.capacity := by
    rw [Archive.length_padded, length]
  obtain ⟨y, copied, arrays⟩ := archives_process there body bound found
  rw [array] at arrays
  exact ⟨_, .connected there' body' bound' array rfl valid length', fields?_of_record there' body',
    length', stocked.copy found length' copied arrays⟩

/-- A record that is replaced by one with other fields, as many elements and the same
connection. -/
theorem Seated.replace (h : c.Seated s id slot) (there : c.record? id = some r)
    (body : r.body = .array archive a) {q : Record} {a' : ArrayFields}
    (body' : q.body = .array archive a') (length : a'.values.length = a.values.length)
    (link : q.link = r.link) (binding : q.common.binding = r.common.binding) :
    (c.setRecord id q).Seated s id slot := by
  have there' := record?_setRecord_of_some there q
  cases h with
  | waiting found own unbound named card signal =>
    obtain rfl := Option.some.inj (there.symm.trans found)
    obtain ⟨rfl, rfl⟩ := Body.array.inj (body.symm.trans own)
    exact .waiting there' body' (binding.trans unbound) (link.trans named) card signal
  | connected found own bound array place valid capacity =>
    obtain rfl := Option.some.inj (there.symm.trans found)
    obtain ⟨rfl, rfl⟩ := Body.array.inj (body.symm.trans own)
    exact .connected there' body' (binding.trans bound) array place valid (length.trans capacity)

theorem Seated.record (h : c.Seated s id slot) :
    ∃ r a, c.record? id = some r ∧ r.body = .array s.archive a := by
  cases h with
  | waiting there body => exact ⟨_, _, there, body⟩
  | connected there body => exact ⟨_, _, there, body⟩

/-- A record that gets other fields and as many elements touches no storage. -/
theorem turned_of_replaced {u : Use} (seated : c.Seated s id slot) (there : c.record? id = some r)
    (body : r.body = .array s.archive a) {a' : ArrayFields}
    (length : a'.values.length = a.values.length) (kept : c.copies (.use id u) = false)
    (written : c.use id u = c.setRecord id { r with body := .array s.archive a' }) :
    Turned c s storage (.use id u) slot := by
  refine .left kept ?_ ?_
  · simp only [take, Turn.record, written]
    exact seated.replace there body rfl length rfl rfl
  · simp only [take, written, setRecord]

/-- What clients write touches no storage. -/
theorem turned_write (seated : c.Seated s id slot) (values : List UInt32) :
    Turned c s storage (.use id (.write values)) slot := by
  obtain ⟨r, a, there, body⟩ := seated.record
  exact turned_of_replaced seated there body (ArrayFields.length_overwrite ..) rfl
    (putArray_of_array there body values)

theorem turned_put (seated : c.Seated s id slot) (field : String) (value : Value) :
    Turned c s storage (.use id (.put field value)) slot := by
  obtain ⟨r, a, there, body⟩ := seated.record
  obtain ⟨a', same, written⟩ := putField_of_array there body field value
  exact turned_of_replaced seated there body (congrArg List.length same) rfl written

/-- A record whose connection fails is left active. -/
theorem initialise_of_failed {e : SupportError} (there : c.record? id = some r)
    (body : r.body = .array archive a) (failed : c.connect id = (c, .error e)) :
    c.initialise id = (c.setRecord id (r.setActive true), .error e) := by
  have sized : r.sized = r := by
    obtain ⟨_, _, _⟩ := r
    obtain rfl : _ = Body.array archive a := body
    rfl
  simp only [initialise, there, sized, setRecord_self there, failed]

/-- An array record is connected to the instance that its link names, or its connection fails. -/
theorem initialise_cases (there : c.record? id = some r) (body : r.body = .array archive a) :
    (∃ e, c.initialise id = (c.setRecord id (r.setActive true), .error e)) ∨
      ∃ x info b, c.archive? archive = some x ∧ Archive.resolve x r = .ok (info, b) := by
  cases found : c.archive? archive with
  | none =>
    left
    refine ⟨_, initialise_of_failed there body (e := .archive .notConnected) ?_⟩
    simp only [connect, there, body, connectArchive, found]
  | some x =>
    cases resolved : Archive.resolve x r with
    | ok p => exact .inr ⟨x, p.1, p.2, rfl, resolved⟩
    | error e =>
      left
      have target : c.target r = .vault ⟨x, c.files⟩ := by
        simp only [Controller.target, body, found]
      have untouched : Archive.connect archive r ⟨x, c.files⟩ = (r, ⟨x, c.files⟩, .error e) := by
        simp only [Archive.connect, resolved]
      refine ⟨_, initialise_of_failed there body (e := .archive e) ?_⟩
      simp only [connect, there, body, connectArchive, found, untouched, ← target,
        setTarget_target, setRecord_self there]
      rfl

/-- The state in which a record that was connected may make its initial pass. -/
theorem initialise_of_instance {x : Archive} {info : Archive.ArrayInfo} {b : Archive.Binding}
    (there : c.record? id = some r) (body : r.body = .array archive a)
    (found : c.archive? archive = some x) (resolved : Archive.resolve x r = .ok (info, b)) :
    ∃ (d : Controller) (q : Record) (a' : ArrayFields),
      c.initialise id = (d.processInitially id, .ok ()) ∧ d.record? id = some q ∧
      q.body = .array archive a' ∧ q.common.binding = .toArchive b ∧
      a'.values.length = info.capacity ∧
      d.archives = c.archives.set archive.index
        (Archive.Vault.publish ⟨x, c.files⟩ b.array b.slot a'.values).archive := by
  obtain ⟨q, a', connected, skeleton, filled, length⟩ :=
    Archive.connect_of_resolved (v := ⟨x, c.files⟩) body resolved
  refine ⟨_, q, a', initialise_of_resolved there body found resolved connected skeleton filled,
    record?_setRecord_of_some ((record?_setTarget c r _ id).trans there) q, filled,
    Record.binding_of_bind skeleton, length, ?_⟩
  simp only [setTarget, body, setRecord]

/-- **A record whose connection fails changes no storage and no field of its own.** -/
theorem fields?_initialise_of_error {e : SupportError} (fields : c.fields? id = some a)
    (failed : (c.initialise id).2 = .error e) :
    (c.initialise id).1.archives = c.archives ∧ (c.initialise id).1.fields? id = some a := by
  obtain ⟨r, archive, there, body⟩ := record?_of_fields? fields
  rcases initialise_cases there body with ⟨e, left⟩ | ⟨x, info, b, found, resolved⟩
  · rw [left]
    exact ⟨rfl, fields?_of_record (record?_setRecord_of_some there _) body⟩
  · obtain ⟨d, q, a', done, -⟩ := initialise_of_instance there body found resolved
    rw [done] at failed
    contradiction

/-- A record whose connection fails touches no storage. -/
theorem turned_of_failed {e : SupportError} (seated : c.Seated s id slot)
    (there : c.record? id = some r) (body : r.body = .array archive a)
    (failed : c.initialise id = (c.setRecord id (r.setActive true), .error e)) :
    Turned c s storage (.initialise id) slot := by
  refine .left (by rw [copies, failed]; rfl) ?_ (by rw [take, failed]; rfl)
  simp only [take, failed, Turn.record]
  exact seated.replace there body body rfl rfl rfl

/-- A record that is connected copies its elements, and copies them once more if it is processed
at once. -/
theorem turned_of_instance {x : Archive} {info : Archive.ArrayInfo} {b : Archive.Binding}
    (stocked : c.Stocked s storage) (there : c.record? id = some r)
    (body : r.body = .array s.archive a) (found : c.archive? s.archive = some x)
    (resolved : Archive.resolve x r = .ok (info, b)) (array : b.array = s.array) :
    Turned c s storage (.initialise id) b.slot := by
  obtain ⟨d, q, a', done, there, filled, bound, length, copied⟩ :=
    initialise_of_instance there body found resolved
  obtain ⟨described, room⟩ := Archive.hasRoom_of_resolve resolved
  rw [array] at described copied
  obtain ⟨valid, capacity⟩ := stocked.dimensions found described
  rw [capacity] at length
  have valid : b.slot < s.instances := valid ▸ room.valid
  have first := stocked.copy found length copied rfl
  have done' : c.take (.initialise id) = d.processInitially id := by rw [take, done]
  have copies : c.copies (.initialise id) = true := by rw [Controller.copies, done]; rfl
  by_cases initially : (q.common.initProcess && !q.common.active) = true
  · -- The initial pass copies to the same window.
    obtain ⟨a'', seated, fields, length', second⟩ :=
      turned_process first there filled bound array valid length
    rw [Archive.replaceAt_replaceAt (length'.trans length.symm)] at second
    have passed : c.take (.initialise id) = d.process id := by
      rw [done', processInitially, there]
      exact if_pos initially
    rw [← passed] at seated fields second
    exact .copied copies seated valid fields length' second
  · have passed : c.take (.initialise id) = d := by
      rw [done', processInitially, there]
      exact if_neg initially
    rw [← passed] at there first
    exact .copied copies (.connected there filled bound array rfl valid length) valid
      (fields?_of_record there filled) length first

/-- Initialising a record copies its elements, or its connection fails. -/
theorem turned_initialise (stocked : c.Stocked s storage) (seated : c.Seated s id slot) :
    Turned c s storage (.initialise id) slot := by
  obtain ⟨r, a, there, body⟩ := seated.record
  rcases initialise_cases there body with ⟨e, failed⟩ | ⟨x, info, b, found, resolved⟩
  · exact turned_of_failed seated there body failed
  · cases seated with
    | connected there' body' bound array place valid length =>
      obtain rfl := Option.some.inj (there.symm.trans there')
      have unbound := Archive.unbound_of_resolve resolved
      rw [bound] at unbound
      contradiction
    | waiting there' body' unbound link card signal =>
      obtain rfl := Option.some.inj (there.symm.trans there')
      obtain rfl := Archive.binding_of_resolve resolved link
      subst signal
      exact turned_of_instance stocked there body found resolved card

/-- **A turn of a record copies to its own window, or touches no storage.** -/
theorem Seated.take (stocked : c.Stocked s storage) {t : Turn} (seated : c.Seated s t.record slot) :
    Turned c s storage t slot := by
  cases t with
  | initialise id => exact turned_initialise stocked seated
  | use id u =>
    cases u with
    | write values => exact turned_write seated values
    | put field value => exact turned_put seated field value
    | process =>
      cases seated with
      | waiting there body unbound link card signal =>
        have same : c.process id = c := process_of_unbound there unbound
        have found : c.record? id = some _ := there
        refine .left ?_ ?_ (congrArg archives same)
        · simp only [copies, found, Option.any_some, unbound]
          rfl
        · exact (Seated.waiting there body unbound link card signal).congr
            (congrArg (record? · id) same)
      | connected there body bound array place valid length =>
        subst place
        have found : c.record? id = some _ := there
        obtain ⟨a', seated, fields, length', after⟩ :=
          turned_process stocked there body bound array valid length
        refine .copied ?_ seated valid fields length' after
        simp only [copies, found, Option.any_some, bound]
        rfl

/-- A turn of one record leaves the others alone. -/
theorem record?_take_of_ne (c : Controller) {t : Turn} {j : RecordId} (h : j ≠ t.record) :
    (c.take t).record? j = c.record? j := by
  cases t with
  | initialise id => exact record?_initialise_of_ne c h
  | use id u =>
    cases u with
    | process => exact record?_process_of_ne c h
    | put field value =>
      rcases act_put_cases c id field value with e | ⟨_, _, -, -, e⟩
      · exact congrArg (record? · j) e
      · exact (congrArg (record? · j) e).trans (record?_setRecord_of_ne c _ h)
    | write values =>
      rcases putArray_cases c id values with same | ⟨_, _, _, -, -, written⟩
      · exact congrArg (record? · j) same
      · exact (congrArg (record? · j) written).trans (record?_setRecord_of_ne c _ h)

end OneTurn

/-! ## Any number of turns -/

/-- Each of these records is for an instance of the array, and no two of them for the same. -/
structure Arranged (c : Controller) (s : Shelf) (seats : List (RecordId × Nat)) : Prop where
  seated : ∀ p ∈ seats, c.Seated s p.1 p.2
  apart : ∀ p ∈ seats, ∀ q ∈ seats, p.1 ≠ q.1 → p.2 ≠ q.2

/-- What a turn of a record makes of the storage: the record finds in its window the elements
that it copied, and nothing else is changed. -/
structure Mirrors (c : Controller) (s : Shelf) (storage next : List UInt32) (t : Turn)
    (slot : Nat) : Prop where
  copied : c.copies t = true → ∃ a, (c.take t).fields? t.record = some a ∧
    a.values.length = s.capacity ∧
    Archive.window next (slot * s.capacity) s.capacity = a.values
  others : ∀ i, i < slot * s.capacity ∨ (slot + 1) * s.capacity ≤ i → next[i]? = storage[i]?
  left : c.copies t = false → (c.take t).archives = c.archives ∧ next = storage

/-- Whatever is done to an array record next, no index is out of range: neither when a client
writes, nor when the record is processed or connected, nor when it is processed at once after
that. -/
def InRange (c : Controller) (id : RecordId) : Prop :=
  ∀ r archive a x, c.record? id = some r → r.body = .array archive a →
    c.archive? archive = some x →
    (∀ new, a.put? new = some (a.put new)) ∧
    Archive.exchange? r ⟨x, c.files⟩ = some (Archive.exchange r ⟨x, c.files⟩) ∧
    Archive.connect? archive r ⟨x, c.files⟩ = some (Archive.connect archive r ⟨x, c.files⟩) ∧
    ∀ q v, Archive.connect archive r ⟨x, c.files⟩ = (q, v, .ok ()) →
      Archive.exchange? q v = some (Archive.exchange q v)

/-- The elements that a record copied last in these turns. -/
def lastCopied (c : Controller) (id : RecordId) : List Turn → Option (List UInt32)
  | [] => none
  | t :: rest =>
    ((c.take t).lastCopied id rest).or
      (if t.record = id ∧ c.copies t = true then ((c.take t).fields? id).map (·.values) else none)

section Turns
variable {c : Controller} {s : Shelf} {storage next : List UInt32} {t : Turn} {slot : Nat}
  {seats : List (RecordId × Nat)} {id : RecordId}

theorem Turned.seated (h : Turned c s storage t slot) : (c.take t).Seated s t.record slot := by
  cases h with
  | copied _ seated => exact seated
  | left _ seated => exact seated

/-- The storage after a turn. -/
theorem Turned.mirrors (h : Turned c s storage t slot) (stocked : c.Stocked s storage) :
    ∃ next, (c.take t).Stocked s next ∧ Mirrors c s storage next t slot := by
  cases h with
  | @copied a copies seated valid fields length after =>
    have room : slot * s.capacity + a.values.length ≤ storage.length := by
      cases stocked with
      | intro _ _ _ _ _ roomy =>
        rw [length]
        exact Nat.le_trans (Archive.end_le_of_lt valid) roomy
    refine ⟨_, after, fun _ => ⟨a, fields, length, ?_⟩, fun i outside => ?_, fun kept => ?_⟩
    · rw [← length, Archive.window_replaceAt_self (by rwa [← length] at room)]
    · rw [Nat.succ_mul] at outside
      rw [Archive.getElem?_replaceAt, if_neg (by omega)]
    · rw [copies] at kept
      contradiction
  | left kept seated archives =>
    refine ⟨storage, stocked.congr archives, fun copies => ?_, fun _ _ => rfl,
      fun _ => ⟨archives, rfl⟩⟩
    rw [kept] at copies
    contradiction

/-- The windows of other instances stay as they are. -/
theorem Mirrors.window_of_ne (h : Mirrors c s storage next t slot) {other : Nat}
    (apart : other ≠ slot) :
    Archive.window next (other * s.capacity) s.capacity =
      Archive.window storage (other * s.capacity) s.capacity := by
  apply Archive.window_congr
  intro i low high
  apply h.others
  -- The window lies before the one of the turn or behind it.
  rcases Nat.lt_or_gt_of_ne apart with before | behind
  · exact .inl (Nat.lt_of_lt_of_le high (Archive.end_le_of_lt before))
  · exact .inr (Nat.le_trans (Nat.mul_le_mul_right _ behind) low)

theorem Arranged.take (h : c.Arranged s seats) (ours : (t.record, slot) ∈ seats)
    (turned : Turned c s storage t slot) : (c.take t).Arranged s seats := by
  refine ⟨fun p mem => ?_, h.apart⟩
  by_cases own : p.1 = t.record
  · have place : p.2 = slot := by
      have seated := h.seated p mem
      rw [own] at seated
      exact seated.slot_unique (h.seated _ ours)
    rw [own, place]
    exact turned.seated
  · exact (h.seated p mem).congr (record?_take_of_ne c own)

/-- The window of a record after one turn holds what the record copied in it, or what it held
before. -/
theorem Arranged.window (h : c.Arranged s seats) (ours : (t.record, slot) ∈ seats)
    (mirrors : Mirrors c s storage next t slot) {p : RecordId × Nat} (mem : p ∈ seats) :
    Archive.window next (p.2 * s.capacity) s.capacity =
      (if t.record = p.1 ∧ c.copies t = true then
        ((c.take t).fields? p.1).map (·.values) else none).getD
      (Archive.window storage (p.2 * s.capacity) s.capacity) := by
  by_cases own : t.record = p.1
  · have place : p.2 = slot := by
      have seated := h.seated p mem
      rw [← own] at seated
      exact seated.slot_unique (h.seated _ ours)
    rw [← own, place]
    cases copies : c.copies t with
    | true =>
      obtain ⟨a, fields, -, values⟩ := mirrors.copied copies
      rw [if_pos ⟨rfl, rfl⟩, fields, values]
      rfl
    | false =>
      rw [if_neg (by simp), (mirrors.left copies).2]
      rfl
  · rw [if_neg (fun both => own both.1)]
    exact mirrors.window_of_ne (h.apart p mem _ ours (Ne.symm own))

/-- **After any number of turns each window holds what its record copied last.** -/
theorem Arranged.takeAll (stocked : c.Stocked s storage) (arranged : c.Arranged s seats)
    (turns : List Turn) (ours : ∀ t ∈ turns, t.record ∈ seats.map (·.1)) :
    ∃ now, (c.takeAll turns).Stocked s now ∧ (c.takeAll turns).Arranged s seats ∧
      ∀ p ∈ seats, Archive.window now (p.2 * s.capacity) s.capacity =
        (c.lastCopied p.1 turns).getD (Archive.window storage (p.2 * s.capacity) s.capacity) := by
  induction turns generalizing c storage with
  | nil => exact ⟨storage, stocked, arranged, fun _ _ => rfl⟩
  | cons t rest ih =>
    -- The other turns start from the storage that the first one leaves.
    obtain ⟨⟨id, slot⟩, mine, own⟩ := List.mem_map.1 (ours t (List.mem_cons_self ..))
    obtain rfl : id = t.record := own
    have turned := (arranged.seated _ mine).take stocked
    obtain ⟨next, stocked', mirrors⟩ := turned.mirrors stocked
    obtain ⟨now, stocked'', arranged', windows⟩ := ih stocked' (arranged.take mine turned)
      (fun t' later => ours t' (List.mem_cons_of_mem _ later))
    refine ⟨now, stocked'', arranged', fun p mem => ?_⟩
    rw [windows p mem, arranged.window mine mirrors mem, lastCopied, Option.getD_or]

/-- The instance that a record is connected to has its range in the storage. -/
theorem Seated.fits (seated : c.Seated s id slot) (stocked : c.Stocked s storage) {r : Record}
    {a : ArrayFields} {archive : ArchiveId} {x : Archive} {b : Archive.Binding}
    (there : c.record? id = some r) (body : r.body = .array archive a)
    (found : c.archive? archive = some x) (bound : r.common.binding = .toArchive b) :
    b.Fits x := by
  cases seated with
  | waiting there' _ unbound =>
    obtain rfl := Option.some.inj (there.symm.trans there')
    rw [unbound] at bound
    contradiction
  | connected there' body' bound' array place valid =>
    obtain rfl := Option.some.inj (there.symm.trans there')
    obtain rfl := Binding.toArchive.inj (bound.symm.trans bound')
    obtain ⟨rfl, -⟩ := Body.array.inj (body.symm.trans body')
    obtain ⟨found', described, instances, capacity, stored, roomy⟩ := stocked
    obtain rfl := Option.some.inj (found.symm.trans found')
    intro info there
    obtain rfl := Option.some.inj (there.symm.trans (array ▸ described))
    refine ⟨by rw [place, instances]; exact valid, fun other has => ?_⟩
    obtain rfl := Option.some.inj (stored.symm.trans has)
    rw [instances, capacity]
    exact roomy

/-- **No index is out of range.** -/
theorem Seated.inRange (seated : c.Seated s id slot) (stocked : c.Stocked s storage) :
    c.InRange id := by
  intro r archive a x there body found
  refine ⟨a.put?_eq_some, Archive.exchange?_eq_some fun b => seated.fits stocked there body found,
    Archive.connect?_eq_some .., fun q v connected => Archive.exchange?_eq_some fun b bound => ?_⟩
  exact Archive.fits_of_connect body connected bound

/-- Whatever is done next, the storage mirrors these records. -/
structure Mirrored (c : Controller) (s : Shelf) (seats : List (RecordId × Nat))
    (storage : List UInt32) : Prop where
  stocked : c.Stocked s storage
  next : ∀ t slot, (t.record, slot) ∈ seats →
    ∃ next, (c.take t).Stocked s next ∧ Mirrors c s storage next t slot
  failed : ∀ id a e, c.fields? id = some a → (c.initialise id).2 = .error e →
    (c.initialise id).1.archives = c.archives ∧ (c.initialise id).1.fields? id = some a
  inRange : ∀ p ∈ seats, c.InRange p.1

theorem Arranged.mirrored (stocked : c.Stocked s storage) (arranged : c.Arranged s seats) :
    c.Mirrored s seats storage where
  stocked := stocked
  next _ _ mine := ((arranged.seated _ mine).take stocked).mirrors stocked
  failed _ _ _ := fields?_initialise_of_error
  inRange p mem := (arranged.seated p mem).inRange stocked

/-- **Storage mirrors the records.**  Any number of records are for different instances of an
array whose storage has room for all instances.  They are initialised, written to and processed
in any order and any number of times.  Then the window of each of them holds what the record
copied last, and whenever one of them is initialised with success or processed while it is
connected, its window holds its elements and no other element of the storage has changed; a
record whose connection fails changes no storage and no field, and no index is ever out of
range. -/
theorem storage_mirrors_records (stocked : c.Stocked s storage) (arranged : c.Arranged s seats)
    (turns : List Turn) (ours : ∀ t ∈ turns, t.record ∈ seats.map (·.1)) :
    ∃ now, (c.takeAll turns).Mirrored s seats now ∧
      ∀ p ∈ seats, Archive.window now (p.2 * s.capacity) s.capacity =
        (c.lastCopied p.1 turns).getD (Archive.window storage (p.2 * s.capacity) s.capacity) := by
  obtain ⟨now, stocked', arranged', windows⟩ := arranged.takeAll stocked turns ours
  exact ⟨now, arranged'.mirrored stocked', windows⟩

end Turns

/-- Two array records for the instances of an array of two elements each, whose storage is one
element longer than it needs to be. -/
def rack : Controller :=
  let left : Record := ⟨{ name := "left" }, .hardware ⟨0, 0, "norest"⟩, .array ⟨0⟩ {}⟩
  let right : Record := ⟨{ name := "right" }, .hardware ⟨0, 1, "norest"⟩, .array ⟨0⟩ {}⟩
  let c := (({} : Controller).newArchive { arrays := [⟨2, 2, 2, some [7, 7, 7, 7, 7]⟩] }).2
  ((c.adopt left none).2.adopt right none).2

def rackShelf : Shelf := ⟨⟨0⟩, 0, 2, 2⟩

/-- Both records of the rack are initialised; then clients write to both, to the right one too
much, but only that one is processed. -/
def rackTurns : List Turn :=
  [.initialise ⟨0⟩, .initialise ⟨1⟩, .use ⟨1⟩ (.write [5, 6, 9]), .use ⟨0⟩ (.write [3]),
    .use ⟨1⟩ .process]

theorem stocked_rack : rack.Stocked rackShelf [7, 7, 7, 7, 7] :=
  .intro rfl rfl rfl rfl rfl (by decide)

theorem arranged_rack : rack.Arranged rackShelf [(⟨0⟩, 0), (⟨1⟩, 1)] := by
  refine ⟨fun p mem => ?_, by decide⟩
  rcases List.mem_pair.1 mem with rfl | rfl
  · exact .waiting rfl rfl rfl rfl rfl rfl
  · exact .waiting rfl rfl rfl rfl rfl rfl

theorem rack_mirrors_records :
    rack.Stocked rackShelf [7, 7, 7, 7, 7] ∧
      rack.Arranged rackShelf [(⟨0⟩, 0), (⟨1⟩, 1)] ∧
      ∃ now, (rack.takeAll rackTurns).Mirrored rackShelf [(⟨0⟩, 0), (⟨1⟩, 1)] now ∧
        Archive.window now 0 2 = [0, 0] ∧ Archive.window now 2 2 = [5, 6] := by
  obtain ⟨now, mirrored, windows⟩ :=
    storage_mirrors_records stocked_rack arranged_rack rackTurns (by decide)
  have left : rack.lastCopied ⟨0⟩ rackTurns = some [0, 0] := by decide
  have right : rack.lastCopied ⟨1⟩ rackTurns = some [5, 6] := by decide
  refine ⟨stocked_rack, arranged_rack, now, mirrored, ?_, ?_⟩
  · exact (windows (⟨0⟩, 0) (by decide)).trans (by rw [left]; rfl)
  · exact (windows (⟨1⟩, 1) (by decide)).trans (by rw [right]; rfl)

end Controller

end ControlRecords
