import ControlRecords.Proofs.ArrayWrites
import ControlRecords.Proofs.Connections
import ControlRecords.Proofs.Occurrences

/-! # Restoring from any file

The file that a record finds under its name may hold anything.  What is read of it is no longer
than the elements in use at the start, and what is made of it are its whole elements, so that the
record starts with those, and with zeros behind them, whatever the length of the file
(`getElem?_restored`).  A record whose link excepts it from being saved reads nothing, and that
it stays excepted is an invariant of everything that can happen (`Excepts.occur`): it is
connected by its link alone, and the link does not change. -/
namespace ControlRecords

/-! ## The elements in a file -/

namespace Archive

/-- The element that four octets of a content make up. -/
def element (content : List UInt8) (i : Nat) : UInt32 :=
  UInt32.ofNat (ofOctets ((content.drop (4 * i)).take 4))

/-- Octets at the end that make up no whole element are not read. -/
theorem getElem?_decode (content : List UInt8) (i : Nat) :
    (decode content)[i]? = if i < content.length / 4 then some (element content i) else none := by
  fun_induction decode content generalizing i with
  | case1 a b c d rest ih =>
    cases i with
    | zero => simp [element]
    | succ i =>
      have next : element (a :: b :: c :: d :: rest) (i + 1) = element rest i := by
        simp only [element, Nat.mul_add, Nat.mul_one, List.drop_succ_cons]
      rw [List.getElem?_cons_succ, ih, next]
      simp only [List.length_cons]
      split <;> split <;> first | rfl | omega
  | case2 content short =>
    have few := length_lt_of_short short
    rw [if_neg (by omega)]
    rfl

/-- Of a content that is cut off the whole elements are those of the content. -/
theorem element_take {content : List UInt8} {count i : Nat} (inside : i < count) :
    element (content.take (4 * count)) i = element content i := by
  rw [element, element, List.drop_take, List.take_take, Nat.min_eq_left (by omega)]

/-- **What a record starts with is the whole elements of its file, with zeros behind them.** -/
theorem getElem?_restored (capacity : Nat) (initial : UInt32) (content : List UInt8) {i : Nat}
    (inside : i < capacity) :
    (restored capacity initial content)[i]? =
      some (if i < min (content.length / 4) (min initial.toNat capacity) then element content i
        else 0) := by
  have whole : (content.take (4 * min initial.toNat capacity)).length / 4 =
      min (content.length / 4) (min initial.toNat capacity) := by
    rw [List.length_take]
    omega
  rw [restored, getElem?_overwrite, length_decode, whole, List.length_replicate]
  by_cases filled : i < min (content.length / 4) (min initial.toNat capacity)
  · rw [if_pos ⟨filled, inside⟩, if_pos filled, getElem?_decode, whole, if_pos filled,
      element_take (by omega)]
  · rw [if_neg (by omega), if_neg filled, List.getElem?_replicate_of_lt inside]

/-- The content of the file under a record's name, if there is one. -/
def Vault.stored? (v : Vault) (name : String) : Option (List UInt8) :=
  if v.reaches name then (v.files.fileAt? name).bind v.files.content? else none

theorem Vault.saved_eq_take (v : Vault) (name : String) (count : Nat) :
    v.saved name count = ((v.stored? name).getD []).take count := by
  unfold saved stored? Files.restore Files.fileAt?
  split
  · cases v.files.locate name with
    | error kind => simp
    | ok place =>
      cases place with
      | directory => by_cases nothing : count = 0 <;> simp [nothing]
      | slashed refusal => simp
      | file file => cases held : v.files.content? file <;> simp [held]
  · simp

end Archive

namespace Controller

/-- An array record is not connected yet, and its link names an instance of an array. -/
structure Waits (c : Controller) (id : RecordId) (r : Record) (archive : ArchiveId) (x : Archive)
    (info : Archive.ArrayInfo) (address : HardwareAddress) : Prop where
  there : c.record? id = some r
  body : ∃ fields, r.body = .array archive fields
  unbound : r.common.binding = .unbound
  link : r.link = .hardware address
  found : c.archive? archive = some x
  described : x.arrays[address.card.toNat]? = some info

section Starting
variable {c : Controller} {id : RecordId} {r : Record} {archive : ArchiveId} {x : Archive}
  {info : Archive.ArrayInfo} {address : HardwareAddress}

/-- A record is initialised with success only if its array has room for the instance. -/
theorem Waits.hasRoom (h : c.Waits id r archive x info address)
    (done : (c.initialise id).2 = .ok ()) : info.HasRoom address.signal.toNat := by
  obtain ⟨there, ⟨fields, body⟩, -, link, found, described⟩ := h
  rcases initialise_cases there body with ⟨e, failed⟩ | ⟨x', info', b, found', resolved⟩
  · rw [failed] at done
    contradiction
  · obtain rfl := Option.some.inj (found.symm.trans found')
    obtain ⟨described', room⟩ := Archive.hasRoom_of_resolve resolved
    obtain rfl := Archive.binding_of_resolve resolved link
    obtain rfl := Option.some.inj (described.symm.trans described')
    exact room

/-- What a record is like that was initialised and is not to be processed at once: the elements
are those that these octets make up, and the record is as well defined as it was if there are
none. -/
theorem Waits.initialise (h : c.Waits id r archive x info address)
    (quiet : r.common.initProcess = false) (room : info.HasRoom address.signal.toNat)
    {bytes : List UInt8}
    (given : (if Archive.excepts address then [] else
      ((Archive.Vault.stored? ⟨x, c.files⟩ r.common.name).getD []).take
        (4 * min info.initial.toNat info.capacity)) = bytes) :
    (c.initialise id).2 = .ok () ∧ (c.initialise id).1.files = c.files ∧
      ∃ s values, (c.initialise id).1.record? id = some s ∧
        s.skeleton = r.skeleton.bind (.toArchive
          ⟨address.card.toNat, address.signal.toNat, info.initial, !Archive.excepts address⟩) ∧
        s.body = .array archive { values, inUse := info.initial, written := info.initial } ∧
        values = ArrayFields.overwrite (List.replicate info.capacity 0) (Archive.decode bytes) ∧
        (bytes = [] → s.common.undefined = r.common.undefined) := by
  obtain ⟨there, ⟨fields, body⟩, unbound, link, found, described⟩ := h
  have resolved := Archive.resolve_eq_ok_iff.2
    ⟨address, link, described, by rw [unbound]; rfl, room, rfl⟩
  have count : Archive.savedCount info.initial (List.replicate info.capacity 0) =
      min info.initial.toNat info.capacity := by
    rw [Archive.savedCount, List.length_replicate]
  have read : (if (!Archive.excepts address) = true then
      Archive.Vault.saved ⟨x, c.files⟩ r.common.name
        (4 * Archive.savedCount info.initial (List.replicate info.capacity 0))
      else []) = bytes := by
    rw [← given, count, Archive.Vault.saved_eq_take]
    cases Archive.excepts address <;> rfl
  obtain ⟨s, values, connected, skeleton, filled, elements, kept⟩ :=
    Archive.connect_fills (v := ⟨x, c.files⟩) body resolved read
  have done := initialise_of_resolved there body found resolved connected skeleton filled
  have there' : ((c.setTarget r (.vault (Archive.Vault.publish ⟨x, c.files⟩ address.card.toNat
      address.signal.toNat values))).setRecord id s).record? id = some s :=
    record?_setRecord_of_some ((record?_setTarget c r _ id).trans there) s
  have still : s.common.initProcess = false :=
    (congrArg (·.common.initProcess) skeleton).trans quiet
  rw [done, processInitially, there']
  simp only [still, Bool.false_and, Bool.false_eq_true, if_false]
  refine ⟨trivial, ?_, s, values, there', skeleton, filled, elements, kept⟩
  simp only [setRecord, setTarget, body]
  rfl

end Starting

end Controller

/-! ## Records that are excepted -/

/-- An array record whose link excepts it from being saved, and whose connection does not save
it. -/
structure Record.Excepted (r : Record) : Prop where
  body : ∃ archive a, r.body = .array archive a
  link : ∃ address, r.link = .hardware address ∧ Archive.excepts address = true
  binding : ∀ b, r.common.binding = .toArchive b → b.persists = false

namespace Record.Excepted
variable {r s : Record} (h : r.Excepted)
include h

theorem of_outline (same : s.outline = r.outline)
    (binding : ∀ b, s.common.binding = .toArchive b → b.persists = false) : s.Excepted := by
  obtain ⟨⟨archive, a, body⟩, ⟨address, link, excepts⟩, -⟩ := h
  have link' : s.link = r.link := congrArg (·.link) same
  have body' : s.body.skeleton = r.body.skeleton := congrArg (·.body) same
  refine ⟨?_, ⟨address, link'.trans link, excepts⟩, binding⟩
  rw [body] at body'
  cases own : s.body with
  | scalar support t => rw [own] at body'; contradiction
  | array archive' a' => exact ⟨archive', a', rfl⟩

theorem of_skeleton (same : s.skeleton = r.skeleton) : s.Excepted :=
  h.of_outline (Record.outline_of_skeleton same) fun b bound =>
    h.binding b ((Record.binding_of_skeleton same).symm.trans bound)

/-- A record that is connected to a variable instead is not saved either. -/
theorem of_bind {b : Variable.Binding} (same : s.skeleton = r.skeleton.bind (.toVariable b)) :
    s.Excepted :=
  h.of_outline (Record.outline_of_bind same) fun b' bound => by
    rw [Record.binding_of_bind same] at bound
    contradiction

/-- A pass writes no file. -/
theorem files_exchange (v : Archive.Vault) : (Archive.exchange r v).target.files = v.files := by
  obtain ⟨⟨archive, a, body⟩, -, binding⟩ := h
  cases bound : r.common.binding with
  | toArchive b =>
    have unwritten : ∀ w : Archive.Vault, w.written? b r.common.name = none := fun w => by
      simp [Archive.Vault.written?, Archive.Vault.reply, Archive.Vault.file?, binding b bound]
    simp only [Archive.exchange, body, bound, Archive.Vault.keep_eq, unwritten]
    rfl
  | _ => simp only [Archive.exchange, body, bound]

end Record.Excepted

namespace Controller

/-- The record with an identity, as long as it is there, is excepted from being saved. -/
def Excepts (c : Controller) (id : RecordId) : Prop := ∀ r, c.record? id = some r → r.Excepted

section Excepts
variable {c d : Controller} {id : RecordId}

/-- **An excepted record writes no file when it is processed.** -/
theorem Excepts.files_process (h : c.Excepts id) : (c.process id).files = c.files := by
  cases there : c.record? id with
  | none => rw [process_of_none there]
  | some r =>
    have excepted := h r there
    obtain ⟨archive, a, body⟩ := excepted.body
    by_cases unbound : r.common.binding = .unbound
    · rw [process_of_unbound there unbound]
    · rw [process_of_record there, Record.target_process_of_bound _ unbound,
        Record.prepare_of_array body]
      cases found : c.archive? archive with
      | none =>
        have target : c.target r = .nothing := by simp only [target, body, found]
        rw [target]
        rfl
      | some x =>
        have target : c.target r = .vault ⟨x, c.files⟩ := by
          simp only [Controller.target, body, found]
        have files := excepted.files_exchange ⟨x, c.files⟩
        rw [target]
        simp only [Target.exchange, setTarget, body, setRecord]
        exact files

theorem Excepts.of_keeps (h : c.Excepts id) (kept : Keeps Record.skeleton c d) : d.Excepts id := by
  intro s hs
  obtain ⟨r, hr, same⟩ := kept.record_before hs
  exact (h r hr).of_skeleton same

theorem Excepts.of_records (h : c.Excepts id) (same : d.records = c.records) : d.Excepts id :=
  h.of_keeps (keeps_of_records same)

theorem Excepts.setRecord (h : c.Excepts id) {j : RecordId} {s : Record}
    (new : j = id → s.Excepted) : (c.setRecord j s).Excepts id := by
  intro q hq
  by_cases own : id = j
  · subst own
    rw [eq_of_record?_setRecord hq]
    exact new rfl
  · rw [record?_setRecord_of_ne c s own] at hq
    exact h q hq

/-- **A record that is excepted stays so when it is connected.** -/
theorem Excepts.initialise (h : c.Excepts id) (j : RecordId) : (c.initialise j).1.Excepts id := by
  intro s hs
  by_cases own : id = j
  · subst own
    obtain ⟨r, there, outline⟩ := (keeps_outline_initialise c id).record_before hs
    obtain ⟨⟨archive, a, body⟩, ⟨address, link, excepts⟩, binding⟩ := h r there
    refine (h r there).of_outline outline fun b bound => ?_
    rcases initialise_cases there body with ⟨e, failed⟩ | ⟨x, info, b', found, resolved⟩
    · rw [failed, record?_setRecord_of_some there] at hs
      obtain rfl := Option.some.inj hs
      exact binding b bound
    · obtain ⟨d, q, a', done, there', -, connected, -⟩ :=
        initialise_of_instance there body found resolved
      rw [done] at hs
      obtain ⟨q', there'', same⟩ := (keeps_skeleton_processInitially d id).record_before hs
      obtain rfl := Option.some.inj (there'.symm.trans there'')
      have bound' := (Record.binding_of_skeleton same).trans connected
      obtain rfl := Binding.toArchive.inj (bound.symm.trans bound')
      rw [Archive.binding_of_resolve resolved link, excepts]
      rfl
  · rw [record?_initialise_of_ne c own] at hs
    exact h s hs

theorem Excepts.bindVariable (h : c.Excepts id) (j : RecordId) (link : Link)
    (choice : Variable.Choice) (output : Bool) :
    (c.bindVariable j link choice output).1.Excepts id := by
  unfold Controller.bindVariable
  split
  · exact h
  · rename_i r hr
    have records := records_resolveVariable c link r choice
    have mine : j = id → r.Excepted := fun own => h r (own ▸ hr)
    split
    · rename_i failed
      rw [failed] at records
      exact (h.of_records records).setRecord fun own =>
        (mine own).of_skeleton (r.skeleton_setActive true)
    · rename_i d b v found
      rw [found] at records
      split
      · exact (h.of_records records).setRecord fun own =>
          (mine own).of_bind (Variable.skeleton_connectOutput b r v)
      · exact (h.of_records records).setRecord fun own =>
          (mine own).of_bind (r.skeleton_bind (.toVariable b))

theorem Excepts.operate (h : c.Excepts id) (op : Operation) : (c.operate op).Excepts id := by
  cases moves : op.connects with
  | false => exact h.of_keeps (keeps_skeleton_operate c moves)
  | true =>
    cases op with
    | initialise j => exact h.initialise j
    | bind j link choice output => exact h.bindVariable j link choice output
    | _ => contradiction

/-- **Whatever happens, an excepted record stays excepted.** -/
theorem Excepts.occur (h : c.Excepts id) (made : id.index < c.records.length) (o : Occurrence) :
    (c.occur o).Excepts id := by
  cases o with
  | operate op => exact h.operate op
  | _ =>
    intro s hs
    obtain ⟨r, hr, same⟩ := skeleton_of_occur (by simp) made hs
    exact (h r hr).of_skeleton same

theorem Excepts.occurAll (h : c.Excepts id) (made : id.index < c.records.length)
    (course : List Occurrence) : (c.occurAll course).Excepts id := by
  induction course generalizing c with
  | nil => exact h
  | cons o rest ih =>
    exact ih (h.occur made o) (Nat.lt_of_lt_of_le made (length_records_occur c o))

end Excepts

/-! ## Starting -/

/-- How an array record starts that is initialised and not to be processed at once.  The elements
are those in its file with zeros behind them; without a file, or if the record is excepted, they
are zeros and the value is as undefined as it was.  No file is changed, and those of an excepted
record are changed by no later pass of it, whatever happens before. -/
structure Starts (c : Controller) (id : RecordId) (r : Record) (archive : ArchiveId) (x : Archive)
    (info : Archive.ArrayInfo) (address : HardwareAddress) : Prop where
  accepted : (c.initialise id).2 = .ok ()
  files : (c.initialise id).1.files = c.files
  fields : ∃ s a, (c.initialise id).1.record? id = some s ∧ s.body = .array archive a ∧
    a.values.length = info.capacity ∧ a.inUse = info.initial ∧ a.written = info.initial ∧
    (∀ content, Archive.excepts address = false →
      Archive.Vault.stored? ⟨x, c.files⟩ r.common.name = some content →
      ∀ i, i < info.capacity → a.values[i]? =
        some (if i < min (content.length / 4) (min info.initial.toNat info.capacity) then
          Archive.element content i else 0)) ∧
    (Archive.excepts address = true ∨ Archive.Vault.stored? ⟨x, c.files⟩ r.common.name = none →
      a.values = List.replicate info.capacity 0 ∧ s.common.undefined = r.common.undefined)
  later : Archive.excepts address = true → ∀ course,
    (((c.initialise id).1.occurAll course).process id).files =
      ((c.initialise id).1.occurAll course).files

section Start
variable {c : Controller} {id : RecordId} {r : Record} {archive : ArchiveId} {x : Archive}
  {info : Archive.ArrayInfo} {address : HardwareAddress}

/-- **Any file is restored.**  An array record that is not connected yet and not to be processed
at once is initialised with success exactly if its link names an instance that the array has room
for; and then it starts with what its file holds, whatever that is. -/
theorem any_file_is_restored (h : c.Waits id r archive x info address)
    (quiet : r.common.initProcess = false) :
    ((c.initialise id).2 = .ok () ↔ info.HasRoom address.signal.toNat) ∧
      (info.HasRoom address.signal.toNat → c.Starts id r archive x info address) := by
  have starts : info.HasRoom address.signal.toNat → c.Starts id r archive x info address := by
    intro room
    obtain ⟨accepted, files, s, values, there, skeleton, body, rfl, kept⟩ :=
      h.initialise quiet room rfl
    refine ⟨accepted, files, ⟨s, _, there, body, ?_, rfl, rfl, ?_, ?_⟩, fun excepts course => ?_⟩
    · rw [ArrayFields.length_overwrite, List.length_replicate]
    · intro content saved stored i inside
      have element := Archive.getElem?_restored info.capacity info.initial content inside
      rw [Archive.restored] at element
      simpa only [saved, stored, Bool.false_eq_true, if_false, Option.getD_some] using element
    · intro nothing
      have none : (if Archive.excepts address then [] else
          ((Archive.Vault.stored? ⟨x, c.files⟩ r.common.name).getD []).take
            (4 * min info.initial.toNat info.capacity)) = [] := by
        rcases nothing with excepts | absent
        · rw [if_pos excepts]
        · rw [absent, Option.getD_none, List.take_nil, ite_self]
      refine ⟨?_, kept none⟩
      rw [none]
      simp [Archive.decode, ArrayFields.overwrite]
    · have excepted : r.Excepted := by
        refine ⟨?_, ⟨address, h.link, excepts⟩, fun b bound => ?_⟩
        · obtain ⟨fields, body⟩ := h.body
          exact ⟨archive, fields, body⟩
        · rw [h.unbound] at bound
          contradiction
      have before : c.Excepts id := fun q hq =>
        Option.some.inj (h.there.symm.trans hq) ▸ excepted
      have made : id.index < (c.initialise id).1.records.length := by
        rw [length_records_initialise]
        exact record?_isSome_lt (by rw [h.there]; rfl)
      exact ((before.initialise id).occurAll made course).files_process
  exact ⟨⟨h.hasRoom, fun room => (starts room).accepted⟩, starts⟩

end Start

/-- The file of the logger holds one element, which is the number one, and two octets of
another. -/
def loggerLeft : Archive.Files := { contents := [("log", [0, 0, 0x80, 0x3f, 1, 2])] }

theorem logger_restored :
    ∃ r, (logger loggerLeft).Waits ⟨0⟩ r ⟨0⟩ { arrays := [⟨1, 3, 2, none⟩] } ⟨1, 3, 2, none⟩
        ⟨0, 0, ""⟩ ∧ r.common.initProcess = false ∧
      ((logger loggerLeft).initialise ⟨0⟩).2 = .ok () ∧
      ∃ s a, ((logger loggerLeft).initialise ⟨0⟩).1.record? ⟨0⟩ = some s ∧
        s.body = .array ⟨0⟩ a ∧ a.values.length = 3 ∧ a.values[0]? = some 0x3f800000 ∧
        a.values[1]? = some 0 ∧ a.values[2]? = some 0 := by
  obtain ⟨r, there⟩ : ∃ r, (logger loggerLeft).record? ⟨0⟩ = some r := ⟨_, rfl⟩
  have waits : (logger loggerLeft).Waits ⟨0⟩ r ⟨0⟩ { arrays := [⟨1, 3, 2, none⟩] }
      ⟨1, 3, 2, none⟩ ⟨0, 0, ""⟩ := by
    obtain rfl := Option.some.inj there
    exact ⟨rfl, ⟨_, rfl⟩, rfl, rfl, rfl, rfl⟩
  have quiet : r.common.initProcess = false := by
    obtain rfl := Option.some.inj there
    rfl
  have named : r.common.name = "log" := by
    obtain rfl := Option.some.inj there
    rfl
  have located : loggerLeft.locate "log" = .ok (.file "log") := by cbv
  have stored : Archive.Vault.stored? ⟨{ arrays := [⟨1, 3, 2, none⟩] }, loggerLeft⟩ r.common.name =
      some [0, 0, 0x80, 0x3f, 1, 2] := by
    simp only [named, Archive.Vault.stored?, Archive.Files.fileAt?_eq_some.2 located]
    rfl
  obtain ⟨accepted, -, ⟨s, a, held, body, length, -, -, elements, -⟩, -⟩ :=
    (any_file_is_restored waits quiet).2 ⟨by decide, by simp⟩
  have element := elements _ (by decide) stored
  exact ⟨r, waits, quiet, accepted, s, a, held, body, length, element 0 (by decide),
    element 1 (by decide), element 2 (by decide)⟩

end Controller

end ControlRecords
