import Mathlib
import ControlRecords.Controller.Initialisation
import ControlRecords.Controller.Registration
import ControlRecords.Proofs.Regions
import ControlRecords.Proofs.Saving

/-! # What a pass reads and writes

A pass writes to the regions of its record, has the record's archive save it if it is an array
record, and replaces the record (`process_eq_writes`).  What it writes and what becomes of the
record is told by the content of these regions and by what the archive's writer answers, so a
write that lies apart from them changes neither (`writes_write`, `after_write`). -/
namespace ControlRecords

/-- What an exchange means to the record. -/
def Pass.outcome {τ : Type} (p : Pass τ) : Record × Except SupportError Transfer :=
  (p.record, p.result)

/-- A change of one element that a map does not show. -/
theorem map_modify_of_same {α β : Type} {f : α → β} {g : α → α} (same : ∀ x, f (g x) = f x)
    (l : List α) (i : Nat) : (l.modify i g).map f = l.map f := by
  refine List.ext_getElem? fun j => ?_
  simp only [List.getElem?_map, List.getElem?_modify]
  cases l[j]? with
  | none => rfl
  | some x => by_cases own : i = j <;> simp [own, same]

/-! ## Registers -/

namespace Register

namespace Binding

/-- The region of the register. -/
def region (b : Binding) : Region :=
  match b.access with
  | .builtin method => .octets b.address method.width
  | .custom _ => .cell b.address

/-- What is written to the register with a word. -/
def written (b : Binding) (word : UInt32) : Write :=
  match b.access with
  | .builtin method => .octets b.address (method.octetsOf word)
  | .custom _ => .cell b.address word

/-- Why the register takes no words, if it takes none. -/
def refusal? (b : Binding) (t : Registers) : Option AccessError :=
  match b.access with
  | .builtin method =>
    match method.check b.address with
    | .ok () => none
    | .error e => some e
  | .custom _ => if t.cells.isLocked b.address then some (.readOnly b.address) else none

@[simp] theorem region_written (b : Binding) (word : UInt32) :
    (b.written word).region = b.region := by
  unfold written region
  split
  · simp only [Write.region, Builtin.length_octetsOf]
  · rfl

end Binding

/-- The word that a pass writes to the register, if it writes one. -/
def outgoing? (b : Binding) (s : Scalar) (t : Registers) : Option UInt32 :=
  if s.isOutput && (b.refusal? t).isNone then
    if s.merges then
      match b.read t with
      | .ok w => some (Bits.merge w s.word s.mask)
      | .error _ => none
    else some s.word
  else none

/-- Writing the register fails, or it changes just the region of the register. -/
theorem Binding.write_cases (b : Binding) (word : UInt32) (c : Controller) :
    (∃ e, b.refusal? c.registers = some e ∧ b.write word c.registers = .error e) ∨
      ∃ t, b.refusal? c.registers = none ∧ b.write word c.registers = .ok t ∧
        c.write (b.written word) = { c with registers := t } := by
  cases access : b.access with
  | builtin method =>
    cases check : method.check b.address with
    | error e =>
      exact Or.inl ⟨e, by simp [Binding.refusal?, access, check],
        by simp [Binding.write, Access.write, Builtin.write, access, check]⟩
    | ok _ =>
      refine Or.inr ⟨_, by simp [Binding.refusal?, access, check],
        by simp only [Binding.write, Access.write, Builtin.write, access, check]; rfl, ?_⟩
      simp only [Binding.written, access]
      rfl
  | custom method =>
    cases locked : c.registers.cells.isLocked b.address with
    | true =>
      exact Or.inl ⟨_, by simp [Binding.refusal?, access, locked]; rfl,
        by simp [Binding.write, Access.write, access, locked]⟩
    | false =>
      refine Or.inr ⟨_, by simp [Binding.refusal?, access, locked],
        by simp [Binding.write, Access.write, access, locked]; rfl, ?_⟩
      simp only [Binding.written, access]
      rfl

/-- A write that lies apart from a register does not show in it. -/
theorem Binding.read_write {b : Binding} (c : Controller) {w : Write}
    (apart : w.region.Apart b.region) :
    b.read (c.write w).registers = b.read c.registers := by
  cases access : b.access with
  | builtin method =>
    simp only [Binding.region, access] at apart
    simp only [Binding.read, access, Access.read, Builtin.read]
    cases w with
    | octets address bytes =>
      simp only [Controller.write, Controller.storeMemory, Memory.load_store_of_apart _ apart]
    | _ => rfl
  | custom method =>
    simp only [Binding.region, access] at apart
    simp only [Binding.read, access, Access.read]
    cases w with
    | cell address word =>
      have ne : b.address ≠ address := Ne.symm apart
      simp only [Controller.write, CellBank.word?_put, ne, if_false]
    | _ => rfl

/-- No write locks a register or unlocks it. -/
theorem Binding.refusal?_write (b : Binding) (c : Controller) (w : Write) :
    b.refusal? (c.write w).registers = b.refusal? c.registers := by
  unfold Binding.refusal?
  split
  · rfl
  · cases w <;> rfl

section Send
variable (b : Binding) (r : Record) (word : UInt32)

theorem outcome_send (c : Controller) :
    (send b r word c.registers).outcome =
      match b.refusal? c.registers with
      | some e => (r.raise .write .invalid, .error (.access e))
      | none => (r, .ok .raw) := by
  rcases b.write_cases word c with ⟨e, refused, failed⟩ | ⟨t, taken, ok, -⟩
  · simp only [send, failed, refused, Pass.outcome]
  · simp only [send, ok, taken, Pass.outcome]

theorem target_send (c : Controller) :
    { c with registers := (send b r word c.registers).target } =
      if (b.refusal? c.registers).isNone then c.write (b.written word) else c := by
  rcases b.write_cases word c with ⟨e, refused, failed⟩ | ⟨t, taken, ok, after⟩
  · simp [send, failed, refused]
  · simp [send, ok, taken, after]

end Send

section Exchange
variable (b : Binding) (s : Scalar) (r : Record) (c : Controller)

/-- The exchange with a register writes one word to it, or nothing. -/
theorem target_exchangeBound :
    { c with registers := (exchangeBound b s r c.registers).target } =
      c.writeAll ((outgoing? b s c.registers).map b.written).toList := by
  unfold exchangeBound outgoing?
  cases refused : (b.refusal? c.registers).isNone <;> cases s.isOutput <;> cases s.merges <;>
    cases b.read c.registers <;> simp [refused, target_send]

variable {b} in
/-- What an exchange means to the record is told by the content of the register. -/
theorem outcome_exchangeBound {w : Write} (apart : w.region.Apart b.region) :
    (exchangeBound b s r (c.write w).registers).outcome =
      (exchangeBound b s r c.registers).outcome := by
  have sent : ∀ r word, (send b r word (c.write w).registers).outcome =
      (send b r word c.registers).outcome := by
    intro r word
    rw [outcome_send, outcome_send, b.refusal?_write c w]
  unfold exchangeBound
  rw [Binding.read_write c apart]
  split
  · exact sent r s.word
  · split
    · rfl
    · split
      · exact sent _ _
      · rfl

variable {b} in
theorem outgoing?_write {w : Write} (apart : w.region.Apart b.region) :
    outgoing? b s (c.write w).registers = outgoing? b s c.registers := by
  simp only [outgoing?, Binding.read_write c apart, b.refusal?_write c w]

end Exchange

end Register

/-! ## Archives -/

namespace Archive

/-- The slice of the storage of its array that an instance is copied to, if there is any:
where it starts and how long it is. -/
def slice? (archive : Archive) (b : Binding) : Option (Nat × Nat) :=
  match archive.arrays[b.array]? with
  | some info =>
    if info.storage.isSome then some (b.slot * info.capacity, info.capacity) else none
  | none => none

/-- The regions that an array record is connected to: a slice of storage and a file. -/
def regions (id : ArchiveId) (b : Binding) (name : String) (v : Vault) : List Region :=
  ((v.archive.slice? b).map fun (start, count) => .slice id b.array start count).toList ++
    ((v.file? b name).map Region.file).toList

/-- What a pass of an array record writes; no file if the writer does not take it. -/
def writes (id : ArchiveId) (b : Binding) (name : String) (a : ArrayFields) (v : Vault) :
    List Write :=
  let values := (padded a b.initial).values
  ((v.archive.slice? b).map fun (start, count) => .slice id b.array start count values).toList ++
    ((v.written? b name).map fun file =>
      Write.file file (encode (values.take (savedCount b.initial values)))).toList

theorem region_writes {id : ArchiveId} {b : Binding} {name : String} {a : ArrayFields}
    {v : Vault} {w : Write} (h : w ∈ writes id b name a v) : w.region ∈ regions id b name v := by
  unfold writes at h
  unfold regions
  rcases List.mem_append.1 h with slice | file
  · obtain ⟨range, found, rfl⟩ := Option.map_eq_some_iff.1 (Option.mem_toList.1 slice)
    exact List.mem_append_left _ (by simp [found, Write.region])
  · obtain ⟨name', written, rfl⟩ := Option.map_eq_some_iff.1 (Option.mem_toList.1 file)
    have own : v.file? b name = some name' := by
      unfold Vault.written? at written
      split at written
      · exact written
      · contradiction
    exact List.mem_append_right _ (by simp [own, Write.region])

/-- Copying an instance to the storage replaces its slice, if there is any. -/
theorem archive_publish (v : Vault) (b : Binding) (values : List UInt32) :
    (v.publish b.array b.slot values).archive =
      match v.archive.slice? b with
      | some (start, count) => v.archive.replace b.array start count values
      | none => v.archive := by
  simp only [Vault.publish, slice?, replace, List.modify_eq_set_getElem?]
  cases found : v.archive.arrays[b.array]? with
  | none => rfl
  | some info =>
    obtain ⟨instances, capacity, initial, storage⟩ := info
    cases storage with
    | some storage => rfl
    | none =>
      obtain ⟨lt, here⟩ := List.getElem?_eq_some_iff.1 found
      have kept : v.archive.arrays.set b.array ⟨instances, capacity, initial, none⟩ =
          v.archive.arrays := by
        rw [← here, List.set_getElem_self]
      exact congrArg (Archive.mk · v.archive.hasDirectory v.archive.writer) kept

/-- What an exchange with an archive means to the record is told by what the writer answers. -/
theorem outcome_exchange {r : Record} {id : ArchiveId} {a : ArrayFields} {b : Binding}
    (body : r.body = .array id a) (bound : r.common.binding = .toArchive b) (v : Vault) :
    (exchange r v).outcome = ({ r with body := .array id (padded a b.initial) },
      ((v.reply b).mapError .archive).map fun _ => .raw) := by
  simp only [exchange, body, bound, Vault.keep_eq, Pass.outcome]
  rfl

/-- Two states of an archive look alike to the records that are connected to it. -/
structure Alike (archive other : Archive) : Prop where
  directory : other.hasDirectory = archive.hasDirectory
  slice : ∀ b, other.slice? b = archive.slice? b

theorem Alike.refl (archive : Archive) : Alike archive archive := ⟨rfl, fun _ => rfl⟩

theorem alike_replace (archive : Archive) (array start count : Nat) (elements : List UInt32) :
    Alike archive (archive.replace array start count elements) := by
  refine ⟨rfl, fun b => ?_⟩
  simp only [slice?, replace, List.getElem?_modify]
  cases archive.arrays[b.array]? with
  | none => rfl
  | some info =>
    by_cases same : array = b.array
    · simp [same, ArrayInfo.replace]
    · simp [same]

theorem alike_asked (archive : Archive) (b : Binding) : Alike archive (archive.asked b) := by
  unfold asked
  split <;> exact ⟨rfl, fun _ => rfl⟩

section Alike
variable {archive other : Archive} (alike : Alike archive other) {f g : Files}
  (room : g.directoryRoom = f.directoryRoom) (id : ArchiveId) (b : Binding) (name : String)
include alike room

theorem Alike.file? : Vault.file? ⟨other, g⟩ b name = Vault.file? ⟨archive, f⟩ b name := by
  unfold Vault.file? Vault.reaches
  rw [alike.directory, Files.fileAt?_congr room]

theorem Alike.regions : regions id b name ⟨other, g⟩ = regions id b name ⟨archive, f⟩ := by
  simp only [Archive.regions, alike.slice, alike.file? room b name]

theorem Alike.writes (reply : Vault.reply ⟨other, g⟩ b = Vault.reply ⟨archive, f⟩ b)
    (a : ArrayFields) : writes id b name a ⟨other, g⟩ = writes id b name a ⟨archive, f⟩ := by
  simp only [Archive.writes, alike.slice, Vault.written?, reply, alike.file? room b name]

end Alike

end Archive

/-! ## Passes -/

/-- What becomes of a record in a pass is told by what the exchange means to it. -/
theorem Record.process_congr {r : Record} {t t' : Target}
    (same : (Target.exchange r.prepare t).outcome = (Target.exchange r.prepare t').outcome) :
    (r.process Target.exchange t).1 = (r.process Target.exchange t').1 := by
  obtain ⟨record, result⟩ := Prod.mk.inj same
  simp only [process, record, result]
  split
  · split <;> rfl
  · rfl

/-- The scalar fields of a record that is about to exchange its value. -/
theorem Record.body_prepare {r : Record} {support : ScalarSupport} {s : Scalar}
    (body : r.body = .scalar support s) : ∃ t, r.prepare.body = .scalar support t := by
  unfold prepare
  split
  · exact ⟨s.toRaw, by simp [body, Body.toRaw, Body.mapScalar]⟩
  · exact ⟨s, body⟩

/-- An array record has no raw value that would have to be worked out. -/
theorem Record.prepare_of_array {r : Record} {id : ArchiveId} {a : ArrayFields}
    (body : r.body = .array id a) : r.prepare = r := by
  obtain ⟨common, link, _⟩ := r
  obtain rfl : _ = Body.array id a := body
  unfold prepare
  split <;> rfl

namespace Controller

/-- The regions that a record is connected to. -/
def regions (c : Controller) (r : Record) : List Region :=
  match r.body, r.common.binding with
  | .scalar .registers _, .toRegister b => [b.region]
  | .scalar .shared _, .toVariable b => [.shared b.target]
  | .array id _, .toArchive b =>
    match c.archive? id with
    | some archive => Archive.regions id b r.common.name ⟨archive, c.files⟩
    | none => []
  | _, _ => []

/-- What the next pass of a record writes. -/
def writes (c : Controller) (r : Record) : List Write :=
  match r.prepare.body, r.common.binding with
  | .scalar .registers s, .toRegister b =>
    ((Register.outgoing? b s c.registers).map b.written).toList
  | .scalar .shared _, .toVariable b =>
    match c.variableAt? b.target with
    | some v => [.shared b.target (variableAfter r v)]
    | none => []
  | .array id a, .toArchive b =>
    match c.archive? id with
    | some archive => Archive.writes id b r.common.name a ⟨archive, c.files⟩
    | none => []
  | _, _ => []

/-- The writer's answer in the next pass of a record; nothing is wrong if nothing is asked. -/
def reply (c : Controller) (r : Record) : Except Archive.ArchiveError Unit :=
  match r.body, r.common.binding with
  | .array id _, .toArchive b =>
    match c.archive? id with
    | some archive => Archive.Vault.reply ⟨archive, c.files⟩ b
    | none => .ok ()
  | _, _ => .ok ()

/-- The state after the writer behind a record was asked to save it. -/
def asked (c : Controller) (r : Record) : Controller :=
  match r.body, r.common.binding with
  | .array id _, .toArchive b => { c with archives := c.archives.modify id.index (·.asked b) }
  | _, _ => c

/-- What becomes of a record in its next pass. -/
def after (c : Controller) (r : Record) : Record := (r.process Target.exchange (c.target r)).1

/-- How a record is connected. -/
inductive Route (r : Record) : Prop where
  | register {s : Scalar} {b : Register.Binding} (body : r.body = .scalar .registers s)
      (bound : r.common.binding = .toRegister b)
  | variable {s : Scalar} {b : Variable.Binding} (body : r.body = .scalar .shared s)
      (bound : r.common.binding = .toVariable b)
  | archive {id : ArchiveId} {a : ArrayFields} {b : Archive.Binding}
      (body : r.body = .array id a) (bound : r.common.binding = .toArchive b)
  | nowhere {e : SupportError} (writes : ∀ c : Controller, c.writes r = [])
      (asked : ∀ c : Controller, c.asked r = c)
      (exchange : ∀ c : Controller,
        Target.exchange r.prepare (c.target r) = ⟨r.prepare, c.target r, .error e⟩)

theorem route (r : Record) : Route r := by
  have common := r.common_prepare
  cases body : r.body with
  | scalar support s =>
    obtain ⟨t, prepared⟩ := Record.body_prepare body
    cases support with
    | registers =>
      cases bound : r.common.binding with
      | toRegister b => exact .register body bound
      | _ =>
        refine .nowhere (e := .notInitialized) (fun c => ?_) (fun c => ?_) (fun c => ?_)
        · simp [writes, prepared, bound]
        · simp [asked, body]
        · simp [target, body, Target.exchange, Register.exchange, prepared, bound]
    | shared =>
      cases bound : r.common.binding with
      | toVariable b => exact .variable body bound
      | _ =>
        refine .nowhere (e := .shared .notBound) (fun c => ?_) (fun c => ?_) (fun c => ?_)
        · simp [writes, prepared, bound]
        · simp [asked, body]
        · simp [target, body, Target.exchange, prepared, bound, Body.disconnected]
  | array id a =>
    have prepared := Record.prepare_of_array body
    cases bound : r.common.binding with
    | toArchive b => exact .archive body bound
    | _ =>
      refine .nowhere (e := .archive .notConnected) (fun c => ?_) (fun c => ?_) (fun c => ?_)
      · simp [writes, prepared, body, bound]
      · simp [asked, body, bound]
      · cases found : c.archive? id with
        | none => simp [target, body, found, Target.exchange, prepared, Body.disconnected]
        | some archive =>
          simp [target, body, found, Target.exchange, Archive.exchange, prepared, bound]

/-- **An exchange with an archive writes the slice and the file of the record.** -/
theorem setTarget_exchange {c : Controller} {r : Record} {id : ArchiveId} {a : ArrayFields}
    {b : Archive.Binding} {archive : Archive} (body : r.body = .array id a)
    (bound : r.common.binding = .toArchive b) (found : c.archive? id = some archive) :
    c.setTarget r (.vault (Archive.exchange r ⟨archive, c.files⟩).target) =
      (c.writeAll (Archive.writes id b r.common.name a ⟨archive, c.files⟩)).asked r := by
  let values := (Archive.padded a b.initial).values
  let published := Archive.Vault.publish ⟨archive, c.files⟩ b.array b.slot values
  have lt : id.index < c.archives.length := (List.getElem?_eq_some_iff.1 found).1
  have there : c.archives[id.index]? = some archive := found
  have slice : c.writeAll ((archive.slice? b).map fun (start, count) =>
        Write.slice id b.array start count values).toList =
      { c with archives := c.archives.set id.index published.archive } := by
    have stored : published.archive = _ := Archive.archive_publish ⟨archive, c.files⟩ b values
    rw [stored]
    cases archive.slice? b with
    | none =>
      have kept : c.archives.set id.index archive = c.archives := by
        rw [← (List.getElem?_eq_some_iff.1 there).2, List.set_getElem_self]
      exact congrArg ({ c with archives := · }) kept.symm
    | some range =>
      have replaced : c.archives.modify id.index (·.replace b.array range.1 range.2 values) =
          c.archives.set id.index (archive.replace b.array range.1 range.2 values) := by
        rw [List.modify_eq_set_getElem?, there]
        rfl
      exact congrArg ({ c with archives := · }) replaced
  have asked : (c.archives.set id.index published.archive).modify id.index (·.asked b) =
      c.archives.set id.index (published.archive.asked b) := by
    rw [List.modify_eq_set_getElem?, List.getElem?_set_self lt]
    exact List.set_set ..
  have file : published.written? b r.common.name =
      Archive.Vault.written? ⟨archive, c.files⟩ b r.common.name := rfl
  simp only [Archive.exchange, body, bound, Archive.Vault.keep_eq, setTarget, Archive.writes,
    writeAll_append, Controller.asked]
  rw [slice, file, ← asked]
  cases Archive.Vault.written? ⟨archive, c.files⟩ b r.common.name <;> rfl

/-- **A pass writes what it writes, has its record saved, and replaces it.** -/
theorem process_eq_writes {c : Controller} {id : RecordId} {r : Record}
    (h : c.record? id = some r) :
    c.process id = ((c.writeAll (c.writes r)).asked r).setRecord id (c.after r) := by
  have common := r.common_prepare
  -- What is left to show of a connected record is what the exchange does to the state.
  have connected (bound : r.common.binding ≠ .unbound)
      (moved : c.setTarget r (Target.exchange r.prepare (c.target r)).target =
        (c.writeAll (c.writes r)).asked r) :
      c.process id = ((c.writeAll (c.writes r)).asked r).setRecord id (c.after r) := by
    rw [process_of_record h, Record.target_process_of_bound _ bound, moved]
    rfl
  cases route r with
  | register body bound =>
    obtain ⟨t, prepared⟩ := Record.body_prepare body
    refine connected (by simp [bound]) ?_
    simp only [target, body, Target.exchange, Register.exchange, prepared, common, bound,
      setTarget, writes, asked]
    exact Register.target_exchangeBound ..
  | «variable» body bound =>
    obtain ⟨t, prepared⟩ := Record.body_prepare body
    rename_i b
    cases there : c.variableAt? b.target with
    | some v =>
      rw [process_of_shared h body bound there]
      simp [writes, asked, body, prepared, bound, there, write, after,
        target_of_shared body bound there]
    | none =>
      refine connected (by simp [bound]) ?_
      simp [target, asked, body, bound, there, Target.exchange, setTarget, writes, prepared]
  | archive body bound =>
    have prepared := Record.prepare_of_array body
    rename_i archive a b
    refine connected (by simp [bound]) ?_
    rw [prepared]
    cases found : c.archive? archive with
    | none =>
      have absent : c.archives.length ≤ archive.index := List.getElem?_eq_none_iff.1 found
      simp [target, asked, body, found, Target.exchange, setTarget, writes, prepared, bound,
        List.modify_eq_self absent]
    | some x =>
      simp only [target, body, found, Target.exchange, writes, prepared, bound]
      exact setTarget_exchange body bound found
  | nowhere writes asked exchange =>
    by_cases bound : r.common.binding = .unbound
    · have kept : c.after r = r := by rw [after, Record.process_of_unbound _ _ bound]
      rw [writes, writeAll_nil, asked, kept, setRecord_self h, process_of_unbound h bound]
    · refine connected bound ?_
      rw [exchange c, writes, writeAll_nil, asked, setTarget_target]

/-- A pass writes to the regions of its record. -/
theorem region_writes {c : Controller} {r : Record} {w : Write} (h : w ∈ c.writes r) :
    w.region ∈ c.regions r := by
  cases route r with
  | register body bound =>
    obtain ⟨t, prepared⟩ := Record.body_prepare body
    simp only [writes, prepared, bound, Option.mem_toList, Option.map_eq_some_iff] at h
    obtain ⟨word, -, rfl⟩ := h
    simp [regions, body, bound]
  | «variable» body bound =>
    obtain ⟨t, prepared⟩ := Record.body_prepare body
    rename_i b
    cases there : c.variableAt? b.target with
    | none => simp [writes, prepared, bound, there] at h
    | some v =>
      obtain rfl : w = .shared b.target (variableAfter r v) := by
        simpa [writes, prepared, bound, there] using h
      simp [regions, body, bound, Write.region]
  | archive body bound =>
    have prepared := Record.prepare_of_array body
    rename_i archive a b
    cases found : c.archive? archive with
    | none => simp [writes, prepared, body, bound, found] at h
    | some x =>
      simp only [writes, prepared, body, bound, found] at h
      simp only [regions, body, bound, found]
      exact Archive.region_writes h
  | nowhere writes _ _ => simp [writes c] at h

/-! ## States that look alike to a record -/

/-- Each archive and the directory look in `d` as in `c` to the records that are connected. -/
structure Alike (c d : Controller) : Prop where
  room : d.files.directoryRoom = c.files.directoryRoom
  none : ∀ id, c.archive? id = none → d.archive? id = none
  some : ∀ id archive, c.archive? id = some archive →
    ∃ other, d.archive? id = some other ∧ archive.Alike other

theorem Alike.refl (c : Controller) : c.Alike c :=
  ⟨rfl, fun _ h => h, fun _ archive h => ⟨archive, h, .refl archive⟩⟩

theorem Alike.trans {c d e : Controller} (h : c.Alike d) (g : d.Alike e) : c.Alike e := by
  refine ⟨g.room.trans h.room, fun id absent => g.none id (h.none id absent), ?_⟩
  intro id archive found
  obtain ⟨x, found', alike⟩ := h.some id archive found
  obtain ⟨y, found'', alike'⟩ := g.some id x found'
  exact ⟨y, found'', alike'.directory.trans alike.directory,
    fun b => (alike'.slice b).trans (alike.slice b)⟩

/-- One archive is replaced by one that looks alike. -/
theorem alike_modify (c : Controller) (i : Nat) {f : Archive → Archive}
    (h : ∀ archive : Archive, archive.Alike (f archive)) :
    c.Alike { c with archives := c.archives.modify i f } := by
  refine ⟨rfl, fun id absent => ?_, fun id archive found => ?_⟩
  · have absent : c.archives[id.index]? = Option.none := absent
    simp [archive?, List.getElem?_modify, absent]
  · have found : c.archives[id.index]? = Option.some archive := found
    by_cases same : i = id.index
    · exact ⟨f archive, by simp [archive?, same, found], h archive⟩
    · exact ⟨archive, by simp [archive?, same, found], .refl archive⟩

theorem alike_write (c : Controller) (w : Write) : c.Alike (c.write w) := by
  cases w with
  | slice id array start count elements =>
    exact c.alike_modify id.index fun x => Archive.alike_replace x array start count elements
  | _ => exact ⟨rfl, fun _ h => h, fun _ archive h => ⟨archive, h, .refl archive⟩⟩

theorem alike_writeAll (c : Controller) (ws : List Write) : c.Alike (c.writeAll ws) := by
  induction ws generalizing c with
  | nil => exact .refl c
  | cons w rest ih => exact (alike_write c w).trans (ih _)

theorem alike_asked (c : Controller) (r : Record) : c.Alike (c.asked r) := by
  unfold asked
  split
  · exact c.alike_modify _ fun x => Archive.alike_asked x _
  · exact .refl c

/-- **Nothing looks different after a pass.** -/
theorem alike_process (c : Controller) (id : RecordId) : c.Alike (c.process id) := by
  cases h : c.record? id with
  | none =>
    rw [process_of_none h]
    exact .refl c
  | some r =>
    have passed := (alike_writeAll c (c.writes r)).trans (alike_asked _ r)
    rw [process_eq_writes h]
    exact ⟨passed.room, passed.none, passed.some⟩

/-- To which regions a record is connected is the same in states that look alike. -/
theorem Alike.regions {c d : Controller} (h : c.Alike d) (r : Record) :
    d.regions r = c.regions r := by
  unfold Controller.regions
  split
  · rfl
  · rfl
  · rename_i id a b _ _
    cases found : c.archive? id with
    | none => rw [h.none id found]
    | some x =>
      obtain ⟨y, found', alike⟩ := h.some id x found
      rw [found']
      exact alike.regions h.room id b r.common.name
  · rfl

section Saved
variable {c d : Controller} (h : c.Alike d) {r : Record} (reply : d.reply r = c.reply r)
  {id : ArchiveId} {a : ArrayFields} {b : Archive.Binding} (body : r.body = .array id a)
  (bound : r.common.binding = .toArchive b)
include h reply body bound

/-- What is written of an array record is the same if the writer answers the same. -/
theorem Alike.writes : d.writes r = c.writes r := by
  have prepared := Record.prepare_of_array body
  simp only [Controller.writes, prepared, body, bound]
  cases found : c.archive? id with
  | none => rw [h.none id found]
  | some x =>
    obtain ⟨y, found', alike⟩ := h.some id x found
    simp only [Controller.reply, body, bound, found, found'] at reply
    rw [found']
    exact alike.writes h.room id b r.common.name reply a

/-- And so is what becomes of it. -/
theorem Alike.after : d.after r = c.after r := by
  have prepared := Record.prepare_of_array body
  refine Record.process_congr ?_
  simp only [target, body, prepared]
  cases found : c.archive? id with
  | none => rw [h.none id found]
  | some x =>
    obtain ⟨y, found', -⟩ := h.some id x found
    simp only [Controller.reply, body, bound, found, found'] at reply
    rw [found']
    have outcome := Archive.outcome_exchange body bound
    exact (outcome _).trans ((by rw [reply] : _ = _).trans (outcome _).symm)

end Saved

/-! ## Passes after a write elsewhere -/

/-- The writers of the archives. -/
def writers (c : Controller) : List Archive.Writer := c.archives.map (·.writer)

/-- No write is one to a writer. -/
@[simp] theorem writers_write (c : Controller) (w : Write) : (c.write w).writers = c.writers := by
  cases w with
  | slice id array start count elements =>
    have kept : ∀ x : Archive, (x.replace array start count elements).writer = x.writer :=
      fun _ => rfl
    exact map_modify_of_same kept c.archives _
  | _ => rfl

@[simp] theorem writers_writeAll (c : Controller) (ws : List Write) :
    (c.writeAll ws).writers = c.writers := by
  induction ws generalizing c with
  | nil => rfl
  | cons w rest ih => rw [writeAll_cons, ih, writers_write]

/-- What the writer answers is up to the writers only. -/
theorem reply_congr {c d : Controller} (same : d.writers = c.writers) (r : Record) :
    d.reply r = c.reply r := by
  have writer : ∀ id, (d.archive? id).map (·.writer) = (c.archive? id).map (·.writer) := by
    intro id
    simpa [writers, archive?] using congrArg (·[id.index]?) same
  unfold reply
  split
  · rename_i id _ b _ _
    have same := writer id
    cases found : c.archive? id with
    | none =>
      rw [found, Option.map_none, Option.map_eq_none_iff] at same
      rw [same]
    | some x =>
      rw [found, Option.map_some, Option.map_eq_some_iff] at same
      obtain ⟨y, found', same⟩ := same
      simp only [found', Archive.Vault.reply, same]
  · rfl

/-- A write to the region of no variable, or to another one, leaves a variable alone. -/
theorem variableAt?_write_of_apart (c : Controller) {w : Write} {v : VariableId}
    (apart : w.region.Apart (.shared v)) : (c.write w).variableAt? v = c.variableAt? v := by
  cases w with
  | shared id x => exact variableAt?_setVariable_of_ne c x (Ne.symm apart)
  | _ => rfl

section Frame
variable {c : Controller} {r : Record} {w : Write}
  (apart : ∀ p ∈ c.regions r, w.region.Apart p)
include apart

/-- **A write that lies apart from a record does not change what its next pass writes.** -/
theorem writes_write : (c.write w).writes r = c.writes r := by
  cases route r with
  | register body bound =>
    obtain ⟨t, prepared⟩ := Record.body_prepare body
    have apart := apart _ (by simp [regions, body, bound]; rfl)
    simp only [writes, prepared, bound, Register.outgoing?_write t c apart]
  | «variable» body bound =>
    obtain ⟨t, prepared⟩ := Record.body_prepare body
    have apart := apart _ (by simp [regions, body, bound]; rfl)
    simp only [writes, prepared, bound, variableAt?_write_of_apart c apart]
  | archive body bound =>
    exact (alike_write c w).writes (reply_congr (writers_write c w) r) body bound
  | nowhere writes _ _ => rw [writes, writes]

/-- **A write that lies apart from a record does not change what becomes of it.** -/
theorem after_write : (c.write w).after r = c.after r := by
  cases route r with
  | register body bound =>
    obtain ⟨t, prepared⟩ := Record.body_prepare body
    have common := r.common_prepare
    have apart := apart _ (by simp [regions, body, bound]; rfl)
    have same := Register.outcome_exchangeBound t r.prepare c apart
    refine Record.process_congr ?_
    simp only [target, body, Target.exchange, Register.exchange, prepared, common, bound]
    exact same
  | «variable» body bound =>
    have apart := apart _ (by simp [regions, body, bound]; rfl)
    refine Record.process_congr ?_
    simp only [target, body, bound, variableAt?_write_of_apart c apart]
  | archive body bound =>
    exact (alike_write c w).after (reply_congr (writers_write c w) r) body bound
  | nowhere _ _ exchange =>
    refine Record.process_congr ?_
    rw [exchange, exchange]
    rfl

end Frame

section Frames
variable {c : Controller} {r : Record} {ws : List Write}
  (apart : ∀ w ∈ ws, ∀ p ∈ c.regions r, w.region.Apart p)
include apart

/-- What no write apart from a record changes, several of them do not change either. -/
theorem writeAll_frame {α : Type} (view : Controller → α)
    (frame : ∀ (c : Controller) (w : Write),
      (∀ p ∈ c.regions r, w.region.Apart p) → view (c.write w) = view c) :
    view (c.writeAll ws) = view c := by
  induction ws generalizing c with
  | nil => rfl
  | cons w rest ih =>
    have later : ∀ x ∈ rest, ∀ p ∈ (c.write w).regions r, x.region.Apart p := by
      rw [(alike_write c w).regions]
      exact fun x hx => apart x (List.mem_cons_of_mem w hx)
    rw [writeAll_cons, ih later, frame c w (apart w List.mem_cons_self)]

theorem writes_writeAll : (c.writeAll ws).writes r = c.writes r :=
  writeAll_frame apart (·.writes r) fun _ _ => writes_write

theorem after_writeAll : (c.writeAll ws).after r = c.after r :=
  writeAll_frame apart (·.after r) fun _ _ => after_write

end Frames

end Controller

end ControlRecords
