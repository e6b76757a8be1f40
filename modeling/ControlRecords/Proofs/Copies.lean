import Mathlib
import ControlRecords.Proofs.Regions
import ControlRecords.Proofs.Saving

/-! # Copies in range

What the support of array records copies are slices: the elements that a client writes, the
elements that are set to zero and those that are saved, and the slice of the driver's storage
that belongs to an instance.  Each of these steps is stated here once more in a form that
yields nothing if an index is out of range (`window?`, `copyInto?`).  A record is connected only
to an instance for which its array has room, so that both forms agree when it is connected and
ever after (`connect?_eq_some`, `exchange?_eq_some`). -/
namespace ControlRecords

namespace Archive

/-- So many elements from an index on. -/
def window (values : List UInt32) (start count : Nat) : List UInt32 :=
  (values.drop start).take count

section Window
variable {s xs ys : List UInt32} {start : Nat}

theorem getElem?_window (s : List UInt32) (start count i : Nat) :
    (window s start count)[i]? = if i < count then s[start + i]? else none := by
  rw [window, List.getElem?_take, List.getElem?_drop]

/-- What was put in place of elements is found there. -/
theorem window_replaceAt_self (fits : start + xs.length ≤ s.length) :
    window (replaceAt s start xs) start xs.length = xs := by
  apply List.ext_getElem?
  intro i
  rw [getElem?_window]
  by_cases inside : i < xs.length
  · rw [if_pos inside, getElem?_replaceAt, if_pos (by omega), Nat.add_sub_cancel_left]
  · rw [if_neg inside, List.getElem?_eq_none (Nat.le_of_not_lt inside)]

/-- A window is as the elements in it are. -/
theorem window_congr {t : List UInt32} {b n : Nat}
    (same : ∀ i, b ≤ i → i < b + n → s[i]? = t[i]?) : window s b n = window t b n := by
  apply List.ext_getElem?
  intro i
  rw [getElem?_window, getElem?_window]
  by_cases inside : i < n
  · rw [if_pos inside, if_pos inside, same (b + i) (by omega) (by omega)]
  · rw [if_neg inside, if_neg inside]

/-- Of two replacements of the same elements the last one counts. -/
theorem replaceAt_replaceAt (length : ys.length = xs.length) :
    replaceAt (replaceAt s start xs) start ys = replaceAt s start ys := by
  apply List.ext_getElem?
  intro i
  rw [getElem?_replaceAt, getElem?_replaceAt, getElem?_replaceAt, length_replaceAt, length]
  split
  · rfl
  · rfl

theorem replaceAt_zero (values new : List UInt32) :
    replaceAt values 0 new = ArrayFields.overwrite values new := by
  rw [replaceAt, List.take_zero, List.nil_append, List.drop_zero]

/-- Replacing the first elements goes as far as there are elements. -/
theorem replaceAt_zero_take (values new : List UInt32) :
    replaceAt values 0 (new.take (min new.length values.length)) =
      ArrayFields.overwrite values new := by
  rw [← replaceAt_zero]
  apply List.ext_getElem?
  intro i
  rw [getElem?_replaceAt, getElem?_replaceAt, List.length_take, List.getElem?_take]
  by_cases inside : i < new.length ∧ i < values.length
  · rw [if_pos (by omega), if_pos (by omega), if_pos (by omega)]
  · rw [if_neg (by omega), if_neg (by omega)]

/-- What lies behind the elements in use is set to zero. -/
theorem replaceAt_replicate {values : List UInt32} {written count : Nat} (low : written ≤ count)
    (high : count ≤ values.length) :
    replaceAt values written (List.replicate (count - written) 0) =
      values.take written ++ List.replicate (count - written) 0 ++ values.drop count := by
  have room : count - written ≤ values.length - written := by omega
  rw [replaceAt, ArrayFields.overwrite, List.length_drop, List.take_replicate,
    Nat.min_eq_right room, List.length_replicate, List.drop_drop, Nat.add_sub_cancel' low,
    List.append_assoc]

end Window

/-! ## Copying with a check of the range -/

/-- The elements between two indices, nothing if an index is out of range. -/
def window? (values : List UInt32) (start stop : Nat) : Option (List UInt32) :=
  if start ≤ stop ∧ stop ≤ values.length then some (window values start (stop - start)) else none

/-- The elements between two indices replaced by as many others, nothing if an index is out of
range or the numbers differ. -/
def copyInto? (values : List UInt32) (start stop : Nat) (source : List UInt32) :
    Option (List UInt32) :=
  if start ≤ stop ∧ stop ≤ values.length ∧ source.length = stop - start then
    some (replaceAt values start source)
  else none

/-- As `publish`, with a check of the range. -/
def ArrayInfo.publish? (info : ArrayInfo) (slot : Nat) (values : List UInt32) :
    Option ArrayInfo :=
  match info.storage with
  | none => some info
  | some storage => do
    let start := slot * info.capacity
    let count := min values.length info.capacity
    let source ← window? values 0 count
    let storage ← copyInto? storage start (start + count) source
    some { info with storage := some storage }

/-- As `publish`, with a check of the range. -/
def Vault.publish? (v : Vault) (array slot : Nat) (values : List UInt32) : Option Vault :=
  match v.archive.arrays[array]? with
  | none => some v
  | some info => (info.publish? slot values).map fun info =>
      { v with archive := { v.archive with arrays := v.archive.arrays.set array info } }

/-- As `padded`, with a check of the range. -/
def padded? (a : ArrayFields) (initial : UInt32) : Option ArrayFields := do
  let count := savedCount initial a.values
  let written := min a.inUse.toNat count
  let values ← copyInto? a.values written count (List.replicate (count - written) 0)
  some { values, inUse := initial, written := UInt32.ofNat written }

/-- As `exchange`, with a check of each range. -/
def exchange? (r : Record) (v : Vault) : Option (Pass Vault) :=
  match r.body, r.common.binding with
  | .array archive a, .toArchive b => do
    let a ← padded? a b.initial
    let v ← v.publish? b.array b.slot a.values
    let saved ← window? a.values 0 (savedCount b.initial a.values)
    let (v, result) := v.keep b r.common.name (encode saved)
    some ⟨{ r with body := .array archive a }, v,
      (result.mapError .archive).map fun _ => .raw⟩
  | _, _ => some ⟨r, v, .error (.archive .notConnected)⟩

/-- As `connect`, with a check of each range. -/
def connect? (archive : ArchiveId) (r : Record) (v : Vault) :
    Option (Record × Vault × Except ArchiveError Unit) :=
  match resolve v.archive r with
  | .error e => some (r, v, .error e)
  | .ok (info, b) =>
    let fields : ArrayFields :=
      { values := List.replicate info.capacity 0, inUse := info.initial, written := info.initial }
    let count := 4 * savedCount b.initial fields.values
    let bytes := if b.persists then v.saved r.common.name count else []
    if bytes.length ≤ count then do
      let r := fill r fields archive bytes
      let values := match r.body with
        | .array _ a => a.values
        | .scalar _ _ => []
      let v ← v.publish? b.array b.slot values
      some (r.bind (.toArchive b), v, .ok ())
    else none

end Archive

/-- As `put`, with a check of the range. -/
def ArrayFields.put? (a : ArrayFields) (new : List UInt32) : Option ArrayFields := do
  let count := min new.length a.values.length
  let source ← Archive.window? new 0 count
  let values ← Archive.copyInto? a.values 0 count source
  some { a with values, inUse := UInt32.ofNat count }

/-- **What a client writes is always in range.** -/
theorem ArrayFields.put?_eq_some (a : ArrayFields) (new : List UInt32) :
    a.put? new = some (a.put new) := by
  have length : (new.take (min new.length a.values.length)).length =
      min new.length a.values.length := by
    rw [List.length_take]
    omega
  have source : Archive.window? new 0 (min new.length a.values.length) =
      some (new.take (min new.length a.values.length)) := by
    rw [Archive.window?, if_pos (by omega)]
    rfl
  have values : Archive.copyInto? a.values 0 (min new.length a.values.length)
      (new.take (min new.length a.values.length)) = some (overwrite a.values new) := by
    rw [Archive.copyInto?, if_pos (by omega), Archive.replaceAt_zero_take]
  simp only [put?, source, values, Option.bind_eq_bind, Option.bind_some]
  rfl

namespace Archive

/-- What a short write left over is always in range. -/
theorem padded?_eq_some (a : ArrayFields) (initial : UInt32) :
    padded? a initial = some (padded a initial) := by
  have high : savedCount initial a.values ≤ a.values.length := Nat.min_le_right ..
  have low : min a.inUse.toNat (savedCount initial a.values) ≤ savedCount initial a.values :=
    Nat.min_le_right ..
  have values : copyInto? a.values (min a.inUse.toNat (savedCount initial a.values))
      (savedCount initial a.values)
      (List.replicate (savedCount initial a.values -
        min a.inUse.toNat (savedCount initial a.values)) 0) =
      some (padded a initial).values := by
    rw [copyInto?, if_pos ⟨low, high, List.length_replicate⟩, replaceAt_replicate low high]
    rfl
  simp only [padded?, values, Option.bind_eq_bind, Option.bind_some]
  rfl

/-- The array has the instance, and its storage has room for all instances. -/
structure ArrayInfo.HasRoom (info : ArrayInfo) (slot : Nat) : Prop where
  valid : slot < info.instances
  roomy : ∀ storage, info.storage = some storage →
    info.instances * info.capacity ≤ storage.length

/-- Where the range of an instance ends. -/
theorem end_le_of_lt {slot instances capacity : Nat} (h : slot < instances) :
    slot * capacity + capacity ≤ instances * capacity := by
  rw [← Nat.succ_mul]
  exact Nat.mul_le_mul_right capacity h

/-- **The range of an instance lies in the storage if the storage has room for all.** -/
theorem ArrayInfo.publish?_eq_some {info : ArrayInfo} {slot : Nat} (values : List UInt32)
    (room : info.HasRoom slot) :
    info.publish? slot values = some (info.publish slot values) := by
  cases stored : info.storage with
  | none =>
    obtain ⟨instances, capacity, initial, storage⟩ := info
    obtain rfl : storage = none := stored
    rfl
  | some storage =>
    have within : slot * info.capacity + info.capacity ≤ storage.length :=
      Nat.le_trans (end_le_of_lt room.valid) (room.roomy storage stored)
    have source : window? values 0 (min values.length info.capacity) =
        some (values.take info.capacity) := by
      rw [window?, if_pos (by omega), window, List.drop_zero, Nat.sub_zero]
      exact congrArg some (List.take_eq_take_iff.2 (by omega))
    have length : (values.take info.capacity).length = min values.length info.capacity := by
      rw [List.length_take, Nat.min_comm]
    simp only [publish?, publish, stored, source, copyInto?, Option.bind_eq_bind, Option.bind_some,
      Option.map_some]
    rw [if_pos (by omega), Option.bind_some]

/-- The binding is to an instance that its array has room for. -/
def Binding.Fits (b : Binding) (a : Archive) : Prop :=
  ∀ info, a.arrays[b.array]? = some info → info.HasRoom b.slot

/-- Copying to the storage keeps the room that there is. -/
theorem Binding.Fits.publish {b : Binding} {v : Vault} (h : b.Fits v.archive) (array slot : Nat)
    (values : List UInt32) : b.Fits (v.publish array slot values).archive := by
  intro info there
  simp only [Vault.publish, List.getElem?_modify] at there
  obtain ⟨old, described, rfl⟩ := Option.map_eq_some_iff.1 there
  obtain ⟨valid, roomy⟩ := h old described
  split
  · refine ⟨valid, fun storage stored => ?_⟩
    obtain ⟨before, there, rfl⟩ := Option.map_eq_some_iff.1 stored
    rw [length_replaceAt]
    exact roomy before there
  · exact ⟨valid, roomy⟩

theorem Vault.publish?_eq_some {v : Vault} {b : Binding} (values : List UInt32)
    (fits : b.Fits v.archive) :
    v.publish? b.array b.slot values = some (v.publish b.array b.slot values) := by
  cases there : v.archive.arrays[b.array]? with
  | none =>
    have beyond : v.archive.arrays.length ≤ b.array := List.getElem?_eq_none_iff.1 there
    simp only [publish?, publish, there, List.modify_eq_self beyond]
  | some info =>
    have published := ArrayInfo.publish?_eq_some values (fits info there)
    have arrays : v.archive.arrays.modify b.array (·.publish b.slot values) =
        v.archive.arrays.set b.array (info.publish b.slot values) := by
      rw [List.modify_eq_set_getElem?, there]
      rfl
    simp only [publish?, publish, there, published, Option.map_some, arrays]

/-- **Passes stay in range.** -/
theorem exchange?_eq_some {r : Record} {v : Vault}
    (fits : ∀ b, r.common.binding = .toArchive b → b.Fits v.archive) :
    exchange? r v = some (exchange r v) := by
  cases body : r.body with
  | scalar support fields => simp only [exchange?, exchange, body]
  | array archive a =>
    cases bound : r.common.binding with
    | toArchive b =>
      have published := Vault.publish?_eq_some (padded a b.initial).values (fits b bound)
      have high : savedCount b.initial (padded a b.initial).values ≤
          (padded a b.initial).values.length := Nat.min_le_right ..
      have saved : window? (padded a b.initial).values 0
          (savedCount b.initial (padded a b.initial).values) =
          some ((padded a b.initial).values.take
            (savedCount b.initial (padded a b.initial).values)) := by
        rw [window?, if_pos ⟨Nat.zero_le _, high⟩]
        rfl
      simp only [exchange?, exchange, body, bound, padded?_eq_some, published, saved,
        Option.bind_eq_bind, Option.bind_some]
    | _ => simp only [exchange?, exchange, body, bound]

/-- A file gives back at most as many octets as were asked for. -/
theorem length_saved_le (v : Vault) (name : String) (count : Nat) :
    (v.saved name count).length ≤ count := by
  unfold Vault.saved
  split
  · split
    · rename_i bytes restored
      unfold Files.restore at restored
      split at restored
      · contradiction
      · split at restored
        · obtain rfl := Except.ok.inj restored
          exact Nat.zero_le _
        · contradiction
      · contradiction
      · split at restored
        · contradiction
        · obtain rfl := Except.ok.inj restored
          exact List.length_take_le ..
    · exact Nat.zero_le _
  · exact Nat.zero_le _

/-! ## What a link is resolved to -/

/-- The parameter of a link excepts the record from being saved and restored. -/
def excepts (address : HardwareAddress) : Bool :=
  Text.contains "norest".toList address.parameter.toList

section Resolve
variable {a : Archive} {r : Record} {info : ArrayInfo} {b : Binding}

/-- **A record that is not connected yet is connected to the instance that its link names,
exactly if the array has room for that.** -/
theorem resolve_eq_ok_iff :
    resolve a r = .ok (info, b) ↔ ∃ address, r.link = .hardware address ∧
      a.arrays[address.card.toNat]? = some info ∧ r.common.binding.isBound = false ∧
      info.HasRoom address.signal.toNat ∧
      b = ⟨address.card.toNat, address.signal.toNat, info.initial, !excepts address⟩ := by
  constructor
  · intro h
    unfold resolve at h
    split at h
    · rename_i address link
      split at h
      · contradiction
      · rename_i described
        split at h
        · contradiction
        · rename_i free
          split at h
          · contradiction
          · rename_i inside
            have valid := Nat.lt_of_not_le inside
            have unbound : r.common.binding.isBound = false := Bool.eq_false_iff.2 free
            dsimp only at h
            split at h
            · rename_i stored
              obtain ⟨rfl, rfl⟩ := Prod.mk.inj (Except.ok.inj h)
              refine ⟨address, link, described, unbound, ⟨valid, fun storage there => ?_⟩, rfl⟩
              rw [stored] at there
              contradiction
            · rename_i storage stored
              split at h
              · contradiction
              · rename_i enough
                obtain ⟨rfl, rfl⟩ := Prod.mk.inj (Except.ok.inj h)
                refine ⟨address, link, described, unbound, ⟨valid, fun other there => ?_⟩, rfl⟩
                obtain rfl := Option.some.inj (stored.symm.trans there)
                exact Nat.le_of_not_lt enough
    · contradiction
  · rintro ⟨address, link, described, unbound, room, rfl⟩
    have inside : ¬info.instances ≤ address.signal.toNat := Nat.not_le.2 room.valid
    simp only [resolve, link, described, unbound, Bool.false_eq_true, if_false, inside]
    split
    · rfl
    · rw [if_neg (Nat.not_lt.2 (room.roomy _ ‹_›))]
      rfl

/-- A link is resolved to an instance that its array has room for. -/
theorem hasRoom_of_resolve (h : resolve a r = .ok (info, b)) :
    a.arrays[b.array]? = some info ∧ info.HasRoom b.slot := by
  obtain ⟨address, -, described, -, room, rfl⟩ := resolve_eq_ok_iff.1 h
  exact ⟨described, room⟩

/-- Only a record that is not connected yet is connected. -/
theorem unbound_of_resolve (h : resolve a r = .ok (info, b)) :
    r.common.binding.isBound = false := by
  obtain ⟨address, -, -, unbound, -⟩ := resolve_eq_ok_iff.1 h
  exact unbound

/-- A record is connected as its link says. -/
theorem binding_of_resolve (h : resolve a r = .ok (info, b)) {address : HardwareAddress}
    (link : r.link = .hardware address) :
    b = ⟨address.card.toNat, address.signal.toNat, info.initial, !excepts address⟩ := by
  obtain ⟨address', link', -, -, -, rfl⟩ := resolve_eq_ok_iff.1 h
  obtain rfl := Link.hardware.inj (link.symm.trans link')
  rfl

theorem initial_of_resolve (h : resolve a r = .ok (info, b)) : b.initial = info.initial := by
  obtain ⟨address, -, -, -, -, rfl⟩ := resolve_eq_ok_iff.1 h
  rfl

end Resolve

theorem fits_of_resolve {a : Archive} {r : Record} {info : ArrayInfo} {b : Binding}
    (h : resolve a r = .ok (info, b)) : b.Fits a := by
  obtain ⟨described, room⟩ := hasRoom_of_resolve h
  intro other there
  obtain rfl := Option.some.inj (described.symm.trans there)
  exact room

/-- **Connecting stays in range.** -/
theorem connect?_eq_some (archive : ArchiveId) (r : Record) (v : Vault) :
    connect? archive r v = some (connect archive r v) := by
  rcases resolved : resolve v.archive r with e | ⟨info, b⟩
  · simp only [connect?, connect, resolved]
  · have few : (if b.persists then v.saved r.common.name
        (4 * savedCount b.initial (List.replicate info.capacity 0)) else []).length ≤
        4 * savedCount b.initial (List.replicate info.capacity 0) := by
      split
      · exact length_saved_le ..
      · exact Nat.zero_le _
    have published (values : List UInt32) :=
      Vault.publish?_eq_some values (fits_of_resolve resolved)
    simp only [connect?, connect, resolved]
    rw [if_pos few]
    exact congrArg (Option.bind · _) (published _)

end Archive

end ControlRecords
