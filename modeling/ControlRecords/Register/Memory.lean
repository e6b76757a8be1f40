import ControlRecords.Octets

/-! Register memory: octets at machine addresses, one at every address. Contents are given
octet by octet, so that a store is described by what it does to each address. -/
namespace ControlRecords.Register

/-- The octet at each address. -/
structure Memory where
  octetAt : Nat → UInt8

namespace Memory

/-- Memory that holds nothing but zeros. -/
def blank : Memory := ⟨fun _ => 0⟩

instance : Inhabited Memory := ⟨blank⟩

/-- The octets at `count` addresses from `address` on. -/
def load (m : Memory) (address count : Nat) : List UInt8 :=
  (List.range count).map fun i => m.octetAt (address + i)

/-- Replace the octets from `address` on. -/
def store (m : Memory) (address : Nat) (bytes : List UInt8) : Memory :=
  let cells := bytes.toArray
  ⟨fun x => if address ≤ x then (cells[x - address]?).getD (m.octetAt x) else m.octetAt x⟩

@[simp] theorem length_load (m : Memory) (address count : Nat) :
    (m.load address count).length = count := by simp [load]

/-- What is loaded is what was stored there. -/
@[simp] theorem load_store (m : Memory) (address : Nat) (bytes : List UInt8) :
    (m.store address bytes).load address bytes.length = bytes := by
  apply List.ext_getElem
  · simp
  · intro i _ h
    simp [load, store, h]

/-- A store changes no octet outside its own range. -/
theorem octetAt_store_of_outside (m : Memory) {address x : Nat} {bytes : List UInt8}
    (h : x < address ∨ address + bytes.length ≤ x) :
    (m.store address bytes).octetAt x = m.octetAt x := by
  simp only [store]
  split
  · have : bytes.length ≤ x - address := by omega
    simp [this]
  · rfl

end Memory

end ControlRecords.Register
