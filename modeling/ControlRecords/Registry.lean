/-! Registries: entries under names, each name written once. A name keeps the entry that
it was first given; registering it again is refused and changes nothing. The entries
stand in the order in which they were accepted. -/
namespace ControlRecords

/-- The name is taken. -/
structure AlreadyRegistered where
  name : String
  deriving DecidableEq, Repr

/-- The message of a refused registration. -/
def AlreadyRegistered.message (e : AlreadyRegistered) : String :=
  "An entry named '" ++ e.name ++ "' is already registered"

/-- Entries under distinct names. -/
structure Registry (α : Type) where
  entries : List (String × α) := []
  distinct : (entries.map (·.1)).Nodup := by simp

namespace Registry

variable {α : Type}

/-- The registry without entries. -/
def empty : Registry α where

instance : Inhabited (Registry α) := ⟨empty⟩

/-- The entry under a name. -/
def find? (r : Registry α) (name : String) : Option α := r.entries.lookup name

/-- How many entries there are. -/
def size (r : Registry α) : Nat := r.entries.length

theorem find?_eq_none_iff (r : Registry α) (name : String) :
    r.find? name = none ↔ name ∉ r.entries.map (·.1) := by
  simp only [find?]
  induction r.entries with
  | nil => simp
  | cons e es ih => rw [List.lookup_cons]; split <;> grind

/-- Put an entry under a name that is free. -/
def insert (r : Registry α) (name : String) (entry : α) (free : r.find? name = none) :
    Registry α where
  entries := r.entries ++ [(name, entry)]
  distinct := by
    rw [List.map_append, List.nodup_append]
    refine ⟨r.distinct, by simp, ?_⟩
    intro a ha b hb
    have := (r.find?_eq_none_iff name).1 free
    grind

/-- Put an entry under a name, if the name is free. -/
def add (r : Registry α) (name : String) (entry : α) : Except AlreadyRegistered (Registry α) :=
  match h : r.find? name with
  | some _ => .error ⟨name⟩
  | none => .ok (r.insert name entry h)

/-- The entry under a name, which is put there first if the name is free. -/
def findOrInsert (r : Registry α) (name : String) (entry : α) : α × Registry α :=
  match h : r.find? name with
  | some found => (found, r)
  | none => (entry, r.insert name entry h)

theorem find?_insert (r : Registry α) (name other : String) (entry : α)
    (free : r.find? name = none) :
    (r.insert name entry free).find? other =
      if other = name then some entry else r.find? other := by
  simp only [find?, insert, List.lookup_append] at free ⊢
  by_cases h : other = name
  · subst h; simp [free]
  · have : (other == name) = false := by simpa using h
    simp [h, List.lookup_cons, this]

@[simp] theorem size_insert (r : Registry α) (name : String) (entry : α)
    (free : r.find? name = none) : (r.insert name entry free).size = r.size + 1 := by
  simp [size, insert]

/-- A registration is refused exactly when the name is taken. -/
theorem add_eq_error_iff (r : Registry α) (name : String) (entry : α) (e : AlreadyRegistered) :
    r.add name entry = .error e ↔ (r.find? name).isSome ∧ e = ⟨name⟩ := by
  unfold add
  split
  · rename_i found h
    simp only [h, Except.error.injEq, Option.isSome_some, true_and]
    exact eq_comm
  · rename_i h
    simp [h]

/-- Finding or inserting yields what was there, and the new entry otherwise. -/
theorem findOrInsert_fst (r : Registry α) (name : String) (entry : α) :
    (r.findOrInsert name entry).1 = (r.find? name).getD entry := by
  unfold findOrInsert
  split <;> simp_all

theorem find?_findOrInsert (r : Registry α) (name other : String) (entry : α) :
    (r.findOrInsert name entry).2.find? other =
      if other = name then some ((r.find? name).getD entry) else r.find? other := by
  unfold findOrInsert
  split
  · split <;> simp_all
  · rw [find?_insert]; simp_all

end Registry

end ControlRecords
