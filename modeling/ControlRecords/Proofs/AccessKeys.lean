import ControlRecords.Register.Binding

/-! # Access keys

The key in a link's parameter names an access method.  No key at all is the default; a key under
which a driver registered a method names that method; and any other key is read from its
beginning on, by the names of the built-in methods.  Some of these names begin with others
(`le16s` with `le16`), so which of them is taken matters: it is the longest one that the key
begins with (`Builtin.ofKey?_eq_some_iff`).  No other rule is needed, since of two names that
begin one key the longer begins with the shorter, and no two are the same. -/
namespace ControlRecords.Register

namespace Builtin

/-- A key begins with the name of the method. -/
def Begins (b : Builtin) (key : String) : Prop := b.key.toList <+: key.toList

/-- The name of the method is the longest that a key begins with. -/
structure Longest (b : Builtin) (key : String) : Prop where
  begins : b.Begins key
  longest : ∀ other : Builtin, other.Begins key → other.key.length ≤ b.key.length

/-- No two methods have one name. -/
theorem key_inj {a b : Builtin} (same : a.key = b.key) : a = b := by
  have named := ofKey?_key a
  rw [same, ofKey?_key] at named
  exact (Option.some.inj named).symm

/-- The method that is found for a key has a name that the key begins with. -/
theorem begins_of_ofKeyChars? {cs : List Char} {b : Builtin} (h : ofKeyChars? cs = some b) :
    b.key.toList <+: cs := by
  unfold ofKeyChars? at h
  split at h
  case h_14 => contradiction
  all_goals
    obtain rfl := Option.some.inj h
    exact ⟨_, rfl⟩

/-- **For a key that begins with a name, a method with at least as long a name is found.** -/
theorem exists_ofKeyChars?_append (b : Builtin) (rest : List Char) :
    ∃ found, ofKeyChars? (b.key.toList ++ rest) = some found ∧
      b.key.length ≤ found.key.length := by
  -- Behind the name of a method without a sign there may be the letter of the sign.
  by_cases signed : ∃ tail, rest = 's' :: tail
  · obtain ⟨tail, rfl⟩ := signed
    cases b with
    | m32 | be32 | le32 => exact ⟨_, rfl, Nat.le_refl _⟩
    | m16 => exact ⟨m16s, rfl, by decide⟩
    | be16 => exact ⟨be16s, rfl, by decide⟩
    | le16 => exact ⟨le16s, rfl, by decide⟩
    | m8 => exact ⟨m8s, rfl, by decide⟩
    | be8 => exact ⟨be8s, rfl, by decide⟩
    | m16s | be16s | le16s | m8s | be8s => exact ⟨_, rfl, Nat.le_refl _⟩
  · refine ⟨b, ?_, Nat.le_refl _⟩
    cases rest with
    | nil => cases b <;> rfl
    | cons c tail =>
      have other : c ≠ 's' := fun same => signed ⟨tail, by rw [same]⟩
      cases b <;> simp [key, ofKeyChars?, other]

/-- **The built-in method of a key is the one whose name is the longest that the key begins
with.** -/
theorem ofKey?_eq_some_iff {key : String} {b : Builtin} : ofKey? key = some b ↔ b.Longest key := by
  have found {other : Builtin} (begins : other.Begins key) :
      ∃ a, ofKey? key = some a ∧ other.key.length ≤ a.key.length := by
    obtain ⟨rest, same⟩ := begins
    rw [ofKey?, ← same]
    exact exists_ofKeyChars?_append other rest
  constructor
  · intro h
    refine ⟨begins_of_ofKeyChars? h, fun other begins => ?_⟩
    obtain ⟨a, named, length⟩ := found begins
    obtain rfl := Option.some.inj (h.symm.trans named)
    exact length
  · intro h
    obtain ⟨a, named, length⟩ := found h.begins
    have begins : a.Begins key := begins_of_ofKeyChars? named
    -- Two beginnings of one length are the same.
    have same : a.key.toList.length = b.key.toList.length := by
      rw [String.length_toList, String.length_toList]
      exact Nat.le_antisymm (h.longest a begins) length
    have chars : a.key.toList = b.key.toList :=
      (List.prefix_of_prefix_length_le begins h.begins (Nat.le_of_eq same)).eq_of_length same
    rw [named, key_inj (String.toList_inj.1 chars)]

theorem ofKey?_eq_none_iff {key : String} :
    ofKey? key = none ↔ ∀ b : Builtin, ¬b.Begins key := by
  constructor
  · intro h b begins
    obtain ⟨rest, same⟩ := begins
    obtain ⟨a, named, -⟩ := exists_ofKeyChars?_append b rest
    rw [ofKey?, ← same, named] at h
    contradiction
  · intro h
    cases named : ofKey? key with
    | none => rfl
    | some b => exact absurd (ofKey?_eq_some_iff.1 named).begins (h b)

end Builtin

/-- What a key names where these methods are registered. -/
inductive Names (methods : Registry Custom) (key : String) : Except LinkError Access → Prop where
  /-- No key at all is the default. -/
  | default (empty : key = "") : Names methods key (.ok (.builtin .be32))
  /-- A method is registered under the key. -/
  | registered {method : Custom} (given : key ≠ "") (found : methods.find? key = some method) :
    Names methods key (.ok (.custom method))
  /-- No method is registered under the key, and it begins with the name of a built-in one. -/
  | builtin {b : Builtin} (given : key ≠ "") (free : methods.find? key = none)
    (longest : b.Longest key) : Names methods key (.ok (.builtin b))
  /-- No method is registered under the key, and it begins with no name of a built-in one. -/
  | unknown (given : key ≠ "") (free : methods.find? key = none)
    (nameless : ∀ b : Builtin, ¬b.Begins key) : Names methods key (.error (.unknownAccess key))

/-- **A key names the method that is registered under it, and otherwise the built-in method with
the longest name that the key begins with.** -/
theorem access_keys_are_resolved (methods : Registry Custom) (key : String)
    (result : Except LinkError Access) :
    Access.resolve methods key = result ↔ Names methods key result := by
  have names : Names methods key (Access.resolve methods key) := by
    unfold Access.resolve Access.ofKey?
    by_cases empty : key = ""
    · rw [if_pos empty]
      exact .default empty
    · rw [if_neg empty]
      cases found : methods.find? key with
      | some method => exact .registered empty found
      | none =>
        cases named : Builtin.ofKey? key with
        | some b => exact .builtin empty found (Builtin.ofKey?_eq_some_iff.1 named)
        | none => exact .unknown empty found (Builtin.ofKey?_eq_none_iff.1 named)
  constructor
  · rintro rfl
    exact names
  · intro h
    unfold Access.resolve Access.ofKey?
    cases h with
    | default empty => rw [if_pos empty]; rfl
    | registered given found => rw [if_neg given, found]
    | builtin given free longest =>
      rw [if_neg given, free]
      simp only [Builtin.ofKey?_eq_some_iff.2 longest, Option.map_some]
    | unknown given free nameless =>
      rw [if_neg given, free]
      simp only [Builtin.ofKey?_eq_none_iff.2 nameless, Option.map_none]

end ControlRecords.Register
