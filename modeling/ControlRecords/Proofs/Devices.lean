import ControlRecords.Controller.Initialisation
import ControlRecords.Controller.Registration
import ControlRecords.Proofs.Numerals

/-! # Devices by number

Three kinds of calls reach the registry of devices between two resets: a driver registers a
device, a token is resolved to one, and a link is resolved to a register of one.  A call adds
at most one entry behind those that are there (`entries_call`), so an entry stays for good.  A
numeric token is resolved to the entry under the canonical name of its number, and no two
numbers share a name, so a number and its device belong together whatever notation is used and
whatever the drivers have registered (`numeric_tokens_identify_devices`). -/
namespace ControlRecords

namespace Registry
variable {α : Type} {r s : Registry α} {name : String} {x : α}

theorem entries_of_add (h : r.add name x = .ok s) : s.entries = r.entries ++ [(name, x)] := by
  unfold add at h
  split at h
  · contradiction
  · obtain rfl := Except.ok.inj h
    rfl

theorem entries_findOrInsert (r : Registry α) (name : String) (x : α) :
    (r.findOrInsert name x).2.entries = r.entries ∨
      (r.findOrInsert name x).2.entries = r.entries ++ [(name, x)] := by
  unfold findOrInsert
  split
  · exact Or.inl rfl
  · exact Or.inr rfl

/-- Entries behind the others do not hide any of them. -/
theorem find?_of_prefix (h : r.entries <+: s.entries) (found : r.find? name = some x) :
    s.find? name = some x := by
  obtain ⟨more, same⟩ := h
  rw [find?] at found
  rw [find?, ← same, List.lookup_append, found]
  rfl

theorem mem_of_find? (found : r.find? name = some x) : (name, x) ∈ r.entries := by
  obtain ⟨front, back, entries, -⟩ := List.lookup_eq_some_iff.1 found
  rw [entries]
  exact List.mem_append_right _ List.mem_cons_self

end Registry

namespace Register

/-- A call to the registry of devices. -/
inductive DeviceCall where
  /-- A driver registers a device. -/
  | register (name : String) (base : Nat)
  /-- A token is resolved. -/
  | resolve (token : String)
  /-- The link of a record is resolved. -/
  | link (link : Link) (common : Common)

namespace DeviceCall

/-- The token by which the call asks for a device. -/
def token? : DeviceCall → Option String
  | register _ _ => none
  | resolve token => some token
  | link (.hardware a) _ =>
    match Parameter.ofText a.parameter with
    | .ok p => some p.base
    | .error _ => none
  | link _ _ => none

/-- The number by which the call asks for a device. -/
def number? (k : DeviceCall) : Option Nat := k.token?.bind Numeral.ofText?

/-- The entry is one that the call may add: the device that is to be registered, or the device
at the number that is asked for. -/
def Adds (k : DeviceCall) (e : String × Device) : Prop :=
  match k with
  | register name base => e = (name, ⟨name, base⟩)
  | k => ∃ n, k.number? = some n ∧
      e = (Numeral.canonicalName n, ⟨Numeral.canonicalName n, n⟩)

end DeviceCall

/-- A link to hardware is resolved without the devices, or by its base token. -/
theorem resolveHardware_cases (c : Catalogue) (a : HardwareAddress) :
    (∃ e, resolveHardware c a = (.error e, c)) ∨
      ∃ p, Parameter.ofText a.parameter = .ok p ∧
        (resolveHardware c a).2.devices = (Device.resolve c.devices p.base).2 ∧
        ∀ b, (resolveHardware c a).1 = .ok b → b.device = (Device.resolve c.devices p.base).1 := by
  unfold resolveHardware
  split
  · exact Or.inl ⟨_, rfl⟩
  · rename_i p parameter
    split
    · exact Or.inl ⟨_, rfl⟩
    · split
      · exact Or.inl ⟨_, rfl⟩
      · rename_i device devices resolved
        refine Or.inr ⟨p, parameter, ?_⟩
        rw [resolved]
        dsimp only
        split
        · exact ⟨rfl, fun b h => by simp at h⟩
        · refine ⟨rfl, fun b h => ?_⟩
          obtain rfl := Except.ok.inj h
          rfl

/-- Resolving a token adds the device at its number, or nothing. -/
theorem Device.entries_resolve (r : Registry Device) (token : String) :
    (Device.resolve r token).2.entries = r.entries ∨
      ∃ n, Numeral.ofText? token = some n ∧
        (Device.resolve r token).2.entries =
          r.entries ++ [(Numeral.canonicalName n, .ofAddress n)] := by
  unfold Device.resolve
  split
  · rename_i n number
    rcases r.entries_findOrInsert (Numeral.canonicalName n) (.ofAddress n) with kept | added
    · exact Or.inl kept
    · exact Or.inr ⟨n, number, added⟩
  · exact Or.inl rfl

/-- A numeric token always has a device, which is the one under the canonical name from then
on. -/
theorem Device.resolve_number {r : Registry Device} {token : String} {n : Nat}
    (number : Numeral.ofText? token = some n) :
    ∃ x, (Device.resolve r token).1 = some x ∧
      (Device.resolve r token).2.find? (Numeral.canonicalName n) = some x := by
  refine ⟨_, by simp only [Device.resolve, number]; rfl, ?_⟩
  simp only [Device.resolve, number]
  rw [Registry.find?_findOrInsert, if_pos rfl, Registry.findOrInsert_fst]

end Register

namespace Controller
open Register

/-- The state after a call to the registry of devices. -/
def call (c : Controller) : DeviceCall → Controller
  | .register name base =>
    match c.registerDevice name base with
    | .ok (_, d) => d
    | .error _ => c
  | .resolve token => (c.resolveDevice token).2
  | .link link common => { c with catalogue := (resolveFor c.catalogue link common).2.1 }

/-- The device that a call yields to one that asks for it. -/
def deviceOf? (c : Controller) : DeviceCall → Option Device
  | .register _ _ => none
  | .resolve token => (c.resolveDevice token).1
  | .link link common =>
    match (resolveFor c.catalogue link common).1 with
    | .ok b => b.device
    | .error _ => none

/-- The state after one call after the other. -/
def callAll (c : Controller) (calls : List DeviceCall) : Controller := calls.foldl call c

/-- Every device is registered under its own name. -/
def WellNamed (c : Controller) : Prop := ∀ e ∈ c.catalogue.devices.entries, e.2.name = e.1

section Calls
variable {c : Controller} {k : DeviceCall}

/-- A call that registers no device asks for one by its token, or does not come so far. -/
theorem call_cases (asks : ∀ name base, k ≠ .register name base) :
    ((c.call k).catalogue.devices = c.catalogue.devices ∧ c.deviceOf? k = none) ∨
      ∃ token, k.token? = some token ∧
        (c.call k).catalogue.devices = (Device.resolve c.catalogue.devices token).2 ∧
        ∀ x, c.deviceOf? k = some x →
          (Device.resolve c.catalogue.devices token).1 = some x := by
  cases k with
  | register name base => exact absurd rfl (asks name base)
  | resolve token => exact Or.inr ⟨token, rfl, rfl, fun x found => found⟩
  | link link common =>
    cases link with
    | literal text =>
      refine Or.inl ?_
      simp only [call, deviceOf?, resolveFor, resolve]
      cases Numeral.leadingOfText? text <;> exact ⟨rfl, rfl⟩
    | other text => exact Or.inl ⟨rfl, rfl⟩
    | hardware a =>
      rcases hr : resolveHardware c.catalogue a with ⟨result, after⟩
      rcases resolveHardware_cases c.catalogue a with ⟨e, failed⟩ | ⟨p, parameter, devices, device⟩
      · refine Or.inl ?_
        simp only [call, deviceOf?, resolveFor, resolve, failed, and_self]
      · refine Or.inr ⟨p.base, by simp only [DeviceCall.token?, parameter], ?_⟩
        rw [hr] at devices device
        cases result with
        | error e =>
          refine ⟨?_, fun x found => ?_⟩
          · simpa only [call, resolveFor, resolve, hr] using devices
          · simp only [deviceOf?, resolveFor, resolve, hr] at found
            contradiction
        | ok b =>
          refine ⟨?_, fun x found => ?_⟩
          · simpa only [call, resolveFor, resolve, hr] using devices
          · simp only [deviceOf?, resolveFor, resolve, hr] at found
            rw [← device b rfl, found]

/-- **A call adds one entry behind all others, or none.** -/
theorem entries_call (c : Controller) (k : DeviceCall) :
    ∃ added : Option (String × Device), (∀ e ∈ added, k.Adds e) ∧
      (c.call k).catalogue.devices.entries = c.catalogue.devices.entries ++ added.toList := by
  have asked (asks : ∀ name base, k ≠ .register name base)
      (adds : ∀ n, k.number? = some n → k.Adds (Numeral.canonicalName n, .ofAddress n)) :
      ∃ added : Option (String × Device), (∀ e ∈ added, k.Adds e) ∧
        (c.call k).catalogue.devices.entries = c.catalogue.devices.entries ++ added.toList := by
    rcases call_cases (c := c) asks with ⟨same, -⟩ | ⟨token, asked, after, -⟩
    · exact ⟨none, by simp, by simp [same]⟩
    · rw [after]
      rcases Device.entries_resolve c.catalogue.devices token with same | ⟨n, number, added⟩
      · exact ⟨none, by simp, by simp [same]⟩
      · refine ⟨some (Numeral.canonicalName n, .ofAddress n), ?_, added⟩
        rintro e ⟨⟩
        exact adds n (by simp [DeviceCall.number?, asked, number])
  cases k with
  | register name base =>
    simp only [call, registerDevice]
    cases added : c.catalogue.devices.add name ⟨name, base⟩ with
    | error e => exact ⟨none, by simp, by simp [Except.map]⟩
    | ok devices =>
      refine ⟨some (name, ⟨name, base⟩), ?_, Registry.entries_of_add added⟩
      rintro e ⟨⟩
      rfl
  | resolve token => exact asked (by simp) fun n number => ⟨n, number, rfl⟩
  | link link common => exact asked (by simp) fun n number => ⟨n, number, rfl⟩

theorem WellNamed.call (h : c.WellNamed) (k : DeviceCall) : (c.call k).WellNamed := by
  obtain ⟨added, adds, entries⟩ := c.entries_call k
  intro e he
  rw [entries, List.mem_append, Option.mem_toList] at he
  rcases he with old | new
  · exact h e old
  · have adds := adds e new
    cases k with
    | register name base =>
      obtain rfl := adds
      rfl
    | resolve token | link link common =>
      obtain ⟨n, -, rfl⟩ := adds
      rfl

/-- **The device that is yielded for a number is the entry under its canonical name.** -/
theorem find?_of_deviceOf? {n : Nat} {x : Device} (number : k.number? = some n)
    (found : c.deviceOf? k = some x) :
    (c.call k).catalogue.devices.find? (Numeral.canonicalName n) = some x := by
  have asks : ∀ name base, k ≠ .register name base := by
    rintro name base rfl
    contradiction
  rcases call_cases (c := c) asks with ⟨-, nothing⟩ | ⟨token, asked, after, device⟩
  · rw [nothing] at found
    contradiction
  · have token : Numeral.ofText? token = some n := by
      simpa [DeviceCall.number?, asked] using number
    obtain ⟨y, yielded, entry⟩ := Device.resolve_number (r := c.catalogue.devices) token
    obtain rfl : y = x := Option.some.inj (yielded.symm.trans (device x found))
    rw [after, entry]

variable (c) in
/-- No call replaces an entry or takes one away. -/
theorem entries_callAll (calls : List DeviceCall) :
    c.catalogue.devices.entries <+: (c.callAll calls).catalogue.devices.entries := by
  induction calls generalizing c with
  | nil => exact List.prefix_rfl
  | cons k rest ih =>
    obtain ⟨added, -, entries⟩ := c.entries_call k
    exact .trans ⟨added.toList, entries.symm⟩ (ih (c.call k))

theorem WellNamed.callAll (h : c.WellNamed) (calls : List DeviceCall) :
    (c.callAll calls).WellNamed := by
  induction calls generalizing c with
  | nil => exact h
  | cons k rest ih => exact ih (h.call k)

end Calls

/-- **Numeric tokens identify devices by number.**  Whatever was called before and between,
two calls that ask by number, as a token or in a link, yield the same device exactly when the
numbers are the same.  A numeric token always has a device, which is the entry under the
canonical name of the number.  A call adds at most one entry and leaves the others, and the
entry is the device that is registered or the device at the number that is asked for.  No two
numbers have the same canonical name, and each is read back from it. -/
theorem numeric_tokens_identify_devices {c : Controller}
    (unregistered : c.catalogue.devices.entries = []) (calls : List DeviceCall) :
    let d := c.callAll calls
    (∀ k later l m n x y, k.number? = some m → l.number? = some n → d.deviceOf? k = some x →
      ((d.call k).callAll later).deviceOf? l = some y → (x = y ↔ m = n)) ∧
    (∀ token n, Numeral.ofText? token = some n → ∃ x, d.deviceOf? (.resolve token) = some x ∧
      (d.call (.resolve token)).catalogue.devices.find? (Numeral.canonicalName n) = some x) ∧
    (∀ k, ∃ added : Option (String × Device), (∀ e ∈ added, k.Adds e) ∧
      (d.call k).catalogue.devices.entries = d.catalogue.devices.entries ++ added.toList) ∧
    Function.Injective Numeral.canonicalName ∧
    ∀ n < Numeral.limit, Numeral.ofText? (Numeral.canonicalName n) = some n := by
  intro d
  have named : d.WellNamed := WellNamed.callAll (by simp [WellNamed, unregistered]) calls
  refine ⟨?_, ?_, d.entries_call, Numeral.canonicalName_injective,
    fun n => Numeral.ofText?_canonicalName⟩
  · intro k later l m n x y first second found found'
    -- Both devices are entries of the last state, under their canonical names.
    let e := ((d.call k).callAll later).call l
    have kept : (d.call k).catalogue.devices.entries <+: e.catalogue.devices.entries :=
      (d.call k).entries_callAll (later ++ [l]) |>.trans (by simp [e, callAll])
    have named' : e.WellNamed := ((named.call k).callAll later).call l
    have hx : e.catalogue.devices.find? (Numeral.canonicalName m) = some x :=
      Registry.find?_of_prefix kept (find?_of_deviceOf? first found)
    have hy : e.catalogue.devices.find? (Numeral.canonicalName n) = some y :=
      find?_of_deviceOf? second found'
    constructor
    · rintro rfl
      have name := named' _ (Registry.mem_of_find? hx)
      have name' := named' _ (Registry.mem_of_find? hy)
      exact Numeral.canonicalName_injective (name.symm.trans name')
    · rintro rfl
      exact Option.some.inj (hx.symm.trans hy)
  · intro token n number
    obtain ⟨x, yielded, entry⟩ := Device.resolve_number (r := d.catalogue.devices) number
    exact ⟨x, yielded, entry⟩

/-- A driver has taken the canonical name of sixteen for a device elsewhere, and the decimal
one for another.  Both the octal and the decimal token mean the former. -/
theorem sixteen_names_registered_device :
    let c : Controller := {}
    let d := c.callAll [.register "0x10" 32, .register "16" 7]
    let later := (d.call (.resolve "020")).callAll [.resolve "17"]
    c.catalogue.devices.entries = [] ∧ ∃ x y z, d.deviceOf? (.resolve "020") = some x ∧
      later.deviceOf? (.resolve "16") = some y ∧ later.deviceOf? (.resolve "17") = some z ∧
      x.base = 32 ∧ x = y ∧ x ≠ z := by
  intro c d later
  have identify := (numeric_tokens_identify_devices (c := c) rfl
    [.register "0x10" 32, .register "16" 7]).1 (.resolve "020") [.resolve "17"]
  have octal : d.deviceOf? (.resolve "020") = some ⟨"0x10", 32⟩ := by decide +kernel
  have decimal : later.deviceOf? (.resolve "16") = some ⟨"0x10", 32⟩ := by decide +kernel
  have other : later.deviceOf? (.resolve "17") = some ⟨"0x11", 17⟩ := by decide +kernel
  refine ⟨rfl, _, _, _, octal, decimal, other, rfl, ?_, ?_⟩
  · exact (identify (.resolve "16") 16 16 _ _ (by decide) (by decide) octal decimal).2 rfl
  · rw [ne_eq, identify (.resolve "17") 16 17 _ _ (by decide) (by decide) octal other]
    decide

end Controller

end ControlRecords
