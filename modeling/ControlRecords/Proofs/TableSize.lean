import ControlRecords.Proofs.Naming

/-! # The size of the table of groups

The table of groups gets its size when a group is first registered or looked up, by a driver or
for a record whose link is followed (`Opens`).  Until then the size is the one that was chosen
last, or what the environment asks for at the moment, and nothing but `configure` chooses it.
From then on the exponent stands, since opening an open table does nothing.  Whatever the order
of these events, an exponent that stands lies in the permitted range (`GroupTable.Sound`). -/
namespace ControlRecords

/-! ## Sound tables -/

namespace Variable.GroupTable

/-- The exponent is in the permitted range, and once there is a table, it is chosen. -/
structure Sound (t : GroupTable) : Prop where
  permitted : ∀ k ∈ t.exponent, leastExponent ≤ k ∧ k ≤ greatestExponent
  chosen : t.groups.isSome = true → t.exponent.isSome = true

theorem permitted_settingExponent (setting : Option String) :
    leastExponent ≤ settingExponent setting ∧ settingExponent setting ≤ greatestExponent := by
  simp only [settingExponent, leastExponent, greatestExponent]
  omega

section
variable {t : GroupTable} (sound : t.Sound) (setting : Option String)
include sound

theorem Sound.permitted_currentExponent :
    leastExponent ≤ t.currentExponent setting ∧ t.currentExponent setting ≤ greatestExponent := by
  unfold currentExponent
  cases chosen : t.exponent with
  | none => exact permitted_settingExponent setting
  | some k => exact sound.permitted k chosen

/-- Opening a table fixes the exponent that it has or would get. -/
theorem Sound.exponent_opened : (t.opened setting).exponent = some (t.currentExponent setting) := by
  unfold opened
  split
  · rename_i there
    obtain ⟨k, chosen⟩ := Option.isSome_iff_exists.1 (sound.chosen there)
    rw [chosen, currentExponent, chosen, Option.getD_some]
  · rfl

theorem Sound.configure (exponent : Nat) : (t.configure exponent).Sound := by
  unfold GroupTable.configure
  split
  · rename_i accepted
    refine ⟨fun k chosen => ?_, fun _ => rfl⟩
    obtain rfl := Option.some.inj chosen
    exact ⟨accepted.1, accepted.2.1⟩
  · exact sound

/-- A table whose exponent is fixed as opening fixes it. -/
theorem Sound.of_opened {u : GroupTable} (fixed : u.exponent = (t.opened setting).exponent) :
    u.Sound := by
  rw [sound.exponent_opened] at fixed
  refine ⟨fun k chosen => ?_, fun _ => by rw [fixed]; rfl⟩
  obtain rfl := Option.some.inj (fixed.symm.trans chosen)
  exact sound.permitted_currentExponent setting

end

theorem sound_empty : ({} : GroupTable).Sound := ⟨by simp, by simp⟩

/-- There is a table once it was opened. -/
theorem isSome_groups_opened (t : GroupTable) (setting : Option String) :
    (t.opened setting).groups.isSome = true := by
  unfold opened
  split
  · assumption
  · rfl

/-- Opening a table that is there does nothing. -/
theorem opened_of_isSome {t : GroupTable} (there : t.groups.isSome = true)
    (setting : Option String) : t.opened setting = t := by
  simp [opened, there]

end Variable.GroupTable

/-- The exponent that an event chooses, if it is permitted. -/
def CatalogueEvent.chosen? : CatalogueEvent → Option Nat
  | configure exponent => if 8 ≤ exponent ∧ exponent ≤ 16 then some exponent else none
  | _ => none

namespace Controller

/-- The size that the table of groups has, or would get now. -/
def tableSize (c : Controller) : Nat := c.catalogue.groups.size c.setting

/-- The event uses the table of groups: a group is registered or looked up, by a driver or for
a record whose link is followed. -/
def Opens (c : Controller) : CatalogueEvent → Prop
  | .registerGroup _ _ | .find .groups _ => True
  | .operate op => ∃ a, c.reference? op = some ⟨.hardware a, .shared⟩
  | _ => False

/-- Nothing in the course of a history uses the table of groups or resets it. -/
def Unused : Controller → List CatalogueEvent → Prop
  | _, [] => True
  | c, event :: rest => ¬c.Opens event ∧ event ≠ .reset ∧ (c.undergo event).Unused rest

/-! ## What an event does to the table -/

section Event
variable {c : Controller} {event : CatalogueEvent}

/-- Following a link leaves the table, unless it leads from a record to a variable. -/
theorem groups_followed (c : Catalogue) (setting : Option String)
    (reference : Option Reference) :
    (c.followed setting reference).groups = c.groups ∨
      ∃ a, reference = some ⟨.hardware a, .shared⟩ := by
  rcases reference with - | ⟨link, - | -⟩
  · exact .inl rfl
  · simp only [Catalogue.followed]
    rw [Register.resolve_eq]
    exact .inl rfl
  · cases link with
    | hardware a => exact .inr ⟨a, rfl⟩
    | _ => exact .inl rfl

/-- An event that uses the table opens it. -/
theorem opened_of_opens (opens : c.Opens event) :
    (c.undergo event).catalogue.groups.exponent =
        (c.catalogue.groups.opened c.setting).exponent ∧
      (c.undergo event).catalogue.groups.groups.isSome = true := by
  have there := c.catalogue.groups.isSome_groups_opened c.setting
  cases event with
  | registerGroup name vars =>
    simp only [undergo, registerGroup, Variable.GroupTable.register]
    cases (c.catalogue.groups.opened c.setting).registered.add name
        ⟨name, (List.range vars.length).map fun i => ⟨c.vars.length + i⟩⟩ with
    | ok groups => exact ⟨rfl, rfl⟩
    | error e => exact ⟨rfl, there⟩
  | find kind name =>
    cases kind with
    | groups => exact ⟨rfl, there⟩
    | _ => exact opens.elim
  | operate op =>
    obtain ⟨a, reference⟩ := opens
    rw [undergo, catalogue_operate, reference]
    exact ⟨rfl, there⟩
  | _ => exact opens.elim

/-- Any other event leaves the table, unless it is a reset or a choice of the size. -/
theorem groups_undergo_of_not_opens (unused : ¬c.Opens event) (lasting : event ≠ .reset) :
    (c.undergo event).catalogue.groups =
      match event with
      | .configure exponent => c.catalogue.groups.configure exponent
      | _ => c.catalogue.groups := by
  cases event with
  | device k => exact (congrArg Catalogue.groups (catalogue_call c k) :)
  | registerMethod name method =>
    exact (congrArg Catalogue.groups (catalogue_registerMethod c name method) :)
  | registerScanList name =>
    exact (congrArg Catalogue.groups (catalogue_registerScanList c name) :)
  | registerGroup name vars => exact absurd trivial unused
  | find kind name =>
    cases kind with
    | groups => exact absurd trivial unused
    | _ => rfl
  | configure exponent => rfl
  | tableSize => rfl
  | setEnvironment setting => rfl
  | reset => contradiction
  | operate op =>
    dsimp only
    rw [undergo, catalogue_operate]
    rcases groups_followed c.catalogue c.setting (c.reference? op) with same | ⟨a, reference⟩
    · exact same
    · exact absurd ⟨a, reference⟩ unused
  | requestScan list => exact congrArg (·.1.groups) (names_requestScan c list)

theorem sound_undergo (sound : c.catalogue.groups.Sound) (event : CatalogueEvent) :
    (c.undergo event).catalogue.groups.Sound := by
  by_cases opens : c.Opens event
  · exact sound.of_opened c.setting (opened_of_opens opens).1
  · by_cases reset : event = .reset
    · subst reset
      exact Variable.GroupTable.sound_empty
    · rw [groups_undergo_of_not_opens opens reset]
      split
      · exact sound.configure _
      · exact sound

/-- **Once there is a table, its exponent stands until it is reset.** -/
theorem exponent_undergo_of_isSome (there : c.catalogue.groups.groups.isSome = true)
    (lasting : event ≠ .reset) :
    (c.undergo event).catalogue.groups.exponent = c.catalogue.groups.exponent ∧
      (c.undergo event).catalogue.groups.groups.isSome = true := by
  by_cases opens : c.Opens event
  · rw [← Variable.GroupTable.opened_of_isSome there c.setting]
    exact opened_of_opens opens
  · rw [groups_undergo_of_not_opens opens lasting]
    cases event with
    | configure exponent =>
      have refused : c.catalogue.groups.configure exponent = c.catalogue.groups := by
        simp [Variable.GroupTable.configure, Option.isSome_iff_ne_none.1 there]
      dsimp only
      rw [refused]
      exact ⟨rfl, there⟩
    | _ => exact ⟨rfl, there⟩

/-- Before there is a table, an event that does not use it leaves the exponent that was chosen
last. -/
theorem exponent_undergo_of_isNone (none : c.catalogue.groups.groups = none)
    (unused : ¬c.Opens event) (lasting : event ≠ .reset) :
    (c.undergo event).catalogue.groups.exponent =
        event.chosen?.or c.catalogue.groups.exponent ∧
      (c.undergo event).catalogue.groups.groups = .none := by
  rw [groups_undergo_of_not_opens unused lasting]
  cases event with
  | configure exponent =>
    simp only [Variable.GroupTable.configure, Variable.GroupTable.leastExponent,
      Variable.GroupTable.greatestExponent, CatalogueEvent.chosen?, none, Option.isNone_none,
      and_true]
    split
    · exact ⟨rfl, rfl⟩
    · exact ⟨rfl, none⟩
  | _ => exact ⟨rfl, none⟩

end Event

/-! ## The size in the course of a history -/

section History
variable {c : Controller} {history : List CatalogueEvent}

theorem sound_undergoAll (sound : c.catalogue.groups.Sound) (history : List CatalogueEvent) :
    (c.undergoAll history).catalogue.groups.Sound :=
  invariant_undergoAll (P := fun d => d.catalogue.groups.Sound)
    (fun event sound => sound_undergo sound event) history sound

theorem exponent_undergoAll_of_isSome (there : c.catalogue.groups.groups.isSome = true)
    (lasting : .reset ∉ history) :
    (c.undergoAll history).catalogue.groups.exponent = c.catalogue.groups.exponent := by
  induction history generalizing c with
  | nil => rfl
  | cons event rest ih =>
    rw [List.mem_cons, not_or] at lasting
    obtain ⟨exponent, still⟩ := exponent_undergo_of_isSome there (Ne.symm lasting.1)
    rw [undergoAll_cons, ih still lasting.2, exponent]

theorem exponent_undergoAll_of_unused (none : c.catalogue.groups.groups = none)
    (unused : c.Unused history) :
    (c.undergoAll history).catalogue.groups.exponent =
      (history.filterMap CatalogueEvent.chosen?).getLast?.or c.catalogue.groups.exponent := by
  induction history generalizing c with
  | nil => rfl
  | cons event rest ih =>
    obtain ⟨idle, lasting, unused⟩ := unused
    obtain ⟨exponent, still⟩ := exponent_undergo_of_isNone none idle lasting
    have last : ((event :: rest).filterMap CatalogueEvent.chosen?).getLast? =
        (rest.filterMap CatalogueEvent.chosen?).getLast?.or event.chosen? := by
      cases chosen : event.chosen? with
      | none => rw [List.filterMap_cons_none chosen, Option.or_none]
      | some k =>
        rw [List.filterMap_cons_some chosen, List.getLast?_cons]
        cases (rest.filterMap CatalogueEvent.chosen?).getLast? <;> rfl
    rw [undergoAll_cons, ih still unused, exponent, last, Option.or_assoc]

/-- **The size of the table of groups is fixed when it is first used.**  Drivers choose sizes,
register and look up, records are connected, the environment changes and the table is reset, in
any order and any number of times.  Then the size is a power of two in the permitted range, and
who chooses a size is told the size from then on.  Until the table is first used after a reset,
the size is the permitted one that was chosen last since then, or the one that the environment
asks for at the moment if none was.  The size at a use of the table is the size until the next
reset, whatever is chosen and whatever the environment says. -/
theorem table_size_is_fixed_by_first_use (c : Controller) (history : List CatalogueEvent) :
    let d := c.reset.undergoAll history
    (∃ k, 8 ≤ k ∧ k ≤ 16 ∧ d.tableSize = 2 ^ k) ∧
    (∀ exponent, (d.configureGroups exponent).1 =
      (d.undergo (.configure exponent)).tableSize) ∧
    (∀ since, d.reset.Unused since →
      let now := d.reset.undergoAll since
      now.tableSize = 2 ^ ((since.filterMap CatalogueEvent.chosen?).getLast?.getD
        (max 8 (min 16 ((now.setting.bind Variable.GroupTable.requested?).getD 9))))) ∧
    ∀ use more, d.Opens use → .reset ∉ more →
      ((d.undergo use).undergoAll more).tableSize = d.tableSize := by
  intro d
  have sound : d.catalogue.groups.Sound :=
    sound_undergoAll (c := c.reset) Variable.GroupTable.sound_empty history
  have size (e : Controller) :
      e.tableSize = 2 ^ e.catalogue.groups.currentExponent e.setting :=
    Nat.one_shiftLeft _
  refine ⟨⟨_, (sound.permitted_currentExponent d.setting).1,
    (sound.permitted_currentExponent d.setting).2, size d⟩, fun _ => rfl, fun since unused => ?_,
    fun use more opens lasting => ?_⟩
  · have exponent := exponent_undergoAll_of_unused (c := d.reset) rfl unused
    have fresh : d.reset.catalogue.groups.exponent = none := rfl
    rw [fresh, Option.or_none] at exponent
    intro now
    rw [size, Variable.GroupTable.currentExponent, exponent]
    rfl
  · obtain ⟨exponent, there⟩ := opened_of_opens opens
    have stands := exponent_undergoAll_of_isSome there lasting
    rw [exponent, sound.exponent_opened] at stands
    rw [size, size, Variable.GroupTable.currentExponent, stands, Option.getD_some]

/-- The environment asks for less than is permitted, and gets the least size at first use.  After
a reset the last permitted choice counts, the environment or not. -/
theorem table_size_of_late_choice :
    let d := ({} : Controller).reset.undergoAll [.configure 20, .setEnvironment (some "3")]
    d.Opens (.find .groups "pump") ∧
      ((d.undergo (.find .groups "pump")).undergoAll
        [.configure 10, .setEnvironment (some "12")]).tableSize = 256 ∧
      d.reset.Unused [.configure 12, .setEnvironment (some "9"), .configure 7] ∧
      (d.reset.undergoAll
        [.configure 12, .setEnvironment (some "9"), .configure 7]).tableSize = 4096 := by
  intro d
  obtain ⟨-, -, before, after⟩ :=
    table_size_is_fixed_by_first_use {} [.configure 20, .setEnvironment (some "3")]
  have opens : d.Opens (.find .groups "pump") := trivial
  have unused : d.reset.Unused [.configure 12, .setEnvironment (some "9"), .configure 7] := by
    simp [Unused, Opens]
  refine ⟨opens, (after _ _ opens (by simp)).trans ?_, unused, (before _ unused).trans ?_⟩
  · decide +kernel
  · decide +kernel

end History

end Controller

end ControlRecords
