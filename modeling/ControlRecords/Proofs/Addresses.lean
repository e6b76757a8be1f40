import ControlRecords.Proofs.Devices

/-! # The address that a link names

A hardware link is resolved to base plus card times two to the signal plus offset.  The address
is computed in words of 64 bits: a shift that must not lose a bit, and two sums that must not be
too large (`channel?_eq_some_iff`, `sum?_eq_some_iff`).  Each step is exact or refused, and what
is refused on the way is too large in the end, so that the address is the number itself whenever
it fits (`address?_eq_some_iff`).  Every other way to fail comes before the device is looked up, so
that the registries stay as they are; only the device of a numeric base may have been created
when the address turns out to be too large (`hardware_links_name_exact_addresses`). -/
namespace ControlRecords.Register

/-! Three steps in words of 64 bits. -/

section Steps
variable {base offset address : Nat} {card signal : UInt32} {channel : UInt64}

theorem toNat_channel (small : signal.toNat < 64) :
    (card.toUInt64 <<< signal.toUInt64).toNat = card.toNat * 2 ^ signal.toNat % 2 ^ 64 := by
  rw [UInt64.toNat_shiftLeft, UInt32.toNat_toUInt64, UInt32.toNat_toUInt64,
    Nat.mod_eq_of_lt small, Nat.shiftLeft_eq]

/-- Shifting back yields the card number exactly when its multiple fits a word. -/
theorem shifted_back_iff (small : signal.toNat < 64) :
    (card.toUInt64 <<< signal.toUInt64) >>> signal.toUInt64 = card.toUInt64 ↔
      card.toNat * 2 ^ signal.toNat < 2 ^ 64 := by
  have back : ((card.toUInt64 <<< signal.toUInt64) >>> signal.toUInt64).toNat =
      card.toNat * 2 ^ signal.toNat % 2 ^ 64 / 2 ^ signal.toNat := by
    rw [UInt64.toNat_shiftRight, toNat_channel small, UInt32.toNat_toUInt64,
      Nat.mod_eq_of_lt small, Nat.shiftRight_eq_div_pow]
  -- the word has room for the card number in the bits that the shift leaves
  have room : 2 ^ 64 = 2 ^ (64 - signal.toNat) * 2 ^ signal.toNat := by
    rw [← pow_add, Nat.sub_add_cancel small.le]
  have positive : 0 < 2 ^ signal.toNat := Nat.two_pow_pos _
  rw [← UInt64.toNat_inj, back, UInt32.toNat_toUInt64, room, Nat.mul_mod_mul_right,
    Nat.mul_div_cancel _ positive, Nat.mul_lt_mul_right positive]
  exact Nat.mod_eq_iff_lt (Nat.two_pow_pos _).ne'

theorem channel?_eq_some_iff : channel? card signal = some channel ↔
    signal.toNat ≤ 63 ∧ card.toNat * 2 ^ signal.toNat < 2 ^ 64 ∧
      channel.toNat = card.toNat * 2 ^ signal.toNat := by
  unfold channel?
  by_cases small : signal.toNat < 64
  · simp only [if_pos small, shifted_back_iff small]
    by_cases fits : card.toNat * 2 ^ signal.toNat < 2 ^ 64
    · rw [if_pos fits, Option.some.injEq, ← UInt64.toNat_inj, toNat_channel small,
        Nat.mod_eq_of_lt fits]
      exact ⟨fun same => ⟨by omega, fits, same.symm⟩, fun h => h.2.2.symm⟩
    · rw [if_neg fits]
      exact ⟨fun none => by simp at none, fun h => absurd h.2.1 fits⟩
  · rw [if_neg small]
    simp only [reduceCtorEq, false_iff, not_and]
    omega

theorem sum?_eq_some_iff {a b : Nat} :
    sum? a b = some address ↔ a + b < 2 ^ 64 ∧ address = a + b := by
  unfold sum?
  rw [show UInt64.size = 2 ^ 64 from rfl]
  split <;> simp_all [eq_comm]

end Steps

/-- **An address is exact or refused.** -/
theorem address?_eq_some_iff {base offset address : Nat} {card signal : UInt32} :
    address? base card signal offset = some address ↔
      signal.toNat ≤ 63 ∧ base + card.toNat * 2 ^ signal.toNat + offset < 2 ^ 64 ∧
        address = base + card.toNat * 2 ^ signal.toNat + offset := by
  unfold address?
  simp only [Option.bind_eq_bind, Option.bind_eq_some_iff, channel?_eq_some_iff, sum?_eq_some_iff]
  constructor
  · rintro ⟨channel, ⟨small, -, exact⟩, front, ⟨-, rfl⟩, fits, rfl⟩
    rw [exact] at fits ⊢
    exact ⟨small, fits, rfl⟩
  · rintro ⟨small, fits, rfl⟩
    have channel : (UInt64.ofNat (card.toNat * 2 ^ signal.toNat)).toNat =
        card.toNat * 2 ^ signal.toNat := UInt64.toNat_ofNat_of_lt (by
          show _ < 2 ^ 64
          omega)
    refine ⟨_, ⟨small, by omega, channel⟩, _, ⟨by omega, rfl⟩, ?_⟩
    rw [channel]
    exact ⟨fits, rfl⟩

theorem address?_eq_none_iff {base offset : Nat} {card signal : UInt32} :
    address? base card signal offset = none ↔
      ¬(signal.toNat ≤ 63 ∧ base + card.toNat * 2 ^ signal.toNat + offset < 2 ^ 64) := by
  rw [Option.eq_none_iff_forall_ne_some]
  simp only [ne_eq, address?_eq_some_iff, not_and]
  exact ⟨fun h small fits => h _ small fits rfl, fun h _ small fits _ => h small fits⟩

/-! What a link has to name. -/

/-- The token denotes the device: it writes a number whose canonical name the device has, or is
created under, or it is the name of the device. -/
inductive Device.Denotes (devices : Registry Device) (token : String) : Device → Prop
  | registered {n : Nat} {device : Device} (number : Numeral.ofText? token = some n)
      (found : devices.find? (Numeral.canonicalName n) = some device) :
      Denotes devices token device
  | created {n : Nat} (number : Numeral.ofText? token = some n)
      (free : devices.find? (Numeral.canonicalName n) = none) :
      Denotes devices token (.ofAddress n)
  | named {device : Device} (name : Numeral.ofText? token = none)
      (found : devices.find? token = some device) : Denotes devices token device

theorem Device.Denotes.resolve {devices : Registry Device} {token : String} {device : Device}
    (h : Denotes devices token device) : (Device.resolve devices token).1 = some device := by
  cases h with
  | registered number found =>
    simp only [Device.resolve, number]
    rw [Registry.findOrInsert_fst, found, Option.getD_some]
  | created number free =>
    simp only [Device.resolve, number]
    rw [Registry.findOrInsert_fst, free, Option.getD_none]
  | named name found => simp only [Device.resolve, name, found]

/-- Asking for a device leaves the devices as they are, or creates the one of a number. -/
theorem Device.snd_resolve (devices : Registry Device) (token : String) :
    (Device.resolve devices token).2 = devices ∨
      ∃ n free, Numeral.ofText? token = some n ∧ (Device.resolve devices token).2 =
        devices.insert (Numeral.canonicalName n) (.ofAddress n) free := by
  unfold Device.resolve
  split
  · rename_i n number
    simp only [Registry.findOrInsert]
    split
    · exact Or.inl rfl
    · rename_i free
      exact Or.inr ⟨n, free, number, rfl⟩
  · exact Or.inl rfl

/-- The hardware address leads to the device: its parameter has these pieces, the access key and
the scan list among them are known, and the base denotes the device. -/
structure Leads (c : Catalogue) (a : HardwareAddress) (p : Parameter)
    (access : Access) (scan : Option ScanListId) (device : Device) : Prop where
  parameter : Parameter.ofText a.parameter = .ok p
  access : Access.ofKey? c.methods (p.access.getD "") = some access
  scanList : p.scan.map c.scanLists.find? = scan.map some
  device : device.Denotes c.devices p.base

theorem Parameter.lookUp_eq_ok {c : Catalogue} {p : Parameter} {access : Access}
    {scan : Option ScanListId} (key : Access.ofKey? c.methods (p.access.getD "") = some access)
    (list : p.scan.map c.scanLists.find? = scan.map some) : p.lookUp c = .ok (access, scan) := by
  simp only [lookUp, key]
  cases named : p.scan with
  | none =>
    rw [named] at list
    cases scan with
    | none => rfl
    | some _ => simp at list
  | some name =>
    rw [named] at list
    cases scan with
    | none => simp at list
    | some found =>
      have known : c.scanLists.find? name = some found := by simpa using list
      simp only [known]

variable {c : Catalogue} {a : HardwareAddress} {p : Parameter} {access : Access}
  {scan : Option ScanListId} {device : Device}

theorem resolveHardware_of_leads (h : Leads c a p access scan device) :
    resolveHardware c a =
      (match address? device.base a.card a.signal p.offset with
        | some address => .ok { address, access, device := some device, scan }
        | none => .error (.addressOverflow a.card a.signal),
      { c with devices := (Device.resolve c.devices p.base).2 }) := by
  have denoted : Device.resolve c.devices p.base =
      (some device, (Device.resolve c.devices p.base).2) := Prod.ext h.device.resolve rfl
  simp only [resolveHardware, h.parameter, Parameter.lookUp_eq_ok h.access h.scanList]
  rw [denoted]
  dsimp only
  split <;> rename_i sum <;> simp only [sum]

/-- A hardware link fails before the devices are asked, or because the name is no device's, or
because the address is too large. -/
theorem resolveHardware_of_error {e : LinkError} (failed : (resolveHardware c a).1 = .error e) :
    (resolveHardware c a).2 = c ∨
      e = .addressOverflow a.card a.signal ∧ ∃ p, Parameter.ofText a.parameter = .ok p ∧
        (resolveHardware c a).2 = { c with devices := (Device.resolve c.devices p.base).2 } := by
  revert failed
  unfold resolveHardware
  split
  · exact fun _ => Or.inl rfl
  · rename_i p parameter
    split
    · exact fun _ => Or.inl rfl
    · split
      · exact fun _ => Or.inl rfl
      · rename_i device devices denoted
        dsimp only
        split
        · intro failed
          refine Or.inr ⟨(Except.error.inj failed).symm, p, parameter, ?_⟩
          rw [denoted]
        · exact fun done => by simp at done

theorem resolveFor_hardware (c : Catalogue) (a : HardwareAddress) (common : Common) :
    resolveFor c (.hardware a) common =
      match (resolveHardware c a).1 with
      | .ok b => (.ok { b with owner := common.handle }, (resolveHardware c a).2, common)
      | .error e => (.error e, (resolveHardware c a).2, { common with active := true }) := by
  simp only [resolveFor, resolve]
  rcases resolveHardware c a with ⟨_ | _, _⟩ <;> rfl

/-- **Hardware links name exact addresses.**  If the parameter, the access key, the scan list and
the device of a link are all there, the link names the register at the base plus the card times
two to the signal plus the offset, a sum of natural numbers, whenever the signal is at most 63
and the sum is less than two to the 64.  Otherwise the address overflows.  A link that fails for
any reason leaves its record active, and connected as it was.  It leaves the catalogue as it was
too, unless the address overflowed: then the device of a numeric base may have been created under
its canonical name. -/
theorem hardware_links_name_exact_addresses (c : Catalogue) (a : HardwareAddress)
    (common : Common) :
    (∀ p access scan device, Leads c a p access scan device →
      let exact := device.base + a.card.toNat * 2 ^ a.signal.toNat + p.offset
      (resolveFor c (.hardware a) common).1 =
        if a.signal.toNat ≤ 63 ∧ exact < 2 ^ 64 then
          .ok { address := exact, access, device := some device, scan, owner := common.handle }
        else .error (.addressOverflow a.card a.signal)) ∧
    ∀ e, (resolveFor c (.hardware a) common).1 = .error e →
      (resolveFor c (.hardware a) common).2.2 = { common with active := true } ∧
      ((resolveFor c (.hardware a) common).2.1 = c ∨
        e = .addressOverflow a.card a.signal ∧
          ∃ p n free, Parameter.ofText a.parameter = .ok p ∧ Numeral.ofText? p.base = some n ∧
            (resolveFor c (.hardware a) common).2.1 = { c with
              devices := c.devices.insert (Numeral.canonicalName n) (.ofAddress n) free }) := by
  rw [resolveFor_hardware]
  refine ⟨fun p access scan device leads => ?_, fun e failed => ?_⟩
  · dsimp only
    rw [resolveHardware_of_leads leads]
    by_cases fits : a.signal.toNat ≤ 63 ∧
        device.base + a.card.toNat * 2 ^ a.signal.toNat + p.offset < 2 ^ 64
    · rw [address?_eq_some_iff.2 ⟨fits.1, fits.2, rfl⟩, if_pos fits]
    · rw [address?_eq_none_iff.2 fits, if_neg fits]
  · cases outcome : (resolveHardware c a).1 with
    | ok b =>
      rw [outcome] at failed
      simp at failed
    | error e' =>
      rw [outcome] at failed
      obtain rfl := Except.error.inj failed
      refine ⟨rfl, ?_⟩
      rcases resolveHardware_of_error outcome with same | ⟨overflow, p, parameter, devices⟩
      · exact Or.inl same
      · rcases Device.snd_resolve c.devices p.base with kept | ⟨n, free, number, created⟩
        · left
          rw [devices, kept]
        · refine Or.inr ⟨overflow, p, n, free, parameter, number, ?_⟩
          rw [devices, created]

/-- The largest address is named through a number that has no device yet, with a card number
that the shift moves right up to the edge.  With an offset larger by one the address overflows,
and the device has been created. -/
theorem largest_address_is_named :
    let common : Common := { name := "reg" }
    let last : HardwareAddress := ⟨0xFFFFFFFF, 32, "0xFFFFFFFE+1"⟩
    let beyond : HardwareAddress := ⟨0xFFFFFFFF, 32, "0xFFFFFFFE+2"⟩
    let c : Catalogue := {}
    Leads c last ⟨"0xFFFFFFFE", 1, none, none⟩ default none (.ofAddress 0xFFFFFFFE) ∧
    Leads c beyond ⟨"0xFFFFFFFE", 2, none, none⟩ default none (.ofAddress 0xFFFFFFFE) ∧
    (resolveFor c (.hardware last) common).1 =
      .ok { address := 2 ^ 64 - 1, device := some (.ofAddress 0xFFFFFFFE) } ∧
    (resolveFor c (.hardware beyond) common).1 = .error (.addressOverflow 0xFFFFFFFF 32) ∧
    (resolveFor c (.hardware beyond) common).2.2.active = true ∧
    (resolveFor c (.hardware beyond) common).2.1.devices.find? "0xFFFFFFFE" =
      some ⟨"0xFFFFFFFE", 0xFFFFFFFE⟩ := by
  intro common last beyond c
  have number : Numeral.ofText? "0xFFFFFFFE" = some 0xFFFFFFFE := by decide +kernel
  have denotes : Device.Denotes c.devices "0xFFFFFFFE" (.ofAddress 0xFFFFFFFE) :=
    .created number rfl
  have leads : Leads c last ⟨"0xFFFFFFFE", 1, none, none⟩ default none (.ofAddress 0xFFFFFFFE) :=
    ⟨by decide +kernel, rfl, rfl, denotes⟩
  have leads' : Leads c beyond ⟨"0xFFFFFFFE", 2, none, none⟩ default none
      (.ofAddress 0xFFFFFFFE) := ⟨by decide +kernel, rfl, rfl, denotes⟩
  have named := (hardware_links_name_exact_addresses c last common).1 _ _ _ _ leads
  have sum : (Device.ofAddress 0xFFFFFFFE).base + last.card.toNat * 2 ^ last.signal.toNat + 1 =
      2 ^ 64 - 1 := by decide +kernel
  obtain ⟨overflows, failed⟩ := hardware_links_name_exact_addresses c beyond common
  have overflow := (overflows _ _ _ _ leads').trans (if_neg (by decide))
  have left := failed _ overflow
  refine ⟨leads, leads', ?_, overflow, by rw [left.1], ?_⟩
  · rw [named]
    dsimp only
    rw [sum, if_pos (by decide)]
  · decide +kernel

end ControlRecords.Register
