/-! Numbers as octets, least significant first. `octets n v` is the low `n` octets of a
number and `ofOctets` the number that octets stand for; each undoes the other as far as
the width allows. -/
namespace ControlRecords

/-- The low `n` octets of a number, least significant first. -/
def octets : Nat → Nat → List UInt8
  | 0, _ => []
  | n + 1, v => UInt8.ofNat v :: octets n (v / 256)

/-- The number with the given octets, least significant first. -/
def ofOctets : List UInt8 → Nat
  | [] => 0
  | b :: bs => b.toNat + 256 * ofOctets bs

@[simp] theorem length_octets (n v : Nat) : (octets n v).length = n := by
  induction n generalizing v with
  | zero => rfl
  | succ n ih => simp [octets, ih]

theorem ofOctets_octets (n v : Nat) : ofOctets (octets n v) = v % Nat.pow 256 n := by
  induction n generalizing v with
  | zero => simp [octets, ofOctets, Nat.mod_one]
  | succ n ih =>
    have step : Nat.pow 256 (n + 1) = 256 * Nat.pow 256 n := Nat.mul_comm ..
    rw [octets, ofOctets, ih, UInt8.toNat_ofNat', step, Nat.mod_mul]

theorem octets_ofOctets (bs : List UInt8) : octets bs.length (ofOctets bs) = bs := by
  induction bs with
  | nil => rfl
  | cons b bs ih =>
    have := b.toNat_lt
    simp only [List.length_cons, octets, ofOctets]
    rw [show (b.toNat + 256 * ofOctets bs) / 256 = ofOctets bs by omega, ih]
    congr 1
    apply UInt8.toNat_inj.1
    rw [UInt8.toNat_ofNat']
    omega

theorem ofOctets_lt (bs : List UInt8) : ofOctets bs < Nat.pow 256 bs.length := by
  have cut := ofOctets_octets bs.length (ofOctets bs)
  rw [octets_ofOctets] at cut
  rw [cut]
  exact Nat.mod_lt _ (Nat.pow_pos (by decide))

end ControlRecords
