import ControlRecords.Octets

/-! The stored form of an array: its elements one behind the other, four octets each, least
significant first, and nothing else. Octets at the end that make up no whole element are
not read. -/
namespace ControlRecords.Archive

/-- The octets of the elements. -/
def encode (values : List UInt32) : List UInt8 := values.flatMap fun v => octets 4 v.toNat

/-- The whole elements that octets hold. -/
def decode : List UInt8 → List UInt32
  | a :: b :: c :: d :: rest => UInt32.ofNat (ofOctets [a, b, c, d]) :: decode rest
  | _ => []

@[simp] theorem encode_nil : encode [] = [] := rfl

@[simp] theorem encode_cons (v : UInt32) (vs : List UInt32) :
    encode (v :: vs) = octets 4 v.toNat ++ encode vs := rfl

@[simp] theorem length_encode (vs : List UInt32) : (encode vs).length = 4 * vs.length := by
  induction vs with
  | nil => rfl
  | cons v vs ih => simp [ih]; omega

theorem decode_encode_append (vs : List UInt32) (rest : List UInt8) :
    decode (encode vs ++ rest) = vs ++ decode rest := by
  induction vs with
  | nil => rfl
  | cons v vs ih =>
    have whole : ofOctets (octets 4 v.toNat) = v.toNat := by
      rw [ofOctets_octets, Nat.mod_eq_of_lt (by simpa using v.toNat_lt)]
    simp only [octets] at whole
    simp only [encode_cons, octets, List.cons_append, List.nil_append, decode, whole, ih,
      UInt32.ofNat_toNat]

end ControlRecords.Archive
