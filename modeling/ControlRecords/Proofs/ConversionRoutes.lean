import ControlRecords.Proofs.SignedLiterals
import ControlRecords.Proofs.Words

/-! # Routes of conversions

A whole number may pass through several types before it arrives: integer types cut it down to
their bits, and texts write it in decimal and have it read again.  Between these the number is
shown by a value, either as what it holds or as its text (`Value.Shows`).  A text shows the number
in full, since no number of 32 bits is too long for a text field and the decimal digits are read as
a literal of the same number (`number_toString`).  An integer type changes the number only above its
own width (`DataType.wrap_emod`).  So along a route that is nowhere narrower than its end, the low
bits that the end has room for never change (`Shows.convertAll`), and the value that arrives is the
one that a single conversion makes (`routes_do_not_matter`). -/
namespace ControlRecords

namespace Text
open Numeral

/-- A whole number of at most 38 digits fits into a text field. -/
theorem clip_toString {n : Int} (small : n.natAbs < 10 ^ 38) : clip (toString n) = toString n := by
  have size : ∀ {v : Nat}, v < 10 ^ 38 → v.repr.utf8ByteSize ≤ 38 := by
    intro v h
    obtain ⟨digits, -⟩ := (spells_iff (by decide)).1 (spells_toDigits (by decide : 1 < 10) v)
    have bytes := utf8ByteSize_ofList fun c mem => utf8Size_of_isDigit (digits c mem)
    rw [Nat.repr_eq_ofList_toDigits, bytes]
    exact (Nat.length_toDigits_le_iff (by decide) (by decide)).2 h
  apply clip_eq_self_iff.2
  cases n with
  | ofNat v => exact (size small).trans (by decide)
  | negSucc v =>
    have text : toString (Int.negSucc v) = "-" ++ (v + 1).repr := rfl
    have digits : (v + 1).repr.utf8ByteSize ≤ 38 := size small
    have sign : "-".utf8ByteSize = 1 := rfl
    rw [text, String.utf8ByteSize_append, sign, fieldLimit]
    omega

end Text

namespace Value
variable {v : Value} {n : Int} {t : DataType}

/-- A whole number is written in decimal. -/
theorem text_of_toInt? (h : v.toInt? = some n) : v.text = toString n := by
  cases v with
  | string | float | double => contradiction
  | _ =>
    obtain rfl := Option.some.inj h
    rfl

/-- What a value of an integer type holds lies in the range of the type. -/
theorem bounds_of_toInt? (h : v.toInt? = some n) : v.type.least ≤ n ∧ n ≤ v.type.greatest := by
  have integer : v.type.isInteger = true := by rw [← toInt?_isSome, h, Option.isSome_some]
  have wrapped := toInt?_ofInt integer n
  rw [ofInt_of_toInt? h, h] at wrapped
  rw [Option.some.inj wrapped]
  exact DataType.wrap_bounds integer n

theorem natAbs_lt_of_toInt? (h : v.toInt? = some n) : n.natAbs < 2 ^ 32 := by
  have range : ∀ t : DataType, -2 ^ 32 < t.least ∧ t.greatest < 2 ^ 32 := by
    intro t
    cases t <;> decide
  have bounds := bounds_of_toInt? h
  have := range v.type
  omega

/-- The decimal text of a number counts as the number. -/
theorem number_toString (small : n.natAbs < 2 ^ 63) :
    (string (toString n)).number = .ok (.whole n) := by
  have signed := Numeral.signedLiteral_toString n
  simp only [number, Numeral.trim_of_signedLiteral signed]
  rw [Numeral.signedOfText?_of_signedLiteral signed, if_pos small]

/-- Only the low bits of a number count for a value that stands for it. -/
theorem ofInt_wrap (integer : t.isInteger = true) (n : Int) : ofInt t (t.wrap n) = ofInt t n := by
  have same := ofInt_of_toInt? (toInt?_ofInt integer n)
  rwa [type_ofInt] at same

/-- The value holds the number, or is its text. -/
def Shows (v : Value) (n : Int) : Prop :=
  v.toInt? = some n ∨ v = string (toString n) ∧ n.natAbs < 2 ^ 32

/-- Into a text field a number goes in full. -/
theorem Shows.convert_string (h : v.Shows n) : v.convert .string = .ok (string (toString n)) := by
  rcases h with holds | ⟨rfl, -⟩
  · have small := natAbs_lt_of_toInt? holds
    have number : v.type ≠ .string := by
      rintro text
      cases v <;> contradiction
    rw [convert, if_neg number, if_pos rfl, ofText, text_of_toInt? holds, Text.clip_toString]
    exact small.trans (by norm_num)
  · exact convert_self _

/-- Into an integer type a number goes with its low bits. -/
theorem Shows.convert_integer (h : v.Shows n) (integer : t.isInteger = true) :
    v.convert t = .ok (ofInt t n) := by
  rcases h with holds | ⟨rfl, small⟩
  · exact convert_eq_ofInt holds integer
  · have text : t ≠ .string := by
      rintro rfl
      contradiction
    rw [convert, if_neg fun same => text same.symm, if_neg text,
      number_toString (small.trans (by norm_num))]

theorem Shows.natAbs_lt (h : v.Shows n) : n.natAbs < 2 ^ 32 := by
  rcases h with holds | ⟨-, small⟩
  · exact natAbs_lt_of_toInt? holds
  · exact small

/-- Conversions one after another. -/
def convertAll (v : Value) (route : List DataType) : Except ConvertError Value :=
  route.foldlM convert v

/-- A step of a route that ends in the type: through texts, and integer types that are no
narrower. -/
def Passes (t u : DataType) : Prop := u = .string ∨ u.isInteger = true ∧ t.bits ≤ u.bits

/-- A step of a route changes no bit that its end has room for. -/
theorem Shows.convert {u : DataType} (h : v.Shows n) (passes : Passes t u) :
    ∃ w m, v.convert u = .ok w ∧ w.Shows m ∧ m % 2 ^ t.bits = n % 2 ^ t.bits := by
  rcases passes with rfl | ⟨integer, wide⟩
  · exact ⟨_, n, h.convert_string, Or.inr ⟨rfl, h.natAbs_lt⟩, rfl⟩
  · have divides : (2 : Int) ^ t.bits ∣ 2 ^ u.bits := pow_dvd_pow 2 wide
    refine ⟨_, u.wrap n, h.convert_integer integer, Or.inl (toInt?_ofInt integer n), ?_⟩
    calc u.wrap n % 2 ^ t.bits = u.wrap n % 2 ^ u.bits % 2 ^ t.bits :=
          (Int.emod_emod_of_dvd _ divides).symm
      _ = n % 2 ^ u.bits % 2 ^ t.bits := by rw [u.wrap_emod]
      _ = n % 2 ^ t.bits := Int.emod_emod_of_dvd _ divides

/-- **Along a route no bit changes that its end has room for.** -/
theorem Shows.convertAll {route : List DataType} (h : v.Shows n) (wide : ∀ u ∈ route, Passes t u) :
    ∃ w m, v.convertAll route = .ok w ∧ w.Shows m ∧ m % 2 ^ t.bits = n % 2 ^ t.bits := by
  induction route generalizing v n with
  | nil => exact ⟨v, n, rfl, h, rfl⟩
  | cons u route ih =>
    obtain ⟨w, m, first, shows_m, same⟩ := h.convert (wide u (by simp))
    obtain ⟨x, k, later, shows_k, same'⟩ := ih shows_m fun u mem => wide u (by simp [mem])
    refine ⟨x, k, ?_, shows_k, same'.trans same⟩
    rw [Value.convertAll, List.foldlM_cons, first]
    exact later

/-- **Integer conversions do not depend on the route.**  From a whole number to an integer type,
through any texts and any integer types that are no narrower, every conversion succeeds, and what
arrives is what a single conversion makes: the number of the type with the same low bits. -/
theorem routes_do_not_matter {route : List DataType} (holds : v.toInt? = some n)
    (integer : t.isInteger = true)
    (wide : ∀ u ∈ route, u = .string ∨ u.isInteger = true ∧ t.bits ≤ u.bits) :
    ∃ w, v.convertAll (route ++ [t]) = .ok w ∧ v.convert t = .ok w ∧ w.type = t ∧
      ∃ m, w.toInt? = some m ∧ t.least ≤ m ∧ m ≤ t.greatest ∧ m ≡ n [ZMOD 2 ^ t.bits] := by
  have start : v.Shows n := Or.inl holds
  obtain ⟨x, k, through, shows_k, same⟩ := start.convertAll wide
  have arrives : v.convertAll (route ++ [t]) = .ok (ofInt t k) := by
    rw [convertAll] at through ⊢
    rw [List.foldlM_append, through]
    show [t].foldlM convert x = _
    rw [List.foldlM_cons, shows_k.convert_integer integer]
    rfl
  have low : ofInt t k = ofInt t n := by
    rw [← ofInt_wrap integer k, DataType.wrap_eq_wrap same, ofInt_wrap integer]
  obtain ⟨least, greatest⟩ := DataType.wrap_bounds integer n
  exact ⟨ofInt t n, low ▸ arrives, start.convert_integer integer, type_ofInt t n, t.wrap n,
    toInt?_ofInt integer n, least, greatest, t.wrap_emod n⟩

/-- A word goes through two texts and a signed type and arrives with its last byte. -/
theorem route_of_negative_word :
    (long (-2)).toInt? = some (-2) ∧ DataType.uchar.isInteger = true ∧
      (∀ u ∈ [DataType.string, .ulong, .string, .short],
        u = .string ∨ u.isInteger = true ∧ DataType.uchar.bits ≤ u.bits) ∧
      ∃ w, (long (-2)).convertAll [.string, .ulong, .string, .short, .uchar] = .ok w ∧
        (long (-2)).convert .uchar = .ok w ∧ w.type = .uchar ∧
        ∃ m, w.toInt? = some m ∧ DataType.uchar.least ≤ m ∧ m ≤ DataType.uchar.greatest ∧
          m ≡ -2 [ZMOD 2 ^ DataType.uchar.bits] := by
  have wide : ∀ u ∈ [DataType.string, .ulong, .string, .short],
      u = .string ∨ u.isInteger = true ∧ DataType.uchar.bits ≤ u.bits := by decide
  exact ⟨rfl, rfl, wide, routes_do_not_matter rfl rfl wide⟩

end Value

end ControlRecords
