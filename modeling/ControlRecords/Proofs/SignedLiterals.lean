import ControlRecords.Proofs.Literals
import ControlRecords.Text

/-! # Signed literals

A signed literal is a literal behind at most one sign (`SignedLiteral`).  Reading one reads the
literal as a whole and keeps what leaves room for a sign (`signed?_eq_some_nil_iff`).  The room is
the same on both sides of zero: the magnitude is compared with `2 ^ 63` before it is negated, so
the least signed 64-bit number is the only one that is not read (`signed_literals_are_read`,
`least_number_is_not_read`). -/
namespace ControlRecords.Numeral

/-- The text is one complete literal behind at most one sign, and names the number. -/
inductive SignedLiteral : List Char → Int → Prop
  | unsigned {base v : Nat} {cs : List Char} (reads : Literal base cs v) : SignedLiteral cs v
  | positive {base v : Nat} {cs : List Char} (reads : Literal base cs v) :
      SignedLiteral ('+' :: cs) v
  | negative {base v : Nat} {cs : List Char} (reads : Literal base cs v) :
      SignedLiteral ('-' :: cs) (-v)

/-- A decimal digit is no sign. -/
theorem sign_of_isDigit {c : Char} {cs : List Char} (h : isDigit 10 c = true) :
    sign (c :: cs) = (false, c :: cs) := by
  unfold sign
  split
  · rename_i split
    obtain rfl := (List.cons.inj split).1
    exact absurd h (by decide)
  · rename_i split
    obtain rfl := (List.cons.inj split).1
    exact absurd h (by decide)
  · rfl

theorem Literal.sign {base v : Nat} {cs : List Char} (h : Literal base cs v) :
    Numeral.sign cs = (false, cs) := by
  obtain ⟨c, tail, rfl, digit⟩ := h.exists_cons
  exact sign_of_isDigit digit

/-- A signed literal is a sign, if there is one, and a literal. -/
theorem signedLiteral_iff {cs : List Char} {n : Int} : SignedLiteral cs n ↔
    ∃ base v, Literal base (sign cs).2 v ∧ n = if (sign cs).1 then -(v : Int) else v := by
  constructor
  · intro h
    cases h with
    | unsigned reads => exact ⟨_, _, by rw [reads.sign]; exact reads, by rw [reads.sign]; rfl⟩
    | positive reads => exact ⟨_, _, reads, rfl⟩
    | negative reads => exact ⟨_, _, reads, rfl⟩
  · rintro ⟨base, v, reads, rfl⟩
    unfold Numeral.sign at reads ⊢
    split at reads
    · exact .negative reads
    · exact .positive reads
    · exact .unsigned reads

/-- A literal is read as a whole if it fits, and not at all otherwise. -/
theorem complete_unsigned?_of_literal {base v : Nat} {cs : List Char} (h : Literal base cs v) :
    complete (unsigned? cs) = if v < limit then some v else none := by
  rw [unsigned?_of_longest h.longest_self]
  split
  · rfl
  · split
    · -- the mark of a hexadecimal literal is left behind its `0`
      rename_i sixteen
      subst sixteen
      obtain ⟨x, digits, -, rfl⟩ := h.exists_mark
      rfl
    · rfl

/-- The literal behind the sign is read as a whole, and kept if it leaves room for a sign. -/
theorem signedOfText?_eq_bind (s : String) :
    signedOfText? s = (complete (unsigned? (sign s.toList).2)).bind fun v =>
      if v < 2 ^ 63 then some (if (sign s.toList).1 then -(v : Int) else v) else none := by
  have half : limit / 2 = 2 ^ 63 := rfl
  rw [signedOfText?, signed?]
  dsimp only
  cases unsigned? (sign s.toList).2 with
  | none => rfl
  | some reading =>
    obtain ⟨v, rest⟩ := reading
    simp only [Option.bind_eq_bind, Option.bind_some, half]
    by_cases room : v < 2 ^ 63
    · simp only [if_pos room]
      cases rest with
      | nil => exact (if_pos room).symm
      | cons => rfl
    · simp only [if_neg room]
      cases rest with
      | nil => exact (if_neg room).symm
      | cons => rfl

/-- **A signed literal is read if its magnitude leaves room for a sign, on either side of zero.** -/
theorem signedOfText?_of_signedLiteral {s : String} {n : Int} (h : SignedLiteral s.toList n) :
    signedOfText? s = if n.natAbs < 2 ^ 63 then some n else none := by
  obtain ⟨base, v, reads, rfl⟩ := signedLiteral_iff.1 h
  have magnitude : (if (sign s.toList).1 then -(v : Int) else v).natAbs = v := by
    split <;> simp
  have room : (2 : Nat) ^ 63 < limit := by decide
  rw [signedOfText?_eq_bind, complete_unsigned?_of_literal reads, magnitude]
  by_cases small : v < 2 ^ 63
  · rw [if_pos (by omega), Option.bind_some]
  · rw [if_neg small]
    split
    · exact if_neg small
    · rfl

theorem signedOfText?_eq_some_iff {s : String} {n : Int} :
    signedOfText? s = some n ↔ SignedLiteral s.toList n ∧ n.natAbs < 2 ^ 63 := by
  constructor
  · intro read
    have signed : SignedLiteral s.toList n := by
      rw [signedOfText?_eq_bind, Option.bind_eq_some_iff] at read
      obtain ⟨v, whole, kept⟩ := read
      obtain ⟨base, reads, -⟩ := unsigned?_eq_some_nil_iff.1 (complete_eq_some_iff.1 whole)
      split at kept
      · exact signedLiteral_iff.2 ⟨base, v, reads, (Option.some.inj kept).symm⟩
      · contradiction
    rw [signedOfText?_of_signedLiteral signed] at read
    by_contra great
    rw [if_neg fun small => great ⟨signed, small⟩] at read
    contradiction
  · rintro ⟨signed, small⟩
    rw [signedOfText?_of_signedLiteral signed, if_pos small]

theorem isBlank_of_isLiteralChar {c : Char} (h : IsLiteralChar c) : Text.isBlank c = false := by
  have table : ∀ n < 121, IsLiteralChar (Char.ofNat n) → Text.isBlank (Char.ofNat n) = false := by
    decide
  have small : c.toNat < 121 := by
    rcases h with digit | rfl | rfl
    · unfold isDigit at digit
      split at digit
      · rename_i value
        exact (toNat_lt_of_digitValue? value).trans (by decide)
      · contradiction
    · decide
    · decide
  have := table c.toNat small
  rw [Char.ofNat_toNat] at this
  exact this h

/-- No blank stands in a signed literal. -/
theorem SignedLiteral.forall_mem {cs : List Char} {n : Int} (h : SignedLiteral cs n) :
    ∀ c ∈ cs, Text.isBlank c = false := by
  cases h with
  | unsigned reads => exact fun c mem => isBlank_of_isLiteralChar (reads.forall_mem c mem)
  | positive reads | negative reads =>
    exact List.forall_mem_cons.2
      ⟨rfl, fun c mem => isBlank_of_isLiteralChar (reads.forall_mem c mem)⟩

theorem trim_of_signedLiteral {s : String} {n : Int} (h : SignedLiteral s.toList n) :
    Text.trim s = s :=
  Text.trim_eq_self h.forall_mem

/-! The texts of numbers. -/

/-- The digits of a number start with zero only if it is zero. -/
theorem head?_toDigits {n : Nat} (positive : 0 < n) : (Nat.toDigits 10 n).head? ≠ some '0' := by
  -- The first digit is that of the quotient, which is smaller.
  induction n using Nat.strong_induction_on with
  | _ n ih =>
    by_cases single : n < 10
    · rw [Nat.toDigits_of_lt_base single]
      simpa using Nat.pos_iff_ne_zero.1 positive
    · have front := ih (n / 10) (by omega) (by omega)
      rw [Nat.toDigits_of_base_le (by decide) (by omega),
        List.head?_append_of_ne_nil _ Nat.toDigits_ne_nil]
      exact front

/-- The digits of a number are a literal, an octal one for zero and a decimal one otherwise. -/
theorem literal_toDigits (n : Nat) : ∃ base, Literal base (Nat.toDigits 10 n) n := by
  rcases Nat.eq_zero_or_pos n with rfl | positive
  · exact ⟨8, .octal .nothing⟩
  · have spells := spells_toDigits (by decide : 1 < 10) n
    have nonzero := head?_toDigits positive
    cases digits : Nat.toDigits 10 n with
    | nil => exact absurd digits Nat.toDigits_ne_nil
    | cons c tail =>
      rw [digits] at spells nonzero
      exact ⟨10, .decimal (by simpa using nonzero) spells⟩

/-- A number in decimal is a signed literal. -/
theorem signedLiteral_toString (n : Int) : SignedLiteral (toString n).toList n := by
  cases n with
  | ofNat v =>
    obtain ⟨base, reads⟩ := literal_toDigits v
    have text : (toString (Int.ofNat v)).toList = Nat.toDigits 10 v := Nat.toList_repr
    rw [text]
    exact .unsigned reads
  | negSucc v =>
    obtain ⟨base, reads⟩ := literal_toDigits (v + 1)
    have text : (toString (Int.negSucc v)).toList = '-' :: Nat.toDigits 10 (v + 1) := by
      rw [show toString (Int.negSucc v) = "-" ++ (v + 1).repr from rfl]
      simp [Nat.toList_repr]
    rw [text]
    exact .negative reads

/-- The sign of a number as it is written. -/
def signText (n : Int) : String := if n < 0 then "-" else ""

/-- A number in hexadecimal, behind its sign, is a signed literal. -/
theorem signedLiteral_hexText (n : Int) :
    SignedLiteral (signText n ++ hexText n.natAbs).toList n := by
  have reads : Literal 16 (hexText n.natAbs).toList n.natAbs := by
    have text : (hexText n.natAbs).toList = '0' :: 'x' :: Nat.toDigits 16 n.natAbs := by
      simp [hexText]
    rw [text]
    exact .hexadecimal (Or.inl rfl) Nat.toDigits_ne_nil (spells_toDigits (by decide) _)
  rw [String.toList_append, signText]
  split
  · rename_i negative
    have value : -(n.natAbs : Int) = n := by omega
    have signed : SignedLiteral ('-' :: (hexText n.natAbs).toList) (-n.natAbs) := .negative reads
    rwa [value] at signed
  · have value : (n.natAbs : Int) = n := by omega
    have unsigned : SignedLiteral (hexText n.natAbs).toList n.natAbs := .unsigned reads
    rwa [value] at unsigned

/-- **Every signed number of at most 63 bits is read, in decimal and in hexadecimal, and nothing
but signed literals is read.**  So of the signed 64-bit numbers only the least one is not read. -/
theorem signed_literals_are_read (n : Int) :
    (signedOfText? (toString n) = if n.natAbs < 2 ^ 63 then some n else none) ∧
    (signedOfText? (signText n ++ hexText n.natAbs) =
      if n.natAbs < 2 ^ 63 then some n else none) ∧
    ∀ s, signedOfText? s = some n ↔ SignedLiteral s.toList n ∧ n.natAbs < 2 ^ 63 :=
  ⟨signedOfText?_of_signedLiteral (signedLiteral_toString n),
    signedOfText?_of_signedLiteral (signedLiteral_hexText n), fun _ => signedOfText?_eq_some_iff⟩

/-- The least signed 64-bit number is written as a signed literal in both notations, and read in
neither. -/
theorem least_number_is_not_read :
    let least : Int := -2 ^ 63
    toString least = "-9223372036854775808" ∧
      signText least ++ hexText least.natAbs = "-0x8000000000000000" ∧
      SignedLiteral "-9223372036854775808".toList least ∧
      SignedLiteral "-0x8000000000000000".toList least ∧
      signedOfText? "-9223372036854775808" = none ∧
      signedOfText? "-0x8000000000000000" = none := by
  intro least
  have decimal : toString least = "-9223372036854775808" := by decide
  have hexadecimal : signText least ++ hexText least.natAbs = "-0x8000000000000000" := by decide
  refine ⟨decimal, hexadecimal, ?_, ?_, by decide, by decide⟩
  · rw [← decimal]
    exact signedLiteral_toString least
  · rw [← hexadecimal]
    exact signedLiteral_hexText least

end ControlRecords.Numeral
