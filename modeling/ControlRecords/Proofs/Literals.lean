import ControlRecords.Proofs.Numerals

/-! # The literals that are read

A text is a literal in one of three ways: `0x` and hexadecimal digits, a `0` and octal digits,
or decimal digits of which the first is not `0` (`Literal`).  The reader tries the ways one after
another, and when the digits of one name a number that does not fit it tries the next on the same
text.  What does not fit when it is read octally does not fit decimally either, since no run of
digits names less in a greater base (`valueOf_le_of_base_le`).  What does not fit when it is read
hexadecimally is read octally with success: the `0` is taken and the rest is left.

So a whole text is read exactly if it is a literal that fits (`literals_are_read_whole`).  In
front of a text the reader takes the longest literal there is, except for a hexadecimal one that
does not fit, in whose place it reads zero (`longest_literal_is_read`). -/
namespace ControlRecords

namespace Text
variable {p : Char → Bool} {run rest : List Char}

/-- A run of characters of a kind is taken whole if none of them follows. -/
theorem takeWhile_run (all : ∀ c ∈ run, p c = true) (stop : ∀ c ∈ rest.head?, p c = false) :
    (run ++ rest).takeWhile p = run := by
  rw [List.takeWhile_append_of_pos all]
  cases rest with
  | nil => simp
  | cons c tail => simp [stop c (by simp)]

theorem dropWhile_run (all : ∀ c ∈ run, p c = true) (stop : ∀ c ∈ rest.head?, p c = false) :
    (run ++ rest).dropWhile p = rest := by
  rw [List.dropWhile_append_of_pos all]
  cases rest with
  | nil => simp
  | cons c tail => simp [stop c (by simp)]

/-- What is left behind a run starts with a character of another kind. -/
theorem head?_dropWhile {cs : List Char} : ∀ c ∈ (cs.dropWhile p).head?, p c = false := by
  intro c first
  have stop := List.head?_dropWhile_not p cs
  rwa [show (cs.dropWhile p).head? = some c from first] at stop

end Text

namespace Numeral

/-! Digits, and what they spell. -/

/-- The character is written for the digit, a letter in either case. -/
def Writes (c : Char) (d : Nat) : Prop := c = Nat.digitChar d ∨ c = (Nat.digitChar d).toUpper

instance (c : Char) (d : Nat) : Decidable (Writes c d) := inferInstanceAs (Decidable (_ ∨ _))

/-- The digits spell the number in the base, most significant digit first. -/
inductive Spells (base : Nat) : List Char → Nat → Prop
  | nothing : Spells base [] 0
  | append {digits : List Char} {n : Nat} {c : Char} {d : Nat} (front : Spells base digits n)
      (small : d < base) (last : Writes c d) : Spells base (digits ++ [c]) (n * base + d)

theorem toNat_lt_of_digitValue? {c : Char} {d : Nat} (h : digitValue? c = some d) :
    c.toNat < 103 := by
  simp only [digitValue?] at h
  split at h
  · omega
  · split at h
    · omega
    · split at h
      · omega
      · contradiction

theorem digitValue?_eq_some_iff {c : Char} {d : Nat} :
    digitValue? c = some d ↔ d < 16 ∧ Writes c d := by
  constructor
  · intro value
    have table : ∀ n < 103, ∀ d ∈ digitValue? (Char.ofNat n), d < 16 ∧ Writes (Char.ofNat n) d := by
      decide
    have this := table c.toNat (toNat_lt_of_digitValue? value)
    rw [Char.ofNat_toNat] at this
    exact this d value
  · rintro ⟨small, rfl | rfl⟩
    · revert d
      decide
    · exact digitValue?_upper small

theorem isDigit_iff {base : Nat} (sixteen : base ≤ 16) {c : Char} :
    isDigit base c = true ↔ ∃ d < base, Writes c d := by
  unfold isDigit
  cases value : digitValue? c with
  | none =>
    simp only [Bool.false_eq_true, false_iff, not_exists, not_and]
    intro d small writes
    rw [digitValue?_eq_some_iff.2 ⟨by omega, writes⟩] at value
    contradiction
  | some d =>
    simp only [decide_eq_true_eq]
    constructor
    · exact fun small => ⟨d, small, (digitValue?_eq_some_iff.1 value).2⟩
    · rintro ⟨e, small, writes⟩
      rw [digitValue?_eq_some_iff.2 ⟨by omega, writes⟩] at value
      obtain rfl := Option.some.inj value
      exact small

/-- **The reader's digits are those that spell, and their value is what they spell.** -/
theorem spells_iff {base : Nat} (sixteen : base ≤ 16) {digits : List Char} {n : Nat} :
    Spells base digits n ↔ (∀ c ∈ digits, isDigit base c = true) ∧ valueOf base digits = n := by
  constructor
  · intro spells
    induction spells with
    | nothing => exact ⟨by simp, rfl⟩
    | append front small last ih =>
      obtain ⟨all, rfl⟩ := ih
      refine ⟨?_, ?_⟩
      · intro c mem
        rcases List.mem_append.1 mem with mem | mem
        · exact all c mem
        · obtain rfl := List.mem_singleton.1 mem
          exact (isDigit_iff sixteen).2 ⟨_, small, last⟩
      · rw [valueOf_append_singleton, digitValue?_eq_some_iff.2 ⟨by omega, last⟩, Option.getD_some]
  · rintro ⟨all, rfl⟩
    induction digits using List.reverseRecOn with
    | nil => exact .nothing
    | append_singleton front c ih =>
      obtain ⟨d, small, writes⟩ := (isDigit_iff sixteen).1 (all c (by simp))
      rw [valueOf_append_singleton, digitValue?_eq_some_iff.2 ⟨by omega, writes⟩, Option.getD_some]
      exact .append (ih fun c mem => all c (by simp [mem])) small writes

/-- Digits that are followed by one more spell another number. -/
theorem Spells.exists_append {base n : Nat} {digits : List Char} (h : Spells base digits n)
    (sixteen : base ≤ 16) {c : Char} (digit : isDigit base c = true) :
    ∃ m, Spells base (digits ++ [c]) m := by
  obtain ⟨d, small, writes⟩ := (isDigit_iff sixteen).1 digit
  exact ⟨_, h.append small writes⟩

theorem spells_valueOf {base : Nat} (sixteen : base ≤ 16) {digits : List Char}
    (all : ∀ c ∈ digits, isDigit base c = true) : Spells base digits (valueOf base digits) :=
  (spells_iff sixteen).2 ⟨all, rfl⟩

/-- The digits of a number spell it. -/
theorem spells_toDigits {base : Nat} (two : 1 < base) (n : Nat) :
    Spells base (Nat.toDigits base n) n := by
  -- All digits but the last are those of the quotient, which is smaller.
  induction n using Nat.strong_induction_on with
  | _ n ih =>
    by_cases single : n < base
    · have last := Spells.nothing.append single (Or.inl rfl)
      rwa [Nat.zero_mul, Nat.zero_add, List.nil_append, ← Nat.toDigits_of_lt_base single] at last
    · have shorter : n / base < n := Nat.div_lt_self (by omega) two
      have small : n % base < base := Nat.mod_lt n (by omega)
      have front := (ih _ shorter).append small (Or.inl rfl)
      rwa [Nat.div_add_mod', ← Nat.toDigits_of_base_le two (by omega)] at front

theorem isDigit_of_base_le {small great : Nat} (h : small ≤ great) {c : Char}
    (digit : isDigit small c = true) : isDigit great c = true := by
  unfold isDigit at digit ⊢
  split at digit
  · simp only [decide_eq_true_eq] at digit ⊢
    omega
  · contradiction

/-- A digit takes a single byte. -/
theorem utf8Size_of_isDigit {base : Nat} {c : Char} (h : isDigit base c = true) :
    c.utf8Size = 1 := by
  unfold isDigit at h
  split at h
  · rename_i value
    have small := toNat_lt_of_digitValue? value
    exact Char.utf8Size_eq_one_iff.2 (UInt32.le_iff_toNat_le.2 (show c.toNat ≤ 127 by omega))
  · contradiction

/-- A space is no digit. -/
theorem isDigit_of_isSpace {c : Char} (h : isSpace c = true) : isDigit 10 c = false := by
  rcases Bool.or_eq_true_iff.1 h with blank | tab
  · rw [eq_of_beq blank]
    rfl
  · rw [eq_of_beq tab]
    rfl

/-! The value of a run of digits, when the base or the run gets greater. -/

theorem valueOf_zero_cons (base : Nat) (digits : List Char) :
    valueOf base ('0' :: digits) = valueOf base digits := by
  simp [valueOf, digitValue?]

/-- No run of digits names less in a greater base. -/
theorem valueOf_le_of_base_le {small great : Nat} (h : small ≤ great) (digits : List Char) :
    valueOf small digits ≤ valueOf great digits := by
  induction digits using List.reverseRecOn with
  | nil => exact le_rfl
  | append_singleton front c ih =>
    rw [valueOf_append_singleton, valueOf_append_singleton]
    exact Nat.add_le_add_right (Nat.mul_le_mul ih h) _

/-- No run of digits names less when more digits follow. -/
theorem valueOf_le_append {base : Nat} (positive : 0 < base) (digits more : List Char) :
    valueOf base digits ≤ valueOf base (digits ++ more) := by
  induction more using List.reverseRecOn with
  | nil => rw [List.append_nil]
  | append_singleton front c ih =>
    rw [← List.append_assoc, valueOf_append_singleton]
    calc valueOf base digits ≤ valueOf base (digits ++ front) := ih
      _ ≤ valueOf base (digits ++ front) * base := Nat.le_mul_of_pos_right _ positive
      _ ≤ _ := Nat.le_add_right _ _

/-! Reading a run of digits that ends where no digit follows. -/

section Runs
variable {base : Nat} {run rest : List Char}

theorem digits?_run (all : ∀ c ∈ run, isDigit base c = true)
    (stop : ∀ c ∈ rest.head?, isDigit base c = false) :
    digits? base (run ++ rest) =
      if valueOf base run < limit then some (valueOf base run, rest) else none := by
  rw [digits?, Text.takeWhile_run all stop, Text.dropWhile_run all stop]

theorem digitsOne?_run (nonempty : run ≠ []) (all : ∀ c ∈ run, isDigit base c = true)
    (stop : ∀ c ∈ rest.head?, isDigit base c = false) :
    digitsOne? base (run ++ rest) = digits? base (run ++ rest) := by
  rw [digitsOne?, Text.takeWhile_run all stop, if_neg (by simpa using nonempty)]

end Runs

/-! Literals, and the longest one in front of a text. -/

/-- The text is one complete literal of the base, and names the number. -/
inductive Literal : Nat → List Char → Nat → Prop
  | hexadecimal {x : Char} {digits : List Char} {n : Nat} (mark : x = 'x' ∨ x = 'X')
      (nonempty : digits ≠ []) (spells : Spells 16 digits n) : Literal 16 ('0' :: x :: digits) n
  | octal {digits : List Char} {n : Nat} (spells : Spells 8 digits n) :
      Literal 8 ('0' :: digits) n
  | decimal {first : Char} {digits : List Char} {n : Nat} (nonzero : first ≠ '0')
      (spells : Spells 10 (first :: digits) n) : Literal 10 (first :: digits) n

/-- The text starts with the literal, `rest` follows, and no literal in front of the text is
longer. -/
structure Longest (cs : List Char) (base : Nat) (literal : List Char) (n : Nat)
    (rest : List Char) : Prop where
  split : literal ++ rest = cs
  reads : Literal base literal n
  longest : ∀ {base' : Nat} {other : List Char} {m : Nat}, Literal base' other m →
    other <+: cs → other.length ≤ literal.length

/-- A text with a literal in front has a longest one there. -/
theorem exists_longest {cs literal : List Char} {base n : Nat} (reads : Literal base literal n)
    (front : literal <+: cs) : ∃ base literal n rest, Longest cs base literal n rest := by
  classical
  let P : Nat → Prop := fun k => ∃ base literal n, Literal base literal n ∧ literal <+: cs ∧
    literal.length = k
  obtain ⟨base, literal, n, reads, ⟨rest, split⟩, length⟩ : P (Nat.findGreatest P cs.length) :=
    Nat.findGreatest_spec front.length_le ⟨_, _, _, reads, front, rfl⟩
  refine ⟨base, literal, n, rest, split, reads, fun {_ other _} reads front => ?_⟩
  rw [length]
  exact Nat.le_findGreatest front.length_le ⟨_, _, _, reads, front, rfl⟩

/-- Nothing that follows the longest literal continues it to a literal. -/
theorem Longest.not_literal_append {cs literal rest tail : List Char} {base n : Nat}
    (h : Longest cs base literal n rest) (more : List Char) (follows : rest = more ++ tail)
    (nonempty : more ≠ []) {base' m : Nat} : ¬Literal base' (literal ++ more) m := by
  intro reads
  have longer := h.longest reads ⟨tail, by rw [List.append_assoc, ← follows, h.split]⟩
  have : 0 < more.length := List.length_pos_iff.2 nonempty
  rw [List.length_append] at longer
  omega

/-- A character that stands in literals. -/
def IsLiteralChar (c : Char) : Prop := isDigit 16 c = true ∨ c = 'x' ∨ c = 'X'

instance (c : Char) : Decidable (IsLiteralChar c) := inferInstanceAs (Decidable (_ ∨ _ ∨ _))

theorem Literal.forall_mem {cs : List Char} {base n : Nat} (h : Literal base cs n) :
    ∀ c ∈ cs, IsLiteralChar c := by
  have digits : ∀ {base ds m}, base ≤ 16 → Spells base ds m → ∀ c ∈ ds, IsLiteralChar c :=
    fun sixteen spells c mem =>
      Or.inl (isDigit_of_base_le sixteen (((spells_iff sixteen).1 spells).1 c mem))
  have zero : IsLiteralChar '0' := Or.inl rfl
  cases h with
  | hexadecimal mark _ spells =>
    exact List.forall_mem_cons.2 ⟨zero, List.forall_mem_cons.2
      ⟨Or.inr mark, digits (by decide) spells⟩⟩
  | octal spells => exact List.forall_mem_cons.2 ⟨zero, digits (by decide) spells⟩
  | decimal _ spells => exact digits (by decide) spells

/-- A literal starts with a decimal digit. -/
theorem Literal.exists_cons {cs : List Char} {base n : Nat} (h : Literal base cs n) :
    ∃ c tail, cs = c :: tail ∧ isDigit 10 c = true := by
  cases h with
  | hexadecimal => exact ⟨_, _, rfl, rfl⟩
  | octal => exact ⟨_, _, rfl, rfl⟩
  | decimal _ spells =>
    exact ⟨_, _, rfl, ((spells_iff (by decide)).1 spells).1 _ (by simp)⟩

theorem Literal.exists_mark {cs : List Char} {n : Nat} (h : Literal 16 cs n) :
    ∃ x digits, (x = 'x' ∨ x = 'X') ∧ cs = '0' :: x :: digits := by
  cases h with
  | hexadecimal mark => exact ⟨_, _, mark, rfl⟩

/-- A literal is the longest one in front of a text if none of its characters follows. -/
theorem Literal.longest {cs rest : List Char} {base n : Nat} (h : Literal base cs n)
    (stop : ∀ c ∈ rest.head?, ¬IsLiteralChar c) : Longest (cs ++ rest) base cs n rest := by
  refine ⟨rfl, h, fun {_ other _} reads front => ?_⟩
  by_contra longer
  obtain ⟨more, rfl⟩ := List.prefix_of_prefix_length_le (List.prefix_append cs rest) front
    (by omega)
  have follows : more <+: rest := (List.prefix_append_right_inj cs).1 front
  cases more with
  | nil => simp at longer
  | cons c more =>
    obtain ⟨tail, rfl⟩ := follows
    exact stop c (by simp) (reads.forall_mem c (by simp))

theorem Literal.longest_self {cs : List Char} {base n : Nat} (h : Literal base cs n) :
    Longest cs base cs n [] := by
  have longest : Longest (cs ++ []) base cs n [] := h.longest (by simp)
  rwa [List.append_nil] at longest

/-! What the reader makes of the longest literal. -/

theorem hexadecimal?_of_ne {c : Char} {cs : List Char} (h : c ≠ '0') :
    hexadecimal? (c :: cs) = none := by
  unfold hexadecimal?
  split <;> simp_all

theorem octal?_of_ne {c : Char} {cs : List Char} (h : c ≠ '0') : octal? (c :: cs) = none := by
  unfold octal?
  split <;> simp_all

theorem hexadecimal?_of_mark {x : Char} {cs : List Char} (mark : x = 'x' ∨ x = 'X') :
    hexadecimal? ('0' :: x :: cs) = digitsOne? 16 cs := by
  rcases mark with rfl | rfl <;> rfl

/-- Without a mark, or without a digit behind it, no hexadecimal literal is read. -/
theorem hexadecimal?_eq_none {cs : List Char}
    (h : ∀ x c tail, cs = x :: c :: tail → x = 'x' ∨ x = 'X' → isDigit 16 c = false) :
    hexadecimal? ('0' :: cs) = none := by
  have empty : ∀ {x tail}, cs = x :: tail → x = 'x' ∨ x = 'X' → digitsOne? 16 tail = none := by
    intro x tail split mark
    rw [digitsOne?, if_pos]
    cases tail with
    | nil => rfl
    | cons c tail => simp [h x c tail split mark]
  unfold hexadecimal?
  split
  · rename_i split
    exact empty (List.cons.inj split).2 (Or.inl rfl)
  · rename_i split
    exact empty (List.cons.inj split).2 (Or.inr rfl)
  · rfl

/-- The digits of the longest literal end where no digit follows. -/
theorem Longest.stop {cs literal rest : List Char} {base n : Nat}
    (h : Longest cs base literal n rest)
    (continues : ∀ c, isDigit base c = true → ∃ m, Literal base (literal ++ [c]) m) :
    ∀ c ∈ rest.head?, isDigit base c = false := by
  intro c first
  by_contra digit
  obtain ⟨m, reads⟩ := continues c (by simpa using digit)
  obtain ⟨tail, rfl⟩ := List.head?_eq_some_iff.1 first
  exact h.not_literal_append [c] rfl (by simp) reads

/-- A hexadecimal literal that does not fit leaves its `0` to the next way of reading. -/
theorem unsigned?_of_longest_hexadecimal {cs literal rest : List Char} {n : Nat}
    (h : Longest cs 16 literal n rest) :
    unsigned? cs = if n < limit then some (n, rest) else some (0, cs.tail) := by
  obtain ⟨split, reads, -⟩ := id h
  cases reads with
  | @hexadecimal x digits _ mark nonempty spells =>
    obtain ⟨all, rfl⟩ := (spells_iff (by decide)).1 spells
    have stop := h.stop fun c digit =>
      (spells.exists_append (by decide) digit).imp fun _ => .hexadecimal mark (by simp)
    obtain rfl : '0' :: x :: (digits ++ rest) = cs := split
    have zero : octal? ('0' :: x :: (digits ++ rest)) = some (0, x :: (digits ++ rest)) := by
      have : isDigit 8 x = false := by rcases mark with rfl | rfl <;> decide
      simp [octal?, digits?, this, valueOf, limit, UInt64.size]
    rw [unsigned?, hexadecimal?_of_mark mark, digitsOne?_run nonempty all stop,
      digits?_run all stop, zero]
    split <;> rfl

/-- Octal digits that do not fit do not fit decimally either, however many decimal digits
follow. -/
theorem decimal?_eq_none_of_octal {digits rest : List Char}
    (all : ∀ c ∈ digits, isDigit 8 c = true) (great : limit ≤ valueOf 8 digits) :
    decimal? ('0' :: (digits ++ rest)) = none := by
  have decimal : ∀ c ∈ '0' :: digits, isDigit 10 c = true := by
    intro c mem
    rcases List.mem_cons.1 mem with rfl | mem
    · rfl
    · exact isDigit_of_base_le (by decide) (all c mem)
  have run : ('0' :: (digits ++ rest)).takeWhile (isDigit 10) =
      '0' :: digits ++ rest.takeWhile (isDigit 10) := List.takeWhile_append_of_pos decimal
  have greater : limit ≤ valueOf 10 ('0' :: digits ++ rest.takeWhile (isDigit 10)) :=
    calc limit ≤ valueOf 8 digits := great
      _ ≤ valueOf 10 digits := valueOf_le_of_base_le (by decide) digits
      _ = valueOf 10 ('0' :: digits) := (valueOf_zero_cons 10 digits).symm
      _ ≤ _ := valueOf_le_append (by decide) _ _
  rw [decimal?, digitsOne?, digits?, run, if_neg (Nat.not_lt.2 greater), ite_self]

theorem unsigned?_of_longest_octal {cs literal rest : List Char} {n : Nat}
    (h : Longest cs 8 literal n rest) :
    unsigned? cs = if n < limit then some (n, rest) else none := by
  obtain ⟨split, reads, -⟩ := id h
  cases reads with
  | @octal digits _ spells =>
    obtain ⟨all, rfl⟩ := (spells_iff (by decide)).1 spells
    have stop := h.stop fun c digit =>
      (spells.exists_append (by decide) digit).imp fun _ => .octal
    obtain rfl : '0' :: (digits ++ rest) = cs := split
    have unmarked : hexadecimal? ('0' :: (digits ++ rest)) = none := by
      apply hexadecimal?_eq_none
      intro x c tail marked mark
      cases digits with
      | nil =>
        by_contra digit
        have hexadecimal : ∀ e ∈ [c], isDigit 16 e = true := by simpa using digit
        exact h.not_literal_append [x, c] marked (by simp)
          (.hexadecimal mark (by simp) (spells_valueOf (by decide) hexadecimal))
      | cons d digits =>
        -- a mark is no octal digit
        obtain rfl := (List.cons.inj marked).1
        have := all d (by simp)
        rcases mark with rfl | rfl <;> contradiction
    rw [unsigned?, unmarked, octal?, digits?_run all stop]
    split
    · rfl
    · rename_i great
      rw [decimal?_eq_none_of_octal all (Nat.not_lt.1 great)]
      rfl

theorem unsigned?_of_longest_decimal {cs literal rest : List Char} {n : Nat}
    (h : Longest cs 10 literal n rest) :
    unsigned? cs = if n < limit then some (n, rest) else none := by
  obtain ⟨split, reads, -⟩ := id h
  cases reads with
  | @decimal first digits _ nonzero spells =>
    obtain ⟨all, rfl⟩ := (spells_iff (by decide)).1 spells
    have stop := h.stop fun c digit =>
      (spells.exists_append (by decide) digit).imp fun _ => .decimal nonzero
    obtain rfl : first :: (digits ++ rest) = cs := split
    have run := (digitsOne?_run (by simp) all stop).trans (digits?_run all stop)
    rw [unsigned?, hexadecimal?_of_ne nonzero, octal?_of_ne nonzero]
    simpa [decimal?] using run

/-- Where no literal starts, nothing is read. -/
theorem unsigned?_of_no_literal {cs : List Char}
    (h : ∀ base literal n, literal <+: cs → ¬Literal base literal n) : unsigned? cs = none := by
  cases cs with
  | nil => rfl
  | cons c tail =>
    have nonzero : c ≠ '0' := by
      rintro rfl
      exact h 8 ['0'] 0 ⟨tail, rfl⟩ (.octal .nothing)
    have nodigit : isDigit 10 c = false := by
      by_contra digit
      have all : ∀ e ∈ [c], isDigit 10 e = true := by simpa using digit
      exact h 10 [c] _ ⟨tail, rfl⟩ (.decimal nonzero (spells_valueOf (by decide) all))
    rw [unsigned?, hexadecimal?_of_ne nonzero, octal?_of_ne nonzero, decimal?, digitsOne?]
    simp [nodigit]

/-- The longest literal is read if it fits.  Otherwise nothing is read, or the `0` of a
hexadecimal one. -/
theorem unsigned?_of_longest {cs literal rest : List Char} {base n : Nat}
    (h : Longest cs base literal n rest) :
    unsigned? cs = if n < limit then some (n, rest)
      else if base = 16 then some (0, cs.tail) else none := by
  cases id h.reads with
  | hexadecimal => exact unsigned?_of_longest_hexadecimal h
  | octal => exact unsigned?_of_longest_octal h
  | decimal => exact unsigned?_of_longest_decimal h

/-- What is read is the longest literal, or the `0` of a hexadecimal one that does not fit. -/
theorem unsigned?_eq_some_iff {cs tail : List Char} {v : Nat} :
    unsigned? cs = some (v, tail) ↔ ∃ base literal n rest, Longest cs base literal n rest ∧
      (n < limit ∧ v = n ∧ tail = rest ∨ limit ≤ n ∧ base = 16 ∧ v = 0 ∧ tail = cs.tail) := by
  constructor
  · intro read
    by_cases front : ∃ base literal n, literal <+: cs ∧ Literal base literal n
    · obtain ⟨_, _, _, front, reads⟩ := front
      obtain ⟨base, literal, n, rest, longest⟩ := exists_longest reads front
      refine ⟨base, literal, n, rest, longest, ?_⟩
      rw [unsigned?_of_longest longest] at read
      split at read
      · rename_i fits
        obtain ⟨rfl, rfl⟩ := Prod.mk.inj (Option.some.inj read)
        exact Or.inl ⟨fits, rfl, rfl⟩
      · split at read
        · rename_i great sixteen
          obtain ⟨rfl, rfl⟩ := Prod.mk.inj (Option.some.inj read)
          exact Or.inr ⟨Nat.not_lt.1 great, sixteen, rfl, rfl⟩
        · contradiction
    · rw [unsigned?_of_no_literal fun base literal n start reads =>
        front ⟨base, literal, n, start, reads⟩] at read
      contradiction
  · rintro ⟨base, literal, n, rest, longest, ⟨fits, rfl, rfl⟩ | ⟨great, sixteen, rfl, rfl⟩⟩
    · rw [unsigned?_of_longest longest, if_pos fits]
    · rw [unsigned?_of_longest longest, if_neg (Nat.not_lt.2 great), if_pos sixteen]

theorem unsigned?_of_literal {cs : List Char} {base v : Nat} (h : Literal base cs v)
    (fits : v < limit) : unsigned? cs = some (v, []) := by
  rw [unsigned?_of_longest h.longest_self, if_pos fits]

theorem complete_eq_some_iff {α : Type} {reading : Option (α × List Char)} {a : α} :
    complete reading = some a ↔ reading = some (a, []) := by
  unfold complete
  split
  · simp
  · rename_i other
    simp only [reduceCtorEq, false_iff]
    exact other a

/-- What is read and leaves nothing is a literal that fits. -/
theorem unsigned?_eq_some_nil_iff {cs : List Char} {v : Nat} :
    unsigned? cs = some (v, []) ↔ ∃ base, Literal base cs v ∧ v < limit := by
  constructor
  · intro whole
    obtain ⟨base, literal, n, rest, longest, ⟨fits, rfl, rfl⟩ | ⟨-, rfl, -, empty⟩⟩ :=
      unsigned?_eq_some_iff.1 whole
    · obtain rfl : literal = cs := by simpa using longest.split
      exact ⟨base, longest.reads, fits⟩
    · -- a hexadecimal literal has a mark behind its `0`
      obtain ⟨x, digits, -, rfl⟩ := longest.reads.exists_mark
      rw [← longest.split] at empty
      contradiction
  · rintro ⟨base, reads, fits⟩
    exact unsigned?_of_literal reads fits

/-- A text that is a literal as a whole is read as its value. -/
theorem ofText?_eq_some_iff {s : String} {v : Nat} :
    ofText? s = some v ↔ ∃ base, Literal base s.toList v ∧ v < limit := by
  rw [ofText?, complete_eq_some_iff, unsigned?_eq_some_nil_iff]

/-- No other text is read. -/
theorem ofText?_eq_none_iff {s : String} :
    ofText? s = none ↔ ∀ base v, Literal base s.toList v → limit ≤ v := by
  rw [Option.eq_none_iff_forall_ne_some]
  constructor
  · intro refused base v reads
    by_contra fits
    exact refused v (ofText?_eq_some_iff.2 ⟨base, reads, Nat.not_le.1 fits⟩)
  · intro great v found
    obtain ⟨base, reads, fits⟩ := ofText?_eq_some_iff.1 found
    exact absurd fits (Nat.not_lt.2 (great base v reads))

theorem limit_eq : limit = 2 ^ 64 := rfl

/-- **A whole text is read exactly if it is a literal that fits.** -/
theorem literals_are_read_whole (s : String) :
    (∀ v, ofText? s = some v ↔ ∃ base, Literal base s.toList v ∧ v < 2 ^ 64) ∧
    (ofText? s = none ↔ ∀ base v, Literal base s.toList v → 2 ^ 64 ≤ v) := by
  rw [← limit_eq]
  exact ⟨fun _ => ofText?_eq_some_iff, ofText?_eq_none_iff⟩

example : ofText? "0X1f" = some 31 ∧ ofText? "0x" = none ∧ ofText? "09" = none := by decide

/-- What is read after spaces and tabs, whatever follows it. -/
theorem leadingOfText?_eq_some_iff {s : String} {v : Nat} :
    leadingOfText? s = some v ↔ ∃ base literal n rest,
      Longest (s.toList.dropWhile isSpace) base literal n rest ∧
        (n < limit ∧ v = n ∨ limit ≤ n ∧ base = 16 ∧ v = 0) := by
  rw [leadingOfText?, Option.map_eq_some_iff]
  constructor
  · rintro ⟨⟨w, tail⟩, read, rfl⟩
    obtain ⟨base, literal, n, rest, longest, fits | great⟩ := unsigned?_eq_some_iff.1 read
    · exact ⟨base, literal, n, rest, longest, Or.inl ⟨fits.1, fits.2.1⟩⟩
    · exact ⟨base, literal, n, rest, longest, Or.inr ⟨great.1, great.2.1, great.2.2.1⟩⟩
  · rintro ⟨base, literal, n, rest, longest, ⟨fits, rfl⟩ | ⟨great, sixteen, rfl⟩⟩
    · exact ⟨_, unsigned?_eq_some_iff.2
        ⟨base, literal, v, rest, longest, Or.inl ⟨fits, rfl, rfl⟩⟩, rfl⟩
    · exact ⟨_, unsigned?_eq_some_iff.2
        ⟨base, literal, n, rest, longest, Or.inr ⟨great, sixteen, rfl, rfl⟩⟩, rfl⟩

/-- **The longest literal in front of a text is read if it fits.**  If there is none, or it does
not fit, nothing is read; but for a hexadecimal literal that does not fit zero is read, and
everything behind its `0` is left.  It is the same with the number in front of a text after
spaces and tabs. -/
theorem longest_literal_is_read (s : String) :
    (∀ base literal n rest, Longest s.toList base literal n rest →
      unsigned? s.toList = if n < 2 ^ 64 then some (n, rest)
        else if base = 16 then some (0, s.toList.tail) else none) ∧
    ((∀ base literal n, literal <+: s.toList → ¬Literal base literal n) →
      unsigned? s.toList = none) ∧
    ∀ v, leadingOfText? s = some v ↔ ∃ base literal n rest,
      Longest (s.toList.dropWhile isSpace) base literal n rest ∧
        (n < 2 ^ 64 ∧ v = n ∨ 2 ^ 64 ≤ n ∧ base = 16 ∧ v = 0) :=
  ⟨fun _ _ _ _ => unsigned?_of_longest, unsigned?_of_no_literal,
    fun _ => leadingOfText?_eq_some_iff⟩

/-- The longest literal is read up to the comma behind it, and in front of a word there is
none. -/
theorem twelve_is_read :
    Longest "014,be16".toList 8 "014".toList 12 ",be16".toList ∧
      unsigned? "014,be16".toList = some (12, ",be16".toList) ∧
      (∀ base literal n, literal <+: "dev".toList → ¬Literal base literal n) ∧
      unsigned? "dev".toList = none := by
  have spells : Spells 8 ['1', '4'] 12 :=
    (spells_iff (by decide)).2 ⟨List.all_eq_true.1 rfl, by decide⟩
  have stop : ∀ c ∈ ",be16".toList.head?, ¬IsLiteralChar c := by
    intro c first
    obtain rfl : ',' = c := Option.some.inj first
    decide
  have longest : Longest "014,be16".toList 8 "014".toList 12 ",be16".toList :=
    (Literal.octal spells).longest stop
  have word : ∀ base literal n, literal <+: "dev".toList → ¬Literal base literal n := by
    intro base literal n front reads
    obtain ⟨c, tail, rfl, digit⟩ := reads.exists_cons
    obtain rfl : c = 'd' := (List.cons_prefix_cons.1 front).1
    exact absurd digit (by decide)
  refine ⟨longest, ?_, word, (longest_literal_is_read "dev").2.1 word⟩
  rw [(longest_literal_is_read "014,be16").1 _ _ _ _ longest, if_pos (by decide)]

/-- A hexadecimal literal one digit too long. -/
def wide : String := "0x10000000000000000"

/-- The longest literal in front of the text is the whole text, which does not fit, and zero is
read. -/
theorem wide_literal_is_read_as_zero :
    Longest wide.toList 16 wide.toList (2 ^ 64) [] ∧
      unsigned? wide.toList = some (0, wide.toList.tail) ∧ leadingOfText? wide = some 0 := by
  have spells : Spells 16 (wide.toList.drop 2) (2 ^ 64) :=
    (spells_iff (by decide)).2 ⟨List.all_eq_true.1 rfl, by decide⟩
  have reads : Literal 16 wide.toList (2 ^ 64) := .hexadecimal (Or.inl rfl) (by decide) spells
  exact ⟨reads.longest_self, by decide, by decide⟩

end Numeral

end ControlRecords
