import ControlRecords.Proofs.Literals
import ControlRecords.Register.Binding

/-! # The pieces of a parameter

The parameter of a link is a base, an offset behind a plus sign, an access key behind a comma and
a scan list behind another comma; all but the base may be missing.  A text is put together from
such pieces in one way only, in which no mark stands where it would end the piece
(`Pieces.WellMarked`, `eq_cut_iff`).  Taken off the front one after another (`take`), the pieces
leave nothing (`take_snd`), since each step stops at a comma or at the end.  So the reading of a
parameter can only fail at its offset, and what it finds otherwise are the pieces without their
outer blanks (`parameters_are_split_at_their_marks`). -/
namespace ControlRecords.Register.Parameter

/-- A piece behind its mark, if it is there. -/
def marked (mark : Char) : Option (List Char) → List Char
  | none => []
  | some piece => mark :: piece

namespace Pieces

/-- The text that consists of the pieces. -/
def join (p : Pieces) : List Char :=
  p.base ++ (marked '+' p.offset ++ (marked ',' p.access ++ marked ',' p.scan))

/-- No piece holds a mark that would end it, and there is no scan list without the comma of an
access key.  The offset may hold plus signs, and the scan list both marks. -/
structure WellMarked (p : Pieces) : Prop where
  base : '+' ∉ p.base ∧ ',' ∉ p.base
  offset : ∀ piece ∈ p.offset, ',' ∉ piece
  access : ∀ piece ∈ p.access, ',' ∉ piece
  scan : p.access = none → p.scan = none

end Pieces

/-! Taking the pieces off the front of a text, one after another. -/

/-- The marks that end the base. -/
def isMark (c : Char) : Bool := c == '+' || c == ','

/-- The piece behind a mark up to the next comma, if the mark comes first, and what is left. -/
def step (mark : Char) (cs : List Char) : Option (List Char) × List Char :=
  match behind? mark cs with
  | some tail => (some (beforeComma tail), fromComma tail)
  | none => (none, cs)

/-- The piece behind a mark up to the end, if the mark comes first, and what is left. -/
def lastStep (mark : Char) (cs : List Char) : Option (List Char) × List Char :=
  match behind? mark cs with
  | some tail => (some tail, [])
  | none => (none, cs)

/-- The pieces in front of a text, and what they leave. -/
def take (cs : List Char) : Pieces × List Char :=
  let (offset, rest) := step '+' (cs.dropWhile (!isMark ·))
  let (access, rest) := step ',' rest
  let (scan, rest) := lastStep ',' rest
  ({ base := cs.takeWhile (!isMark ·), offset, access, scan }, rest)

section Steps
variable {mark : Char} {cs : List Char}

theorem behind?_eq_some_iff {tail : List Char} :
    behind? mark cs = some tail ↔ cs = mark :: tail := by
  unfold behind?
  cases cs with
  | nil => simp
  | cons c cs =>
    simp only [List.cons.injEq]
    split
    · simp [*]
    · simp [*]

theorem head?_fromComma : ∀ c ∈ (fromComma cs).head?, c = ',' := by
  intro c first
  simpa using Text.head?_dropWhile c first

/-- A step loses nothing. -/
theorem marked_step : marked mark (step mark cs).1 ++ (step mark cs).2 = cs := by
  unfold step
  split
  · rename_i tail found
    rw [behind?_eq_some_iff.1 found]
    exact congrArg (mark :: ·) List.takeWhile_append_dropWhile
  · rfl

theorem marked_lastStep : marked mark (lastStep mark cs).1 ++ (lastStep mark cs).2 = cs := by
  unfold lastStep
  split
  · rename_i tail found
    rw [behind?_eq_some_iff.1 found]
    exact List.append_nil _
  · rfl

theorem step_fst : (step mark cs).1 = (behind? mark cs).map beforeComma := by
  unfold step
  split <;> rename_i found <;> rw [found] <;> rfl

theorem step_snd : (step mark cs).2 =
    match behind? mark cs with
    | some tail => fromComma tail
    | none => cs := by
  unfold step
  split <;> rfl

theorem lastStep_fst : (lastStep mark cs).1 = behind? mark cs := by
  unfold lastStep
  split <;> rename_i found <;> rw [found]

theorem comma_not_mem_step {piece : List Char} (h : (step mark cs).1 = some piece) :
    ',' ∉ piece := by
  unfold step at h
  split at h
  · obtain rfl := Option.some.inj h
    intro comma
    simpa using List.mem_takeWhile_imp comma
  · contradiction

/-- After a step there is nothing left, or a comma comes first, if that was so before or the step
found a piece. -/
theorem head?_step (h : ∀ c ∈ cs.head?, c = mark ∨ c = ',') :
    ∀ c ∈ (step mark cs).2.head?, c = ',' := by
  intro c first
  unfold step at first
  split at first
  · exact head?_fromComma c first
  · rename_i missing
    rcases h c first with rfl | comma
    · obtain ⟨tail, rfl⟩ : ∃ tail, cs = c :: tail := List.head?_eq_some_iff.1 first
      simp [behind?] at missing
    · exact comma

/-- The last step leaves nothing. -/
theorem lastStep_snd (h : ∀ c ∈ cs.head?, c = mark) : (lastStep mark cs).2 = [] := by
  unfold lastStep
  split
  · rfl
  · rename_i missing
    cases cs with
    | nil => rfl
    | cons c tail => simp [behind?, h c rfl] at missing

/-- A step takes the piece that stands in front. -/
theorem step_marked {piece : Option (List Char)} {rest : List Char}
    (solid : ∀ p ∈ piece, ',' ∉ p) (comma : ∀ c ∈ rest.head?, c = ',')
    (absent : piece = none → ∀ c ∈ rest.head?, c ≠ mark) :
    step mark (marked mark piece ++ rest) = (piece, rest) := by
  unfold step
  cases piece with
  | none =>
    have missing : behind? mark rest = none := by
      cases rest with
      | nil => rfl
      | cons c tail => simp [behind?, absent rfl c rfl]
    simp [marked, missing]
  | some p =>
    have found : behind? mark (marked mark (some p) ++ rest) = some (p ++ rest) :=
      behind?_eq_some_iff.2 rfl
    have inside : ∀ c ∈ p, (c != ',') = true := fun c mem => by
      have := solid p rfl
      simp only [bne_iff_ne]
      rintro rfl
      exact this mem
    have stop : ∀ c ∈ rest.head?, (c != ',') = false := fun c first => by simp [comma c first]
    rw [found]
    exact Prod.ext (congrArg some (Text.takeWhile_run inside stop))
      (Text.dropWhile_run inside stop)

theorem head?_marked {piece : Option (List Char)} {rest : List Char} :
    ∀ c ∈ (marked mark piece ++ rest).head?, c = mark ∨ c ∈ rest.head? := by
  intro c first
  cases piece with
  | none => exact Or.inr first
  | some p => exact Or.inl (Option.some.inj first).symm

theorem lastStep_marked {piece : Option (List Char)} :
    lastStep mark (marked mark piece) = (piece, []) := by
  cases piece with
  | none => rfl
  | some p => simp [lastStep, marked, behind?]

end Steps

/-! Every text is put together from pieces in one way. -/

section Pieces
variable {cs : List Char} {pieces : Pieces}

/-- Nothing is lost. -/
theorem join_take : (take cs).1.join ++ (take cs).2 = cs := by
  simp only [take, Pieces.join, List.append_assoc]
  rw [marked_lastStep, marked_step, marked_step, List.takeWhile_append_dropWhile]

/-- **Nothing is left.** -/
theorem take_snd : (take cs).2 = [] := by
  apply lastStep_snd
  apply head?_step
  intro c first
  refine Or.inl (head?_step ?_ c first)
  intro c first
  have mark : isMark c = true := by simpa using Text.head?_dropWhile c first
  simpa [isMark] using mark

theorem take_fst : (take cs).1 = cut cs := by
  simp only [take, step_fst, step_snd, lastStep_fst]
  rfl

theorem wellMarked_take : (take cs).1.WellMarked where
  base := by
    have solid : ∀ c ∈ cs.takeWhile (!isMark ·), isMark c = false := fun c mem => by
      simpa using List.mem_takeWhile_imp mem
    exact ⟨fun plus => absurd (solid _ plus) (by decide),
      fun comma => absurd (solid _ comma) (by decide)⟩
  offset _ := comma_not_mem_step
  access _ := comma_not_mem_step
  scan missing := by
    have nothing : behind? ',' (step '+' (cs.dropWhile (!isMark ·))).2 = none := by
      simpa [take, step_fst] using missing
    have left := @step_snd ',' (step '+' (cs.dropWhile (!isMark ·))).2
    rw [nothing] at left
    simp only [take, lastStep_fst, left, nothing]

/-- Well-marked pieces are found again in the text that they make. -/
theorem take_join (h : pieces.WellMarked) : take pieces.join = (pieces, []) := by
  obtain ⟨base, offset, access, scan⟩ := pieces
  have scan_first : ∀ c ∈ (marked ',' scan).head?, c = ',' := by
    intro c first
    cases scan with
    | none => contradiction
    | some tail => exact (Option.some.inj first).symm
  have access_first : ∀ c ∈ (marked ',' access ++ marked ',' scan).head?, c = ',' := by
    intro c first
    rcases head?_marked c first with comma | first
    · exact comma
    · exact scan_first c first
  have inside : ∀ c ∈ base, (!isMark c) = true := by
    intro c mem
    have plus : c ≠ '+' := fun same => h.base.1 (same ▸ mem)
    have comma : c ≠ ',' := fun same => h.base.2 (same ▸ mem)
    simp [isMark, plus, comma]
  have stop : ∀ c ∈ (marked '+' offset ++ (marked ',' access ++ marked ',' scan)).head?,
      (!isMark c) = false := by
    intro c first
    rcases head?_marked c first with rfl | first
    · rfl
    · rw [access_first c first]
      rfl
  have offset_step : step '+' (marked '+' offset ++ (marked ',' access ++ marked ',' scan)) =
      (offset, marked ',' access ++ marked ',' scan) :=
    step_marked h.offset access_first fun _ c first => by
      rw [access_first c first]
      decide
  have access_step : step ',' (marked ',' access ++ marked ',' scan) =
      (access, marked ',' scan) :=
    step_marked h.access scan_first fun missing c first => by
      obtain rfl : scan = none := h.scan missing
      cases first
  simp only [take, Pieces.join, Text.dropWhile_run inside stop, Text.takeWhile_run inside stop,
    offset_step, access_step, lastStep_marked]

/-- **Cutting a text yields the only well-marked pieces that make it.** -/
theorem eq_cut_iff : pieces.WellMarked ∧ pieces.join = cs ↔ pieces = cut cs := by
  constructor
  · rintro ⟨marks, rfl⟩
    rw [← take_fst, take_join marks]
  · rintro rfl
    have lossless : (take cs).1.join ++ (take cs).2 = cs := join_take
    rw [take_snd, List.append_nil] at lossless
    rw [← take_fst]
    exact ⟨wellMarked_take, lossless⟩

end Pieces

/-! What the pieces say. -/

/-- The number that the offset writes, zero if there is no offset. -/
def Pieces.Numbered (pieces : Pieces) (n : Nat) : Prop :=
  (pieces.offset = none ∧ n = 0) ∨
    ∃ piece base, pieces.offset = some piece ∧
      Numeral.Literal base (Text.trimChars piece) n ∧ n < 2 ^ 64

/-- The parameter holds what the pieces say: the base without its outer blanks, the number of the
offset, and the access key and the scan list without their outer blanks if anything is left of
them. -/
structure Pieces.Hold (pieces : Pieces) (p : Parameter) : Prop where
  base : p.base = String.ofList (Text.trimChars pieces.base)
  offset : pieces.Numbered p.offset
  access : ∀ key, p.access = some key ↔
    key ≠ "" ∧ ∃ piece ∈ pieces.access, key = String.ofList (Text.trimChars piece)
  scan : ∀ name, p.scan = some name ↔
    name ≠ "" ∧ ∃ piece ∈ pieces.scan, name = String.ofList (Text.trimChars piece)

/-- The parameter of pieces whose offset is a number. -/
def Pieces.parameter (pieces : Pieces) (offset : Nat) : Parameter :=
  { base := String.ofList (Text.trimChars pieces.base), offset,
    access := present? pieces.access, scan := present? pieces.scan }

/-- The number of an offset, or the offset that is no number. -/
def Pieces.number (pieces : Pieces) : Except String Nat :=
  match pieces.offset with
  | none => .ok 0
  | some piece =>
    match Numeral.ofText? (String.ofList (Text.trimChars piece)) with
    | some n => .ok n
    | none => .error (String.ofList (Text.trimChars piece))

/-- Read a parameter by taking its pieces off the front.  If anything were left behind them, the
parameter would name no device. -/
def read (s : String) : Except LinkError Parameter :=
  match take (Text.trimChars s.toList) with
  | (pieces, []) => (pieces.number.map pieces.parameter).mapError .badOffset
  | (_, _ :: _) => .error (.noDevice s)

theorem ofText_eq (s : String) :
    let pieces := cut (Text.trimChars s.toList)
    ofText s = pieces.number.map pieces.parameter := by
  intro pieces
  simp only [ofText, Pieces.number]
  cases (cut (Text.trimChars s.toList)).offset with
  | none => rfl
  | some piece =>
    dsimp only
    cases Numeral.ofText? (String.ofList (Text.trimChars piece)) <;> rfl

theorem read_eq (s : String) : read s = (ofText s).mapError .badOffset := by
  have whole : take (Text.trimChars s.toList) = (cut (Text.trimChars s.toList), []) :=
    Prod.ext take_fst take_snd
  rw [read, whole, ofText_eq]

theorem present?_eq_some_iff {piece : Option (List Char)} {text : String} :
    present? piece = some text ↔
      text ≠ "" ∧ ∃ cs ∈ piece, text = String.ofList (Text.trimChars cs) := by
  cases piece with
  | none => simp [present?]
  | some cs =>
    simp only [present?, Option.mem_def, Option.some.injEq, exists_eq_left']
    split
    · rename_i blank
      simp [blank]
    · rename_i visible
      constructor
      · intro same
        obtain rfl := Option.some.inj same
        exact ⟨by simpa using visible, rfl⟩
      · exact fun same => congrArg some same.2.symm

section Meaning
variable {pieces : Pieces}

/-- An offset is no number exactly if it is no literal that fits. -/
theorem Pieces.number_eq_error_iff {text : String} :
    pieces.number = .error text ↔ ∃ piece, pieces.offset = some piece ∧
      text = String.ofList (Text.trimChars piece) ∧
      ∀ base v, Numeral.Literal base (Text.trimChars piece) v → 2 ^ 64 ≤ v := by
  unfold number
  cases pieces.offset with
  | none => simp
  | some piece =>
    have refused := @Numeral.ofText?_eq_none_iff (String.ofList (Text.trimChars piece))
    rw [String.toList_ofList, Numeral.limit_eq] at refused
    dsimp only
    split
    · rename_i n read
      simp only [reduceCtorEq, Option.some.injEq, false_iff, not_exists, not_and]
      rintro _ rfl - great
      rw [refused.2 great] at read
      contradiction
    · rename_i read
      simp only [Except.error.injEq, Option.some.injEq, exists_eq_left']
      exact ⟨fun same => ⟨same.symm, refused.1 read⟩, fun h => h.1.symm⟩

theorem Pieces.number_eq_ok_iff {n : Nat} : pieces.number = .ok n ↔ pieces.Numbered n := by
  unfold number Numbered
  cases pieces.offset with
  | none => simp [eq_comm]
  | some piece =>
    have literal := @Numeral.ofText?_eq_some_iff (String.ofList (Text.trimChars piece)) n
    rw [String.toList_ofList, Numeral.limit_eq] at literal
    simp only [reduceCtorEq, false_and, false_or, Option.some.injEq]
    constructor
    · intro done
      split at done
      · rename_i read
        obtain rfl := Except.ok.inj done
        obtain ⟨base, reads, fits⟩ := literal.1 read
        exact ⟨piece, base, rfl, reads, fits⟩
      · contradiction
    · rintro ⟨_, base, rfl, reads, fits⟩
      rw [literal.2 ⟨base, reads, fits⟩]

/-- A parameter that holds what pieces say is determined by its offset. -/
theorem Pieces.hold_iff {p : Parameter} :
    pieces.Hold p ↔ pieces.Numbered p.offset ∧ pieces.parameter p.offset = p := by
  constructor
  · intro h
    have access : present? pieces.access = p.access :=
      Option.ext fun key => present?_eq_some_iff.trans (h.access key).symm
    have scan : present? pieces.scan = p.scan :=
      Option.ext fun name => present?_eq_some_iff.trans (h.scan name).symm
    exact ⟨h.offset, by rw [parameter, ← h.base, access, scan]⟩
  · rintro ⟨numbered, same⟩
    rw [← same]
    exact ⟨rfl, numbered, fun _ => present?_eq_some_iff, fun _ => present?_eq_some_iff⟩

end Meaning

/-- **A parameter is split at its marks.**  The text without its outer blanks consists of
well-marked pieces in exactly one way, and taking them off leaves nothing.  Reading fails exactly
if there is an offset that is no literal below `2 ^ 64`, and then with that offset; otherwise it
finds what the pieces say. -/
theorem parameters_are_split_at_their_marks (s : String) :
    read s = (ofText s).mapError .badOffset ∧
    ∃ pieces : Pieces,
      (∀ other : Pieces, other.WellMarked ∧ other.join = Text.trimChars s.toList ↔
        other = pieces) ∧
      (∀ text, ofText s = .error text ↔ ∃ piece, pieces.offset = some piece ∧
        text = String.ofList (Text.trimChars piece) ∧
        ∀ base v, Numeral.Literal base (Text.trimChars piece) v → 2 ^ 64 ≤ v) ∧
      ∀ p, ofText s = .ok p ↔ pieces.Hold p := by
  refine ⟨read_eq s, cut (Text.trimChars s.toList), fun _ => eq_cut_iff, fun text => ?_,
    fun p => ?_⟩
  · rw [← Pieces.number_eq_error_iff, ofText_eq]
    cases (cut (Text.trimChars s.toList)).number <;> simp [Except.map]
  · rw [Pieces.hold_iff, ← Pieces.number_eq_ok_iff, ofText_eq]
    cases (cut (Text.trimChars s.toList)).number with
    | error text => simp [Except.map]
    | ok n =>
      simp only [Except.map, Except.ok.injEq]
      constructor
      · rintro rfl
        exact ⟨rfl, rfl⟩
      · rintro ⟨rfl, same⟩
        exact same

example : ofText "valve + 010 ,, fast+slow, x" =
    .ok { base := "valve", offset := 8, access := none, scan := some "fast+slow, x" } := rfl

end ControlRecords.Register.Parameter
