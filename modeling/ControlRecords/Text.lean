/-! Texts: blank characters, keywords, and texts within texts.

A character is blank when Unicode gives it the property `White_Space`; `trim` strips the
longest blank run from each end of a text and touches nothing between them.

Keywords are compared without regard to case. A keyword is written in upper-case ASCII
letters, digits and underscores, so of Unicode's upper-case mapping only those characters
matter whose image consists of such characters: the ASCII letters, the dotless i, the long
s, the sharp s and the Latin ligatures. Every other character keeps its place, and so the
text is no keyword. -/
namespace ControlRecords.Text

/-- The characters of Unicode's `White_Space` property: the ASCII blanks, the two
Latin-1 ones, and the spaces and separators of the general punctuation blocks. -/
def isBlank (c : Char) : Bool :=
  let n := c.toNat
  (0x09 ≤ n && n ≤ 0x0D) || n == 0x20 || n == 0x85 || n == 0xA0 || n == 0x1680 ||
    (0x2000 ≤ n && n ≤ 0x200A) || n == 0x2028 || n == 0x2029 || n == 0x202F ||
    n == 0x205F || n == 0x3000

/-- The characters between the outer blanks. -/
def trimChars (cs : List Char) : List Char :=
  ((cs.dropWhile isBlank).reverse.dropWhile isBlank).reverse

/-- The text between the outer blanks. -/
def trim (s : String) : String := String.ofList (trimChars s.toList)

@[simp] theorem toList_trim (s : String) : (trim s).toList = trimChars s.toList := by
  simp [trim]

/-- A text that neither starts nor ends with a blank is its own trimmed form. -/
theorem trimChars_eq_self {cs : List Char} (first : ∀ c ∈ cs.head?, isBlank c = false)
    (last : ∀ c ∈ cs.getLast?, isBlank c = false) : trimChars cs = cs := by
  have drop_eq : ∀ {l : List Char}, (∀ c ∈ l.head?, isBlank c = false) →
      l.dropWhile isBlank = l := by
    intro l h
    cases l with
    | nil => rfl
    | cons c r => simp [h c (by simp)]
  rw [trimChars, drop_eq first, drop_eq (by simpa using last), List.reverse_reverse]

/-- A text without any blank is its own trimmed form. -/
theorem trim_eq_self {s : String} (h : ∀ c ∈ s.toList, isBlank c = false) : trim s = s := by
  rw [trim, trimChars_eq_self, String.ofList_toList]
  · exact fun c first => h c (List.mem_of_mem_head? first)
  · exact fun c last => h c (List.mem_of_mem_getLast? last)

/-- The upper-case form of a character, where that is ASCII; any other character itself. -/
def upperChars (c : Char) : List Char :=
  match c.toNat with
  | 0x00DF => ['S', 'S']
  | 0x0131 => ['I']
  | 0x017F => ['S']
  | 0xFB00 => ['F', 'F']
  | 0xFB01 => ['F', 'I']
  | 0xFB02 => ['F', 'L']
  | 0xFB03 => ['F', 'F', 'I']
  | 0xFB04 => ['F', 'F', 'L']
  | 0xFB05 => ['S', 'T']
  | 0xFB06 => ['S', 'T']
  | _ => [c.toUpper]

/-- A text in the case in which keywords are written. -/
def keyword (s : String) : String := String.ofList (s.toList.flatMap upperChars)

/-- The rest of a text behind a given beginning; the whole text if it begins otherwise. -/
def dropLeading (leading s : String) : String :=
  if leading.toList.isPrefixOf s.toList then
    String.ofList (s.toList.drop leading.toList.length)
  else s

/-- A text stands somewhere within another one. -/
def contains (part : List Char) : List Char → Bool
  | [] => part.isEmpty
  | c :: cs => part.isPrefixOf (c :: cs) || contains part cs

/-- A text stands within another exactly when something stands before it and something
behind. -/
theorem contains_iff (part cs : List Char) : contains part cs = true ↔ part <:+: cs := by
  induction cs with
  | nil => simp [contains, List.isEmpty_iff]
  | cons c cs ih => simp [contains, ih, List.infix_cons_iff]

end ControlRecords.Text
