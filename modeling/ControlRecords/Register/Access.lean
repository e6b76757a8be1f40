import ControlRecords.Octets
import ControlRecords.Register.Memory
import ControlRecords.Registry

/-! How a register is read and written. A built-in method names a width, an order of
octets and whether what is read carries a sign; a driver may register methods of its own
under further names. All of them carry one 32-bit word: reading fills the word up with
zeros, or with the sign, and writing takes the low octets of the word.

The keys of the built-in methods are tried as beginnings of the key that a link gives, so
text behind a known name does not count; the longest name that fits is taken. -/
namespace ControlRecords.Register

/-- The built-in methods. -/
inductive Builtin where
  | m32
  | be32
  | le32
  | m16
  | m16s
  | be16
  | be16s
  | le16
  | le16s
  | m8
  | m8s
  | be8
  | be8s
  deriving DecidableEq, Repr

/-- The order of the octets of a register. -/
inductive ByteOrder where
  | littleEndian
  | bigEndian
  deriving DecidableEq, Repr

namespace Builtin

/-- Every built-in method. -/
def all : List Builtin :=
  [m32, be32, le32, m16, m16s, be16, be16s, le16, le16s, m8, m8s, be8, be8s]

/-- The name of a method. -/
def key : Builtin → String
  | m32 => "m32"
  | be32 => "be32"
  | le32 => "le32"
  | m16 => "m16"
  | m16s => "m16s"
  | be16 => "be16"
  | be16s => "be16s"
  | le16 => "le16"
  | le16s => "le16s"
  | m8 => "m8"
  | m8s => "m8s"
  | be8 => "be8"
  | be8s => "be8s"

/-- How many octets the register has. -/
def width : Builtin → Nat
  | m32 | be32 | le32 => 4
  | m16 | m16s | be16 | be16s | le16 | le16s => 2
  | m8 | m8s | be8 | be8s => 1

/-- The order of the octets; the `m` methods follow the machine, which puts the least
significant octet first. -/
def order : Builtin → ByteOrder
  | be32 | be16 | be16s => .bigEndian
  | _ => .littleEndian

/-- What is read carries a sign. -/
def isSigned : Builtin → Bool
  | m16s | be16s | le16s | m8s | be8s => true
  | _ => false

/-- The method whose name is the longest that a key begins with. -/
def ofKeyChars? : List Char → Option Builtin
  | 'm' :: '3' :: '2' :: _ => some m32
  | 'b' :: 'e' :: '3' :: '2' :: _ => some be32
  | 'l' :: 'e' :: '3' :: '2' :: _ => some le32
  | 'm' :: '1' :: '6' :: 's' :: _ => some m16s
  | 'm' :: '1' :: '6' :: _ => some m16
  | 'b' :: 'e' :: '1' :: '6' :: 's' :: _ => some be16s
  | 'b' :: 'e' :: '1' :: '6' :: _ => some be16
  | 'l' :: 'e' :: '1' :: '6' :: 's' :: _ => some le16s
  | 'l' :: 'e' :: '1' :: '6' :: _ => some le16
  | 'm' :: '8' :: 's' :: _ => some m8s
  | 'm' :: '8' :: _ => some m8
  | 'b' :: 'e' :: '8' :: 's' :: _ => some be8s
  | 'b' :: 'e' :: '8' :: _ => some be8
  | _ => none

/-- The method that a key names. -/
def ofKey? (key : String) : Option Builtin := ofKeyChars? key.toList

theorem ofKey?_key (b : Builtin) : ofKey? b.key = some b := by cases b <;> decide

end Builtin

/-- A method of a driver's own, known by its number. Whichever it is, it reaches words in
the bank of cells beside register memory. -/
structure Custom where
  index : Nat
  deriving DecidableEq, Repr

/-- The method by which a register is accessed. -/
inductive Access where
  | builtin (method : Builtin)
  | custom (method : Custom)
  deriving DecidableEq, Repr

/-- The method where a link names none. -/
instance : Inhabited Access := ⟨.builtin .be32⟩

/-- Why an access failed. -/
inductive AccessError where
  /-- The register is at no address. -/
  | nullAddress
  /-- The address is no multiple of the width. -/
  | misaligned (address width : Nat)
  /-- The bank has no cell at the address. -/
  | offline (address : Nat)
  /-- The cell takes no words. -/
  | readOnly (address : Nat)
  deriving DecidableEq, Repr

/-- A bank of cells: the words in them by increasing address, and the addresses at which
no word can be stored. -/
structure CellBank where
  words : List (Nat × UInt32) := []
  locked : List Nat := []

namespace CellBank

instance : Inhabited CellBank := ⟨{}⟩

/-- The word at an address. -/
def word? (b : CellBank) (address : Nat) : Option UInt32 := b.words.lookup address

/-- Words with one more among them, in its place by address. -/
def place (address : Nat) (word : UInt32) : List (Nat × UInt32) → List (Nat × UInt32)
  | [] => [(address, word)]
  | (a, w) :: rest =>
    if address < a then (address, word) :: (a, w) :: rest
    else if address = a then (address, word) :: rest
    else (a, w) :: place address word rest

/-- Store a word, locked or not. -/
def put (b : CellBank) (address : Nat) (word : UInt32) : CellBank :=
  { b with words := place address word b.words }

/-- Take the word at an address away. -/
def clear (b : CellBank) (address : Nat) : CellBank :=
  { b with words := b.words.filter (·.1 != address) }

/-- The cell at an address takes no words. -/
def isLocked (b : CellBank) (address : Nat) : Bool := b.locked.contains address

/-- Lock the cell at an address, or unlock it. -/
def setLocked (b : CellBank) (address : Nat) (lock : Bool) : CellBank :=
  let others := b.locked.filter (· != address)
  { b with locked := if lock then address :: others else others }

theorem lookup_place (address other : Nat) (word : UInt32) (ws : List (Nat × UInt32)) :
    (place address word ws).lookup other =
      if other = address then some word else ws.lookup other := by
  induction ws with
  | nil => simp [place, List.lookup_cons]; grind
  | cons e es ih =>
    obtain ⟨a, w⟩ := e
    simp only [place]
    split
    · simp only [List.lookup_cons]; grind
    · split
      · simp only [List.lookup_cons]; grind
      · simp only [List.lookup_cons, ih]; grind

/-- A stored word is found at its address, and all others where they were. -/
theorem word?_put (b : CellBank) (address other : Nat) (word : UInt32) :
    (b.put address word).word? other = if other = address then some word else b.word? other :=
  lookup_place address other word b.words

end CellBank

/-- Everything that records can reach through registers. -/
structure Registers where
  memory : Memory := .blank
  cells : CellBank := {}

instance : Inhabited Registers := ⟨{}⟩

namespace Builtin

/-- The address can be accessed: it is not null, and a multiple of the width. -/
def check (b : Builtin) (address : Nat) : Except AccessError Unit :=
  if address = 0 then .error .nullAddress
  else if address % b.width ≠ 0 then .error (.misaligned address b.width)
  else .ok ()

/-- The number that the octets of a register stand for. -/
def numberOf (b : Builtin) (bytes : List UInt8) : Nat :=
  match b.order with
  | .littleEndian => ofOctets bytes
  | .bigEndian => ofOctets bytes.reverse

/-- The octets of a register that holds the low bits of a word. -/
def octetsOf (b : Builtin) (word : UInt32) : List UInt8 :=
  match b.order with
  | .littleEndian => octets b.width word.toNat
  | .bigEndian => (octets b.width word.toNat).reverse

/-- The word for a number of the method's width: filled up with its sign, or zeros. -/
def extend (b : Builtin) (n : Nat) : UInt32 :=
  if b.isSigned then UInt32.ofInt (Int.bmod n (Nat.pow 256 b.width)) else UInt32.ofNat n

/-- Read the register at an address. -/
def read (b : Builtin) (address : Nat) (m : Memory) : Except AccessError UInt32 :=
  match b.check address with
  | .error e => .error e
  | .ok () => .ok (b.extend (b.numberOf (m.load address b.width)))

/-- Write the register at an address. -/
def write (b : Builtin) (address : Nat) (word : UInt32) (m : Memory) :
    Except AccessError Memory :=
  match b.check address with
  | .error e => .error e
  | .ok () => .ok (m.store address (b.octetsOf word))

@[simp] theorem length_octetsOf (b : Builtin) (word : UInt32) :
    (b.octetsOf word).length = b.width := by
  unfold octetsOf; split <;> simp

end Builtin

namespace Access

/-- Read the word at an address. -/
def read (a : Access) (address : Nat) (r : Registers) : Except AccessError UInt32 :=
  match a with
  | builtin b => b.read address r.memory
  | custom _ =>
    match r.cells.word? address with
    | some word => .ok word
    | none => .error (.offline address)

/-- Write the word at an address. -/
def write (a : Access) (address : Nat) (word : UInt32) (r : Registers) :
    Except AccessError Registers :=
  match a with
  | builtin b =>
    match b.write address word r.memory with
    | .ok memory => .ok { r with memory }
    | .error e => .error e
  | custom _ =>
    if r.cells.isLocked address then .error (.readOnly address)
    else .ok { r with cells := r.cells.put address word }

/-- The method that a key names: the default for no key, else the method registered under
it, else the built-in one. -/
def ofKey? (methods : Registry Custom) (key : String) : Option Access :=
  if key = "" then some default
  else
    match methods.find? key with
    | some method => some (custom method)
    | none => (Builtin.ofKey? key).map builtin

end Access

end ControlRecords.Register
