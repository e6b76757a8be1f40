import ControlRecords.Catalogue
import ControlRecords.Link
import ControlRecords.Register.Parameter

/-! From a link to a register. A constant is the address itself. A hardware link names a
device, and the register lies at the device's base address plus the card number shifted
left by the signal number plus the offset. Addresses are words of 64 bits: a shift that
loses a bit of the card number and a sum that is too large are refused. -/
namespace ControlRecords.Register

/-- Why a link names no register. -/
inductive LinkError where
  | badLinkType (text : String)
  | badConstant (text : String)
  | badOffset (text : String)
  | unknownAccess (key : String)
  | unknownScanList (name : String)
  | noDevice (name : String)
  | addressOverflow (card signal : UInt32)
  deriving DecidableEq, Repr

/-- The message of a link error. -/
def LinkError.message : LinkError → String
  | badLinkType text => "Link must be a constant or VME_IO address, not '" ++ text ++ "'"
  | badConstant text => "Invalid constant link value '" ++ text ++ "'"
  | badOffset text => "Invalid OFFSET string '" ++ text ++ "'"
  | unknownAccess key => "Invalid ACCESS string '" ++ key ++ "'"
  | unknownScanList name => "No I/O scan list registered as '" ++ name ++ "'"
  | noDevice name => "No device registered as '" ++ name ++ "'"
  | addressOverflow card signal =>
    "Register address for #C" ++ toString card.toNat ++ " S" ++ toString signal.toNat
      ++ " does not fit in an address"

/-- The message of a failed access. -/
def AccessError.message : AccessError → String
  | nullAddress => "No register address is bound"
  | misaligned address width =>
    "Address " ++ Numeral.hexText address ++ " is not aligned for a " ++ toString width
      ++ "-byte access"
  | offline address => "Device access failed: " ++ Numeral.hexText address ++ " offline"
  | readOnly address => "Device access failed: " ++ Numeral.hexText address ++ " read-only"

/-- The method that a key names, or the error that it names none. -/
def Access.resolve (methods : Registry Custom) (key : String) : Except LinkError Access :=
  match ofKey? methods key with
  | some access => .ok access
  | none => .error (.unknownAccess key)

/-- A register that a record is connected to. -/
structure Binding where
  address : Nat
  access : Access := default
  device : Option Device := none
  scan : Option ScanListId := none
  /-- The record, if it is in the care of a controller. -/
  owner : Option RecordId := none
  deriving DecidableEq, Repr

namespace Binding

/-- Read the register. -/
def read (b : Binding) (r : Registers) : Except AccessError UInt32 := b.access.read b.address r

/-- Write the register. -/
def write (b : Binding) (word : UInt32) (r : Registers) : Except AccessError Registers :=
  b.access.write b.address word r

end Binding

/-- The card number shifted left by the signal number, if no bit of it is lost. -/
def channel? (card signal : UInt32) : Option UInt64 :=
  if signal.toNat < 64 then
    let channel := card.toUInt64 <<< signal.toUInt64
    -- bits that were shifted out do not come back
    if channel >>> signal.toUInt64 = card.toUInt64 then some channel else none
  else none

/-- The sum of two addresses, if it is one. -/
def sum? (a b : Nat) : Option Nat := if a + b < UInt64.size then some (a + b) else none

/-- The register address for a base, a card, a signal and an offset, if it is one. -/
def address? (base : Nat) (card signal : UInt32) (offset : Nat) : Option Nat := do
  let channel ← channel? card signal
  let address ← sum? base channel.toNat
  sum? address offset

/-- What the parameter of a link names apart from the device: the access method and the
scan list. -/
def Parameter.lookUp (p : Parameter) (c : Catalogue) :
    Except LinkError (Access × Option ScanListId) :=
  let key := p.access.getD ""
  match Access.ofKey? c.methods key with
  | none => .error (.unknownAccess key)
  | some access =>
    match p.scan with
    | none => .ok (access, none)
    | some name =>
      match c.scanLists.find? name with
      | none => .error (.unknownScanList name)
      | some list => .ok (access, some list)

/-- The register that a hardware address names, and the catalogue afterwards, in which the
device of a numeric address has been entered. -/
def resolveHardware (c : Catalogue) (a : HardwareAddress) :
    Except LinkError Binding × Catalogue :=
  match Parameter.ofText a.parameter with
  | .error text => (.error (.badOffset text), c)
  | .ok p =>
    match p.lookUp c with
    | .error e => (.error e, c)
    | .ok (access, scan) =>
      match Device.resolve c.devices p.base with
      | (none, _) => (.error (.noDevice p.base), c)
      | (some device, devices) =>
        let c := { c with devices }
        match address? device.base a.card a.signal p.offset with
        | none => (.error (.addressOverflow a.card a.signal), c)
        | some address => (.ok { address, access, device := some device, scan }, c)

/-- The register that a link names, and the catalogue afterwards. -/
def resolve (c : Catalogue) : Link → Except LinkError Binding × Catalogue
  | .literal text =>
    match Numeral.leadingOfText? text with
    | some address => (.ok { address }, c)
    | none => (.error (.badConstant text), c)
  | .hardware address => resolveHardware c address
  | .other text => (.error (.badLinkType text), c)

end ControlRecords.Register
