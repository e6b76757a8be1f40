import ControlRecords.Record.Processing

/-! The support that moves the value of a scalar record through a register. A record that
reads takes the word from its register. A record that writes puts its word there; if only
some bits are its own, the word is read first and the other bits are written back as they
were. A failed read or write raises an alarm and changes nothing else. -/
namespace ControlRecords

namespace Scalar

/-- Take a word that was read from the register. -/
def receive (s : Scalar) (w : UInt32) : Scalar :=
  match s with
  | bi b | bo b => s.setWord (Bits.masked w b.mask)
  | mbbi m => s.setWord (w &&& m.mask)
  | _ => s.setWord w

end Scalar

namespace Register

/-- Write a word to the register of a record. -/
def send (b : Binding) (r : Record) (word : UInt32) (target : Registers) : Pass Registers :=
  match b.write word target with
  | .ok target => ⟨r, target, .ok .raw⟩
  | .error e => ⟨r.raise .write .invalid, target, .error (.access e)⟩

/-- Move the value of a connected record. -/
def exchangeBound (b : Binding) (s : Scalar) (r : Record) (target : Registers) :
    Pass Registers :=
  if s.isOutput && !s.merges then send b r s.word target
  else
    match b.read target with
    | .error e => ⟨r.raise .read .invalid, target, .error (.access e)⟩
    | .ok w =>
      if s.isOutput then
        send b (r.mapScalar (·.noteReadBack w)) (Bits.merge w s.word s.mask) target
      else ⟨r.mapScalar (·.receive w), target, .ok .raw⟩

/-- Move the value of a record. -/
def exchange (r : Record) (target : Registers) : Pass Registers :=
  match r.body, r.common.binding with
  | .scalar _ s, .toRegister b => exchangeBound b s r target
  | _, _ => ⟨r, target, .error .notInitialized⟩

/-- The register that a record's link names, and the catalogue and the record afterwards. A
record whose link names none stays active, so that it is never processed. -/
def resolveFor (c : Catalogue) (link : Link) (common : Common) :
    Except LinkError Binding × Catalogue × Common :=
  match resolve c link with
  | (.ok b, c) => (.ok { b with owner := common.handle }, c, common)
  | (.error e, c) => (.error e, c, { common with active := true })

/-- Read the register into a record that writes, when it is connected. A failed read only
raises an alarm. -/
def readBack (b : Binding) (take : Scalar → UInt32 → Scalar) (r : Record) (target : Registers) :
    Record :=
  match b.read target with
  | .ok w => r.mapScalar (take · w)
  | .error _ => r.raise .read .invalid

/-- Connect a scalar record to its register. A record that writes starts with the value in
the register and without alarms, unless it is going to be processed at once; nothing is
written. -/
def connect (b : Binding) (s : Scalar) (r : Record) (target : Registers) : Record × Transfer :=
  let r := r.bind (.toRegister b)
  let settled := fun r : Record => r.withCommon Common.promoteAlarms
  match s with
  | .ai _ | .longin _ => (r, .raw)
  | .bi _ => (r.setUndefined false, .raw)
  | .mbbi _ => (r.mapScalar Scalar.placed, .raw)
  | .ao _ | .bo _ =>
    if r.common.initProcess then (r, .final)
    else (settled (readBack b Scalar.receive r target), .raw)
  | .longout _ =>
    if r.common.initProcess then (r, .raw)
    else (settled (readBack b Scalar.receive r target), .raw)
  | .mbbo _ _ =>
    let r := readBack b (fun s w => (s.setWord w).noteReadBack w) (r.mapScalar Scalar.placed) target
    let r := r.mapScalar fun s => s.setWord (s.word &&& s.mask)
    if r.common.initProcess then (r, .final) else (settled r, .raw)

end Register

end ControlRecords
