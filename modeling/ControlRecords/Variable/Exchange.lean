import ControlRecords.Catalogue
import ControlRecords.Variable.Transfer

/-! The support that moves the value of a scalar record to and from a variable. A link
names a group and, by its card number, a variable in it; the options of the link say which
of the record's two values moves. A record that writes only some bits reads the variable
back first and keeps the others. -/
namespace ControlRecords.Variable

/-- The fields that a value may move to and from: the usual one, and the one in the
record's own terms where the usual one is raw and there is a choice. -/
structure Choice where
  field : String
  engineering : Option String := none
  deriving DecidableEq, Repr

/-- The choice that a record's type offers. -/
def Choice.ofScalar : Scalar → Choice
  | .ai _ | .ao _ | .bi _ | .mbbi _ => ⟨"RVAL", some "VAL"⟩
  | .bo _ | .mbbo _ _ => ⟨"RVAL", none⟩
  | .longin _ | .longout _ => ⟨"VAL", none⟩

namespace Choice

/-- The options of a link as far as the choice gives them a meaning. -/
def flags (c : Choice) (signal : UInt32) : Flags :=
  if c.engineering.isSome then { Flags.ofSignal signal with convertSupported := true }
  else { Flags.ofSignal signal with noConvert := false }

/-- The name of the chosen field. -/
def fieldName (c : Choice) (flags : Flags) : String :=
  if flags.noConvert then c.engineering.getD c.field else c.field

end Choice

/-- The variable and the field that a link names, among the groups of a table. The table is
there as soon as a group has been looked up in it. -/
def resolve (t : GroupTable) (setting : Option String) (link : Link) (r : Record)
    (choice : Choice) : Except VariableError Binding × GroupTable :=
  match link with
  | .hardware a =>
    match t.find setting a.parameter with
    | (none, t) => (.error (.notRegistered a.parameter), t)
    | (some group, t) =>
      match group.members[a.card.toNat]? with
      | none => (.error (.badCard a.card group.members.length), t)
      | some target =>
        let flags := choice.flags a.signal
        let name := choice.fieldName flags
        match (Field.ofText? name).bind fun f => (r.type? f).map fun type => (f, type) with
        | none => (.error (.badField name), t)
        | some (field, fieldType) => (.ok { target, flags, field, fieldType }, t)
  | _ => (.error .badLinkType, t)

/-- Connect a record that reads. -/
def connectInput (b : Binding) (r : Record) : Record := r.bind (.toVariable b)

/-- Connect a record that writes. It starts with the variable's value and without alarms,
unless it is going to be processed at once. -/
def connectOutput (b : Binding) (r : Record) (v : Variable) : Exchanged :=
  let r := r.bind (.toVariable b)
  if r.common.initProcess then ⟨r, v, .ok (if b.flags.convertSupported then .final else .raw)⟩
  else
    let x := takeIn false b r v
    match x.result with
    | .ok _ => { x with record := x.record.withCommon Common.promoteAlarms }
    | .error _ => x

/-- Keep only the bits under the mask in the raw value, if the mask is not empty. -/
def maskRaw (r : Record) : Record :=
  r.mapScalar fun s => if s.mask ≠ 0 then s.setWord (s.word &&& s.mask) else s

/-- Connect a scalar record to its variable. -/
def connect (b : Binding) (s : Scalar) (r : Record) (v : Variable) : Exchanged :=
  match s with
  | .ai _ | .bi _ | .longin _ => ⟨connectInput b r, v, .ok .raw⟩
  | .mbbi _ => ⟨(connectInput b r).mapScalar Scalar.placed, v, .ok .raw⟩
  | .ao _ | .longout _ => connectOutput b r v
  | .bo _ =>
    let x := connectOutput b r v
    match x.result with
    | .error _ => x
    | .ok _ =>
      if x.record.common.initProcess then { x with result := .ok .final }
      else { x with record := maskRaw x.record }
  | .mbbo _ _ =>
    let x := connectOutput b r v
    match x.result with
    | .error _ => x
    | .ok _ =>
      let r := (x.record.mapScalar Scalar.placed).mapScalar fun s => s.noteReadBack s.word
      if r.common.initProcess then { x with record := r, result := .ok .final }
      else { x with record := maskRaw r }

/-- Read the variable back, merge the record's own bits into what was read, and store the
result. -/
def mergeOut (b : Binding) (wanted : UInt32) (r : Record) (v : Variable) : Exchanged :=
  match readBack b r v with
  | (r, v, .error e) => ⟨r, v, .error e⟩
  | (r, v, .ok ()) =>
    let merged := r.mapScalar fun s =>
      (s.noteReadBack s.word).setWord (Bits.merge s.word wanted s.mask)
    giveOut b merged v

/-- Move the value of a scalar record. -/
def move (b : Binding) (s : Scalar) (r : Record) (v : Variable) : Exchanged :=
  match s with
  | .ai _ =>
    let x := takeIn true b r v
    match x.result with
    | .ok .final => { x with record := x.record.setUndefined x.record.body.isNaN }
    | _ => x
  | .longin _ => takeIn true b r v
  | .bi _ | .mbbi _ =>
    let x := takeIn true b r v
    match x.result with
    | .ok .raw => { x with record := maskRaw x.record }
    | _ => x
  | .ao _ | .longout _ => giveOut b r v
  | .bo _ | .mbbo _ _ =>
    match secondPhase r v with
    | some r => ⟨r, v, .ok .raw⟩
    | none => if s.merges then mergeOut b s.word r v else giveOut b r v

/-- Move the value of a record. -/
def exchange (r : Record) (v : Variable) : Pass Variable :=
  match r.body, r.common.binding with
  | .scalar _ s, .toVariable b =>
    let x := move b s r v
    ⟨x.record, x.target, x.result.mapError .shared⟩
  | _, _ => ⟨r, v, .error (.shared .notBound)⟩

end ControlRecords.Variable
