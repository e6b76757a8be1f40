import ControlRecords.Proofs.Restart
import ControlRecords.Proofs.StartingState

/-! # When a value counts as defined

A record that writes takes over a value when it is connected, and from then on its value counts
as defined.  What it takes over may be missing, and this is followed here through the three
supports.  On a variable the connection fails if there is no value to take.  On a register it
does not: the failed access only raises an alarm, which is settled at once, and the value that
the record has had all along becomes defined.  An array record tells by the number of octets in
its file, so that a fragment of an element, which is no value, is as good as one.  Hence the
value is undefined afterwards exactly if there was nothing at all to take over
(`defined_iff_finding`). -/
namespace ControlRecords

/-- What a record that writes finds when it is connected. -/
inductive Finding where
  /-- A value, or at least one whole element of an array. -/
  | value
  /-- Octets of a file that make up no whole element. -/
  | fragment
  /-- No octets of a file. -/
  | nothing
  /-- No value, since the access failed. -/
  | failure
  deriving DecidableEq, Repr

namespace Finding

/-- What the octets of a file are worth. -/
def ofOctets (octets : List UInt8) : Finding :=
  if octets = [] then nothing else if Archive.decode octets = [] then fragment else value

theorem ofOctets_eq_nothing_iff {octets : List UInt8} :
    ofOctets octets = nothing ↔ octets = [] := by
  unfold ofOctets
  split
  · simp [*]
  · split <;> simp [*]

/-- A fragment is one to three octets. -/
theorem ofOctets_eq_fragment_iff {octets : List UInt8} :
    ofOctets octets = fragment ↔ 0 < octets.length ∧ octets.length < 4 := by
  rw [List.length_pos_iff, ← Archive.decode_eq_nil_iff]
  unfold ofOctets
  split
  · simp [*]
  · split <;> simp [*]

end Finding

namespace Controller

/-- The octets that the file of an array record gives back. -/
def octetsFor (c : Controller) (q : Record) (x : Archive) (b : Archive.Binding)
    (a : ArrayFields) : List UInt8 :=
  if b.persists then
    Archive.Vault.saved ⟨x, c.files⟩ q.common.name (4 * Archive.savedCount b.initial a.values)
  else []

/-- What a record finds behind the binding that it has. -/
def finding (c : Controller) (q : Record) : Finding :=
  match q.body, q.common.binding with
  | .scalar .registers _, .toRegister b =>
    match b.read c.registers with
    | .ok _ => .value
    | .error _ => .failure
  | .scalar .shared _, .toVariable b =>
    match (c.variableAt? b.target).map fun v => q.put b.field v.value with
    | some (.ok _) => .value
    | _ => .failure
  | .array archive a, .toArchive b =>
    match c.archive? archive with
    | some x => .ofOctets (c.octetsFor q x b a)
    | none => .nothing
  | _, _ => .nothing

end Controller

/-! ## What the supports do -/

/-- A raw value that was taken over is defined. -/
theorem Record.defined_of_connected {q : Record} {support : ScalarSupport} {s : Scalar}
    (body : q.body = .scalar support s) (output : s.isOutput = true) {status : Transfer}
    (final : status = .final → q.common.undefined = false) :
    (q.connected status).common.undefined = false := by
  cases status with
  | raw =>
    simp only [connected, body, output, if_true]
    rfl
  | final =>
    simp only [connected, body]
    exact final rfl

/-- Whether a value can be written to a field is up to the type of the record. -/
theorem Record.exists_put_of_skeleton {q r w : Record} {f : Field} {value : Value}
    (same : q.body.skeleton = r.body.skeleton) (put : r.put f value = .ok w) :
    ∃ w', q.put f value = .ok w' := by
  have type : q.body.type? f = r.body.type? f := Body.type?_of_skeleton same f
  simp only [Record.put, type] at put ⊢
  split at put
  · split at put
    · exact ⟨_, rfl⟩
    · contradiction
  · contradiction

/-- On a register a record that writes takes over a raw value, whatever the access gave. -/
theorem Register.status_connect {b : Binding} {s : Scalar} {r : Record} {t : Registers}
    (output : s.isOutput = true) (quiet : r.common.initProcess = false) :
    (connect b s r t).2 = .raw := by
  have bound : (r.bind (.toRegister b)).common.initProcess = false := quiet
  cases s with
  | ao _ | bo _ | longout _ => simp [connect, bound]
  | mbbo _ _ =>
    have placed : ((r.bind (.toRegister b)).mapScalar Scalar.placed).skeleton =
        (r.bind (.toRegister b)).skeleton := Record.skeleton_mapScalar (by simp) _
    have noted := skeleton_readBack b (fun s w => (s.setWord w).noteReadBack w)
      (fun s w => by simp) ((r.bind (.toRegister b)).mapScalar Scalar.placed) t
    have same := congrArg (·.common.initProcess) (noted.trans placed)
    have still : (readBack b (fun s w => (s.setWord w).noteReadBack w)
        ((r.bind (.toRegister b)).mapScalar Scalar.placed) t).common.initProcess = false :=
      same.trans bound
    simp only [connect]
    split
    · rename_i init
      exact absurd (still.symm.trans init) (by simp)
    · rfl
  | _ => simp [Scalar.isOutput] at output

namespace Variable
variable {b : Binding} {s : Scalar} {r : Record} {v : Variable} {status : Transfer}

/-- A record that was connected to a variable has taken over its value. -/
theorem connectOutput_eq_ok (quiet : r.common.initProcess = false)
    (ok : (connectOutput b r v).result = .ok status) :
    (∃ w, (r.bind (.toVariable b)).put b.field v.value = .ok w) ∧
      (status = .final → (connectOutput b r v).record.common.undefined = false) := by
  have bound : (r.bind (.toVariable b)).common.initProcess = false := quiet
  cases put : (r.bind (.toVariable b)).put b.field v.value with
  | error e =>
    simp [connectOutput, bound, takeIn, put] at ok
  | ok w =>
    refine ⟨⟨w, rfl⟩, fun final => ?_⟩
    subst final
    cases direct : b.flags.noConvert with
    | true =>
      simp [connectOutput, bound, takeIn, put, direct]
      rfl
    | false => simp [connectOutput, bound, takeIn, put, direct] at ok

/-- A record that writes is connected alike whatever its type, but for its fields. -/
theorem connect_of_output (output : s.isOutput = true) (quiet : r.common.initProcess = false) :
    (connect b s r v).result = (connectOutput b r v).result ∧
      (connect b s r v).record.common = (connectOutput b r v).record.common := by
  have same := congrArg (·.common.initProcess) (skeleton_connectOutput b r v)
  have still : (connectOutput b r v).record.common.initProcess = false := same.trans quiet
  rcases connected : connectOutput b r v with ⟨q, t, e | status⟩
  · cases s with
    | ao _ | bo _ | longout _ | mbbo _ _ => simp [connect, connected]
    | _ => simp [Scalar.isOutput] at output
  · rw [connected] at still
    have still : q.common.initProcess = false := still
    cases s with
    | ao _ | longout _ => simp [connect, connected]
    | bo _ | mbbo _ _ => simp [connect, connected, still, Record.mapScalar, maskRaw]
    | _ => simp [Scalar.isOutput] at output

/-- **On a variable a record starts with a defined value, and the value was there.** -/
theorem defined_of_connect (body : r.body = .scalar .shared s) (output : s.isOutput = true)
    (quiet : r.common.initProcess = false) (ok : (connect b s r v).result = .ok status) :
    ((connect b s r v).record.connected status).common.undefined = false ∧
      ∃ w, (r.bind (.toVariable b)).put b.field v.value = .ok w := by
  obtain ⟨result, common⟩ := connect_of_output (b := b) (v := v) output quiet
  obtain ⟨taken, final⟩ := connectOutput_eq_ok quiet (result ▸ ok)
  have same := congrArg Record.body (skeleton_connect b s r v)
  obtain ⟨s', body', type⟩ := Record.scalar_of_skeleton same body
  have output' : s'.isOutput = true := by
    rw [← Scalar.isOutput_skeleton, type, Scalar.isOutput_skeleton, output]
  exact ⟨Record.defined_of_connected body' output' fun h => by rw [common, final h], taken⟩

end Variable

/-! ## In a controller -/

namespace Controller
variable {c d : Controller} {id : RecordId} {r q : Record}

/-- An access that fails is one to a register, or else one to a variable. -/
theorem failure_cases (failed : c.finding q = .failure) :
    (∃ b e, q.common.binding = .toRegister b ∧ b.read c.registers = .error e) ∨
      ∃ s, q.body = .scalar .shared s := by
  unfold finding at failed
  split at failed
  · rename_i b _ bound
    split at failed
    · contradiction
    · rename_i e read
      exact Or.inl ⟨b, e, bound, read⟩
  · rename_i s b body _
    exact Or.inr ⟨s, body⟩
  · split at failed
    · unfold Finding.ofOctets at failed
      split at failed
      · contradiction
      · split at failed <;> contradiction
    · contradiction
  · contradiction

/-- A fragment is one to three octets of a file. -/
theorem fragment_cases (fragment : c.finding q = .fragment) :
    ∃ archive a x b, q.body = .array archive a ∧ q.common.binding = .toArchive b ∧
      c.archive? archive = some x ∧ 0 < (c.octetsFor q x b a).length ∧
      (c.octetsFor q x b a).length < 4 := by
  unfold finding at fragment
  split at fragment
  · split at fragment <;> contradiction
  · split at fragment <;> contradiction
  · rename_i archive a b body bound
    split at fragment
    · rename_i x found
      exact ⟨archive, a, x, b, body, bound, found, Finding.ofOctets_eq_fragment_iff.1 fragment⟩
    · contradiction
  · contradiction

/-- **On a register the value is defined whether or not it was read.** -/
theorem defined_on_register {s : Scalar} {b : Register.Binding}
    (body : r.body = .scalar .registers s) (output : s.isOutput = true)
    (quiet : r.common.initProcess = false) :
    (c.startOnRegister r s b).common.undefined = false ∧
      c.finding (c.startOnRegister r s b) ≠ .nothing := by
  let x : Register.Binding := { b with owner := r.common.handle }
  let p := Register.connect x s.sized r.sized c.registers
  have sorted : s.sized.isOutput = true := by
    rw [← Scalar.isOutput_skeleton, Scalar.skeleton_sized, Scalar.isOutput_skeleton, output]
  have raw : p.2 = .raw := Register.status_connect sorted quiet
  have same : p.1.skeleton = r.sized.skeleton.bind (.toRegister x) :=
    Register.skeleton_connect x s.sized r.sized c.registers
  obtain ⟨s', body', type⟩ :=
    Record.scalar_of_skeleton (congrArg Record.body same) (Record.body_sized body)
  have output' : s'.isOutput = true := by
    rw [← Scalar.isOutput_skeleton, type, Scalar.isOutput_skeleton, sorted]
  have start : c.startOnRegister r s b = p.1.connected .raw := by rw [← raw]; rfl
  rw [start]
  refine ⟨Record.defined_of_connected body' output' (by simp), ?_⟩
  have same' := (p.1.skeleton_connected .raw).trans same
  obtain ⟨s'', own, -⟩ :=
    Record.scalar_of_skeleton (congrArg Record.body same') (Record.body_sized body)
  have bound := Record.binding_of_bind same'
  simp only [finding, own, bound]
  split <;> simp

/-- **On a variable the value is defined because it was there.** -/
theorem defined_on_variable {s : Scalar} {b : Variable.Binding} {v : Variable} {status : Transfer}
    (body : r.body = .scalar .shared s) (output : s.isOutput = true)
    (quiet : r.common.initProcess = false) (there : c.variableAt? b.target = some v)
    (ok : (Variable.connect b s.sized r.sized v).result = .ok status) :
    ((Variable.connect b s.sized r.sized v).record.connected status).common.undefined = false ∧
      c.finding ((Variable.connect b s.sized r.sized v).record.connected status) = .value := by
  have sorted : s.sized.isOutput = true := by
    rw [← Scalar.isOutput_skeleton, Scalar.skeleton_sized, Scalar.isOutput_skeleton, output]
  obtain ⟨defined, w, taken⟩ :=
    Variable.defined_of_connect (Record.body_sized body) sorted quiet ok
  refine ⟨defined, ?_⟩
  have same := ((Variable.connect b s.sized r.sized v).record.skeleton_connected status).trans
    (Variable.skeleton_connect b s.sized r.sized v)
  obtain ⟨s', own, -⟩ :=
    Record.scalar_of_skeleton (congrArg Record.body same) (Record.body_sized body)
  have bound := Record.binding_of_bind same
  obtain ⟨w', put⟩ := Record.exists_put_of_skeleton (r := r.sized.bind (.toVariable b))
    (congrArg Record.body same) taken
  simp only [finding, own, bound, there, Option.map_some, put]

/-- **On an array the value is defined if there was any octet.** -/
theorem defined_on_archive {archive : ArchiveId} {a : ArrayFields} {x : Archive}
    (body : r.body = .array archive a) (fresh : r.common.undefined = true)
    (found : c.archive? archive = some x)
    (ok : (Archive.connect archive r ⟨x, c.files⟩).2.2 = .ok ()) :
    (Archive.connect archive r ⟨x, c.files⟩).1.common.undefined = false ↔
      c.finding (Archive.connect archive r ⟨x, c.files⟩).1 ≠ .nothing := by
  rcases resolved : Archive.resolve x r with e | ⟨info, b⟩
  · simp [Archive.connect, resolved] at ok
  · let fields : ArrayFields :=
      { values := List.replicate info.capacity 0, inUse := info.initial, written := info.initial }
    let octets := if b.persists then
      Archive.Vault.saved ⟨x, c.files⟩ r.common.name
        (4 * Archive.savedCount b.initial fields.values)
      else []
    have connected : (Archive.connect archive r ⟨x, c.files⟩).1 =
        (Archive.fill r fields archive octets).bind (.toArchive b) := by
      simp only [Archive.connect, resolved]
      rfl
    have filled := Archive.body_fill r fields archive octets
    have length : (ArrayFields.overwrite fields.values (Archive.decode octets)).length =
        fields.values.length := ArrayFields.length_overwrite _ _
    have finding : c.finding ((Archive.fill r fields archive octets).bind (.toArchive b)) =
        .ofOctets octets := by
      have own : ((Archive.fill r fields archive octets).bind (.toArchive b)).body = _ := filled
      have bound : ((Archive.fill r fields archive octets).bind (.toArchive b)).common.binding =
          .toArchive b := rfl
      have name : ((Archive.fill r fields archive octets).bind (.toArchive b)).common.name =
          r.common.name :=
        congrArg (·.common.name) (Archive.skeleton_fill body fields octets)
      simp only [finding, own, bound, found, octetsFor, name, Archive.savedCount, length]
      rfl
    rw [connected, finding, ne_eq, Finding.ofOctets_eq_nothing_iff]
    show (Archive.fill r fields archive octets).common.undefined = false ↔ _
    unfold Archive.fill
    split
    · simp [*]
    · simp [*]

/-- **A value is defined unless there was nothing at all to take over.**  A record that writes
and is not to be processed at once is initialised.  Then its value counts as defined exactly if
there was anything: a value, a fragment of an element of one to three octets in the file of an
array, or a register that could not be read.  Only a register can fail the record like this; a
record on a variable whose value cannot be taken is not connected. -/
theorem defined_iff_finding (there : c.record? id = some r) (output : r.body.isOutput = true)
    (quiet : r.common.initProcess = false) (fresh : r.common.undefined = true)
    (ok : c.initialise id = (d, .ok ())) (started : d.record? id = some q) :
    (q.common.undefined = false ↔ c.finding q ≠ .nothing) ∧
      (c.finding q = .failure →
        ∃ b e, q.common.binding = .toRegister b ∧ b.read c.registers = .error e) ∧
      (c.finding q = .fragment → ∃ archive a x b, q.body = .array archive a ∧
        q.common.binding = .toArchive b ∧ c.archive? archive = some x ∧
        0 < (c.octetsFor q x b a).length ∧ (c.octetsFor q x b a).length < 4) := by
  obtain ⟨e, connected⟩ := connected?_of_initialise (congrArg Prod.snd ok)
  -- The record is left as it was connected.
  obtain ⟨q', stands, same⟩ := (keeps_outline_of_connected connected).record there
  have quiet' : q'.common.initProcess = false :=
    (congrArg (·.common.initProcess) same).trans quiet
  obtain rfl : d = e.joinScanList id :=
    (Prod.mk.inj (ok.symm.trans (initialise_of_quiet connected stands quiet'))).1
  have there' : e.record? id = some q := by simpa [record?] using started
  obtain rfl := Option.some.inj (stands.symm.trans there')
  have type : q'.body.skeleton = r.body.skeleton := congrArg Record.body same
  have access : (∀ s, r.body ≠ .scalar .shared s) → c.finding q' = .failure →
      ∃ b e, q'.common.binding = .toRegister b ∧ b.read c.registers = .error e := by
    intro apart failed
    refine (failure_cases failed).resolve_right ?_
    rintro ⟨s', own⟩
    obtain ⟨s, body, -⟩ := Record.scalar_of_skeleton type.symm own
    exact apart s body
  cases body : r.body with
  | scalar support s =>
    have output' : s.isOutput = true := by simpa [body, Body.isOutput] using output
    cases support with
    | registers =>
      obtain ⟨b, -, stands', -⟩ := starts_on_register there body connected
      obtain rfl := Option.some.inj (stands.symm.trans stands')
      obtain ⟨defined, some⟩ := defined_on_register (c := c) (b := b) body output' quiet
      exact ⟨by simp [defined, some], access (by simp [body]), fragment_cases⟩
    | shared =>
      obtain ⟨b, v, status, named, taken, stands', -⟩ := starts_on_variable there body connected
      obtain rfl := Option.some.inj (stands.symm.trans stands')
      obtain ⟨-, there'⟩ := resolveVariable_eq_ok named
      obtain ⟨defined, value⟩ := defined_on_variable body output' quiet there' taken
      exact ⟨by simp [defined, value], by simp [value], fragment_cases⟩
  | array archive a =>
    obtain ⟨x, found, taken, stands'⟩ := starts_on_archive there body connected
    obtain rfl := Option.some.inj (stands.symm.trans stands')
    exact ⟨defined_on_archive body fresh found taken, access (by simp [body]), fragment_cases⟩

/-- An output for the register at address zero, which cannot be read, and an array of two
elements with a file from before. -/
def valveAndTrend (octets : List UInt8) : Controller :=
  let valve : Record := ⟨{ name := "valve" }, .literal "0", .scalar .registers (.longout 0)⟩
  let trend : Record := ⟨{ name := "t" }, .hardware ⟨0, 0, ""⟩, .array ⟨0⟩ {}⟩
  let c := (({ files := { contents := [("t", octets)] } } : Controller).newArchive
    { arrays := [⟨1, 2, 2, none⟩] }).2
  ((c.adopt valve none).2.adopt trend none).2

/-- With an empty file the trend has nothing to take over, and no value. -/
theorem trend_without_octets :
    ∃ r d q, (valveAndTrend []).record? ⟨1⟩ = some r ∧ r.body.isOutput = true ∧
      r.common.initProcess = false ∧ r.common.undefined = true ∧
      (valveAndTrend []).initialise ⟨1⟩ = (d, .ok ()) ∧ d.record? ⟨1⟩ = some q ∧
      (valveAndTrend []).finding q = .nothing ∧ q.common.undefined = true := by
  have found : ((((valveAndTrend []).initialise ⟨1⟩).1.record? ⟨1⟩).map
      (valveAndTrend []).finding) = some .nothing := by cbv
  have result : ((valveAndTrend []).initialise ⟨1⟩).2 = .ok () := rfl
  obtain ⟨q, there, nothing⟩ := Option.map_eq_some_iff.1 found
  have ok : (valveAndTrend []).initialise ⟨1⟩ = (((valveAndTrend []).initialise ⟨1⟩).1, .ok ()) :=
    Prod.ext rfl result
  have present : (valveAndTrend []).record? ⟨1⟩ = some ⟨{ name := "t", handle := some ⟨1⟩ },
      .hardware ⟨0, 0, ""⟩, .array ⟨0⟩ {}⟩ := rfl
  have defined := (defined_iff_finding present rfl rfl rfl ok there).1
  refine ⟨_, _, q, present, rfl, rfl, rfl, ok, there, nothing, ?_⟩
  cases undefined : q.common.undefined with
  | true => rfl
  | false => exact absurd nothing (defined.1 undefined)

/-- Whether a record has a defined value after it was initialised, and what it found. -/
def startedWith (c : Controller) (id : RecordId) : Option (Bool × Finding) :=
  ((c.initialise id).1.record? id).map fun q => (!q.common.undefined, c.finding q)

/-- The valve has a defined value although none could be read, and the trend has one because of
three octets, which are no element. -/
theorem defined_without_value :
    ((valveAndTrend [1, 2, 3]).initialise ⟨0⟩).2 = .ok () ∧
      (valveAndTrend [1, 2, 3]).startedWith ⟨0⟩ = some (true, .failure) ∧
      ((valveAndTrend [1, 2, 3]).initialise ⟨1⟩).2 = .ok () ∧
      (valveAndTrend [1, 2, 3]).startedWith ⟨1⟩ = some (true, .fragment) :=
  ⟨rfl, by cbv, rfl, by cbv⟩

end Controller

end ControlRecords
