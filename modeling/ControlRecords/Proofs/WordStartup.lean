import ControlRecords.Proofs.Startup
import ControlRecords.Proofs.WordPass

/-! # Startup on a word of thirty-two bits

A record that writes takes over the word that it finds when it is connected, unless it is to
be processed at once.  The two supports note different words then as read back and as the
raw value, but the pass that follows forgets both.  So for a record that is processed at once
only its settings count, and for any other what can be seen (`Scalar.LoadedAs`), and in this
sense both supports do the same (`Register.connect_word`, `Variable.connect_word`). -/
namespace ControlRecords

namespace Scalar

/-- The fields after a word was taken over, if the record writes. -/
def loaded (s : Scalar) (w : UInt32) : Scalar :=
  if s.isOutput then ((s.receive w).noteReadBack w).ofRaw else s

@[simp] theorem skeleton_loaded (s : Scalar) (w : UInt32) :
    (s.loaded w).skeleton = s.skeleton := by
  cases s <;> rfl

theorem placed_of_settings {s t : Scalar} (h : s.settings = t.settings) :
    s.sized.placed.settings = t.sized.placed.settings := by
  have told : ∀ s : Scalar, s.settings.sized.placed.settings = s.sized.placed.settings :=
    fun s => by cases s <;> rfl
  rw [← told s, h, told]

theorem loaded_of_settings {s t : Scalar} (h : s.settings = t.settings) (w : UInt32) :
    (s.loaded w).shown = (t.loaded w).shown := by
  have told : ∀ s : Scalar, (s.settings.loaded w).shown = (s.loaded w).shown :=
    fun s => by cases s <;> rfl
  rw [← told s, h, told]

/-- These are the fields with which a record starts that found a word. -/
def LoadedAs (s : Scalar) (initProcess : Bool) (w : UInt32) (t : Scalar) : Prop :=
  if initProcess then t.settings = s.settings else t.shown = (s.loaded w).shown

theorem skeleton_of_loadedAs {s t : Scalar} {initProcess : Bool} {w : UInt32}
    (h : s.LoadedAs initProcess w t) : t.skeleton = s.skeleton := by
  cases initProcess with
  | true => exact skeleton_of_settings h
  | false => exact (skeleton_of_shown h).trans (s.skeleton_loaded w)

theorem isDiscrete_of_loadedAs {s t : Scalar} {initProcess : Bool} {w : UInt32}
    (h : s.sized.placed.LoadedAs initProcess w t) : t.isDiscrete = s.isDiscrete :=
  isDiscrete_of_skeleton ((skeleton_of_loadedAs h).trans (by simp))

/-- A record that reads starts with the fields that it has. -/
theorem loadedAs_of_input {s : Scalar} (input : s.isOutput = false) (initProcess : Bool)
    (w : UInt32) : s.LoadedAs initProcess w s := by
  cases initProcess with
  | true => rfl
  | false => simp [LoadedAs, loaded, input]

end Scalar

namespace Record

/-- The record is idle, has no alarm, and these are its fields. -/
structure Rests (r : Record) (support : ScalarSupport) (s : Scalar) : Prop where
  idle : r.common.active = false
  alarms : r.common.alarms = {}
  body : r.body = .scalar support s

namespace Rests
variable {r : Record} {support : ScalarSupport} {s : Scalar} (h : r.Rests support s)
include h

theorem shows : r.Shows support s := ⟨h.idle, h.alarms, s, h.body, rfl⟩

theorem bind (b : Binding) : (r.bind b).Rests support s := ⟨h.idle, h.alarms, h.body⟩

theorem setUndefined (undefined : Bool) : (r.setUndefined undefined).Rests support s :=
  ⟨h.idle, h.alarms, h.body⟩

theorem mapScalar (g : Scalar → Scalar) : (r.mapScalar g).Rests support (g s) :=
  ⟨h.idle, h.alarms, by simp [Record.mapScalar, h.body, Body.mapScalar]⟩

theorem promoteAlarms : (r.withCommon Common.promoteAlarms).Rests support s := by
  refine ⟨h.idle, ?_, h.body⟩
  simp only [withCommon, Common.promoteAlarms, h.alarms]
  rfl

theorem connected_raw :
    (r.connected .raw).Rests support (if s.isOutput then s.ofRaw else s) := by
  simp only [connected, h.body]
  split
  · exact ⟨h.idle, h.alarms, rfl⟩
  · exact h

theorem connected_final : (r.connected .final).Rests support s := by
  simpa only [connected, h.body] using h

end Rests

end Record

/-- A connected record is ready to start on a word. -/
structure Record.StartsOn (q : Record) (support : ScalarSupport) (s : Scalar)
    (initProcess : Bool) (w : UInt32) (binding : Binding) : Prop where
  rests : ∃ x, q.Rests support x ∧ s.LoadedAs initProcess w x
  init : q.common.initProcess = initProcess
  bound : q.common.binding = binding

/-- Connecting keeps whether the record is to be processed at once. -/
theorem Record.StartsOn.of_connected {q r : Record} {support : ScalarSupport} {s x : Scalar}
    {w : UInt32} {binding : Binding} {status : Transfer}
    (rests : (q.connected status).Rests support x) (loaded : s.LoadedAs r.common.initProcess w x)
    (skeleton : q.skeleton = r.skeleton.bind binding) :
    (q.connected status).StartsOn support s r.common.initProcess w binding := by
  have same := (q.skeleton_connected status).trans skeleton
  exact ⟨⟨x, rests, loaded⟩, congrArg (·.common.initProcess) same, Record.binding_of_bind same⟩

theorem Register.rests_readBack {b : Binding} {r : Record} {support : ScalarSupport} {s : Scalar}
    {t : Registers} {w : UInt32} (h : r.Rests support s) (read : b.read t = .ok w)
    (take : Scalar → UInt32 → Scalar) : (readBack b take r t).Rests support (take s w) := by
  simp only [readBack, read]
  exact h.mapScalar (take · w)

theorem Register.rests_connect {b : Binding} {r : Record} {s : Scalar} {t : Registers} {w : UInt32}
    (h : r.Rests .registers s) (discrete : s.isDiscrete = true) (read : b.read t = .ok w) :
    ∃ x, ((connect b s r t).1.connected (connect b s r t).2).Rests .registers x ∧
      s.placed.LoadedAs r.common.initProcess w x := by
  have bound := h.bind (.toRegister b)
  have loaded := rests_readBack bound read Scalar.receive
  have init : (r.bind (.toRegister b)).common.initProcess = r.common.initProcess := rfl
  cases s with
  | ai _ | ao _ => simp [Scalar.isDiscrete] at discrete
  | longin _ => exact ⟨_, bound.connected_raw, Scalar.loadedAs_of_input rfl _ _⟩
  | bi _ => exact ⟨_, (bound.setUndefined false).connected_raw, Scalar.loadedAs_of_input rfl _ _⟩
  | mbbi _ => exact ⟨_, (bound.mapScalar _).connected_raw, Scalar.loadedAs_of_input rfl _ _⟩
  | bo _ =>
    simp only [connect, init]
    cases r.common.initProcess with
    | true => exact ⟨_, bound.connected_final, rfl⟩
    | false => exact ⟨_, loaded.promoteAlarms.connected_raw, rfl⟩
  | longout _ =>
    simp only [connect, init]
    cases r.common.initProcess with
    | true => exact ⟨_, bound.connected_raw, rfl⟩
    | false => exact ⟨_, loaded.promoteAlarms.connected_raw, rfl⟩
  | mbbo _ _ =>
    have noted := (bound.mapScalar Scalar.placed).mapScalar
      fun s => (s.setWord w).noteReadBack w
    have masked := noted.mapScalar fun s => s.setWord (s.word &&& s.mask)
    simp only [connect, readBack, read, Record.mapScalar, init]
    cases r.common.initProcess with
    | true => exact ⟨_, masked.connected_final, rfl⟩
    | false =>
      refine ⟨_, masked.promoteAlarms.connected_raw, ?_⟩
      simp [Scalar.LoadedAs, Scalar.loaded, Scalar.placed, Scalar.setWord, Scalar.noteReadBack,
        Scalar.isOutput, Scalar.ofRaw, Scalar.receive, Scalar.word, Scalar.mask, Scalar.shown,
        MultiBit.ofRaw, Bits.state_and]

/-- **Connecting to a register.** -/
theorem Register.connect_word {b : Binding} {r : Record} {s : Scalar} {t : Registers} {w : UInt32}
    (h : r.Rests .registers s) (discrete : s.isDiscrete = true) (read : b.read t = .ok w) :
    ((connect b s r t).1.connected (connect b s r t).2).StartsOn .registers s.placed
      r.common.initProcess w (.toRegister b) := by
  obtain ⟨x, rests, loaded⟩ := rests_connect h discrete read
  exact .of_connected rests loaded (skeleton_connect b s r t)

namespace Variable

/-- A record whose link asks for nothing special has its word moved as it is. -/
theorem isWord_of_resolve {t : GroupTable} {setting : Option String} {link : Link} {r : Record}
    {s : Scalar} {b : Binding} (discrete : s.isDiscrete = true)
    (named : (resolve t setting link r (.ofScalar s)).1 = .ok b)
    (raw : b.flags.noConvert = false) (synchronous : b.flags.asynchronous = false) :
    b.IsWord s := by
  obtain ⟨-, field⟩ := resolve_eq_ok named
  have name : (Choice.ofScalar s).field = s.wordField.text := by
    cases s with
    | ai _ | ao _ => simp [Scalar.isDiscrete] at discrete
    | _ => rfl
  rw [Choice.fieldName, raw, if_neg (by simp), name, Field.ofText?_text] at field
  exact ⟨raw, synchronous, (Option.some.inj field).symm⟩

section Word
variable {b : Binding} {r : Record} {s : Scalar} {v : Variable} {w : UInt32}
  (h : r.Rests .shared s) (discrete : s.isDiscrete = true) (word : b.IsWord s) (holds : v.Holds w)

theorem connectOutput_of_initProcess (init : r.common.initProcess = true) :
    ∃ status, connectOutput b r v = ⟨r.bind (.toVariable b), v, .ok status⟩ := by
  have init : (r.bind (.toVariable b)).common.initProcess = true := init
  simp only [connectOutput, init, if_true]
  exact ⟨_, rfl⟩

include h discrete word holds

/-- A record that is not processed at once loads the word. -/
theorem connectOutput_word (init : r.common.initProcess = false) :
    ∃ q, connectOutput b r v = ⟨q, v, .ok .raw⟩ ∧ q.Rests .shared (s.setWord w) ∧
      q.common.initProcess = false := by
  have bound := h.bind (.toVariable b)
  have init' : (r.bind (.toVariable b)).common.initProcess = false := init
  obtain ⟨c, v', taken, active, alarms, -⟩ :=
    takeIn_word bound.body discrete word holds false
  obtain rfl : v = v' := by
    have target := target_takeIn b (r.bind (.toVariable b)) v false
    rw [taken] at target
    exact target.symm
  have rests : (⟨c, r.link, .scalar .shared (s.setWord w)⟩ : Record).Rests .shared (s.setWord w) :=
    ⟨active.trans bound.idle, alarms.trans bound.alarms, rfl⟩
  refine ⟨_, ?_, rests.promoteAlarms, ?_⟩
  · simp only [connectOutput, init', taken, Bool.false_eq_true, if_false]
    rfl
  · have same := skeleton_takeIn b (r.bind (.toVariable b)) v false
    rw [taken] at same
    exact (congrArg (·.common.initProcess) same).trans init

theorem rests_connect :
    ∃ q status x, connect b s r v = ⟨q, v, .ok status⟩ ∧ (q.connected status).Rests .shared x ∧
      s.placed.LoadedAs r.common.initProcess w x := by
  have bound := h.bind (.toVariable b)
  cases s with
  | ai _ | ao _ => simp [Scalar.isDiscrete] at discrete
  | longin _ | bi _ =>
    exact ⟨_, _, _, rfl, bound.connected_raw, Scalar.loadedAs_of_input rfl _ _⟩
  | mbbi _ =>
    exact ⟨_, _, _, rfl, (bound.mapScalar _).connected_raw, Scalar.loadedAs_of_input rfl _ _⟩
  | longout _ =>
    cases init : r.common.initProcess with
    | true =>
      obtain ⟨status, e⟩ := connectOutput_of_initProcess (b := b) (v := v) init
      cases status with
      | raw => exact ⟨_, _, _, e, bound.connected_raw, rfl⟩
      | final => exact ⟨_, _, _, e, bound.connected_final, rfl⟩
    | false =>
      obtain ⟨q, e, loaded, -⟩ := connectOutput_word h discrete word holds init
      exact ⟨_, _, _, e, loaded.connected_raw, rfl⟩
  | bo _ =>
    simp only [connect]
    cases init : r.common.initProcess with
    | true =>
      obtain ⟨status, e⟩ := connectOutput_of_initProcess (b := b) (v := v) init
      have init' : (r.bind (.toVariable b)).common.initProcess = true := init
      simp only [e, init', if_true]
      exact ⟨_, _, _, rfl, bound.connected_final, rfl⟩
    | false =>
      obtain ⟨q, e, loaded, init'⟩ := connectOutput_word h discrete word holds init
      simp only [e, init', Bool.false_eq_true, if_false, maskRaw, Scalar.setWord_masked]
      exact ⟨_, _, _, rfl, (loaded.mapScalar _).connected_raw, rfl⟩
  | mbbo _ _ =>
    simp only [connect]
    cases init : r.common.initProcess with
    | true =>
      obtain ⟨status, e⟩ := connectOutput_of_initProcess (b := b) (v := v) init
      have init' : (r.bind (.toVariable b)).common.initProcess = true := init
      simp only [e, Record.mapScalar, init', if_true]
      exact ⟨_, _, _, rfl, ((bound.mapScalar _).mapScalar _).connected_final, rfl⟩
    | false =>
      obtain ⟨q, e, loaded, init'⟩ := connectOutput_word h discrete word holds init
      simp only [e, Record.mapScalar, init', Bool.false_eq_true, if_false, maskRaw,
        Scalar.setWord_masked]
      refine ⟨_, _, _, rfl, (((loaded.mapScalar _).mapScalar _).mapScalar _).connected_raw, ?_⟩
      simp [Scalar.LoadedAs, Scalar.loaded, Scalar.placed, Scalar.setWord, Scalar.noteReadBack,
        Scalar.isOutput, Scalar.ofRaw, Scalar.receive, Scalar.word, Scalar.mask, Scalar.shown,
        MultiBit.ofRaw, MultiBit.placed, Bits.state_masked]

/-- **Connecting to a variable.** -/
theorem connect_word :
    ∃ q status, connect b s r v = ⟨q, v, .ok status⟩ ∧
      (q.connected status).StartsOn .shared s.placed r.common.initProcess w (.toVariable b) := by
  obtain ⟨q, status, x, connected, rests, loaded⟩ := rests_connect h discrete word holds
  have skeleton := skeleton_connect b s r v
  rw [connected] at skeleton
  exact ⟨q, status, connected, .of_connected rests loaded skeleton⟩

end Word

end Variable

namespace Controller

/-- Initialising a record that can be connected to a word. -/
theorem initialise_word {c d : Controller} {id : RecordId} {r q : Record} {status : Transfer}
    {support : ScalarSupport} {s : Scalar} {initProcess : Bool} {w : UInt32} {binding : Binding}
    (there : c.record? id = some r)
    (connected : (c.setRecord id r.sized).connect id = (d, .ok status))
    (there' : d.record? id = some q)
    (starts : (q.connected status).StartsOn support s initProcess w binding) :
    ∃ e q', c.initialise id = (if initProcess then e.process id else e, .ok ()) ∧
      e.record? id = some q' ∧ q'.StartsOn support s initProcess w binding ∧
      e.registers = d.registers ∧ e.vars = d.vars := by
  let e := (d.setRecord id (q.connected status)).joinScanList id
  have stands : e.record? id = some (q.connected status) := by
    have placed := record?_setRecord_of_some there' (q.connected status)
    simpa [e, record?] using placed
  obtain ⟨x, rests, -⟩ := starts.rests
  refine ⟨e, q.connected status, ?_, stands, starts, registers_joinScanList _ id,
    vars_joinScanList _ id⟩
  rw [initialise_of_connect there connected there',
    processInitially_of_idle stands rests.idle, starts.init]

end Controller

end ControlRecords
