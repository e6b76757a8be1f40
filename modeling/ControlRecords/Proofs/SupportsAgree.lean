import ControlRecords.Proofs.WordStartup

/-! # The two supports agree on a word

Of two records of the same type and settings, one is on a register of thirty-two bits and the
other on a variable of that size that holds the same word.  Both are followed by one account
of what can be seen of them, the `WordView`: the fields without the raw value, the word, and
whether a pass was made.  Each support refines the view, when the record is initialised and
in every later step, so that the two records can never be told apart
(`supports_agree`). -/
namespace ControlRecords

/-- What can be done alike to a record on a register and to one on a variable. -/
inductive Touch where
  /-- A client writes the value. -/
  | put (value : Value)
  | process
  /-- The word is overwritten from outside. -/
  | overwrite (word : UInt32)

namespace Scalar

/-- Write the value, if what is written can be converted. -/
def putValue (s : Scalar) (value : Value) : Scalar :=
  match s.type? .val with
  | some type =>
    match value.convert type with
    | .ok v => s.set .val v
    | .error _ => s
  | none => s

theorem skeleton_putValue (s : Scalar) (value : Value) :
    (s.putValue value).skeleton = s.skeleton := by
  unfold putValue
  split
  · split
    · exact skeleton_set s .val _
    · rfl
  · rfl

theorem shown_putValue {s t : Scalar} (h : s.shown = t.shown) (value : Value) :
    (s.putValue value).shown = (t.putValue value).shown := by
  have type : ∀ s : Scalar, s.shown.type? .val = s.type? .val := fun s => by cases s <;> rfl
  have set : ∀ (s : Scalar) (v : Value), (s.shown.set .val v).shown = (s.set .val v).shown := by
    intro s v
    cases s <;> cases v <;> rfl
  have told : ∀ s : Scalar, (s.shown.putValue value).shown = (s.putValue value).shown := by
    intro s
    have same : s.shown.shown = s.shown := by cases s <;> rfl
    unfold putValue
    rw [type]
    split
    · split
      · exact set s _
      · exact same
    · exact same
  rw [← told s, h, told]

theorem get?_of_shown {s t : Scalar} (h : s.shown = t.shown) {f : Field} (ne : f ≠ .rval) :
    s.get? f = t.get? f := by
  have told : ∀ s : Scalar, s.shown.get? f = s.get? f := by
    intro s
    cases f with
    | rval => exact absurd rfl ne
    | _ => cases s <;> rfl
  rw [← told s, h, told]

end Scalar

/-! ## The view -/

/-- What can be seen of a record and of the word that it reads or writes. -/
structure WordView where
  /-- The raw value among them does not count. -/
  fields : Scalar
  word : UInt32
  /-- A pass was made. -/
  passed : Bool

namespace WordView

/-- What counts. -/
def shown (a : WordView) : WordView := { a with fields := a.fields.shown }

/-- After a pass. -/
def process (a : WordView) : WordView := ⟨a.fields.passed a.word, a.fields.leaves a.word, true⟩

/-- After one step. -/
def touch (a : WordView) : Touch → WordView
  | .put value => { a with fields := a.fields.putValue value }
  | .process => a.process
  | .overwrite word => { a with word }

/-- After the record was initialised with some settings on a word. -/
def start (s : Scalar) (initProcess : Bool) (w : UInt32) : WordView :=
  if initProcess then process ⟨s.sized.placed, w, false⟩ else ⟨s.sized.placed.loaded w, w, false⟩

/-- A record that was connected has the view with which it starts, after its first pass if it
makes one at once. -/
theorem shown_of_loadedAs {s x : Scalar} {initProcess : Bool} {w : UInt32}
    (h : s.sized.placed.LoadedAs initProcess w x) :
    (if initProcess then process ⟨x, w, false⟩ else ⟨x, w, false⟩).shown =
      (start s initProcess w).shown := by
  cases initProcess with
  | true =>
    simp only [start, process, shown, if_true]
    rw [Scalar.passed_of_settings h, Scalar.leaves_of_settings h]
  | false =>
    have same : x.shown = (s.sized.placed.loaded w).shown := h
    simp [start, shown, same]

/-- Records of the same settings start with the same view. -/
theorem start_of_settings {s t : Scalar} (h : s.settings = t.settings) (initProcess : Bool)
    (w : UInt32) : (start s initProcess w).shown = (start t initProcess w).shown := by
  have placed := Scalar.placed_of_settings h
  cases initProcess with
  | true =>
    simp only [start, process, shown, if_true]
    rw [Scalar.passed_of_settings placed, Scalar.leaves_of_settings placed]
  | false =>
    simp only [start, shown, Bool.false_eq_true, if_false]
    rw [Scalar.loaded_of_settings placed]

theorem skeleton_start (s : Scalar) (initProcess : Bool) (w : UInt32) :
    (start s initProcess w).fields.skeleton = s.skeleton := by
  cases initProcess <;> simp [start, process]

theorem skeleton_touch (a : WordView) (t : Touch) :
    (a.touch t).fields.skeleton = a.fields.skeleton := by
  cases t with
  | put value => exact a.fields.skeleton_putValue value
  | process => exact a.fields.skeleton_passed a.word
  | overwrite _ => rfl

/-- **What follows the view in every step follows it in every run.** -/
theorem follows_touches {P : Controller → WordView → Prop} {step : Controller → Touch → Controller}
    (keeps : ∀ {c a}, P c a → a.fields.isDiscrete = true → ∀ t, P (step c t) (a.touch t))
    {c : Controller} {a : WordView} (h : P c a) (discrete : a.fields.isDiscrete = true)
    (touches : List Touch) : P (touches.foldl step c) (touches.foldl touch a) := by
  induction touches generalizing c a with
  | nil => exact h
  | cons t rest ih =>
    exact ih (keeps h discrete t)
      ((Scalar.isDiscrete_of_skeleton (a.skeleton_touch t)).trans discrete)

/-- The value is defined once a pass was made. -/
theorem passed_touches (a : WordView) (touches : List Touch)
    (h : a.passed = true ∨ .process ∈ touches) : (touches.foldl touch a).passed = true := by
  induction touches generalizing a with
  | nil => simpa using h
  | cons t rest ih =>
    refine ih _ ?_
    cases t with
    | process => exact .inl rfl
    | put _ | overwrite _ => simpa [touch] using h

end WordView

namespace Controller

/-- The fields of a record that a client has written the value of, or tried to. -/
theorem putField_val {c : Controller} {id : RecordId} {r : Record} {support : ScalarSupport}
    {s : Scalar} (there : c.record? id = some r) (shows : r.Shows support s) (value : Value) :
    ∃ q, (c.putField id "VAL" value).1 = c.setRecord id q ∧
      q.Shows support (s.putValue value) ∧ q.common = r.common := by
  obtain ⟨t, body, same⟩ := shows.body
  have shown := Scalar.shown_putValue same value
  have name : Field.ofText? "VAL" = some .val := by decide
  have unchanged : ∃ q, c = c.setRecord id q ∧ q.Shows support t ∧ q.common = r.common :=
    ⟨r, (setRecord_self there).symm, ⟨shows.idle, shows.alarms, t, body, rfl⟩, rfl⟩
  have put : ∃ q, (c.putField id "VAL" value).1 = c.setRecord id q ∧
      q.Shows support (t.putValue value) ∧ q.common = r.common := by
    simp only [putField, there, Record.putField, name, Record.put, body, Body.type?,
      Scalar.putValue]
    cases t.type? .val with
    | none => exact unchanged
    | some type =>
      dsimp only
      cases value.convert type with
      | ok v => exact ⟨_, rfl, ⟨shows.idle, shows.alarms, _, rfl, rfl⟩, rfl⟩
      | error e => exact unchanged
  obtain ⟨q, after, ⟨idle, alarms, u, body', same'⟩, common⟩ := put
  exact ⟨q, after, ⟨idle, alarms, u, body', same'.trans shown⟩, common⟩

/-! ## A record on a register -/

/-- A record on a register that has this view. -/
inductive OnRegister (c : Controller) (id : RecordId) (address : Nat) (m : Register.Builtin)
    (a : WordView) : Prop where
  | intro {r : Record} {b : Register.Binding} (there : c.record? id = some r)
      (shows : r.Shows .registers a.fields) (bound : r.common.binding = .toRegister b)
      (located : b.address = address) (word : b.IsWord m) (read : b.read c.registers = .ok a.word)
      (defined : a.passed = true → r.common.undefined = false)

/-- A record that can be initialised on a register that holds a word. -/
inductive MadeOnRegister (c : Controller) (id : RecordId) (s : Scalar) (initProcess : Bool)
    (address : Nat) (m : Register.Builtin) (w : UInt32) : Prop where
  | intro {r : Record} {b : Register.Binding} (there : c.record? id = some r)
      (rests : r.Rests .registers s) (init : r.common.initProcess = initProcess)
      (named : (Register.resolve c.catalogue r.link).1 = .ok b) (located : b.address = address)
      (word : b.IsWord m) (read : b.read c.registers = .ok w)

/-- The state after one step with a record on a register. -/
def touchRegister (id : RecordId) (address : Nat) (m : Register.Builtin) (c : Controller) :
    Touch → Controller
  | .put value => (c.putField id "VAL" value).1
  | .process => c.process id
  | .overwrite word => c.storeMemory address (m.octetsOf word)

section Register
variable {c : Controller} {id : RecordId} {address : Nat} {m : Register.Builtin} {a : WordView}

theorem OnRegister.of_shown {b : WordView} (h : c.OnRegister id address m a)
    (same : a.shown = b.shown) : c.OnRegister id address m b := by
  obtain ⟨there, shows, bound, located, word, read, defined⟩ := h
  simp only [WordView.shown, WordView.mk.injEq] at same
  obtain ⟨fields, w, passed⟩ := same
  obtain ⟨x, body, shown⟩ := shows.body
  exact .intro there ⟨shows.idle, shows.alarms, x, body, shown.trans fields⟩ bound located word
    (w ▸ read) (passed ▸ defined)

theorem OnRegister.process (h : c.OnRegister id address m a)
    (discrete : a.fields.isDiscrete = true) :
    (c.process id).OnRegister id address m a.process := by
  obtain ⟨there, shows, bound, located, word, read, -⟩ := h
  rename_i r b
  obtain ⟨s, body, -⟩ := shows.body
  obtain ⟨r', t, passed, shows', defined, left⟩ :=
    Record.pass_register word shows discrete bound read
  have target : c.target r = .registers c.registers := by simp [Controller.target, body]
  have after : c.process id = ({ c with registers := t } : Controller).setRecord id r' := by
    rw [process_of_record there, target, passed]
    rfl
  have skeleton : r'.skeleton = r.skeleton := by
    have same := Record.skeleton_process r (.registers c.registers)
    rwa [passed] at same
  rw [after]
  exact .intro (record?_setRecord_of_some there r') shows'
    ((Record.binding_of_skeleton skeleton).trans bound) located word left fun _ => defined

theorem OnRegister.touch (h : c.OnRegister id address m a) (discrete : a.fields.isDiscrete = true)
    (t : Touch) : (c.touchRegister id address m t).OnRegister id address m (a.touch t) := by
  cases t with
  | process => exact h.process discrete
  | put value =>
    obtain ⟨there, shows, bound, located, word, read, defined⟩ := h
    obtain ⟨q, after, shows', common⟩ := putField_val there shows value
    simp only [touchRegister, after]
    exact .intro (record?_setRecord_of_some there q) shows' (common ▸ bound) located word read
      (common ▸ defined)
  | overwrite w =>
    obtain ⟨there, shows, bound, rfl, word, -, defined⟩ := h
    exact .intro there shows bound rfl word (word.read_store w c.registers) defined

/-- A connected record follows the view with which it starts. -/
theorem OnRegister.of_startsOn {q : Record} {s : Scalar} {initProcess : Bool} {w : UInt32}
    {b : Register.Binding} (there : c.record? id = some q)
    (starts : q.StartsOn .registers s.sized.placed initProcess w (.toRegister b))
    (word : b.IsWord m) (read : b.read c.registers = .ok w) (discrete : s.isDiscrete = true) :
    (if initProcess then c.process id else c).OnRegister id b.address m
      (.start s initProcess w) := by
  obtain ⟨x, rests, loaded⟩ := starts.rests
  have view : c.OnRegister id b.address m ⟨x, w, false⟩ :=
    .intro there rests.shows starts.bound rfl word read (by simp)
  refine OnRegister.of_shown ?_ (WordView.shown_of_loadedAs loaded)
  cases initProcess with
  | true => exact view.process ((Scalar.isDiscrete_of_loadedAs loaded).trans discrete)
  | false => exact view

/-- **Initialising on a register starts with the view.** -/
theorem MadeOnRegister.initialise {s : Scalar} {initProcess : Bool} {w : UInt32}
    (h : c.MadeOnRegister id s initProcess address m w) (discrete : s.isDiscrete = true) :
    (c.initialise id).2 = .ok () ∧
      (c.initialise id).1.OnRegister id address m (.start s initProcess w) := by
  obtain ⟨there, rests, rfl, named, rfl, word, read⟩ := h
  rename_i r b
  have sized : r.sized.Rests .registers s.sized := rests.mapScalar Scalar.sized
  have discrete' : s.sized.isDiscrete = true :=
    (Scalar.isDiscrete_of_skeleton s.skeleton_sized).trans discrete
  have starts := Register.connect_word (b := { b with owner := r.common.handle }) sized discrete'
    read
  have there' : (c.setRecord id r.sized).record? id = some r.sized :=
    record?_setRecord_of_some there _
  obtain ⟨catalogue, linked⟩ := connectRegister_of_named (c := c.setRecord id r.sized)
    (r := r.sized) id s.sized named
  have connected := (connect_of_registers there' sized.body).trans linked
  obtain ⟨e, q, initialised, stands, starts', registers, -⟩ :=
    initialise_word there connected (record?_setRecord_of_some (by exact there') _) starts
  have view := OnRegister.of_startsOn stands starts' ⟨word.access, word.width, word.accessible⟩
    (registers ▸ read) discrete
  rw [initialised]
  exact ⟨rfl, view⟩

end Register

/-! ## A record on a variable -/

/-- A record on a variable that has this view. -/
inductive OnVariable (d : Controller) (id : RecordId) (v : VariableId) (a : WordView) : Prop where
  | intro {r : Record} {b : Variable.Binding} {x : Variable} (there : d.record? id = some r)
      (shows : r.Shows .shared a.fields) (bound : r.common.binding = .toVariable b)
      (target : b.target = v) (word : b.IsWord a.fields) (found : d.variableAt? v = some x)
      (holds : x.Holds a.word) (defined : a.passed = true → r.common.undefined = false)

/-- A record that can be initialised on a variable that holds a word. -/
inductive MadeOnVariable (d : Controller) (id : RecordId) (s : Scalar) (initProcess : Bool)
    (v : VariableId) (w : UInt32) : Prop where
  | intro {r : Record} {b : Variable.Binding} {x : Variable} (there : d.record? id = some r)
      (rests : r.Rests .shared s) (init : r.common.initProcess = initProcess)
      (named : (d.resolveVariable r.link r (.ofScalar s)).2 = .ok (b, x)) (target : b.target = v)
      (raw : b.flags.noConvert = false) (synchronous : b.flags.asynchronous = false)
      (holds : x.Holds w)

/-- The state after one step with a record on a variable. -/
def touchVariable (id : RecordId) (v : VariableId) (d : Controller) : Touch → Controller
  | .put value => (d.putField id "VAL" value).1
  | .process => d.process id
  | .overwrite word => (d.store v (.ulong word)).1

section Variable
variable {d : Controller} {id : RecordId} {v : VariableId} {a : WordView}

theorem OnVariable.of_shown {b : WordView} (h : d.OnVariable id v a) (same : a.shown = b.shown) :
    d.OnVariable id v b := by
  obtain ⟨there, shows, bound, target, word, found, holds, defined⟩ := h
  simp only [WordView.shown, WordView.mk.injEq] at same
  obtain ⟨fields, w, passed⟩ := same
  obtain ⟨x, body, shown⟩ := shows.body
  exact .intro there ⟨shows.idle, shows.alarms, x, body, shown.trans fields⟩ bound target
    (word.of_skeleton (Scalar.skeleton_of_shown fields)) found (w ▸ holds) (passed ▸ defined)

theorem OnVariable.process (h : d.OnVariable id v a) (discrete : a.fields.isDiscrete = true) :
    (d.process id).OnVariable id v a.process := by
  obtain ⟨there, shows, bound, rfl, word, found, holds, -⟩ := h
  rename_i r b x
  obtain ⟨s, body, -⟩ := shows.body
  obtain ⟨r', y, passed, shows', defined, left⟩ :=
    Record.pass_variable word shows discrete bound holds
  have after : d.process id = (d.setVariable b.target y).setRecord id r' := by
    rw [process_of_record there, target_of_shared body bound found, passed]
    simp [setTarget, bound]
  have skeleton : r'.skeleton = r.skeleton := by
    have same := Record.skeleton_process r (.shared x)
    rwa [passed] at same
  rw [after]
  exact .intro (record?_setRecord_of_some there r') shows'
    ((Record.binding_of_skeleton skeleton).trans bound) rfl
    (word.of_skeleton (a.skeleton_touch .process).symm)
    (variableAt?_setVariable_of_some found y) left fun _ => defined

theorem OnVariable.touch (h : d.OnVariable id v a) (discrete : a.fields.isDiscrete = true)
    (t : Touch) : (d.touchVariable id v t).OnVariable id v (a.touch t) := by
  cases t with
  | process => exact h.process discrete
  | put value =>
    obtain ⟨there, shows, bound, target, word, found, holds, defined⟩ := h
    obtain ⟨q, after, shows', common⟩ := putField_val there shows value
    simp only [touchVariable, after]
    exact .intro (record?_setRecord_of_some there q) shows' (common ▸ bound) target
      (word.of_skeleton (a.skeleton_touch (.put value)).symm) found holds (common ▸ defined)
  | overwrite w =>
    obtain ⟨there, shows, bound, rfl, word, found, holds, defined⟩ := h
    rename_i r b x
    have stored : x.store (.ulong w) = .ok { x with value := .ulong w } := by
      simp only [Variable.store, Variable.type, holds.value]
      rfl
    simp only [touchVariable, store, found, stored]
    exact .intro there shows bound rfl word (variableAt?_setVariable_of_some found _)
      ⟨rfl, holds.alarm⟩ defined

/-- A connected record follows the view with which it starts. -/
theorem OnVariable.of_startsOn {q : Record} {s : Scalar} {initProcess : Bool} {w : UInt32}
    {b : Variable.Binding} {x : Variable} (there : d.record? id = some q)
    (starts : q.StartsOn .shared s.sized.placed initProcess w (.toVariable b))
    (word : b.IsWord s) (found : d.variableAt? b.target = some x) (holds : x.Holds w)
    (discrete : s.isDiscrete = true) :
    (if initProcess then d.process id else d).OnVariable id b.target
      (.start s initProcess w) := by
  obtain ⟨y, rests, loaded⟩ := starts.rests
  have type : y.skeleton = s.skeleton := (Scalar.skeleton_of_loadedAs loaded).trans (by simp)
  have view : d.OnVariable id b.target ⟨y, w, false⟩ :=
    .intro there rests.shows starts.bound rfl (word.of_skeleton type.symm) found holds (by simp)
  refine OnVariable.of_shown ?_ (WordView.shown_of_loadedAs loaded)
  cases initProcess with
  | true => exact view.process ((Scalar.isDiscrete_of_loadedAs loaded).trans discrete)
  | false => exact view

/-- **Initialising on a variable starts with the view.** -/
theorem MadeOnVariable.initialise {s : Scalar} {initProcess : Bool} {w : UInt32}
    (h : d.MadeOnVariable id s initProcess v w) (discrete : s.isDiscrete = true) :
    (d.initialise id).2 = .ok () ∧
      (d.initialise id).1.OnVariable id v (.start s initProcess w) := by
  obtain ⟨there, rests, rfl, named, rfl, raw, synchronous, holds⟩ := h
  rename_i r b x
  have sized : r.sized.Rests .shared s.sized := rests.mapScalar Scalar.sized
  have discrete' : s.sized.isDiscrete = true :=
    (Scalar.isDiscrete_of_skeleton s.skeleton_sized).trans discrete
  obtain ⟨found, here⟩ := resolveVariable_eq_ok named
  have word := Variable.isWord_of_resolve discrete found raw synchronous
  obtain ⟨q, status, connected, starts⟩ := Variable.connect_word sized discrete'
    (word.of_skeleton s.skeleton_sized.symm) holds
  have there' : (d.setRecord id r.sized).record? id = some r.sized :=
    record?_setRecord_of_some there _
  have named' : ((d.setRecord id r.sized).resolveVariable r.sized.link r.sized
      (.ofScalar s.sized)).2 = .ok (b, x) := by
    have choice : Variable.Choice.ofScalar s.sized = .ofScalar s := by cases s <;> rfl
    refine resolveVariable_of_ok ?_ here
    rw [Variable.resolve_sized, choice]
    exact found
  obtain ⟨catalogue, linked⟩ := connectVariable_of_named id named'
  rw [connected] at linked
  have at' : (({ d.setRecord id r.sized with catalogue } : Controller).record? id).isSome :=
    congrArg Option.isSome there'
  obtain ⟨e, q', initialised, stands, starts', -, vars'⟩ :=
    initialise_word there ((connect_of_shared there' sized.body).trans linked)
      (record?_setRecord_self _ _ _ at') starts
  have kept : e.variableAt? b.target = some x := by
    rw [variableAt?, vars']
    exact here
  rw [initialised]
  exact ⟨rfl, .of_startsOn stands starts' word kept holds discrete⟩

end Variable

/-! ## Both -/

/-- What a client sees of a record that reads or writes a word; the raw value is up to the
support. -/
def visibleFields : List Field := [.val, .mask, .nobt, .shft, .rbv, .pact, .stat, .sevr]

/-- Records with the same view show the same in a field if their common parts do. -/
theorem get?_of_shows {r q : Record} {support other : ScalarSupport} {s : Scalar}
    (h : r.Shows support s) (h' : q.Shows other s) {f : Field} (ne : f ≠ .rval)
    (common : r.common.get? f = q.common.get? f) : r.get? f = q.get? f := by
  obtain ⟨x, body, shown⟩ := h.body
  obtain ⟨y, body', shown'⟩ := h'.body
  have own : r.body.get? f = q.body.get? f := by
    rw [body, body']
    exact Scalar.get?_of_shown (shown.trans shown'.symm) ne
  simp only [Record.get?, own, common]

/-- Records with the same view show a client the same. -/
theorem get?_of_visible {r q : Record} {support other : ScalarSupport} {s : Scalar}
    (h : r.Shows support s) (h' : q.Shows other s) {f : Field} (visible : f ∈ visibleFields) :
    r.get? f = q.get? f := by
  simp only [visibleFields, List.mem_cons, List.not_mem_nil, or_false] at visible
  refine get?_of_shows h h' ?_ ?_
  · rcases visible with rfl | rfl | rfl | rfl | rfl | rfl | rfl | rfl <;> simp
  · rcases visible with rfl | rfl | rfl | rfl | rfl | rfl | rfl | rfl <;>
      simp [Common.get?, h.idle, h'.idle, h.alarms, h'.alarms]

/-- **The two supports agree on a word.**  Whatever is done alike to a record on a register of
thirty-two bits and to one on a variable that holds the same word, after they are
initialised, the register and the variable hold the same word and a client sees the same of
both records.  Whether the value is undefined may differ until the first pass. -/
theorem supports_agree {c d : Controller} {id j : RecordId} {address : Nat}
    {m : Register.Builtin} {v : VariableId} {s t : Scalar} {initProcess : Bool} {w : UInt32}
    (onRegister : c.MadeOnRegister id s initProcess address m w)
    (onVariable : d.MadeOnVariable j t initProcess v w) (discrete : s.isDiscrete = true)
    (same : s.settings = t.settings) (touches : List Touch) :
    let c' := touches.foldl (touchRegister id address m) (c.initialise id).1
    let d' := touches.foldl (touchVariable j v) (d.initialise j).1
    (c.initialise id).2 = .ok () ∧ (d.initialise j).2 = .ok () ∧
      ∃ r q word x, c'.record? id = some r ∧ d'.record? j = some q ∧
        (Register.Access.builtin m).read address c'.registers = .ok word ∧
        d'.variableAt? v = some x ∧ x.value = .ulong word ∧
        (∀ f ∈ visibleFields, r.get? f = q.get? f) ∧
        (initProcess = true ∨ .process ∈ touches → r.get? .udf = q.get? .udf) := by
  intro c' d'
  have type : t.skeleton = s.skeleton := (Scalar.skeleton_of_settings same).symm
  obtain ⟨initialised, started⟩ := onRegister.initialise discrete
  obtain ⟨initialised', started'⟩ :=
    onVariable.initialise ((Scalar.isDiscrete_of_skeleton type).trans discrete)
  -- Both records follow one view from here on.
  have discrete' : (WordView.start s initProcess w).fields.isDiscrete = true :=
    (Scalar.isDiscrete_of_skeleton (WordView.skeleton_start s initProcess w)).trans discrete
  have followed := WordView.follows_touches (P := (OnRegister · id address m)) OnRegister.touch
    started discrete' touches
  have followed' := WordView.follows_touches (P := (OnVariable · j v)) OnVariable.touch
    (started'.of_shown (WordView.start_of_settings same initProcess w).symm) discrete' touches
  obtain ⟨there, shows, -, located, isWord, read, defined⟩ := followed
  obtain ⟨there', shows', -, -, -, found, holds, defined'⟩ := followed'
  rename_i r b q g x
  refine ⟨initialised, initialised', r, q, _, x, there, there', ?_, found, holds.value,
    fun f visible => get?_of_visible shows shows' visible, fun h => ?_⟩
  · rw [Register.Binding.read, isWord.access, located] at read
    exact read
  · have passed : (touches.foldl WordView.touch (.start s initProcess w)).passed = true := by
      refine WordView.passed_touches _ touches (h.imp_left fun init => ?_)
      rw [init]
      rfl
    refine get?_of_shows shows shows' (by simp) ?_
    simp only [Common.get?, defined passed, defined' passed]

/-- A switch of four positions on a register. -/
def switchOnRegister : Controller :=
  let switch : Record :=
    ⟨{ name := "switch" }, .literal "0x10000000",
      .scalar .registers (.mbbo { bits := 2, shift := 1 } 0)⟩
  let c := (({} : Controller).adopt switch none).2
  c.storeMemory 0x10000000 (Register.Builtin.be32.octetsOf 6)

/-- A switch of four positions on a variable. -/
def switchOnVariable : Controller :=
  let switch : Record :=
    ⟨{ name := "switch" }, .hardware ⟨0, 0, "g"⟩,
      .scalar .shared (.mbbo { bits := 2, shift := 1 } 0)⟩
  let d := (({} : Controller).registerGroup "g" [{ value := .ulong 6 }]).1
  (d.adopt switch none).2

theorem supports_agree_on_switch :
    let s : Scalar := .mbbo { bits := 2, shift := 1 } 0
    let touches : List Touch := [.put (.long 2), .overwrite 9, .process]
    let c' := touches.foldl (touchRegister ⟨0⟩ 0x10000000 .be32) (switchOnRegister.initialise ⟨0⟩).1
    let d' := touches.foldl (touchVariable ⟨0⟩ ⟨0⟩) (switchOnVariable.initialise ⟨0⟩).1
    switchOnRegister.MadeOnRegister ⟨0⟩ s false 0x10000000 .be32 6 ∧
      switchOnVariable.MadeOnVariable ⟨0⟩ s false ⟨0⟩ 6 ∧ s.isDiscrete = true ∧
      ∃ r q word x, c'.record? ⟨0⟩ = some r ∧ d'.record? ⟨0⟩ = some q ∧
        (Register.Access.builtin .be32).read 0x10000000 c'.registers = .ok word ∧
        d'.variableAt? ⟨0⟩ = some x ∧ x.value = .ulong word ∧
        (∀ f ∈ visibleFields, r.get? f = q.get? f) ∧ r.get? .udf = q.get? .udf := by
  intro s touches c' d'
  let b : Register.Binding := { address := 0x10000000 }
  have onRegister : switchOnRegister.MadeOnRegister ⟨0⟩ s false 0x10000000 .be32 6 := by
    have word : b.IsWord .be32 := ⟨rfl, rfl, by decide⟩
    have named : (Register.resolve switchOnRegister.catalogue (.literal "0x10000000")).1 =
        .ok b := by cbv
    exact .intro rfl ⟨rfl, rfl, rfl⟩ rfl named rfl word (word.read_store 6 {})
  have onVariable : switchOnVariable.MadeOnVariable ⟨0⟩ s false ⟨0⟩ 6 := by
    refine .intro rfl ⟨rfl, rfl, rfl⟩ rfl (b := ⟨⟨0⟩, {}, .rval, .ulong⟩)
      (x := { value := .ulong 6 }) ?_ rfl rfl rfl ⟨rfl, rfl⟩
    cbv
  obtain ⟨-, -, r, q, word, x, there, there', read, found, value, visible, defined⟩ :=
    supports_agree onRegister onVariable rfl rfl touches
  exact ⟨onRegister, onVariable, rfl, r, q, word, x, there, there', read, found, value, visible,
    defined (.inr (by simp [touches]))⟩

end Controller

end ControlRecords
