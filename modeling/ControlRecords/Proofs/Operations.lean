import ControlRecords.Proofs.Accesses
import ControlRecords.Proofs.Startup

/-! # Operations and histories

The actions of a run are what happens to a controller whose records are connected.  Drivers
and clients can do more: they wait for events and set times, they move values without a pass,
and they connect and initialise records at any time.  `Operation` is all of this together,
and a history is a list of operations.

However an operation goes, it makes one access to one variable or none at all (`access?`), and
that is everything it does to the variables (`vars_operate`).  So a law about a variable in all
histories is a law about one access, carried through the history. -/
namespace ControlRecords

/-- What can be done to the records and variables of a controller. -/
inductive Operation where
  /-- An action of a run. -/
  | act (action : Action)
  /-- The driver sets the time of a variable. -/
  | stamp (target : VariableId) (time : TimeStamp)
  /-- The driver signals the event of a variable. -/
  | signal (target : VariableId)
  /-- The driver asks for the event of a variable, and does not wait for it. -/
  | poll (target : VariableId)
  /-- A record's field is loaded from its variable. -/
  | get (record : RecordId)
  /-- A record's field is stored in its variable. -/
  | give (record : RecordId)
  /-- A record's variable is read back. -/
  | readBack (record : RecordId)
  /-- The second pass of a record is run with a variable. -/
  | secondPhase (record : RecordId) (target : VariableId)
  /-- A record is initialised. -/
  | initialise (record : RecordId)
  /-- A record of any type is connected to a variable, as one that reads or as one that
  writes. -/
  | bind (record : RecordId) (link : Link) (choice : Variable.Choice) (output : Bool)

/-- The operation connects a record. -/
def Operation.connects : Operation → Bool
  | .initialise _ | .bind _ _ _ _ => true
  | _ => false

namespace Controller

/-- Set the time of a variable. -/
def stamp (c : Controller) (id : VariableId) (time : TimeStamp) : Controller :=
  c.modifyVariable id ({ · with time })

/-- The state after an operation. -/
def operate (c : Controller) : Operation → Controller
  | .act a => c.act a
  | .stamp v time => c.stamp v time
  | .signal v => c.signal v
  | .poll v => (c.wait v 0).1
  | .get id => (c.get id).1
  | .give id => (c.put id).1
  | .readBack id => (c.readBack id).1
  | .secondPhase id v => (c.secondPhase id v).1
  | .initialise id => (c.initialise id).1
  | .bind id link choice output => (c.bindVariable id link choice output).1

/-! ## Histories -/

/-- The state after a history. -/
def operateAll (c : Controller) (history : List Operation) : Controller :=
  history.foldl operate c

@[simp] theorem operateAll_nil (c : Controller) : c.operateAll [] = c := rfl

@[simp] theorem operateAll_cons (c : Controller) (op : Operation) (rest : List Operation) :
    c.operateAll (op :: rest) = (c.operate op).operateAll rest := rfl

/-- Every operation of a history is as the rule has it in the state in which it is done. -/
def Throughout (rule : Controller → Operation → Prop) : Controller → List Operation → Prop
  | _, [] => True
  | c, op :: rest => rule c op ∧ Throughout rule (c.operate op) rest

/-- In the course of a history something was done that sets, and nothing that resets since. -/
def Since (sets resets : Controller → Operation → Prop) : Controller → List Operation → Prop
  | _, [] => False
  | c, op :: rest => Since sets resets (c.operate op) rest ∨
      (sets c op ∧ Throughout (fun d o => ¬resets d o) (c.operate op) rest)

/-- What is set by one thing or another was set by one of them since. -/
theorem since_or {p q resets : Controller → Operation → Prop} (c : Controller)
    (history : List Operation) :
    Since (fun d op => p d op ∨ q d op) resets c history ↔
      Since p resets c history ∨ Since q resets c history := by
  induction history generalizing c with
  | nil => simp [Since]
  | cons op rest ih => simp only [Since, ih, or_and_right, or_or_or_comm]

/-- What every operation that the rule allows keeps, every such history keeps. -/
theorem Throughout.invariant {rule : Controller → Operation → Prop} {P : Controller → Prop}
    (step : ∀ {c op}, P c → rule c op → P (c.operate op)) {c : Controller}
    {history : List Operation} (run : Throughout rule c history) (h : P c) :
    P (c.operateAll history) := by
  induction history generalizing c with
  | nil => exact h
  | cons op rest ih => exact ih run.2 (step h run.1)

/-- What every operation keeps, every history keeps. -/
theorem invariant_operateAll {P : Controller → Prop}
    (step : ∀ {c} op, P c → P (c.operate op)) {c : Controller} (history : List Operation)
    (h : P c) : P (c.operateAll history) := by
  induction history generalizing c with
  | nil => exact h
  | cons op rest ih => exact ih (step op h)

/-- **A bit that is set and reset is on after a history if it has been set since it was last
reset, or was on and has not been reset.** -/
theorem bit_operateAll {sets resets : Controller → Operation → Prop} {bit P : Controller → Prop}
    (keep : ∀ {c} op, P c → P (c.operate op))
    (step : ∀ {c} op, P c → (bit (c.operate op) ↔ sets c op ∨ (bit c ∧ ¬resets c op)))
    {c : Controller} (history : List Operation) (h : P c) :
    bit (c.operateAll history) ↔ Since sets resets c history ∨
      (bit c ∧ Throughout (fun d op => ¬resets d op) c history) := by
  induction history generalizing c with
  | nil => simp [Since, Throughout]
  | cons op rest ih =>
    rw [operateAll_cons, ih (keep op h), step op h, Since, Throughout, or_and_right, or_assoc,
      and_assoc]

/-! ## Which access an operation makes -/

/-- The access that a record makes when its support moves its value. -/
def accessOf (r : Record) : Option (VariableId × Variable.Access) :=
  match r.body, r.common.binding with
  | .scalar .shared s, .toVariable b =>
    some (b.target,
      if s.isOutput then
        if s.merges && !r.common.active then .merge b s.word r else .give b r
      else .take b r)
  | _, _ => none

/-- The access that the pass of a record makes. -/
def passAccess? (c : Controller) (id : RecordId) : Option (VariableId × Variable.Access) :=
  (c.record? id).bind fun r => accessOf r.prepare

/-- The access that is made through the connection of a record. -/
def boundAccess? (c : Controller) (id : RecordId)
    (access : Variable.Binding → Record → Variable.Access) :
    Option (VariableId × Variable.Access) :=
  (c.record? id).bind fun r =>
    match r.common.binding with
    | .toVariable b => some (b.target, access b r)
    | _ => none

/-- The record whose pass an action is. -/
def passedBy? (c : Controller) : Action → Option RecordId
  | .process id => some id
  | .serve s =>
    match c.queue? s with
    | some (request :: _) =>
      if (c.record? request.record).any (·.common.active == request.isCompletion) then
        some request.record
      else none
    | _ => none
  | _ => none

/-- The controller as the initial pass of a record finds it: the record is connected and on
its scan list.  There is none if the record cannot be connected. -/
def readied? (c : Controller) (id : RecordId) : Option Controller :=
  (c.record? id).bind fun r =>
    match (c.setRecord id r.sized).connect id with
    | (_, .error _) => none
    | (d, .ok status) =>
      (d.record? id).map fun s => (d.setRecord id (s.connected status)).joinScanList id

/-- The access that the initial pass of a record makes, if it makes one. -/
def initialAccess? (c : Controller) (id : RecordId) : Option (VariableId × Variable.Access) :=
  (c.readied? id).bind fun d =>
    (d.record? id).bind fun r =>
      if r.common.initProcess && !r.common.active then accessOf r.prepare else none

/-- The access that an operation makes.  Connecting a record makes none, nor does the second
pass of a write. -/
def access? (c : Controller) : Operation → Option (VariableId × Variable.Access)
  | .act (.store v value) => some (v, .store value)
  | .act (.report v alarm) => some (v, .report alarm)
  | .act (.complete v) =>
    match (c.completeProcessing v).2 with
    | .ok () => some (v, .release)
    | .error _ => none
  | .act a => (c.passedBy? a).bind c.passAccess?
  | .stamp v time => some (v, .stamp time)
  | .signal v => some (v, .signal)
  | .poll v => some (v, .poll)
  | .get id => c.boundAccess? id .take
  | .give id => c.boundAccess? id .give
  | .readBack id => c.boundAccess? id .readBack
  | .initialise id => c.initialAccess? id
  | .secondPhase _ _ => none
  | .bind _ _ _ _ => none

/-- The controller after an access to a variable. -/
def accessed (c : Controller) : Option (VariableId × Variable.Access) → Controller
  | some (v, a) => c.modifyVariable v (·.after a)
  | none => c

/-! ## What is done to variables leaves the records -/

theorem record?_congr {c d : Controller} (h : d.records = c.records) (id : RecordId) :
    d.record? id = c.record? id := by
  simp [record?, h]

theorem records_modifyVariable (c : Controller) (v : VariableId) (g : Variable → Variable) :
    (c.modifyVariable v g).records = c.records := by
  unfold modifyVariable
  split <;> rfl

theorem records_wait (c : Controller) (v : VariableId) (seconds : Float) :
    (c.wait v seconds).1.records = c.records := by
  unfold wait
  split <;> rfl

/-! ## What operations leave of the records -/

section Kept
variable (c : Controller) (id : RecordId)

/-- Work on a record and its variable keeps the skeletons of records that it keeps itself. -/
theorem keeps_skeleton_onVariable {α : Type}
    {f : Variable.Binding → Record → Variable → Record × Variable × Except VariableError α}
    (kept : ∀ b r w, (f b r w).1.skeleton = r.skeleton) :
    Keeps Record.skeleton c (c.onVariable id f).1 := by
  unfold onVariable
  split
  · exact .refl c
  · rename_i r hr
    split
    · split
      · exact .setRecord hr (kept _ r _)
      · exact .refl c
    · exact .refl c

theorem keeps_skeleton_secondPhase (v : VariableId) :
    Keeps Record.skeleton c (c.secondPhase id v).1 := by
  unfold secondPhase
  split
  · rename_i r w hr _
    cases second : Variable.secondPhase r w with
    | some s => exact .setRecord hr (Variable.skeleton_secondPhase second)
    | none => exact .refl c
  · exact .refl c

/-- Connecting a record of any type to a variable changes what it is connected to. -/
theorem keeps_outline_bindVariable (link : Link) (choice : Variable.Choice) (output : Bool) :
    Keeps Record.outline c (c.bindVariable id link choice output).1 := by
  unfold bindVariable
  split
  · exact .refl c
  · rename_i r hr
    have records := records_resolveVariable c link r choice
    split
    · rename_i d e failed
      rw [failed] at records
      have hr : d.record? id = some r := (record?_congr records id).trans hr
      exact (keeps_of_records records).trans
        (.setRecord hr (Record.outline_of_skeleton (r.skeleton_setActive true)))
    · rename_i d b v found
      rw [found] at records
      have hr : d.record? id = some r := (record?_congr records id).trans hr
      split
      · exact (keeps_of_records records).trans
          (.setRecord hr (Record.outline_of_bind (Variable.skeleton_connectOutput b r v)))
      · exact (keeps_of_records records).trans
          (.setRecord hr (Record.outline_of_bind (r.skeleton_bind (.toVariable b))))

/-- **Only connecting a record changes what the records are connected to.** -/
theorem keeps_skeleton_operate {op : Operation} (moves : op.connects = false) :
    Keeps Record.skeleton c (c.operate op) := by
  cases op with
  | act a => exact keeps_skeleton_act c a
  | stamp v time => exact keeps_of_records (records_modifyVariable c v _)
  | signal v => exact keeps_of_records (records_modifyVariable c v _)
  | poll v => exact keeps_of_records (records_wait c v 0)
  | get id =>
    exact keeps_skeleton_onVariable c id fun b r w => Variable.skeleton_takeIn b r w true
  | give id => exact keeps_skeleton_onVariable c id fun b r w => Variable.skeleton_giveOut b r w
  | readBack id =>
    exact keeps_skeleton_onVariable c id fun b r w => Variable.skeleton_readBack b r w
  | secondPhase id v => exact keeps_skeleton_secondPhase c id v
  | initialise id | bind id link choice output => contradiction

/-- **No operation changes the outline of a record.** -/
theorem keeps_outline_operate (op : Operation) : Keeps Record.outline c (c.operate op) := by
  cases moves : op.connects with
  | false => exact (keeps_skeleton_operate c moves).told (Record.bind · .unbound)
  | true =>
    cases op with
    | initialise id => exact keeps_outline_initialise c id
    | bind id link choice output => exact keeps_outline_bindVariable c id link choice output
    | _ => contradiction

end Kept

/-! ## Passes make their accesses -/

end Controller

namespace Variable

/-- A record that reads loads the value. -/
theorem target_move_of_input (b : Binding) {s : Scalar} (r : Record) (v : Variable)
    (input : s.isOutput = false) : (move b s r v).target = (takeIn true b r v).target := by
  cases s with
  | ao _ | bo _ | mbbo _ _ | longout _ => simp [Scalar.isOutput] at input
  | longin _ => rfl
  | ai _ =>
    simp only [move]
    split <;> rfl
  | bi _ | mbbi _ =>
    simp only [move]
    split <;> rfl

/-- An idle record that writes stores its field, or first reads back what is not its own. -/
theorem move_of_idle (b : Binding) {s : Scalar} {r : Record} (v : Variable)
    (output : s.isOutput = true) (idle : r.common.active = false) :
    move b s r v = if s.merges then mergeOut b s.word r v else giveOut b r v := by
  have first : secondPhase r v = none := by simp [secondPhase, idle]
  cases s with
  | ai _ | bi _ | mbbi _ | longin _ => simp [Scalar.isOutput] at output
  | ao _ | longout _ => rfl
  | bo _ | mbbo _ _ => simp only [move, first]

end Variable

namespace Controller

section Passes
variable {c : Controller} {id : RecordId} {r : Record}

/-- A record that a variable is the target of makes an access to it. -/
theorem isSome_accessOf {s : Scalar} {b : Variable.Binding} (body : r.body = .scalar .shared s)
    (bound : r.common.binding = .toVariable b) : ∃ a, accessOf r = some (b.target, a) := by
  simp [accessOf, body, bound]

/-- Only a record that moves its value to or from a variable makes an access. -/
theorem accessOf_eq_some {v : VariableId} {a : Variable.Access} (h : accessOf r = some (v, a)) :
    ∃ s b, r.body = .scalar .shared s ∧ r.common.binding = .toVariable b ∧ b.target = v ∧
      a.Moves b r := by
  unfold accessOf at h
  split at h
  · rename_i s b body bound
    obtain ⟨target, rfl⟩ := Prod.mk.inj (Option.some.inj h)
    refine ⟨s, b, body, bound, target, ?_⟩
    split
    · split
      · exact ⟨rfl, rfl⟩
      · exact ⟨rfl, rfl⟩
    · exact ⟨rfl, rfl⟩
  · contradiction

/-- What an exchange does to the variable is its access. -/
theorem target_exchange_of_accessOf {v : VariableId} {a : Variable.Access}
    (h : accessOf r = some (v, a)) (w : Variable) :
    (Variable.exchange r w).target = w.after a := by
  unfold accessOf at h
  split at h
  · rename_i s b body bound
    obtain ⟨rfl, rfl⟩ := Prod.mk.inj (Option.some.inj h)
    simp only [Variable.exchange, body, bound]
    cases output : s.isOutput with
    | false => exact Variable.target_move_of_input b r w output
    | true =>
      cases active : r.common.active with
      | true =>
        have second : Variable.secondPhase r w = some (Variable.inherit r w) := by
          simp [Variable.secondPhase, active]
        rw [Variable.move_of_active b w output active]
        simp [Variable.after, Variable.giveOut, second]
      | false =>
        rw [Variable.move_of_idle b w output active]
        cases s.merges <;> rfl
  · contradiction

/-- **A pass does to the variables what its access does.** -/
theorem vars_process (c : Controller) (id : RecordId) :
    (c.process id).vars = (c.accessed (c.passAccess? id)).vars := by
  cases hr : c.record? id with
  | none => rw [process_of_none hr, passAccess?, hr]; rfl
  | some r =>
    have access : c.passAccess? id = accessOf r.prepare := by rw [passAccess?, hr]; rfl
    rw [access]
    by_cases shared : ∃ w, c.target r = .shared w
    · obtain ⟨w, target⟩ := shared
      obtain ⟨s, b, body, bound, there⟩ := eq_of_target_eq_shared target
      obtain ⟨t, body', -⟩ := Record.shared_of_skeleton r.skeleton_prepare body
      have bound' : r.prepare.common.binding = .toVariable b := by rw [r.common_prepare, bound]
      obtain ⟨a, made⟩ := isSome_accessOf body' bound'
      have after : variableAfter r w = w.after a :=
        (variableAfter_of_bound w (by simp [bound])).trans (target_exchange_of_accessOf made w)
      rw [process_of_shared hr body bound there, after, made]
      simp only [accessed, modifyVariable, there]
      rfl
    · have untouched := (setTarget_vars_of_ne_shared (c := c) (r := r) fun w e => shared ⟨w, e⟩).1
      rw [process_of_record hr]
      refine untouched.trans ?_
      cases made : accessOf r.prepare with
      | none => rfl
      | some p =>
        obtain ⟨v, a⟩ := p
        obtain ⟨t, b, body', bound', rfl, -⟩ := accessOf_eq_some made
        obtain ⟨s, body, -⟩ := Record.shared_of_skeleton r.skeleton_prepare.symm body'
        have bound : r.common.binding = .toVariable b := by rw [← r.common_prepare, bound']
        -- The variable is not there, or it would be the target.
        cases there : c.variableAt? b.target with
        | none => simp only [accessed, modifyVariable, there]
        | some w => exact absurd ⟨w, target_of_shared body bound there⟩ shared

end Passes

/-! ## Connecting makes no access -/

/-- Whatever records reach through their registers and their variables is in `d` as it was in
`c`. -/
structure Untouched (c d : Controller) : Prop where
  registers : d.registers = c.registers
  vars : d.vars = c.vars

namespace Untouched

theorem refl (c : Controller) : c.Untouched c := ⟨rfl, rfl⟩

theorem trans {c d e : Controller} (h : c.Untouched d) (g : d.Untouched e) : c.Untouched e :=
  ⟨g.registers.trans h.registers, g.vars.trans h.vars⟩

end Untouched

section Connect
variable (c : Controller) (id : RecordId) (r : Record)

theorem untouched_setRecord : c.Untouched (c.setRecord id r) := ⟨rfl, rfl⟩

theorem untouched_joinScanList : c.Untouched (c.joinScanList id) :=
  ⟨registers_joinScanList c id, vars_joinScanList c id⟩

theorem untouched_connectRegister (s : Scalar) : c.Untouched (c.connectRegister id r s).1 := by
  rcases named : (Register.resolve c.catalogue r.link).1 with e | b
  · obtain ⟨catalogue, failed⟩ := connectRegister_of_error id s named
    rw [failed]
    exact ⟨rfl, rfl⟩
  · obtain ⟨catalogue, connected⟩ := connectRegister_of_named id s named
    rw [connected]
    exact ⟨rfl, rfl⟩

theorem untouched_resolveVariable (link : Link) (choice : Variable.Choice) :
    c.Untouched (c.resolveVariable link r choice).1 := by
  refine ⟨?_, vars_resolveVariable c link r choice⟩
  unfold resolveVariable
  dsimp only
  split
  · rfl
  · split <;> rfl

theorem untouched_connectVariable (s : Scalar) : c.Untouched (c.connectVariable id r s).1 := by
  have resolved := untouched_resolveVariable c r r.link (.ofScalar s)
  unfold connectVariable
  split
  · rename_i found
    rw [found] at resolved
    exact resolved.trans (untouched_setRecord _ _ _)
  · rename_i found
    rw [found] at resolved
    dsimp only
    rw [Variable.target_connect, setVariable_of_resolveVariable found]
    exact resolved.trans (untouched_setRecord _ _ _)

theorem untouched_connectArchive (archive : ArchiveId) :
    c.Untouched (c.connectArchive id r archive).1 := by
  have vault : ∀ v, c.Untouched (c.setTarget r (.vault v)) := fun v => by
    unfold setTarget
    constructor
    · split <;> simp_all
    · split <;> simp_all
  unfold connectArchive
  split
  · exact .refl c
  · exact (vault _).trans (untouched_setRecord _ _ _)

/-- **Connecting a record touches nothing that it is connected to.** -/
theorem untouched_connect : c.Untouched (c.connect id).1 := by
  unfold connect
  split
  · exact .refl c
  · split
    · exact untouched_connectRegister c id _ _
    · exact untouched_connectVariable c id _ _
    · exact untouched_connectArchive c id _ _

theorem vars_bindVariable (link : Link) (choice : Variable.Choice) (output : Bool) :
    (c.bindVariable id link choice output).1.vars = c.vars := by
  unfold bindVariable
  split
  · rfl
  · rename_i r _
    have vars := vars_resolveVariable c link r choice
    split
    · rename_i found
      rw [found] at vars
      exact vars
    · rename_i found
      rw [found] at vars
      split
      · dsimp only
        rw [Variable.target_connectOutput, setVariable_of_resolveVariable found]
        exact vars
      · exact vars

end Connect

/-! ## Operations make their accesses -/

section Operate
variable {c d : Controller} {id : RecordId}

/-- What an access does to the variables is told by the variables alone. -/
theorem vars_accessed_congr (h : d.vars = c.vars) (p : Option (VariableId × Variable.Access)) :
    (d.accessed p).vars = (c.accessed p).vars := by
  cases p with
  | none => exact h
  | some p =>
    simp only [accessed, modifyVariable, variableAt?, h]
    split
    · simp only [setVariable, h]
    · exact h

theorem untouched_of_readied (h : c.readied? id = some d) : c.Untouched d := by
  obtain ⟨r, hr, found⟩ := Option.bind_eq_some_iff.1 h
  have connected := (untouched_setRecord c id r.sized).trans (untouched_connect _ id)
  split at found
  · contradiction
  · rename_i there
    obtain ⟨s, -, rfl⟩ := Option.map_eq_some_iff.1 found
    rw [there] at connected
    exact (connected.trans (untouched_setRecord _ _ _)).trans (untouched_joinScanList _ _)

/-- A record that was readied is processed if it is to be. -/
theorem initialise_of_readied (h : c.readied? id = some d) :
    (c.initialise id).1 = d.processInitially id := by
  obtain ⟨r, hr, found⟩ := Option.bind_eq_some_iff.1 h
  split at found
  · contradiction
  · rename_i connected
    obtain ⟨s, hs, rfl⟩ := Option.map_eq_some_iff.1 found
    rw [initialise_of_connect hr connected hs]

/-- A record that could not be connected is not processed. -/
theorem untouched_initialise_of_not_readied (h : c.readied? id = none) :
    c.Untouched (c.initialise id).1 := by
  unfold initialise
  split
  · exact .refl c
  · rename_i r hr
    have connected := (untouched_setRecord c id r.sized).trans (untouched_connect _ id)
    simp only [readied?, hr, Option.bind_some] at h
    split
    · rename_i failed
      rw [failed] at connected
      split
      · exact connected.trans (untouched_setRecord _ _ _)
      · exact connected
    · rename_i made
      rw [made] at connected h
      split
      · rename_i s hs
        simp [hs] at h
      · exact connected

theorem vars_initialise (c : Controller) (id : RecordId) :
    (c.initialise id).1.vars = (c.accessed (c.initialAccess? id)).vars := by
  cases ready : c.readied? id with
  | none =>
    rw [(untouched_initialise_of_not_readied ready).vars, initialAccess?, ready]
    rfl
  | some d =>
    have vars := (untouched_of_readied ready).vars
    rw [initialise_of_readied ready, initialAccess?, ready, Option.bind_some]
    unfold processInitially
    split
    · rename_i gone
      rw [gone]
      exact vars
    · rename_i r there
      rw [there, Option.bind_some]
      split
      · rw [vars_process, passAccess?, there]
        exact vars_accessed_congr vars _
      · exact vars

/-- What is done with a record and its variable is an access to the variable. -/
theorem vars_onVariable {α : Type} (access : Variable.Binding → Record → Variable.Access)
    {f : Variable.Binding → Record → Variable → Record × Variable × Except VariableError α}
    (h : ∀ b r w, (f b r w).2.1 = w.after (access b r)) (c : Controller) (id : RecordId) :
    (c.onVariable id f).1.vars = (c.accessed (c.boundAccess? id access)).vars := by
  unfold onVariable boundAccess?
  cases c.record? id with
  | none => rfl
  | some r =>
    cases bound : r.common.binding with
    | toVariable b =>
      cases there : c.variableAt? b.target with
      | none => simp only [Option.bind_some, bound, accessed, modifyVariable, there]
      | some w =>
        simp only [Option.bind_some, bound, accessed, modifyVariable, there, h]
        rfl
    | _ =>
      simp only [Option.bind_some, bound]
      rfl

/-- The record whose pass an action is is the one that the action processes. -/
theorem passedBy?_eq_some_iff {a : Action} : c.passedBy? a = some id ↔ c.Processes id a := by
  cases a with
  | process j => simp [passedBy?, Processes]
  | serve s =>
    simp only [passedBy?, Processes]
    constructor
    · intro h
      split at h
      · rename_i request rest queue
        split at h
        · rename_i due
          obtain rfl := Option.some.inj h
          obtain ⟨r, hr, active⟩ := (Option.any_eq_true _ _).1 due
          exact ⟨request, rest, queue, rfl, r, hr, by simpa using active⟩
        · contradiction
      · contradiction
    · rintro ⟨request, rest, queue, rfl, r, hr, active⟩
      simp [queue, hr, active]
  | _ => simp [passedBy?, Processes]

/-- A scheduler that serves no pass does nothing to the variables. -/
theorem vars_serve_of_passedBy?_none {s : SchedulerId} (h : c.passedBy? (.serve s) = none) :
    (c.act (.serve s)).vars = c.vars := by
  rcases act_serve_cases c s with e | ⟨request, rest, queue, e⟩
  · rw [e]
  · rcases dispatch_cases (c.setQueue s rest) request with e' | ⟨r, hr, active, e'⟩
    · rw [e, e']
      rfl
    · have due : c.Processes request.record (.serve s) :=
        ⟨request, rest, queue, rfl, r, hr, active⟩
      rw [passedBy?_eq_some_iff.2 due] at h
      contradiction

/-- A pass that an action makes does to the variables what its access does. -/
theorem vars_act_of_passedBy? {a : Action} (h : c.passedBy? a = some id) :
    (c.act a).vars = (c.accessed (c.passAccess? id)).vars := by
  obtain ⟨schedulers, e⟩ := act_of_processes (passedBy?_eq_some_iff.1 h)
  rw [e, vars_process]
  exact vars_accessed_congr (c := c) (d := { c with schedulers }) rfl (c.passAccess? id)

theorem vars_store (v : VariableId) (value : Value) :
    (c.store v value).1.vars = (c.accessed (some (v, .store value))).vars := by
  simp only [store, accessed, modifyVariable, Variable.after]
  cases there : c.variableAt? v with
  | none => rfl
  | some w =>
    dsimp only
    cases w.store value with
    | ok x => rfl
    | error e =>
      simp only [setVariable_self there]

theorem vars_completeProcessing (v : VariableId) :
    (c.completeProcessing v).1.vars = (c.accessed (c.access? (.act (.complete v)))).vars := by
  rcases h : c.completeProcessing v with ⟨d, result⟩
  simp only [access?, h]
  cases result with
  | error e => rw [completeProcessing_eq_error h]; rfl
  | ok =>
    obtain ⟨w, a, queue, there, -, -, rfl⟩ := completeProcessing_eq_ok h
    simp only [accessed, modifyVariable, there, Variable.after]
    rfl

/-- **An operation does to the variables what its access does.** -/
theorem vars_operate (c : Controller) (op : Operation) :
    (c.operate op).vars = (c.accessed (c.access? op)).vars := by
  cases op with
  | act a =>
    cases a with
    | send s request =>
      rcases act_send_cases c s request with e | ⟨_, -, e⟩
      · rw [operate, e]; rfl
      · rw [operate, e]; rfl
    | serve s =>
      cases passed : c.passedBy? (.serve s) with
      | none =>
        simp only [operate, access?, passed]
        exact vars_serve_of_passedBy?_none passed
      | some id =>
        simp only [operate, access?, passed]
        exact vars_act_of_passedBy? passed
    | process id => exact vars_process c id
    | put id field value =>
      rcases act_put_cases c id field value with e | ⟨_, _, -, -, e⟩
      · rw [operate, e]; rfl
      · rw [operate, e]; rfl
    | store v value => exact vars_store v value
    | report v alarm => rfl
    | complete v => exact vars_completeProcessing v
  | stamp v time => rfl
  | signal v => rfl
  | poll v =>
    simp only [operate, access?, wait, accessed, modifyVariable, Variable.after]
    cases c.variableAt? v <;> rfl
  | get id => exact vars_onVariable .take (fun _ _ _ => rfl) c id
  | give id => exact vars_onVariable .give (fun _ _ _ => rfl) c id
  | readBack id => exact vars_onVariable .readBack (fun _ _ _ => rfl) c id
  | secondPhase id v =>
    simp only [operate, secondPhase]
    split
    · split <;> rfl
    · rfl
  | initialise id => exact vars_initialise c id
  | bind id link choice output => exact vars_bindVariable c id link choice output

end Operate

/-! ## A variable in a history -/

section History
variable {c : Controller} {v : VariableId} {w : Variable}

/-- The access that an operation makes to a variable, if it makes one to this variable. -/
def accessTo? (c : Controller) (v : VariableId) (op : Operation) : Option Variable.Access :=
  (c.access? op).bind fun p => if p.1 = v then some p.2 else none

theorem access?_of_accessTo? {op : Operation} {a : Variable.Access}
    (h : c.accessTo? v op = some a) : c.access? op = some (v, a) := by
  obtain ⟨⟨u, b⟩, access, same⟩ := Option.bind_eq_some_iff.1 h
  split at same
  · rename_i here
    obtain rfl : u = v := here
    obtain rfl : b = a := Option.some.inj same
    exact access
  · contradiction

/-- Where an access comes from: it is the driver's own, or it is made for a record, which is
found when the operation starts or when it is ready for its initial pass. -/
inductive Origin (c : Controller) (v : VariableId) : Operation → Variable.Access → Prop
  | store (value : Value) : Origin c v (.act (.store v value)) (.store value)
  | report (alarm : Alarm) : Origin c v (.act (.report v alarm)) (.report alarm)
  | release : Origin c v (.act (.complete v)) .release
  | stamp (time : TimeStamp) : Origin c v (.stamp v time) (.stamp time)
  | signal : Origin c v (.signal v) .signal
  | poll : Origin c v (.poll v) .poll
  | record {op : Operation} {a : Variable.Access} {d : Controller} {id : RecordId}
      {q r : Record} {b : Variable.Binding} (found : d = c ∨ c.readied? id = some d)
      (there : d.record? id = some q) (same : r.skeleton = q.skeleton)
      (bound : r.common.binding = .toVariable b) (target : b.target = v) (moves : a.Moves b r) :
      Origin c v op a

section Origins
variable {a : Variable.Access} {op : Operation} {id : RecordId}

theorem origin_of_accessOf {d : Controller} {q : Record} (found : d = c ∨ c.readied? id = some d)
    (there : d.record? id = some q) (access : accessOf q.prepare = some (v, a)) :
    Origin c v op a := by
  obtain ⟨_, b, -, bound, target, moves⟩ := accessOf_eq_some access
  exact .record found there q.skeleton_prepare bound target moves

theorem origin_of_passAccess? (access : c.passAccess? id = some (v, a)) : Origin c v op a := by
  obtain ⟨q, hq, made⟩ := Option.bind_eq_some_iff.1 access
  exact origin_of_accessOf (.inl rfl) hq made

theorem origin_of_boundAccess? {make : Variable.Binding → Record → Variable.Access}
    (access : c.boundAccess? id make = some (v, a)) (moves : ∀ b r, (make b r).Moves b r) :
    Origin c v op a := by
  obtain ⟨r, hr, made⟩ := Option.bind_eq_some_iff.1 access
  split at made
  · rename_i b bound
    obtain ⟨target, rfl⟩ := Prod.mk.inj (Option.some.inj made)
    exact .record (.inl rfl) hr rfl bound target (moves b r)
  · contradiction

/-- **Every access is the driver's own or is made for a record.** -/
theorem origin_of_access? (access : c.access? op = some (v, a)) : Origin c v op a := by
  cases op with
  | secondPhase id u | bind id link choice output => contradiction
  | act action =>
    cases action with
    | send s request | put id field value => contradiction
    | serve s =>
      obtain ⟨id, -, made⟩ := Option.bind_eq_some_iff.1 access
      exact origin_of_passAccess? made
    | process id => exact origin_of_passAccess? access
    | store u value =>
      obtain ⟨rfl, rfl⟩ := Prod.mk.inj (Option.some.inj access)
      exact .store value
    | report u alarm =>
      obtain ⟨rfl, rfl⟩ := Prod.mk.inj (Option.some.inj access)
      exact .report alarm
    | complete u =>
      simp only [access?] at access
      split at access
      · obtain ⟨rfl, rfl⟩ := Prod.mk.inj (Option.some.inj access)
        exact .release
      · contradiction
  | stamp u time =>
    obtain ⟨rfl, rfl⟩ := Prod.mk.inj (Option.some.inj access)
    exact .stamp time
  | signal u =>
    obtain ⟨rfl, rfl⟩ := Prod.mk.inj (Option.some.inj access)
    exact .signal
  | poll u =>
    obtain ⟨rfl, rfl⟩ := Prod.mk.inj (Option.some.inj access)
    exact .poll
  | get id => exact origin_of_boundAccess? access fun _ _ => ⟨rfl, rfl⟩
  | give id => exact origin_of_boundAccess? access fun _ _ => ⟨rfl, rfl⟩
  | readBack id => exact origin_of_boundAccess? access fun _ _ => ⟨rfl, rfl⟩
  | initialise id =>
    obtain ⟨d, ready, made⟩ := Option.bind_eq_some_iff.1 access
    obtain ⟨r, hr, made⟩ := Option.bind_eq_some_iff.1 made
    split at made
    · exact origin_of_accessOf (.inr ready) hr made
    · contradiction

end Origins

/-- **A variable after an operation is the variable after the access, if there was one.** -/
theorem variableAt?_operate (h : c.variableAt? v = some w) (op : Operation) :
    (c.operate op).variableAt? v = some ((c.accessTo? v op).elim w w.after) := by
  rw [variableAt?, vars_operate, ← variableAt?]
  cases access : c.access? op with
  | none => simpa [accessTo?, access, accessed] using h
  | some p =>
    obtain ⟨u, a⟩ := p
    simp only [accessTo?, access, Option.bind_some, accessed]
    by_cases e : u = v
    · subst e
      simp only [modifyVariable, h, if_true, Option.elim_some]
      exact variableAt?_setVariable_of_some h _
    · simp only [if_neg e, Option.elim_none]
      unfold modifyVariable
      split
      · rw [variableAt?_setVariable_of_ne c _ (Ne.symm e), h]
      · exact h

/-- A variable that is there stays there. -/
theorem exists_variableAt?_operateAll (h : c.variableAt? v = some w) (history : List Operation) :
    ∃ x, (c.operateAll history).variableAt? v = some x :=
  invariant_operateAll (P := fun d => ∃ x, d.variableAt? v = some x)
    (fun op there => there.elim fun _ hx => ⟨_, variableAt?_operate hx op⟩) history ⟨w, h⟩

end History

end Controller

end ControlRecords
