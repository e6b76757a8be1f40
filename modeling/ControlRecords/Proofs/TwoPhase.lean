import ControlRecords.Proofs.Startup

/-! # Writes in two phases

An asynchronous write takes two passes.  The first attaches the record to its variable and
leaves it active, the driver completes the write, and the second pass, which a request in
the queue of the record's scheduler stands for, makes the record idle again.  So an active
record is owed exactly one thing: a completion by the driver, for which it is attached, or
the request that the completion left.  No run loses what is owed or owes it twice.

Three separate parts of the state take part, the record, the attachment of its variable and
the queues, and `Phase` is what ties them together.  Only two actions could break it, and
runs do not take them: a second pass may be requested by completing the write alone, and a
record makes no pass of its own while it is active. -/
namespace ControlRecords.Controller

/-! ## What a record is owed -/

/-- The record is attached to the variable. -/
def AttachedTo (c : Controller) (id : RecordId) (v : VariableId) : Prop :=
  ∃ a, c.attachment? v = some a ∧ a.record = id

/-- The record is attached to the variable that it is connected to. -/
def AwaitsDriver (c : Controller) (id : RecordId) : Prop :=
  ∃ r b, c.record? id = some r ∧ r.common.binding = .toVariable b ∧ c.AttachedTo id b.target

/-- How many requests for the second pass of a record wait, in all queues together. -/
def completions (c : Controller) (id : RecordId) : Nat :=
  (c.schedulers.flatMap (·.getD [])).count (.complete id)

/-- The record is there, processing is not active, and nothing is owed to it. -/
def Idle (c : Controller) (id : RecordId) : Prop :=
  ∃ r, c.record? id = some r ∧ r.common.active = false ∧ (∀ v, ¬c.AttachedTo id v) ∧
    c.completions id = 0

section Counting
variable {c : Controller} {s : SchedulerId} {q : Queue}

theorem count_flatMap_set {α β : Type} [BEq β] (f : α → List β) (b : β) (y : α) {x : α} :
    ∀ {l : List α} {i : Nat}, l[i]? = some x →
      ((l.set i y).flatMap f).count b + (f x).count b = (l.flatMap f).count b + (f y).count b
  | [], _, h => by simp at h
  | a :: l, 0, h => by
    obtain rfl : a = x := by simpa using h
    simp only [List.set_cons_zero, List.flatMap_cons, List.count_append]
    omega
  | a :: l, i + 1, h => by
    have ih := count_flatMap_set f b y (l := l) (i := i) (by simpa using h)
    simp only [List.set_cons_succ, List.flatMap_cons, List.count_append]
    omega

/-- Replacing one queue changes the count by what that queue gains and loses. -/
theorem completions_setQueue (h : c.queue? s = some q) (q' : Queue) (id : RecordId) :
    (c.setQueue s q').completions id + q.count (.complete id) =
      c.completions id + q'.count (.complete id) := by
  have here : c.schedulers[s.index]? = some (some q) := by
    unfold queue? at h
    exact Option.join_eq_some_iff.1 h
  exact count_flatMap_set (·.getD []) (.complete id) (some q') here

theorem completions_congr {d : Controller} (h : d.schedulers = c.schedulers) (id : RecordId) :
    d.completions id = c.completions id := by
  simp [completions, h]

end Counting

theorem attachedTo_congr {c d : Controller} {id : RecordId} {v : VariableId}
    (h : d.attachment? v = c.attachment? v) : d.AttachedTo id v ↔ c.AttachedTo id v := by
  simp [AttachedTo, h]

/-! ## Phases -/

/-- How far a record has got with its write. -/
inductive Phase (c : Controller) (id : RecordId) (r : Record) : Prop where
  /-- No write is under way. -/
  | idle (inactive : r.common.active = false) (free : ∀ v, ¬c.AttachedTo id v)
      (none : c.completions id = 0)
  /-- The driver has to complete the write. -/
  | attached {b : Variable.Binding} (active : r.common.active = true)
      (bound : r.common.binding = .toVariable b)
      (only : ∀ v, c.AttachedTo id v ↔ v = b.target) (none : c.completions id = 0)
  /-- The second pass has to be made. -/
  | queued (active : r.common.active = true) (bound : r.common.binding ≠ .unbound)
      (free : ∀ v, ¬c.AttachedTo id v) (one : c.completions id = 1)

/-- A record is in one of the three phases. -/
def InPhase (c : Controller) (id : RecordId) : Prop :=
  ∃ r, c.record? id = some r ∧ Phase c id r

namespace Phase
variable {c d : Controller} {id : RecordId} {r s : Record}

/-- The phase is told by whether the record is active, what it is connected to, where it is
attached and what waits for it. -/
theorem congr (h : Phase c id r) (active : s.common.active = r.common.active)
    (binding : s.common.binding = r.common.binding)
    (attached : ∀ v, d.AttachedTo id v ↔ c.AttachedTo id v)
    (count : d.completions id = c.completions id) : Phase d id s := by
  cases h with
  | idle inactive free none =>
    exact .idle (active.trans inactive) (fun v hv => free v ((attached v).1 hv))
      (count.trans none)
  | attached isActive bound only none =>
    exact .attached (active.trans isActive) (binding.trans bound)
      (fun v => (attached v).trans (only v)) (count.trans none)
  | queued isActive bound free one =>
    exact .queued (active.trans isActive) (binding ▸ bound)
      (fun v hv => free v ((attached v).1 hv)) (count.trans one)

/-- Something waits for a record only if its write has been completed. -/
theorem queued_of_pos (h : Phase c id r) (pos : 0 < c.completions id) :
    r.common.active = true ∧ r.common.binding ≠ .unbound ∧ (∀ v, ¬c.AttachedTo id v) ∧
      c.completions id = 1 := by
  cases h with
  | idle _ _ none => omega
  | attached _ _ _ none => omega
  | queued active bound free one => exact ⟨active, bound, free, one⟩

end Phase

/-! ## Passes -/

section Passes
variable {c : Controller} {id : RecordId}

/-- A pass of one record attaches no other. -/
theorem attachedTo_process_of_ne (own : c.OwnHandles) {j : RecordId} (h : j ≠ id)
    (v : VariableId) : (c.process j).AttachedTo id v ↔ c.AttachedTo id v := by
  cases hr : c.record? j with
  | none => rw [process_of_none hr]
  | some r =>
    cases outcome_of_process hr with
    | omitted _ same => rw [same]
    | finished _ _ attached => exact attachedTo_congr (attached v)
    | @started b record _ _ _ _ handle free attached =>
      obtain rfl := own j r record hr handle
      by_cases e : v = b.target
      · -- The variable was free before, and now another record is attached to it.
        subst e
        simp [AttachedTo, attached, free, h]
      · exact attachedTo_congr ((attached v).trans (if_neg e))

/-- A pass of another record changes nothing about a record's phase. -/
theorem InPhase.process_of_ne (h : c.InPhase id) (own : c.OwnHandles) {j : RecordId}
    (ne : j ≠ id) : (c.process j).InPhase id := by
  obtain ⟨r, hr, phase⟩ := h
  refine ⟨r, by rw [record?_process_of_ne c ne.symm, hr], ?_⟩
  exact phase.congr rfl rfl (attachedTo_process_of_ne own ne)
    (completions_congr (schedulers_process c j) id)

/-- The first pass finishes the write, or it attaches the record. -/
theorem phase_of_first_pass (own : c.OwnHandles) {r : Record} (hr : c.record? id = some r)
    (inactive : r.common.active = false) (phase : Phase c id r) : (c.process id).InPhase id := by
  have count := completions_congr (schedulers_process c id) id
  refine ⟨_, record?_process_self hr, ?_⟩
  cases phase with
  | attached active => simp [inactive] at active
  | queued active => simp [inactive] at active
  | idle _ free none =>
    cases outcome_of_process hr with
    | omitted unbound same =>
      rw [Record.process_of_unbound _ _ unbound, same]
      exact .idle inactive free none
    | finished _ idle attached =>
      exact .idle idle (fun v hv => free v ((attachedTo_congr (attached v)).1 hv))
        (count.trans none)
    | @started b record scheduler _ active bound handle _ attached =>
      obtain rfl := own id r record hr handle
      have binding := Record.binding_of_skeleton (Record.skeleton_process r (c.target r))
      refine .attached active (binding.trans bound) (fun v => ?_) (count.trans none)
      constructor
      · intro hv
        by_cases e : v = b.target
        · exact e
        · exact absurd ((attachedTo_congr ((attached v).trans (if_neg e))).1 hv) (free v)
      · intro e
        exact ⟨⟨record, scheduler⟩, (attached v).trans (if_pos e), rfl⟩

/-- The second pass makes the record idle. -/
theorem phase_of_second_pass {r : Record} (hr : c.record? id = some r)
    (active : r.common.active = true) (bound : r.common.binding ≠ .unbound)
    (free : ∀ v, ¬c.AttachedTo id v) (none : c.completions id = 0) :
    (c.process id).InPhase id := by
  refine ⟨_, record?_process_self hr, ?_⟩
  cases outcome_of_process hr with
  | omitted unbound => exact absurd unbound bound
  | finished _ idle attached =>
    exact .idle idle (fun v hv => free v ((attachedTo_congr (attached v)).1 hv))
      ((completions_congr (schedulers_process c id) id).trans none)
  | started idle => simp [active] at idle

end Passes

/-! ## Actions -/

/-- Second passes are requested by completing writes alone, and a record that is active
makes no pass but the one that is requested. -/
def Orderly (c : Controller) : Action → Prop
  | .send _ request => request.isCompletion = false
  | .process id => ∀ r, c.record? id = some r → r.common.active = false
  | _ => True

section Actions
variable {c : Controller} {id : RecordId}

/-- What does not touch the record, the attachments or the count keeps the phase. -/
theorem InPhase.congr {d : Controller} (h : c.InPhase id) (record : d.record? id = c.record? id)
    (attached : ∀ v, d.AttachedTo id v ↔ c.AttachedTo id v)
    (count : d.completions id = c.completions id) : d.InPhase id := by
  obtain ⟨r, hr, phase⟩ := h
  exact ⟨r, record.trans hr, phase.congr rfl rfl attached count⟩

/-- A pass of an inactive record keeps every record in a phase. -/
theorem InPhase.process (h : c.InPhase id) (own : c.OwnHandles) {j : RecordId}
    (inactive : ∀ r, c.record? j = some r → r.common.active = false) :
    (c.process j).InPhase id := by
  by_cases e : j = id
  · subst e
    obtain ⟨r, hr, phase⟩ := h
    exact phase_of_first_pass own hr (inactive r hr) phase
  · exact h.process_of_ne own e

/-- The request for a second pass is used up, and the pass is made. -/
theorem InPhase.serve_completion (h : c.InPhase id) {s : SchedulerId} {rest : Queue}
    (queue : c.queue? s = some (.complete id :: rest)) :
    ((c.setQueue s rest).dispatch (.complete id)).InPhase id := by
  obtain ⟨r, hr, phase⟩ := h
  -- The request itself counts, so the record waits for its second pass.
  have count := completions_setQueue queue rest id
  rw [List.count_cons_self] at count
  obtain ⟨active, bound, free, one⟩ := phase.queued_of_pos (by omega)
  have there : (c.setQueue s rest).record? (Request.complete id).record = some r := hr
  rw [dispatch_of_record there, active, Request.isCompletion, if_pos rfl]
  have used : (c.setQueue s rest).completions id = 0 := by omega
  exact phase_of_second_pass hr active bound free used

/-- Serving keeps every record in a phase. -/
theorem InPhase.serve (h : c.InPhase id) (own : c.OwnHandles) {s : SchedulerId}
    {request : Request} {rest : Queue} (queue : c.queue? s = some (request :: rest)) :
    ((c.setQueue s rest).dispatch request).InPhase id := by
  by_cases mine : request = .complete id
  · subst mine
    exact h.serve_completion queue
  · have count := completions_setQueue queue rest id
    rw [List.count_cons_of_ne mine] at count
    have kept : (c.setQueue s rest).InPhase id := h.congr rfl (fun v => Iff.rfl) (by omega)
    rcases dispatch_cases (c.setQueue s rest) request with e | ⟨r, hr, active, e⟩
    · rwa [e]
    · rw [e]
      cases request with
      | scan j =>
        -- A scan that is handled finds its record inactive.
        refine kept.process own fun r' hr' => ?_
        obtain rfl := Option.some.inj (hr.symm.trans hr')
        exact active
      | complete j => exact kept.process_of_ne own fun same => mine (congrArg _ same)

/-- A completion turns the attachment into a request. -/
theorem InPhase.complete (h : c.InPhase id) {v : VariableId} {w : Variable} {a : Attachment}
    {queue : Queue} (hw : c.variableAt? v = some w) (ha : w.attached = some a)
    (hq : c.queue? a.scheduler = some queue) :
    ((c.setQueue a.scheduler (queue ++ [.complete a.record])).setVariable v
      { w with attached := none }).InPhase id := by
  obtain ⟨r, hr, phase⟩ := h
  generalize hd : (c.setQueue a.scheduler (queue ++ [.complete a.record])).setVariable v
    { w with attached := none } = d
  have record : d.record? id = some r := by rw [← hd]; exact hr
  have here : c.attachment? v = some a := by simp [attachment?, hw, ha]
  have attachment : ∀ u, d.attachment? u = if u = v then none else c.attachment? u := fun u => by
    rw [← hd, attachment?_setVariable _ (by simpa using hw), attachment?_setQueue]
  have gone : ¬d.AttachedTo id v := by
    rintro ⟨x, hx, -⟩
    rw [attachment v, if_pos rfl] at hx
    contradiction
  have others : ∀ u, u ≠ v → (d.AttachedTo id u ↔ c.AttachedTo id u) := fun u hu =>
    attachedTo_congr ((attachment u).trans (if_neg hu))
  have count : d.completions id = c.completions id + if a.record = id then 1 else 0 := by
    have changed := completions_setQueue hq (queue ++ [.complete a.record]) id
    have same : d.completions id =
        (c.setQueue a.scheduler (queue ++ [.complete a.record])).completions id := by
      rw [← hd]; rfl
    rw [same]
    simp only [List.count_append, List.count_singleton, beq_iff_eq, Request.complete.injEq]
      at changed
    omega
  refine ⟨r, record, ?_⟩
  by_cases mine : a.record = id
  · -- The attachment that goes is the only one, and the request that comes is the first.
    rw [if_pos mine] at count
    have attached : c.AttachedTo id v := ⟨a, here, mine⟩
    cases phase with
    | idle _ free => exact absurd attached (free v)
    | queued _ _ free => exact absurd attached (free v)
    | @attached b active bound only none =>
      refine .queued active (by simp [bound]) (fun u hu => ?_) (by omega)
      by_cases e : u = v
      · exact gone (e ▸ hu)
      · exact e (((only u).1 ((others u e).1 hu)).trans ((only v).1 attached).symm)
  · -- Another record was attached to the variable, so this one was not.
    rw [if_neg mine] at count
    refine phase.congr rfl rfl (fun u => ?_) (by omega)
    by_cases e : u = v
    · subst e
      refine iff_of_false gone ?_
      rintro ⟨x, hx, mine'⟩
      obtain rfl := Option.some.inj (here.symm.trans hx)
      exact mine mine'
    · exact others u e

/-- **Every orderly action keeps every record in a phase.** -/
theorem InPhase.act (h : c.InPhase id) (own : c.OwnHandles) {a : Action}
    (orderly : c.Orderly a) : (c.act a).InPhase id := by
  cases a with
  | send s request =>
    rcases act_send_cases c s request with e | ⟨queue, hq, e⟩
    · rwa [e]
    · rw [e]
      have other : request ≠ .complete id := by
        rintro rfl
        exact Bool.noConfusion orderly
      have count := completions_setQueue hq (queue ++ [request]) id
      rw [List.count_append, List.count_singleton, if_neg (by simpa using other)] at count
      exact h.congr rfl (fun v => Iff.rfl) (by omega)
  | serve s =>
    rcases act_serve_cases c s with e | ⟨request, rest, queue, e⟩
    · rwa [e]
    · rw [e]; exact h.serve own queue
  | process j => exact h.process own orderly
  | put j field value =>
    rcases act_put_cases c j field value with e | ⟨r, s, hr, put, e⟩
    · rwa [e]
    · rw [e]
      by_cases mine : j = id
      · subst mine
        obtain ⟨r', hr', phase⟩ := h
        obtain rfl := Option.some.inj (hr.symm.trans hr')
        have common := Record.common_putField put
        refine ⟨s, record?_setRecord_of_some hr _, ?_⟩
        exact phase.congr (by rw [common]) (by rw [common]) (fun v => Iff.rfl) rfl
      · exact h.congr (record?_setRecord_of_ne c s (Ne.symm mine)) (fun v => Iff.rfl) rfl
  | store v value =>
    rcases act_store_cases c v value with e | ⟨w, x, hw, stored, e⟩
    · rwa [e]
    · rw [e]
      have kept : ∀ u, (c.setVariable v x).attachment? u = c.attachment? u :=
        attachment?_setVariable_kept hw (Variable.attached_store stored)
      exact h.congr rfl (fun u => attachedTo_congr (kept u)) rfl
  | report v alarm =>
    rcases act_report_cases c v alarm with e | ⟨w, hw, e⟩
    · rwa [e]
    · rw [e]
      have kept : ∀ u, (c.setVariable v { w with alarm }).attachment? u = c.attachment? u :=
        attachment?_setVariable_kept hw rfl
      exact h.congr rfl (fun u => attachedTo_congr (kept u)) rfl
  | complete v =>
    rcases act_complete_cases c v with e | ⟨w, a, queue, hw, ha, hq, e⟩
    · rwa [e]
    · rw [e]; exact h.complete hw ha hq

end Actions

/-! ## Runs -/

theorem Idle.inPhase {c : Controller} {id : RecordId} (h : c.Idle id) : c.InPhase id := by
  obtain ⟨r, hr, inactive, free, none⟩ := h
  exact ⟨r, hr, .idle inactive free none⟩

/-- Every orderly run keeps every record in a phase. -/
theorem InPhase.perform {c : Controller} {id : RecordId} (h : c.InPhase id)
    (own : c.OwnHandles) {actions : List Action} (run : Allows Orderly c actions) :
    (c.perform actions).InPhase id := by
  have both : ((c.perform actions).OwnHandles ∧ (c.perform actions).InPhase id) :=
    run.invariant (P := fun d => d.OwnHandles ∧ d.InPhase id)
      (fun ⟨own, phase⟩ orderly =>
        ⟨own.act _, phase.act own orderly⟩)
      ⟨own, h⟩
  exact both.2

/-- What a record is owed, as it can be told from its phase. -/
structure OwedOnce (c : Controller) (id : RecordId) (r : Record) : Prop where
  /-- The record is active if and only if it is owed one thing, and just that one. -/
  active_iff : r.common.active = true ↔
    (c.AwaitsDriver id ∧ ¬c.completions id = 1) ∨ (¬c.AwaitsDriver id ∧ c.completions id = 1)
  /-- It is never owed both. -/
  not_both : ¬(c.AwaitsDriver id ∧ 0 < c.completions id)
  /-- A second pass is never requested twice. -/
  not_twice : c.completions id ≤ 1
  /-- An inactive record is attached nowhere, and no second pass is requested for it. -/
  of_inactive : r.common.active = false → (∀ v, ¬c.AttachedTo id v) ∧ c.completions id = 0
  /-- No record is attached to a variable that it is not connected to. -/
  attached_to_own : ∀ v, c.AttachedTo id v →
    ∃ b, r.common.binding = .toVariable b ∧ v = b.target

theorem Phase.owedOnce {c : Controller} {id : RecordId} {r : Record} (h : Phase c id r)
    (hr : c.record? id = some r) : OwedOnce c id r := by
  have unattached : (∀ v, ¬c.AttachedTo id v) → ¬c.AwaitsDriver id := by
    rintro free ⟨_, b, -, -, attached⟩
    exact free b.target attached
  cases h with
  | idle inactive free none =>
    exact ⟨by simp [inactive, unattached free, none], by simp [none], by omega,
      fun _ => ⟨free, none⟩, fun v hv => absurd hv (free v)⟩
  | @attached b active bound only none =>
    have awaits : c.AwaitsDriver id := ⟨r, b, hr, bound, (only b.target).2 rfl⟩
    exact ⟨by simp [active, awaits, none], by simp [none], by omega,
      fun inactive => by simp [active] at inactive, fun v hv => ⟨b, bound, (only v).1 hv⟩⟩
  | queued active bound free one =>
    exact ⟨by simp [active, unattached free, one], fun both => unattached free both.1, by omega,
      fun inactive => by simp [active] at inactive, fun v hv => absurd hv (free v)⟩

/-- **A write in two phases never loses its completion and never gets a second one.**  In
every state of every orderly run, each record that was idle at the start is active if and
only if either the driver has to complete its write or one request for its second pass
waits, never both and never two. -/
theorem perform_owedOnce {c : Controller} {ids : List RecordId} {actions : List Action}
    (own : c.OwnHandles) (idle : ∀ id ∈ ids, c.Idle id) (run : Allows Orderly c actions) :
    ∀ id ∈ ids, ∃ r, (c.perform actions).record? id = some r ∧
      OwedOnce (c.perform actions) id r := by
  intro id mem
  obtain ⟨r, hr, phase⟩ := (idle id mem).inPhase.perform own run
  exact ⟨r, hr, phase.owedOnce hr⟩

/-- A record that is idle by what can be seen of it, where no variable has a record
attached. -/
theorem idle_of_free {c : Controller} {id : RecordId} {r : Record} (h : c.record? id = some r)
    (inactive : r.common.active = false) (free : ∀ w ∈ c.vars, w.attached = none)
    (none : c.completions id = 0) : c.Idle id := by
  refine ⟨r, h, inactive, ?_, none⟩
  rintro v ⟨a, ha, -⟩
  obtain ⟨w, hw, attached⟩ := Option.bind_eq_some_iff.1 ha
  rw [free w (List.mem_of_getElem? hw)] at attached
  contradiction

/-- Two records that write asynchronously to the one variable of a group, with one
scheduler for both. -/
def asynchronousPair : Controller :=
  let writer (name : String) : Record :=
    ⟨{ name }, .hardware ⟨0, 2, "g"⟩, .scalar .shared (.longout 0)⟩
  let (s, c) := (({} : Controller).registerGroup "g" [{ value := .ulong 7 }]).1.newScheduler
  let (first, c) := c.adopt (writer "first") (some s)
  let (second, c) := c.adopt (writer "second") (some s)
  ((c.initialise first).1.initialise second).1

theorem ownHandles_asynchronousPair : asynchronousPair.OwnHandles :=
  (((ownHandles_of_records_eq_nil rfl).adopt _ _).adopt _ _).initialise _ |>.initialise _

/-- Both records are scanned, the first is attached and the second refused, and the write
of the first is completed. -/
def pairRun : List Action :=
  [.send ⟨0⟩ (.scan ⟨0⟩), .send ⟨0⟩ (.scan ⟨1⟩), .serve ⟨0⟩, .serve ⟨0⟩, .complete ⟨0⟩]

theorem owedOnce_of_asynchronousPair :
    asynchronousPair.OwnHandles ∧ (∀ id ∈ [⟨0⟩, ⟨1⟩], asynchronousPair.Idle id) ∧
      Allows Orderly asynchronousPair pairRun ∧
      (asynchronousPair.perform pairRun).completions ⟨0⟩ = 1 ∧
      ∀ id ∈ [⟨0⟩, ⟨1⟩], ∃ r, (asynchronousPair.perform pairRun).record? id = some r ∧
        OwedOnce (asynchronousPair.perform pairRun) id r := by
  have idle : ∀ id ∈ [⟨0⟩, ⟨1⟩], asynchronousPair.Idle id := by
    have free : ∀ w ∈ asynchronousPair.vars, w.attached = none := by decide
    intro id mem
    simp only [List.mem_cons, List.not_mem_nil, or_false] at mem
    rcases mem with rfl | rfl
    · exact idle_of_free rfl rfl free (by decide)
    · exact idle_of_free rfl rfl free (by decide)
  have orderly : Allows Orderly asynchronousPair pairRun :=
    ⟨rfl, rfl, trivial, trivial, trivial, trivial⟩
  exact ⟨ownHandles_asynchronousPair, idle, orderly, by decide,
    perform_owedOnce ownHandles_asynchronousPair idle orderly⟩

end ControlRecords.Controller
