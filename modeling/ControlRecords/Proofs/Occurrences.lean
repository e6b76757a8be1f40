import ControlRecords.Proofs.Operations

/-! # Courses of a controller

Around the operations on its records and variables, a controller sees more: records are made
and dropped, schedulers come and go, drivers bring variables and archives and ask for scans,
and memory, names and files change from outside.  `Occurrence` is all that can happen, and a
course is a list of occurrences.

What the schedulers have to do, what is on the scan lists and how many records have been made
is the agenda.  Records move values without touching it, so of all operations only those of
schedulers and the initialisation of a record change it (`agenda_operate`).  A place in which
a record was made is never used again (`outline_of_occur`). -/
namespace ControlRecords

/-- What can happen to a controller. -/
inductive Occurrence where
  /-- Something is done to a record or a variable. -/
  | operate (op : Operation)
  /-- A client writes an array record. -/
  | write (record : RecordId) (values : List UInt32)
  /-- A record is made, with the scheduler that is to process it. -/
  | adopt (record : Record) (scheduler : Option SchedulerId)
  /-- A record is dropped. -/
  | drop (record : RecordId)
  | openScheduler
  | openScanList
  /-- Drivers bring variables and archives. -/
  | declare (vars : List Variable) (archives : List Archive)
  /-- The registers, the names and the files become something else. -/
  | surround (registers : Register.Registers) (catalogue : Catalogue) (files : Archive.Files)
  /-- A scheduler handles the requests that wait. -/
  | run (scheduler : SchedulerId)
  /-- A scheduler serves its requests until none waits, and then goes. -/
  | runAndClose (scheduler : SchedulerId)
  /-- A scheduler goes, with the requests that wait for it. -/
  | close (scheduler : SchedulerId)
  | requestScan (list : ScanListId)
  /-- A scan of the records on a variable's scan list is requested. -/
  | requestScanOf (target : VariableId)

/-- The operation is one of a scheduler, completes a write or initialises a record. -/
def Operation.schedules : Operation → Bool
  | .act (.send _ _) | .act (.serve _) | .act (.complete _) | .initialise _ => true
  | _ => false

namespace Controller

/-- The state after an occurrence.  Nothing comes of a run of a scheduler that is gone. -/
def occur (c : Controller) : Occurrence → Controller
  | .operate op => c.operate op
  | .write id values => c.putArray id values
  | .adopt r scheduler => (c.adopt r scheduler).2
  | .drop id => c.dropRecord id
  | .openScheduler => c.newScheduler.2
  | .openScanList => c.newScanList.2
  | .declare vars archives => { c with vars := c.vars ++ vars, archives := c.archives ++ archives }
  | .surround registers catalogue files => { c with registers, catalogue, files }
  | .run s => ((c.run s).map (·.2)).getD c
  | .runAndClose s => (c.serveAndClose s).getD c
  | .close s => c.closeScheduler s
  | .requestScan list => (c.requestScan list).2
  | .requestScanOf v => (c.requestScanOf v).2

/-- The state after a course. -/
def occurAll (c : Controller) (course : List Occurrence) : Controller := course.foldl occur c

@[simp] theorem occurAll_nil (c : Controller) : c.occurAll [] = c := rfl

@[simp] theorem occurAll_cons (c : Controller) (o : Occurrence) (rest : List Occurrence) :
    c.occurAll (o :: rest) = (c.occur o).occurAll rest := rfl

theorem occurAll_append (c : Controller) (first rest : List Occurrence) :
    c.occurAll (first ++ rest) = (c.occurAll first).occurAll rest :=
  List.foldl_append ..

/-! ## The agenda -/

/-- What schedulers and scan lists hold, and how many records have been made. -/
def agenda (c : Controller) : List (Option Queue) × List ScanList × Nat :=
  (c.schedulers, c.scanLists, c.records.length)

theorem schedulers_of_agenda {c d : Controller} (h : d.agenda = c.agenda) :
    d.schedulers = c.schedulers :=
  congrArg (·.1) h

theorem scanLists_of_agenda {c d : Controller} (h : d.agenda = c.agenda) :
    d.scanLists = c.scanLists :=
  congrArg (·.2.1) h

theorem length_of_agenda {c d : Controller} (h : d.agenda = c.agenda) :
    d.records.length = c.records.length :=
  congrArg (·.2.2) h

section Agenda
variable (c : Controller) (id : RecordId) (r : Record)

@[simp] theorem agenda_setRecord : (c.setRecord id r).agenda = c.agenda := by
  simp [agenda, setRecord]

@[simp] theorem agenda_setVariable (v : VariableId) (w : Variable) :
    (c.setVariable v w).agenda = c.agenda := rfl

@[simp] theorem agenda_setTarget (t : Target) : (c.setTarget r t).agenda = c.agenda := by
  unfold setTarget
  split <;> rfl

/-- Records move values without touching the agenda. -/
@[simp] theorem agenda_process : (c.process id).agenda = c.agenda := by
  cases hr : c.record? id with
  | none => rw [process_of_none hr]
  | some r => rw [process_of_record hr, agenda_setRecord, agenda_setTarget]

@[simp] theorem agenda_processInitially : (c.processInitially id).agenda = c.agenda := by
  unfold processInitially
  split
  · rfl
  · split
    · exact agenda_process c id
    · rfl

@[simp] theorem agenda_dispatch (request : Request) : (c.dispatch request).agenda = c.agenda := by
  rcases dispatch_cases c request with e | ⟨_, -, -, e⟩
  · rw [e]
  · rw [e, agenda_process]

@[simp] theorem agenda_modifyVariable (v : VariableId) (g : Variable → Variable) :
    (c.modifyVariable v g).agenda = c.agenda := by
  unfold modifyVariable
  split <;> rfl

@[simp] theorem agenda_wait (v : VariableId) (seconds : Float) :
    (c.wait v seconds).1.agenda = c.agenda := by
  unfold wait
  split <;> rfl

@[simp] theorem agenda_putArray (values : List UInt32) :
    (c.putArray id values).agenda = c.agenda := by
  rcases putArray_cases c id values with same | ⟨r, archive, a, -, -, written⟩
  · rw [same]
  · rw [written, agenda_setRecord]

@[simp] theorem agenda_onVariable {α : Type}
    (f : Variable.Binding → Record → Variable → Record × Variable × Except VariableError α) :
    (c.onVariable id f).1.agenda = c.agenda := by
  unfold onVariable
  split
  · rfl
  · split
    · split
      · exact agenda_setRecord _ id _
      · rfl
    · rfl

@[simp] theorem agenda_secondPhase (v : VariableId) : (c.secondPhase id v).1.agenda = c.agenda := by
  unfold secondPhase
  split
  · split
    · exact agenda_setRecord c id _
    · rfl
  · rfl

@[simp] theorem agenda_resolveVariable (link : Link) (choice : Variable.Choice) :
    (c.resolveVariable link r choice).1.agenda = c.agenda := by
  unfold resolveVariable
  dsimp only
  split
  · rfl
  · split <;> rfl

theorem agenda_connectRegister (s : Scalar) : (c.connectRegister id r s).1.agenda = c.agenda := by
  rcases named : (Register.resolve c.catalogue r.link).1 with e | b
  · obtain ⟨catalogue, failed⟩ := connectRegister_of_error id s named
    rw [failed]
    exact agenda_setRecord _ id _
  · obtain ⟨catalogue, connected⟩ := connectRegister_of_named id s named
    rw [connected]
    exact agenda_setRecord _ id _

theorem agenda_connectVariable (s : Scalar) : (c.connectVariable id r s).1.agenda = c.agenda := by
  have resolved := agenda_resolveVariable c r r.link (.ofScalar s)
  unfold connectVariable
  split
  · rename_i failed
    rw [failed] at resolved
    exact (agenda_setRecord _ id _).trans resolved
  · rename_i found
    rw [found] at resolved
    dsimp only
    rw [Variable.target_connect, setVariable_of_resolveVariable found]
    exact (agenda_setRecord _ id _).trans resolved

theorem agenda_connectArchive (archive : ArchiveId) :
    (c.connectArchive id r archive).1.agenda = c.agenda := by
  unfold connectArchive
  split
  · rfl
  · exact (agenda_setRecord _ id _).trans (agenda_setTarget c r _)

theorem agenda_connect : (c.connect id).1.agenda = c.agenda := by
  unfold connect
  split
  · rfl
  · split
    · exact agenda_connectRegister c id _ _
    · exact agenda_connectVariable c id _ _
    · exact agenda_connectArchive c id _ _

theorem agenda_bindVariable (link : Link) (choice : Variable.Choice) (output : Bool) :
    (c.bindVariable id link choice output).1.agenda = c.agenda := by
  unfold bindVariable
  split
  · rfl
  · rename_i r _
    have resolved := agenda_resolveVariable c r link choice
    split
    · rename_i failed
      rw [failed] at resolved
      exact (agenda_setRecord _ id _).trans resolved
    · rename_i found
      rw [found] at resolved
      split
      · dsimp only
        rw [Variable.target_connectOutput, setVariable_of_resolveVariable found]
        exact (agenda_setRecord _ id _).trans resolved
      · exact (agenda_setRecord _ id _).trans resolved

end Agenda

/-! ## Initialising -/

/-- The controller in which a record that is initialised joins its scan list: the record is
connected.  There is none if the record cannot be connected. -/
def connected? (c : Controller) (id : RecordId) : Option Controller :=
  (c.record? id).bind fun r =>
    match (c.setRecord id r.sized).connect id with
    | (_, .error _) => none
    | (d, .ok status) => (d.record? id).map fun s => d.setRecord id (s.connected status)

section Initialise
variable {c d : Controller} {id : RecordId}

theorem readied?_eq_map : c.readied? id = (c.connected? id).map (·.joinScanList id) := by
  unfold readied? connected?
  cases c.record? id with
  | none => rfl
  | some r =>
    rw [Option.bind_some, Option.bind_some]
    rcases (c.setRecord id r.sized).connect id with ⟨d, e | status⟩
    · rfl
    · dsimp only
      rw [Option.map_map]
      rfl

theorem schedulers_joinScanList (c : Controller) (id : RecordId) :
    (c.joinScanList id).schedulers = c.schedulers := by
  unfold joinScanList
  split
  · rfl
  · split
    · split <;> rfl
    · rfl

theorem initialise_of_connected (h : c.connected? id = some d) :
    (c.initialise id).1 = (d.joinScanList id).processInitially id :=
  initialise_of_readied (by rw [readied?_eq_map, h, Option.map_some])

theorem agenda_of_connected (h : c.connected? id = some d) : d.agenda = c.agenda := by
  obtain ⟨r, hr, found⟩ := Option.bind_eq_some_iff.1 h
  have connected := agenda_connect (c.setRecord id r.sized) id
  split at found
  · contradiction
  · rename_i ok
    obtain ⟨s, -, rfl⟩ := Option.map_eq_some_iff.1 found
    rw [ok] at connected
    rw [agenda_setRecord, connected, agenda_setRecord]

theorem keeps_outline_of_connected (h : c.connected? id = some d) :
    Keeps Record.outline c d := by
  obtain ⟨r, hr, found⟩ := Option.bind_eq_some_iff.1 h
  have sized : Keeps Record.outline c (c.setRecord id r.sized) :=
    .setRecord hr (Record.outline_of_skeleton r.skeleton_sized)
  have there : (c.setRecord id r.sized).record? id = some r.sized :=
    record?_setRecord_of_some hr _
  have connected := (relinked_connect there).keeps there
  split at found
  · contradiction
  · rename_i ok
    obtain ⟨s, hs, rfl⟩ := Option.map_eq_some_iff.1 found
    rw [ok] at connected
    exact (sized.trans connected).trans
      (.setRecord hs (Record.outline_of_skeleton (s.skeleton_connected _)))

/-- A record that cannot be connected joins no scan list. -/
theorem agenda_initialise_of_not_connected (h : c.connected? id = none) :
    (c.initialise id).1.agenda = c.agenda := by
  unfold initialise
  split
  · rfl
  · rename_i r hr
    have connected := (agenda_connect (c.setRecord id r.sized) id).trans (agenda_setRecord c id _)
    simp only [connected?, hr, Option.bind_some] at h
    split
    · rename_i failed
      rw [failed] at connected
      split
      · exact (agenda_setRecord _ id _).trans connected
      · exact connected
    · rename_i ok
      rw [ok] at connected h
      split
      · rename_i s hs
        simp [hs] at h
      · exact connected

end Initialise

/-! ## Which operations change the agenda -/

/-- **Only schedulers, completions and initialisations change the agenda.** -/
theorem agenda_operate (c : Controller) (op : Operation) (h : op.schedules = false) :
    (c.operate op).agenda = c.agenda := by
  cases op with
  | act a =>
    cases a with
    | send s request | serve s | complete v => contradiction
    | process id => exact agenda_process c id
    | put id field value =>
      rcases act_put_cases c id field value with e | ⟨_, _, -, -, e⟩
      · rw [operate, e]
      · rw [operate, e, agenda_setRecord]
    | store v value =>
      rcases act_store_cases c v value with e | ⟨_, _, -, -, e⟩
      · rw [operate, e]
      · rw [operate, e, agenda_setVariable]
    | report v alarm => exact agenda_modifyVariable c v _
  | stamp v time => exact agenda_modifyVariable c v _
  | signal v => exact agenda_modifyVariable c v _
  | poll v => exact agenda_wait c v 0
  | get id => exact agenda_onVariable c id _
  | give id => exact agenda_onVariable c id _
  | readBack id => exact agenda_onVariable c id _
  | secondPhase id v => exact agenda_secondPhase c id v
  | initialise id => contradiction
  | bind id link choice output => exact agenda_bindVariable c id link choice output

/-! ## Occurrences that are runs of actions -/

/-- The requests that wait for a scheduler. -/
def waiting (c : Controller) (s : SchedulerId) : Queue := (c.queue? s).getD []

/-- The members of a scan list. -/
def members (c : Controller) (list : ScanListId) : ScanList := (c.scanList? list).getD []

/-- The members whose records are there. -/
def living (c : Controller) (members : ScanList) : ScanList :=
  members.filter fun m => (c.record? m.record).isSome

/-- Take the records that are gone off a scan list. -/
def pruned (c : Controller) (list : ScanListId) : Controller :=
  c.setScanList list (c.living (c.members list))

/-- A scheduler handles what waits for it, one request after the other. -/
def servings (c : Controller) (s : SchedulerId) : List Action :=
  List.replicate (c.waiting s).length (.serve s)

/-- A scan is sent to each record on a scan list that is there. -/
def scans (c : Controller) (list : ScanListId) : List Action :=
  (c.living (c.members list)).map fun m => .send m.scheduler (.scan m.record)

section Queues
variable {c d : Controller} {s : SchedulerId} {queue : Queue}

theorem waiting_of_queue (h : c.queue? s = some queue) : c.waiting s = queue := by
  rw [waiting, h, Option.getD_some]

theorem waiting_of_none (h : c.queue? s = none) : c.waiting s = [] := by
  rw [waiting, h, Option.getD_none]

theorem queue?_congr (h : d.schedulers = c.schedulers) (s : SchedulerId) :
    d.queue? s = c.queue? s := by
  rw [queue?, queue?, h]

/-- The last queue that is set for a scheduler counts. -/
theorem setQueue_setQueue (c : Controller) (s : SchedulerId) (first second : Queue) :
    (c.setQueue s first).setQueue s second = c.setQueue s second := by
  simp [setQueue, List.set_set]

theorem send_eq_ok {request : Request} (h : c.send s request = .ok d) :
    ∃ queue, c.queue? s = some queue ∧ d = c.setQueue s (queue ++ [request]) := by
  unfold send at h
  split at h
  · rename_i queue there
    exact ⟨queue, there, (Except.ok.inj h).symm⟩
  · contradiction

theorem send_eq_error {request : Request} {e : SchedulerClosed} (h : c.send s request = .error e) :
    c.queue? s = none := by
  unfold send at h
  split at h
  · contradiction
  · assumption

theorem queue?_of_send {request : Request} (h : c.send s request = .ok d) (t : SchedulerId) :
    d.queue? t = (c.queue? t).map fun queue => if t = s then queue ++ [request] else queue := by
  obtain ⟨queue, there, rfl⟩ := send_eq_ok h
  by_cases same : t = s
  · subst same
    rw [queue?_setQueue_self c t _ (by rw [there]; rfl), there, Option.map_some, if_pos rfl]
  · simp only [queue?_setQueue_of_ne c _ same, if_neg same, Option.map_id']

variable (c) (schedulers : List (Option Queue))

/-- A pass does not look at the queues. -/
theorem process_withSchedulers (id : RecordId) :
    ({ c with schedulers } : Controller).process id = { c.process id with schedulers } := by
  cases hr : c.record? id with
  | none =>
    have hr' : ({ c with schedulers } : Controller).record? id = none := hr
    rw [process_of_none hr, process_of_none hr']
  | some r =>
    have hr' : ({ c with schedulers } : Controller).record? id = some r := hr
    have target : ({ c with schedulers } : Controller).target r = c.target r := rfl
    rw [process_of_record hr, process_of_record hr', target]
    unfold setTarget
    split <;> rfl

/-- Handling a request does not look at the queues. -/
theorem dispatch_withSchedulers (request : Request) :
    ({ c with schedulers } : Controller).dispatch request =
      { c.dispatch request with schedulers } := by
  cases hr : c.record? request.record with
  | none =>
    have hr' : ({ c with schedulers } : Controller).record? request.record = none := hr
    rw [dispatch_of_none hr, dispatch_of_none hr']
  | some r =>
    have hr' : ({ c with schedulers } : Controller).record? request.record = some r := hr
    rw [dispatch_of_record hr, dispatch_of_record hr']
    split
    · exact process_withSchedulers c schedulers request.record
    · rfl

end Queues

section Runs
variable (c : Controller) (s : SchedulerId)

/-- Handling a request leaves the queue that is set before it. -/
theorem setQueue_dispatch (queue : Queue) (request : Request) :
    (c.setQueue s queue).dispatch request = (c.dispatch request).setQueue s queue := by
  have schedulers := schedulers_of_agenda (agenda_dispatch c request)
  rw [setQueue, dispatch_withSchedulers, setQueue, schedulers]

/-- A scheduler for which nothing waits does nothing, however often it serves. -/
theorem perform_serve_of_resting (h : c.dispatchOldest? s = none) (n : Nat) :
    c.perform (List.replicate n (.serve s)) = c := by
  have same : c.act (.serve s) = c := by rw [act, h, Option.getD_none]
  induction n with
  | zero => rfl
  | succ n ih => rw [List.replicate_succ, perform_cons, same, ih]

/-- Serving a scheduler is a run of actions. -/
theorem serve_eq_perform (n : Nat) : c.serve s n = c.perform (List.replicate n (.serve s)) := by
  induction n generalizing c with
  | zero => rfl
  | succ n ih =>
    unfold serve
    split
    · rename_i d served
      have next : c.act (.serve s) = d := by rw [act, served, Option.getD_some]
      rw [List.replicate_succ, perform_cons, next]
      exact ih d
    · rename_i resting
      -- The rounds that are left change nothing.
      exact (perform_serve_of_resting c s resting (n + 1)).symm

variable {c s}

/-- The oldest request is taken off the queue and handled. -/
theorem act_serve_of_queue {request : Request} {rest : Queue}
    (h : c.queue? s = some (request :: rest)) :
    c.act (.serve s) = (c.setQueue s rest).dispatch request := by
  simp only [act, dispatchOldest?, h, Option.getD_some]

/-- Handling a whole queue is serving it to its end. -/
theorem dispatchAll_eq_perform {queue : Queue} (h : c.queue? s = some queue) :
    (c.setQueue s []).dispatchAll queue =
      c.perform (List.replicate queue.length (.serve s)) := by
  induction queue generalizing c with
  | nil =>
    have lt := queue?_isSome_lt (by rw [h]; rfl : (c.queue? s).isSome)
    have here : c.schedulers[s.index] = some [] := by
      simpa [queue?, List.getElem?_eq_getElem lt] using h
    have same : c.schedulers.set s.index (some []) = c.schedulers := by
      rw [← here, List.set_getElem_self]
    simp [dispatchAll, setQueue, same]
  | cons request rest ih =>
    -- The queue is emptied before the requests are handled, or loses one after the other; handling
    -- them does not look at it, so both come to the same.
    let d := (c.setQueue s rest).dispatch request
    have left : d.queue? s = some rest := by
      rw [queue?_congr (schedulers_of_agenda (agenda_dispatch _ request)),
        queue?_setQueue_self _ _ _ (by rw [h]; rfl)]
    have first : (c.setQueue s []).dispatch request = d.setQueue s [] := by
      rw [← setQueue_dispatch, setQueue_setQueue]
    rw [List.length_cons, List.replicate_succ, perform_cons, act_serve_of_queue h, ← ih left,
      ← first]
    rfl

/-- **A run of a scheduler serves the requests that wait when it starts.** -/
theorem run_of_queue {queue : Queue} (h : c.queue? s = some queue) :
    c.run s = some (queue.length, c.perform (c.servings s)) := by
  rw [servings, waiting_of_queue h, ← dispatchAll_eq_perform h]
  simp only [run, h]

theorem serveAndClose_of_queue {queue : Queue} (h : c.queue? s = some queue) :
    c.serveAndClose s = some ((c.perform (c.servings s)).closeScheduler s) := by
  rw [servings, waiting_of_queue h, ← serve_eq_perform]
  simp only [serveAndClose, h]

variable (c s)

theorem occur_run : c.occur (.run s) = c.perform (c.servings s) := by
  cases h : c.queue? s with
  | some queue => rw [occur, run_of_queue h, Option.map_some, Option.getD_some]
  | none =>
    rw [servings, waiting_of_none h]
    simp only [occur, run, h]
    rfl

theorem occur_runAndClose :
    c.occur (.runAndClose s) = (c.perform (c.servings s)).closeScheduler s := by
  cases h : c.queue? s with
  | some queue => rw [occur, serveAndClose_of_queue h, Option.getD_some]
  | none =>
    -- There is no queue that could be taken away.
    have gone : c.schedulers.set s.index none = c.schedulers := by
      by_cases lt : s.index < c.schedulers.length
      · have here : c.schedulers[s.index] = none := by
          simpa [queue?, List.getElem?_eq_getElem lt] using h
        rw [← here, List.set_getElem_self]
      · exact List.set_eq_of_length_le (Nat.le_of_not_lt lt)
    rw [servings, waiting_of_none h]
    simp only [occur, serveAndClose, h, List.length_nil, List.replicate_zero, perform_nil,
      closeScheduler, gone, Option.getD_none]

/-- Scanning the members of a list is sending a scan to each. -/
theorem scanAll_eq_perform (members : List Member) :
    (c.scanAll members).2 =
      c.perform (members.map fun m => .send m.scheduler (.scan m.record)) := by
  induction members generalizing c with
  | nil => rfl
  | cons m rest ih =>
    rw [List.map_cons, perform_cons]
    unfold scanAll
    split
    · rename_i d sent
      have next : c.act (.send m.scheduler (.scan m.record)) = d := by rw [act, sent]
      rw [next]
      exact ih d
    · rename_i refused
      have next : c.act (.send m.scheduler (.scan m.record)) = c := by rw [act, refused]
      rw [next]
      exact ih c

/-- A request for a scan takes the records that are gone off the list and scans the others. -/
theorem requestScan_eq_scanAll (list : ScanListId) :
    c.requestScan list = (c.pruned list).scanAll (c.living (c.members list)) := by
  unfold requestScan
  split
  · rename_i absent
    have beyond : c.scanLists.length ≤ list.index := List.getElem?_eq_none_iff.1 absent
    simp [pruned, members, absent, living, setScanList, List.set_eq_of_length_le beyond, scanAll]
  · rename_i members there
    have here : c.members list = members := by rw [Controller.members, there, Option.getD_some]
    rw [pruned, here]
    rfl

/-- **A request for a scan prunes the list and sends a scan to each member.** -/
theorem requestScan_eq_perform (list : ScanListId) :
    (c.requestScan list).2 = (c.pruned list).perform (c.scans list) := by
  rw [requestScan_eq_scanAll, scanAll_eq_perform, scans]

end Runs

/-! ## Lists and places -/

/-- The part of the agenda that is not about requests. -/
def roster (c : Controller) : List ScanList × Nat := (c.scanLists, c.records.length)

theorem roster_of_agenda {c d : Controller} (h : d.agenda = c.agenda) : d.roster = c.roster :=
  congrArg (·.2) h

/-- **No action changes a scan list or makes a record.** -/
@[simp] theorem roster_act (c : Controller) (a : Action) : (c.act a).roster = c.roster := by
  cases a with
  | send s request =>
    rcases act_send_cases c s request with e | ⟨_, -, e⟩
    · rw [e]
    · rw [e]; rfl
  | serve s =>
    rcases act_serve_cases c s with e | ⟨request, rest, -, e⟩
    · rw [e]
    · rw [e, roster_of_agenda (agenda_dispatch _ request)]; rfl
  | complete v =>
    rcases act_complete_cases c v with e | ⟨_, _, _, -, -, -, e⟩
    · rw [e]
    · rw [e]; rfl
  | process id | put id field value | store v value | report v alarm =>
    exact roster_of_agenda (agenda_operate c (.act _) rfl)

@[simp] theorem roster_perform (c : Controller) (actions : List Action) :
    (c.perform actions).roster = c.roster := by
  induction actions generalizing c with
  | nil => rfl
  | cons a rest ih => rw [perform_cons, ih, roster_act]

section Places
variable {c : Controller} {id : RecordId}

theorem length_records_initialise (c : Controller) (id : RecordId) :
    (c.initialise id).1.records.length = c.records.length := by
  cases h : c.connected? id with
  | none => exact length_of_agenda (agenda_initialise_of_not_connected h)
  | some d =>
    rw [initialise_of_connected h, length_of_agenda (agenda_processInitially _ id),
      records_joinScanList, length_of_agenda (agenda_of_connected h)]

theorem schedulers_initialise (c : Controller) (id : RecordId) :
    (c.initialise id).1.schedulers = c.schedulers := by
  cases h : c.connected? id with
  | none => exact schedulers_of_agenda (agenda_initialise_of_not_connected h)
  | some d =>
    rw [initialise_of_connected h, schedulers_of_agenda (agenda_processInitially _ id),
      schedulers_joinScanList, schedulers_of_agenda (agenda_of_connected h)]

theorem length_records_operate (c : Controller) (op : Operation) :
    (c.operate op).records.length = c.records.length := by
  cases op with
  | act a => exact congrArg (·.2) (roster_act c a)
  | initialise id => exact length_records_initialise c id
  | _ => exact length_of_agenda (agenda_operate c _ rfl)

theorem keeps_skeleton_putArray (c : Controller) (id : RecordId) (values : List UInt32) :
    Keeps Record.skeleton c (c.putArray id values) := by
  rcases putArray_cases c id values with same | ⟨r, archive, a, there, body, written⟩
  · rw [same]
    exact .refl c
  · rw [written]
    exact .setRecord there (by simp [Record.skeleton, body, Body.skeleton])

/-- A scan that is asked for by a variable is one of its scan list. -/
theorem occur_requestScanOf (c : Controller) (v : VariableId) :
    c.occur (.requestScanOf v) =
      match (c.variableAt? v).bind (·.scan) with
      | some list => c.occur (.requestScan list)
      | none => c := by
  simp only [occur, requestScanOf]
  cases (c.variableAt? v).bind (·.scan) <;> rfl

theorem length_records_requestScan (c : Controller) (list : ScanListId) :
    (c.requestScan list).2.records.length = c.records.length := by
  rw [requestScan_eq_perform]
  exact congrArg (·.2) (roster_perform (c.pruned list) _)

/-- Places of records are never taken away. -/
theorem length_records_occur (c : Controller) (o : Occurrence) :
    c.records.length ≤ (c.occur o).records.length := by
  cases o with
  | operate op => exact Nat.le_of_eq (length_records_operate c op).symm
  | write id values => exact Nat.le_of_eq (length_of_agenda (agenda_putArray c id values)).symm
  | adopt r scheduler => simp [occur, adopt]
  | drop id => simp [occur, dropRecord]
  | openScheduler | openScanList | declare | surround | close => exact Nat.le_refl _
  | run s =>
    rw [occur_run]
    exact Nat.le_of_eq (congrArg (·.2) (roster_perform c _)).symm
  | runAndClose s =>
    rw [occur_runAndClose]
    exact Nat.le_of_eq (congrArg (·.2) (roster_perform c _)).symm
  | requestScan list => exact Nat.le_of_eq (length_records_requestScan c list).symm
  | requestScanOf v =>
    rw [occur_requestScanOf]
    split
    · exact Nat.le_of_eq (length_records_requestScan c _).symm
    · exact Nat.le_refl _

theorem record?_dropRecord (c : Controller) (id j : RecordId) :
    (c.dropRecord id).record? j = if j = id then none else c.record? j := by
  obtain ⟨i⟩ := id
  obtain ⟨k⟩ := j
  by_cases same : k = i
  · subst same
    rw [if_pos rfl, record?, dropRecord, List.getElem?_set, if_pos rfl]
    split <;> rfl
  · simp [record?, dropRecord, List.getElem?_set_ne (Ne.symm same), same]

theorem keeps_skeleton_requestScan (c : Controller) (list : ScanListId) :
    Keeps Record.skeleton c (c.requestScan list).2 := by
  rw [requestScan_eq_perform]
  exact (keeps_of_records rfl).trans (keeps_skeleton_perform (c.pruned list) _)

/-- **Only operations change what a record is connected to.**  No record that was dropped comes
back, and none takes its place. -/
theorem skeleton_of_occur {s : Record} {o : Occurrence} (beside : ∀ op, o ≠ .operate op)
    (made : id.index < c.records.length) (hs : (c.occur o).record? id = some s) :
    ∃ r, c.record? id = some r ∧ s.skeleton = r.skeleton := by
  have kept {d : Controller} (h : Keeps Record.skeleton c d) (hs : d.record? id = some s) :
      ∃ r, c.record? id = some r ∧ s.skeleton = r.skeleton :=
    h.record_before hs
  cases o with
  | operate op => exact absurd rfl (beside op)
  | write j values => exact kept (keeps_skeleton_putArray c j values) hs
  | adopt r scheduler =>
    rw [occur, record?_adopt] at hs
    split at hs
    · rename_i new
      rw [new] at made
      exact absurd made (Nat.lt_irrefl _)
    · exact ⟨s, hs, rfl⟩
  | drop j =>
    rw [occur, record?_dropRecord] at hs
    split at hs
    · contradiction
    · exact ⟨s, hs, rfl⟩
  | openScheduler | openScanList | declare | surround | close => exact ⟨s, hs, rfl⟩
  | run s =>
    rw [occur_run] at hs
    exact kept (keeps_skeleton_perform c _) hs
  | runAndClose s =>
    rw [occur_runAndClose] at hs
    exact kept (keeps_skeleton_perform c _) hs
  | requestScan list => exact kept (keeps_skeleton_requestScan c list) hs
  | requestScanOf v =>
    rw [occur_requestScanOf] at hs
    split at hs
    · exact kept (keeps_skeleton_requestScan c _) hs
    · exact ⟨s, hs, rfl⟩

/-- **A record that is in a place which was taken before was there before.** -/
theorem outline_of_occur {s : Record} (o : Occurrence) (made : id.index < c.records.length)
    (hs : (c.occur o).record? id = some s) :
    ∃ r, c.record? id = some r ∧ s.outline = r.outline := by
  cases o with
  | operate op => exact (keeps_outline_operate c op).record_before hs
  | _ =>
    obtain ⟨r, hr, same⟩ := skeleton_of_occur (by simp) made hs
    exact ⟨r, hr, Record.outline_of_skeleton same⟩

end Places

end Controller

end ControlRecords
