import ControlRecords.Proofs.Occurrences
import ControlRecords.Proofs.TwoPhase

/-! # Requests in order

Requests reach a scheduler directly, from scan lists and from completed writes, and the
scheduler handles them when it serves.  The journal of a course notes each request when it is
taken and when it is handled.  No pass sends a request, so what waits for a scheduler before an
action and what it takes in it is what it handles in it and what waits afterwards
(`balance_act`).  From this balance a course has that nothing is lost, repeated or reordered
(`requests_in_order`), and that a run ends: the rounds of the loop that serves as long as a
request waits are as many as the requests that waited at its start (`drains_of_queue`). -/
namespace ControlRecords

/-- What becomes of a request to a scheduler. -/
inductive Note where
  | taken (scheduler : SchedulerId) (request : Request)
  | handled (scheduler : SchedulerId) (request : Request)

namespace Note

/-- The scheduler of the request. -/
def scheduler : Note → SchedulerId
  | taken s _ => s
  | handled s _ => s

/-- The request, if it is one that the scheduler takes. -/
def takenBy? (s : SchedulerId) : Note → Option Request
  | taken t request => if t = s then some request else none
  | handled _ _ => none

/-- The request, if it is one that the scheduler handles. -/
def handledBy? (s : SchedulerId) : Note → Option Request
  | taken _ _ => none
  | handled t request => if t = s then some request else none

end Note

/-- The requests that a scheduler takes, in turn. -/
def takenBy (s : SchedulerId) (notes : List Note) : List Request :=
  notes.filterMap (Note.takenBy? s)

/-- The requests that a scheduler handles, in turn. -/
def handledBy (s : SchedulerId) (notes : List Note) : List Request :=
  notes.filterMap (Note.handledBy? s)

@[simp] theorem takenBy_append (s : SchedulerId) (notes more : List Note) :
    takenBy s (notes ++ more) = takenBy s notes ++ takenBy s more :=
  List.filterMap_append

@[simp] theorem handledBy_append (s : SchedulerId) (notes more : List Note) :
    handledBy s (notes ++ more) = handledBy s notes ++ handledBy s more :=
  List.filterMap_append

/-- A scheduler that is in no note takes nothing and handles nothing. -/
theorem nil_of_not_noted {s : SchedulerId} {notes : List Note} (h : ∀ n ∈ notes, n.scheduler ≠ s) :
    takenBy s notes = [] ∧ handledBy s notes = [] := by
  constructor
  · refine List.filterMap_eq_nil_iff.2 fun n hn => ?_
    cases n with
    | taken t request => exact if_neg (h _ hn)
    | handled t request => rfl
  · refine List.filterMap_eq_nil_iff.2 fun n hn => ?_
    cases n with
    | taken t request => rfl
    | handled t request => exact if_neg (h _ hn)

namespace Controller

/-! ## The journal -/

/-- What an action does with requests. -/
def noted (c : Controller) : Action → List Note
  | .send s request =>
    match c.send s request with
    | .ok _ => [.taken s request]
    | .error _ => []
  | .serve s =>
    match c.queue? s with
    | some (request :: _) => [.handled s request]
    | _ => []
  | .complete v =>
    match c.attachment? v, (c.completeProcessing v).2 with
    | some a, .ok () => [.taken a.scheduler (.complete a.record)]
    | _, _ => []
  | _ => []

/-- What a run of actions does with requests. -/
def notedAll (c : Controller) : List Action → List Note
  | [] => []
  | a :: rest => c.noted a ++ (c.act a).notedAll rest

/-- What an occurrence does with requests.  A run of a scheduler and a request for a scan are
runs of actions. -/
def notes (c : Controller) : Occurrence → List Note
  | .operate (.act a) => c.noted a
  | .run s => c.notedAll (c.servings s)
  | .runAndClose s => c.notedAll (c.servings s)
  | .requestScan list => (c.pruned list).notedAll (c.scans list)
  | .requestScanOf v =>
    match (c.variableAt? v).bind (·.scan) with
    | some list => (c.pruned list).notedAll (c.scans list)
    | none => []
  | _ => []

/-- What a course does with requests. -/
def journal (c : Controller) : List Occurrence → List Note
  | [] => []
  | o :: rest => c.notes o ++ (c.occur o).journal rest

theorem journal_append (c : Controller) (first rest : List Occurrence) :
    c.journal (first ++ rest) = c.journal first ++ (c.occurAll first).journal rest := by
  induction first generalizing c with
  | nil => rfl
  | cons o more ih => rw [List.cons_append, journal, ih, ← List.append_assoc]; rfl

/-! ## The balance -/

section Balance
variable {c d : Controller} {s : SchedulerId}

theorem waiting_congr (h : d.schedulers = c.schedulers) (s : SchedulerId) :
    d.waiting s = c.waiting s := by
  rw [waiting, waiting, queue?_congr h]

theorem waiting_setQueue {t : SchedulerId} {queue : Queue} (h : c.queue? t = some queue)
    (queue' : Queue) (s : SchedulerId) :
    (c.setQueue t queue').waiting s = if s = t then queue' else c.waiting s := by
  by_cases same : s = t
  · subst same
    rw [waiting, queue?_setQueue_self c s queue' (by rw [h]; rfl), if_pos rfl, Option.getD_some]
  · rw [waiting, queue?_setQueue_of_ne c queue' same, if_neg same, waiting]

/-- What is noted is about schedulers that are open. -/
theorem open_of_noted {a : Action} {n : Note} (h : n ∈ c.noted a) :
    (c.queue? n.scheduler).isSome := by
  cases a with
  | send s request =>
    simp only [noted] at h
    split at h
    · rename_i d sent
      obtain ⟨queue, there, -⟩ := send_eq_ok sent
      rw [List.mem_singleton.1 h, Note.scheduler, there]
      rfl
    · contradiction
  | serve s =>
    simp only [noted] at h
    split at h
    · rename_i there
      rw [List.mem_singleton.1 h, Note.scheduler, there]
      rfl
    · contradiction
  | complete v =>
    simp only [noted] at h
    rcases completed : c.completeProcessing v with ⟨d, result⟩
    rw [completed] at h
    split at h
    · rename_i a attached ok
      obtain rfl : result = .ok () := ok
      obtain ⟨w, b, queue, there, held, opened, -⟩ := completeProcessing_eq_ok completed
      obtain rfl : b = a := by simpa [attachment?, there, held] using attached
      rw [List.mem_singleton.1 h, Note.scheduler, opened]
      rfl
    · contradiction
  | process id | put id field value | store v value | report v alarm => contradiction

/-- An action that is none of a scheduler's and completes nothing leaves the requests. -/
theorem balance_of_schedulers {a : Action} (unnoted : c.noted a = [])
    (same : (c.act a).schedulers = c.schedulers) (s : SchedulerId) :
    c.waiting s ++ takenBy s (c.noted a) = handledBy s (c.noted a) ++ (c.act a).waiting s := by
  rw [unnoted, waiting_congr same]
  exact List.append_nil _

variable (c s)

theorem balance_send (t : SchedulerId) (request : Request) :
    c.waiting s ++ takenBy s (c.noted (.send t request)) =
      handledBy s (c.noted (.send t request)) ++ (c.act (.send t request)).waiting s := by
  simp only [noted, act]
  cases sent : c.send t request with
  | error e => exact List.append_nil _
  | ok d =>
    obtain ⟨queue, there, rfl⟩ := send_eq_ok sent
    dsimp only
    rw [waiting_setQueue there]
    by_cases same : s = t
    · subst same
      simp [takenBy, handledBy, Note.takenBy?, Note.handledBy?, waiting_of_queue there]
    · simp [takenBy, handledBy, Note.takenBy?, Note.handledBy?, same, Ne.symm same]

theorem balance_serve (t : SchedulerId) :
    c.waiting s ++ takenBy s (c.noted (.serve t)) =
      handledBy s (c.noted (.serve t)) ++ (c.act (.serve t)).waiting s := by
  rcases there : c.queue? t with - | (- | ⟨request, rest⟩)
  · exact balance_of_schedulers (by simp only [noted, there])
      (by simp only [act, dispatchOldest?, there]; rfl) s
  · exact balance_of_schedulers (by simp only [noted, there])
      (by simp only [act, dispatchOldest?, there]; rfl) s
  · have after : (c.act (.serve t)).waiting s = if s = t then rest else c.waiting s := by
      rw [act_serve_of_queue there,
        waiting_congr (schedulers_of_agenda (agenda_dispatch _ request)), waiting_setQueue there]
    rw [after]
    simp only [noted, there]
    by_cases same : s = t
    · subst same
      simp [takenBy, handledBy, Note.takenBy?, Note.handledBy?, waiting_of_queue there]
    · simp [takenBy, handledBy, Note.takenBy?, Note.handledBy?, same, Ne.symm same]

theorem balance_complete (v : VariableId) :
    c.waiting s ++ takenBy s (c.noted (.complete v)) =
      handledBy s (c.noted (.complete v)) ++ (c.act (.complete v)).waiting s := by
  rcases completed : c.completeProcessing v with ⟨d, result⟩
  cases result with
  | error e =>
    obtain rfl := completeProcessing_eq_error completed
    refine balance_of_schedulers ?_ (by simp only [act, completed]) s
    simp only [noted, completed]
    split
    · contradiction
    · rfl
  | ok done =>
    obtain ⟨w, a, queue, there, held, opened, rfl⟩ := completeProcessing_eq_ok completed
    have attached : c.attachment? v = some a := by simp [attachment?, there, held]
    have after : (c.act (.complete v)).waiting s =
        (c.setQueue a.scheduler (queue ++ [.complete a.record])).waiting s := by
      simp only [act, completed]
      rfl
    rw [after, waiting_setQueue opened]
    simp only [noted, attached, completed]
    by_cases same : s = a.scheduler
    · subst same
      simp [takenBy, handledBy, Note.takenBy?, Note.handledBy?, waiting_of_queue opened]
    · simp [takenBy, handledBy, Note.takenBy?, Note.handledBy?, same, Ne.symm same]

/-- **What waits and what is taken is what is handled and what waits afterwards.** -/
theorem balance_act (a : Action) :
    c.waiting s ++ takenBy s (c.noted a) = handledBy s (c.noted a) ++ (c.act a).waiting s := by
  cases a with
  | send t request => exact balance_send c s t request
  | serve t => exact balance_serve c s t
  | complete v => exact balance_complete c s v
  | process id | put id field value | store v value | report v alarm =>
    exact balance_of_schedulers rfl (schedulers_of_agenda (agenda_operate c (.act _) rfl)) s

theorem balance_perform (actions : List Action) :
    c.waiting s ++ takenBy s (c.notedAll actions) =
      handledBy s (c.notedAll actions) ++ (c.perform actions).waiting s := by
  induction actions generalizing c with
  | nil => exact List.append_nil _
  | cons a rest ih =>
    rw [notedAll, takenBy_append, handledBy_append, ← List.append_assoc, balance_act,
      List.append_assoc, ih, ← List.append_assoc]
    rfl

end Balance

/-- A scheduler that serves takes nothing. -/
theorem takenBy_serves (c : Controller) (s t : SchedulerId) (n : Nat) :
    takenBy s (c.notedAll (List.replicate n (.serve t))) = [] := by
  induction n generalizing c with
  | zero => rfl
  | succ n ih =>
    have first : takenBy s (c.noted (.serve t)) = [] := by
      simp only [noted]
      split <;> rfl
    rw [List.replicate_succ, notedAll, takenBy_append, first, ih]
    rfl

/-! ## Schedulers that are gone -/

/-- The scheduler was there and is gone. -/
def Gone (c : Controller) (s : SchedulerId) : Prop := c.schedulers[s.index]? = some none

section Gone
variable {c : Controller} {s : SchedulerId}

theorem Gone.queue? (gone : c.Gone s) : c.queue? s = none := by
  rw [Controller.queue?, gone]
  rfl

/-- The queues after an action: at most one is replaced, and that of an open scheduler. -/
theorem schedulers_act_cases (c : Controller) (a : Action) :
    (c.act a).schedulers = c.schedulers ∨
      ∃ t queue, (c.queue? t).isSome ∧
        (c.act a).schedulers = c.schedulers.set t.index (some queue) := by
  cases a with
  | send t request =>
    rcases act_send_cases c t request with e | ⟨queue, there, e⟩
    · exact .inl (by rw [e])
    · exact .inr ⟨t, queue ++ [request], by rw [there]; rfl, by rw [e]; rfl⟩
  | serve t =>
    rcases act_serve_cases c t with e | ⟨request, rest, there, e⟩
    · exact .inl (by rw [e])
    · refine .inr ⟨t, rest, by rw [there]; rfl, ?_⟩
      rw [e, schedulers_of_agenda (agenda_dispatch _ request)]
      rfl
  | complete v =>
    rcases act_complete_cases c v with e | ⟨w, a, queue, -, -, opened, e⟩
    · exact .inl (by rw [e])
    · exact .inr ⟨a.scheduler, queue ++ [.complete a.record], by rw [opened]; rfl, by rw [e]; rfl⟩
  | process id | put id field value | store v value | report v alarm =>
    exact .inl (schedulers_of_agenda (agenda_operate c (.act _) rfl))

theorem Gone.act (gone : c.Gone s) (a : Action) : (c.act a).Gone s := by
  unfold Gone
  rcases schedulers_act_cases c a with same | ⟨t, queue, opened, e⟩
  · rw [same, gone]
  · -- A queue is only replaced where there is one.
    have apart : t.index ≠ s.index := by
      intro same
      obtain rfl : t = s := by cases t; cases s; simp_all
      rw [gone.queue?] at opened
      contradiction
    rw [e, List.getElem?_set_ne apart, gone]

theorem Gone.noted (gone : c.Gone s) (a : Action) : ∀ n ∈ c.noted a, n.scheduler ≠ s := by
  rintro n hn rfl
  have opened := open_of_noted hn
  rw [gone.queue?] at opened
  contradiction

theorem Gone.perform (gone : c.Gone s) (actions : List Action) :
    (c.perform actions).Gone s ∧ ∀ n ∈ c.notedAll actions, n.scheduler ≠ s := by
  induction actions generalizing c with
  | nil => exact ⟨gone, fun n hn => absurd hn List.not_mem_nil⟩
  | cons a rest ih =>
    obtain ⟨later, silent⟩ := ih (gone.act a)
    refine ⟨later, fun n hn => ?_⟩
    rcases List.mem_append.1 hn with now | then_
    · exact gone.noted a n now
    · exact silent n then_

theorem gone_closeScheduler {t : SchedulerId} (gone : c.Gone s) : (c.closeScheduler t).Gone s := by
  simp only [Gone, closeScheduler, List.getElem?_set]
  split
  · rename_i same
    have lt := (List.getElem?_eq_some_iff.1 gone).1
    rw [same, if_pos lt]
  · exact gone

/-- **A scheduler that is gone stays gone, and nothing is noted about it.** -/
theorem Gone.occur (gone : c.Gone s) (o : Occurrence) :
    (c.occur o).Gone s ∧ ∀ n ∈ c.notes o, n.scheduler ≠ s := by
  have silent : ∀ n ∈ ([] : List Note), n.scheduler ≠ s := fun n hn => absurd hn List.not_mem_nil
  have kept {d : Controller} (same : d.schedulers = c.schedulers) : d.Gone s := by
    rw [Gone, same, gone]
  have scanned (list : ScanListId) : (c.requestScan list).2.Gone s ∧
      ∀ n ∈ (c.pruned list).notedAll (c.scans list), n.scheduler ≠ s := by
    rw [requestScan_eq_perform]
    exact Gone.perform (c := c.pruned list) gone _
  cases o with
  | operate op =>
    cases op with
    | act a => exact ⟨gone.act a, gone.noted a⟩
    | initialise id => exact ⟨kept (schedulers_initialise c id), silent⟩
    | _ => exact ⟨kept (schedulers_of_agenda (agenda_operate c _ rfl)), silent⟩
  | write id values => exact ⟨kept (schedulers_of_agenda (agenda_putArray c id values)), silent⟩
  | adopt | drop | openScanList | declare | surround => exact ⟨gone, silent⟩
  | openScheduler =>
    refine ⟨?_, silent⟩
    have lt := (List.getElem?_eq_some_iff.1 gone).1
    exact (List.getElem?_append_left lt).trans gone
  | run t =>
    rw [occur_run]
    exact gone.perform _
  | runAndClose t =>
    rw [occur_runAndClose]
    obtain ⟨served, noted⟩ := gone.perform (c.servings t)
    exact ⟨gone_closeScheduler served, noted⟩
  | close t => exact ⟨gone_closeScheduler gone, silent⟩
  | requestScan list => exact scanned list
  | requestScanOf v =>
    rw [occur_requestScanOf]
    simp only [notes]
    cases (c.variableAt? v).bind (·.scan) with
    | some list => exact scanned list
    | none => exact ⟨gone, silent⟩

theorem Gone.occurAll (gone : c.Gone s) (course : List Occurrence) :
    (c.occurAll course).Gone s ∧ ∀ n ∈ c.journal course, n.scheduler ≠ s := by
  induction course generalizing c with
  | nil => exact ⟨gone, fun n hn => absurd hn List.not_mem_nil⟩
  | cons o rest ih =>
    obtain ⟨next, now⟩ := gone.occur o
    obtain ⟨last, later⟩ := ih next
    refine ⟨last, fun n hn => ?_⟩
    rcases List.mem_append.1 hn with first | more
    · exact now n first
    · exact later n more

end Gone

/-! ## The balance of a course -/

section Course
variable (c : Controller) (s : SchedulerId)

/-- The balance of an occurrence.  If the scheduler goes, what waits is handled up to there. -/
inductive Balance (o : Occurrence) : Prop where
  | kept (balance : c.waiting s ++ takenBy s (c.notes o) =
      handledBy s (c.notes o) ++ (c.occur o).waiting s)
  | gone (gone : (c.occur o).Gone s)
      (handled : handledBy s (c.notes o) <+: c.waiting s ++ takenBy s (c.notes o))

/-- What waits is left as it is when another scheduler goes, or one that never was there. -/
theorem gone_or_waiting_closeScheduler (t : SchedulerId) :
    (c.closeScheduler t).Gone s ∨ (c.closeScheduler t).waiting s = c.waiting s := by
  by_cases same : t = s
  · subst same
    by_cases lt : t.index < c.schedulers.length
    · left
      simp [Gone, closeScheduler, lt]
    · right
      refine waiting_congr ?_ t
      exact List.set_eq_of_length_le (Nat.le_of_not_lt lt)
  · right
    have apart : t.index ≠ s.index := fun e => same (by cases t; cases s; simp_all)
    simp only [waiting, Controller.queue?, closeScheduler, List.getElem?_set_ne apart]

theorem waiting_newScheduler : c.newScheduler.2.waiting s = c.waiting s := by
  simp only [waiting, Controller.queue?, newScheduler, List.getElem?_append]
  split
  · rfl
  · rename_i beyond
    rw [List.getElem?_eq_none (Nat.le_of_not_lt beyond)]
    cases s.index - c.schedulers.length <;> rfl

/-- **Every occurrence is balanced.** -/
theorem balance_occur (o : Occurrence) : Balance c s o := by
  have unnoted {o : Occurrence} (none : c.notes o = [])
      (same : (c.occur o).waiting s = c.waiting s) : Balance c s o := by
    refine .kept ?_
    rw [none, same]
    exact List.append_nil _
  have scanned (list : ScanListId) :
      c.waiting s ++ takenBy s ((c.pruned list).notedAll (c.scans list)) =
        handledBy s ((c.pruned list).notedAll (c.scans list)) ++
          (c.requestScan list).2.waiting s := by
    rw [requestScan_eq_perform]
    exact balance_perform (c.pruned list) s (c.scans list)
  cases o with
  | operate op =>
    cases op with
    | act a => exact .kept (balance_act c s a)
    | initialise id => exact unnoted rfl (waiting_congr (schedulers_initialise c id) s)
    | _ => exact unnoted rfl (waiting_congr (schedulers_of_agenda (agenda_operate c _ rfl)) s)
  | write id values =>
    exact unnoted rfl (waiting_congr (schedulers_of_agenda (agenda_putArray c id values)) s)
  | adopt | drop | openScanList | declare | surround => exact unnoted rfl rfl
  | openScheduler => exact unnoted rfl (waiting_newScheduler c s)
  | run t =>
    refine .kept ?_
    rw [occur_run]
    exact balance_perform c s (c.servings t)
  | runAndClose t =>
    have served := balance_perform c s (c.servings t)
    rcases gone_or_waiting_closeScheduler (c.perform (c.servings t)) s t with gone | same
    · refine .gone (by rw [occur_runAndClose]; exact gone) ?_
      rw [notes, served]
      exact List.prefix_append ..
    · refine .kept ?_
      rw [occur_runAndClose, same]
      exact served
  | close t =>
    rcases gone_or_waiting_closeScheduler c s t with gone | same
    · exact .gone gone (List.nil_prefix)
    · exact unnoted rfl same
  | requestScan list => exact .kept (scanned list)
  | requestScanOf v =>
    refine .kept ?_
    rw [occur_requestScanOf, notes]
    cases (c.variableAt? v).bind (·.scan) with
    | some list => exact scanned list
    | none => exact List.append_nil _

/-- **What is handled in a course is the first part of what waited and was taken**, and the
rest of it waits in the end, if the scheduler is still there. -/
theorem balance_occurAll (course : List Occurrence) :
    handledBy s (c.journal course) <+: c.waiting s ++ takenBy s (c.journal course) ∧
      ∀ queue, (c.occurAll course).queue? s = some queue →
        c.waiting s ++ takenBy s (c.journal course) =
          handledBy s (c.journal course) ++ queue := by
  induction course generalizing c with
  | nil =>
    refine ⟨List.nil_prefix, fun queue there => ?_⟩
    rw [journal, ← waiting_of_queue there]
    exact List.append_nil _
  | cons o rest ih =>
    obtain ⟨handled, left⟩ := ih (c.occur o)
    rw [journal, takenBy_append, handledBy_append, ← List.append_assoc]
    cases balance_occur c s o with
    | kept balance =>
      rw [balance, List.append_assoc]
      refine ⟨(List.prefix_append_right_inj _).2 handled, fun queue there => ?_⟩
      rw [left queue there, List.append_assoc]
    | gone gone first =>
      -- Nothing more is noted, and no queue is left to be the rest.
      obtain ⟨later, silent⟩ := gone.occurAll rest
      obtain ⟨taken, nothing⟩ := nil_of_not_noted silent
      rw [taken, nothing, List.append_nil, List.append_nil]
      refine ⟨first, fun queue there => ?_⟩
      rw [occurAll_cons, later.queue?] at there
      contradiction

end Course

/-! ## The loop of a scheduler -/

/-- A scheduler that handles the oldest request as long as one waits makes so many rounds and
ends in the state. -/
structure Drains (c : Controller) (s : SchedulerId) (rounds : Nat) (d : Controller) : Prop where
  waits : ∀ i < rounds, (c.serve s i).waiting s ≠ []
  rests : ∀ i, rounds ≤ i → c.serve s i = d
  empty : d.waiting s = []

section Loop
variable {c : Controller} {s : SchedulerId} {queue : Queue}

/-- Each round takes the oldest request off the queue and puts none on it. -/
theorem queue?_serve (h : c.queue? s = some queue) (n : Nat) :
    (c.serve s n).queue? s = some (queue.drop n) := by
  induction n generalizing c queue with
  | zero => exact h
  | succ n ih =>
    cases queue with
    | nil =>
      simp only [serve, dispatchOldest?, h]
      rfl
    | cons request rest =>
      simp only [serve, dispatchOldest?, h]
      refine ih ?_
      rw [queue?_congr (schedulers_of_agenda (agenda_dispatch _ request)),
        queue?_setQueue_self _ _ _ (by rw [h]; rfl)]

/-- **The loop makes as many rounds as requests wait at its start.** -/
theorem drains_of_queue (h : c.queue? s = some queue) :
    c.Drains s queue.length (c.perform (c.servings s)) := by
  have ended : c.serve s queue.length = c.perform (c.servings s) := by
    rw [serve_eq_perform, servings, waiting_of_queue h]
  have left : (c.perform (c.servings s)).queue? s = some [] := by
    rw [← ended, queue?_serve h, List.drop_length]
  refine ⟨fun i lt => ?_, fun i le => ?_, waiting_of_queue left⟩
  · rw [waiting_of_queue (queue?_serve h i), ne_eq, List.drop_eq_nil_iff]
    exact Nat.not_le_of_lt lt
  · have resting : (c.perform (c.servings s)).dispatchOldest? s = none := by
      simp only [dispatchOldest?, left]
    obtain ⟨more, rfl⟩ := Nat.exists_eq_add_of_le le
    rw [serve_eq_perform, ← List.replicate_append_replicate, perform_append,
      ← serve_eq_perform c, ended]
    exact perform_serve_of_resting _ s resting more

/-- Nothing comes of a request to the scheduler. -/
structure Refuses (c : Controller) (s : SchedulerId) : Prop where
  send : ∀ request, c.send s request = .error {}
  complete : ∀ v a, c.attachment? v = some a → a.scheduler = s →
    c.completeProcessing v = (c, .error .schedulerClosed)
  scan : ∀ m members, m.scheduler = s → c.scanAll (m :: members) = c.scanAll members
  run : c.run s = none

theorem Gone.refuses (gone : c.Gone s) : c.Refuses s := by
  have refused (request : Request) : c.send s request = .error {} := by
    simp only [Controller.send, gone.queue?]
  refine ⟨refused, ?_, ?_, by simp only [Controller.run, gone.queue?]⟩
  · rintro v a attached rfl
    obtain ⟨w, there, held⟩ := Option.bind_eq_some_iff.1 attached
    simp only [completeProcessing, there, held, refused]
  · rintro m members rfl
    rw [scanAll, refused]

end Loop

/-- **Schedulers lose, repeat and reorder nothing, and both loops agree.**  In any course what a
scheduler has handled is the first part of what waited at its start and was taken in it, in the
same order.  As long as the scheduler is there the rest of it waits, and the next run handles
it all: it yields how many requests waited, it makes as many rounds, and the loop that ends
with the scheduler leaves the same state but for the scheduler.  A scheduler that is gone
refuses every request for good, to no effect. -/
theorem requests_in_order (c : Controller) (course : List Occurrence) (s : SchedulerId) :
    let d := c.occurAll course
    let accepted := c.waiting s ++ takenBy s (c.journal course)
    handledBy s (c.journal course) <+: accepted ∧
      (∀ queue, d.queue? s = some queue →
        accepted = handledBy s (c.journal course) ++ queue ∧
        handledBy s (c.journal (course ++ [.run s])) = accepted ∧
        handledBy s (c.journal (course ++ [.runAndClose s])) = accepted ∧
        ∃ e, d.run s = some (queue.length, e) ∧ d.Drains s queue.length e ∧
          d.serveAndClose s = some (e.closeScheduler s)) ∧
      (d.Gone s → ∀ later, (d.occurAll later).Refuses s ∧ takenBy s (d.journal later) = [] ∧
        handledBy s (d.journal later) = []) := by
  intro d accepted
  obtain ⟨handled, left⟩ := balance_occurAll c s course
  refine ⟨handled, fun queue there => ?_, fun gone later => ?_⟩
  · have rest := left queue there
    have served : handledBy s (d.notedAll (d.servings s)) = queue := by
      have balance := balance_perform d s (d.servings s)
      rw [(drains_of_queue there).empty, waiting_of_queue there, servings, takenBy_serves,
        List.append_nil, List.append_nil] at balance
      exact balance.symm
    refine ⟨rest, ?_, ?_, _, run_of_queue there, drains_of_queue there,
      serveAndClose_of_queue there⟩
    · rw [journal_append, handledBy_append, journal, journal, List.append_nil, notes, served]
      exact rest.symm
    · rw [journal_append, handledBy_append, journal, journal, List.append_nil, notes, served]
      exact rest.symm
  · obtain ⟨gone', silent⟩ := gone.occurAll later
    exact ⟨gone'.refuses, nil_of_not_noted silent⟩

/-- Two scans are handled and a completion waits.  If the scheduler runs next, it handles the
completion, and if it goes, it refuses all that follows. -/
theorem requests_of_asynchronousPair :
    let course := pairRun.map fun a => .operate (.act a)
    let d := asynchronousPair.occurAll course
    d.queue? ⟨0⟩ = some [.complete ⟨0⟩] ∧
      handledBy ⟨0⟩ (asynchronousPair.journal course) = [.scan ⟨0⟩, .scan ⟨1⟩] ∧
      handledBy ⟨0⟩ (asynchronousPair.journal (course ++ [.run ⟨0⟩])) =
        [.scan ⟨0⟩, .scan ⟨1⟩, .complete ⟨0⟩] ∧
      (∃ e, d.run ⟨0⟩ = some (1, e) ∧ d.Drains ⟨0⟩ 1 e) ∧
      ∀ later, ((d.occur (.close ⟨0⟩)).occurAll later).Refuses ⟨0⟩ := by
  intro course d
  have waits : d.queue? ⟨0⟩ = some [.complete ⟨0⟩] := by decide
  obtain ⟨-, opened, -⟩ := requests_in_order asynchronousPair course ⟨0⟩
  obtain ⟨-, served, -, e, run, drains, -⟩ := opened _ waits
  have accepted : asynchronousPair.waiting ⟨0⟩ ++ takenBy ⟨0⟩ (asynchronousPair.journal course) =
      [.scan ⟨0⟩, .scan ⟨1⟩, .complete ⟨0⟩] := by
    decide
  refine ⟨waits, by decide, served.trans accepted, ⟨e, run, drains⟩, fun later => ?_⟩
  obtain ⟨-, -, gone⟩ := requests_in_order asynchronousPair (course ++ [.close ⟨0⟩]) ⟨0⟩
  rw [occurAll_append] at gone
  exact (gone rfl later).1

end Controller

end ControlRecords
