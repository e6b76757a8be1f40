import Mathlib
import ControlRecords.Proofs.Occurrences

/-! # Scans of a scan list

A record on events joins the scan list of what it is connected to each time it is initialised,
and it leaves the list when it is dropped.  So what is on a list after any course is told by
who joined in the course and who is still there (`living_members_occurAll`), and a request
scans each record that is there as often as it joined (`scans_of_request`): once, if it was
initialised once, and more often otherwise. -/
namespace ControlRecords

/-- The record is initialised. -/
def Occurrence.initialises (id : RecordId) : Occurrence → Bool
  | operate (.initialise j) => j == id
  | _ => false

namespace Controller

/-! ## Joining -/

/-- The scan list that a record joins, if it is on events, and as which member. -/
def joining? (c : Controller) (id : RecordId) : Option (ScanListId × Member) :=
  (c.record? id).bind fun r =>
    match r.common.scan, c.scanListOf r, r.common.scheduler with
    | .event, some list, some scheduler =>
      (c.scanList? list).map fun _ => (list, ⟨id, scheduler⟩)
    | _, _, _ => none

/-- Who joins which scan list in an occurrence. -/
def enlists? (c : Controller) : Occurrence → Option (ScanListId × Member)
  | .operate (.initialise id) => (c.connected? id).bind (·.joining? id)
  | _ => none

/-- The new members of a scan list, if it is the one that is joined. -/
def newMembers (list : ScanListId) : Option (ScanListId × Member) → List Member
  | some (joined, m) => if joined = list then [m] else []
  | none => []

/-- Who joins a scan list in a course, in turn. -/
def joined (c : Controller) (list : ScanListId) : List Occurrence → List Member
  | [] => []
  | o :: rest => newMembers list (c.enlists? o) ++ (c.occur o).joined list rest

/-- How often a record joins a scan list in a course. -/
def joins (c : Controller) (list : ScanListId) (course : List Occurrence) (id : RecordId) : Nat :=
  ((c.joined list course).map (·.record)).count id

section Members
variable {c d : Controller} {list : ScanListId} {id : RecordId}

theorem members_congr (h : d.scanLists = c.scanLists) (list : ScanListId) :
    d.members list = c.members list := by
  rw [members, members, scanList?, scanList?, h]

theorem mem_newMembers {p : Option (ScanListId × Member)} {m : Member}
    (h : m ∈ newMembers list p) : p = some (list, m) := by
  unfold newMembers at h
  split at h
  · split at h
    · rename_i here
      rw [List.mem_singleton.1 h, here]
    · contradiction
  · contradiction

theorem members_setScanList {l : ScanListId} {members : ScanList}
    (there : c.scanList? l = some members) (members' : ScanList) (list : ScanListId) :
    (c.setScanList l members').members list = if l = list then members' else c.members list := by
  obtain ⟨i⟩ := l
  obtain ⟨j⟩ := list
  have lt := (List.getElem?_eq_some_iff.1 there).1
  by_cases same : i = j
  · subst same
    simp [Controller.members, scanList?, setScanList, lt]
  · simp [Controller.members, scanList?, setScanList, List.getElem?_set_ne same, same]

theorem members_pruned (c : Controller) (l list : ScanListId) :
    (c.pruned l).members list =
      if l = list then c.living (c.members list) else c.members list := by
  cases there : c.scanList? l with
  | some members =>
    rw [pruned, members_setScanList there]
    split
    · rename_i same
      rw [same]
    · rfl
  | none =>
    have beyond : c.scanLists.length ≤ l.index := List.getElem?_eq_none_iff.1 there
    have same : c.pruned l = c := by simp [pruned, setScanList, List.set_eq_of_length_le beyond]
    rw [same]
    split
    · rename_i here
      subst here
      rw [Controller.members, there]
      rfl
    · rfl

theorem members_joinScanList (c : Controller) (id : RecordId) (list : ScanListId) :
    (c.joinScanList id).members list = c.members list ++ newMembers list (c.joining? id) := by
  have unchanged : c.members list = c.members list ++ newMembers list none :=
    (List.append_nil _).symm
  unfold joinScanList joining?
  cases hr : c.record? id with
  | none => exact unchanged
  | some r =>
    rw [Option.bind_some]
    dsimp only
    rcases r.common.scan with - | -
    · exact unchanged
    · rcases c.scanListOf r with - | l
      · exact unchanged
      · rcases r.common.scheduler with - | scheduler
        · exact unchanged
        · cases there : c.scanList? l with
          | none => simpa only [there, Option.map_none] using unchanged
          | some members =>
            simp only [there]
            rw [members_setScanList there, Option.map_some, newMembers]
            split
            · rename_i same
              subst same
              rw [Controller.members, there, Option.getD_some]
            · exact (List.append_nil _).symm

/-- Who joins a list is a record that is there and is initialised, with its own scheduler. -/
theorem record_of_enlists {o : Occurrence} {m : Member} (h : c.enlists? o = some (list, m)) :
    o.initialises m.record = true ∧
      ∃ r, c.record? m.record = some r ∧ r.common.scheduler = some m.scheduler := by
  unfold enlists? at h
  split at h
  · rename_i id
    obtain ⟨d, connected, joins⟩ := Option.bind_eq_some_iff.1 h
    obtain ⟨s, hs, found⟩ := Option.bind_eq_some_iff.1 joins
    split at found
    · rename_i scheduler _ _ scheduled
      obtain ⟨_, -, same⟩ := Option.map_eq_some_iff.1 found
      obtain ⟨-, rfl⟩ := Prod.mk.inj same
      obtain ⟨r, hr, outline⟩ := (keeps_outline_of_connected connected).record_before hs
      have same : s.common.scheduler = r.common.scheduler :=
        congrArg (·.common.scheduler) outline
      exact ⟨beq_self_eq_true id, r, hr, same.symm.trans scheduled⟩
    · contradiction
  · contradiction

/-- The members of a list after an occurrence. -/
inductive MembersAfter (c : Controller) (o : Occurrence) (list : ScanListId) : Prop where
  | joined (members : (c.occur o).members list =
      c.members list ++ newMembers list (c.enlists? o))
  | pruned (members : (c.occur o).members list = c.living (c.members list))
      (joining : c.enlists? o = none)
      (living : ∀ id, ((c.occur o).record? id).isSome = (c.record? id).isSome)

variable (c list)

theorem membersAfter_initialise (id : RecordId) :
    (c.initialise id).1.members list =
      c.members list ++ newMembers list (c.enlists? (.operate (.initialise id))) := by
  cases h : c.connected? id with
  | none =>
    rw [members_congr (scanLists_of_agenda (agenda_initialise_of_not_connected h)), enlists?, h]
    exact (List.append_nil _).symm
  | some d =>
    rw [initialise_of_connected h,
      members_congr (scanLists_of_agenda (agenda_processInitially _ id)),
      members_joinScanList, members_congr (scanLists_of_agenda (agenda_of_connected h)), enlists?,
      h, Option.bind_some]

/-- A request takes those off its list that are gone. -/
theorem members_requestScan (l : ScanListId) :
    (c.requestScan l).2.members list =
      if l = list then c.living (c.members list) else c.members list := by
  rw [requestScan_eq_perform, ← members_pruned]
  exact members_congr (congrArg (·.1) (roster_perform (c.pruned l) _)) list

theorem isSome_record?_requestScan (id : RecordId) :
    ((c.requestScan list).2.record? id).isSome = (c.record? id).isSome := by
  have kept := congrArg Option.isSome (keeps_skeleton_requestScan c list id)
  rwa [Option.isSome_map, Option.isSome_map] at kept

theorem membersAfter_requestScan (l : ScanListId) : MembersAfter c (.requestScan l) list := by
  have members := members_requestScan c list l
  by_cases same : l = list
  · rw [if_pos same] at members
    exact .pruned members rfl (isSome_record?_requestScan c l)
  · rw [if_neg same] at members
    exact .joined (members.trans (List.append_nil _).symm)

/-- **Lists change when a record joins and when they are pruned.** -/
theorem membersAfter (o : Occurrence) : MembersAfter c o list := by
  have unchanged (o : Occurrence) (joining : c.enlists? o = none)
      (same : (c.occur o).scanLists = c.scanLists) : MembersAfter c o list := by
    refine .joined ?_
    rw [joining, members_congr same]
    exact (List.append_nil _).symm
  cases o with
  | operate op =>
    cases op with
    | act a => exact unchanged _ rfl (congrArg (·.1) (roster_act c a))
    | initialise id => exact .joined (membersAfter_initialise c list id)
    | _ => exact unchanged _ rfl (scanLists_of_agenda (agenda_operate c _ rfl))
  | write id values => exact unchanged _ rfl (scanLists_of_agenda (agenda_putArray c id values))
  | adopt | drop | openScheduler | declare | surround | close => exact unchanged _ rfl rfl
  | openScanList =>
    refine .joined ?_
    simp only [occur, newScanList, Controller.members, scanList?, List.getElem?_append]
    split
    · exact (List.append_nil _).symm
    · rename_i beyond
      rw [List.getElem?_eq_none (Nat.le_of_not_lt beyond)]
      cases list.index - c.scanLists.length <;> rfl
  | run s =>
    refine unchanged _ rfl ?_
    rw [occur_run]
    exact congrArg (·.1) (roster_perform c _)
  | runAndClose s =>
    refine unchanged _ rfl ?_
    rw [occur_runAndClose]
    exact congrArg (·.1) (roster_perform c _)
  | requestScan l => exact membersAfter_requestScan c list l
  | requestScanOf v =>
    have scan := occur_requestScanOf c v
    split at scan
    · rename_i l _
      cases membersAfter_requestScan c list l with
      | joined members => exact .joined (by rw [scan, members]; rfl)
      | pruned members _ living =>
        exact .pruned (by rw [scan, members]) rfl (by rw [scan]; exact living)
    · exact unchanged _ rfl (by rw [scan])

end Members

/-! ## Who is on a list after a course -/

/-- Every member of a scan list is in a place that was taken. -/
def Placed (c : Controller) : Prop :=
  ∀ list, ∀ m ∈ c.members list, m.record.index < c.records.length

section Course
variable {c : Controller} {list : ScanListId}

theorem living_append (members more : List Member) :
    c.living (members ++ more) = c.living members ++ c.living more :=
  List.filter_append ..

theorem living_living (members : List Member) : c.living (c.living members) = c.living members := by
  simp [living, List.filter_filter]

theorem mem_living {members : List Member} {m : Member} :
    m ∈ c.living members ↔ m ∈ members ∧ (c.record? m.record).isSome :=
  List.mem_filter

/-- No record that was dropped comes back in a course, and none takes its place. -/
theorem outline_of_occurAll {id : RecordId} {s : Record} (course : List Occurrence)
    (made : id.index < c.records.length) (hs : (c.occurAll course).record? id = some s) :
    ∃ r, c.record? id = some r ∧ s.outline = r.outline := by
  induction course generalizing c with
  | nil => exact ⟨s, hs, rfl⟩
  | cons o rest ih =>
    obtain ⟨q, hq, later⟩ := ih (Nat.lt_of_lt_of_le made (length_records_occur c o)) hs
    obtain ⟨r, hr, first⟩ := outline_of_occur o made hq
    exact ⟨r, hr, later.trans first⟩

/-- Whoever is gone is not there later. -/
theorem living_later {members : List Member} (course : List Occurrence)
    (placed : ∀ m ∈ members, m.record.index < c.records.length) :
    (c.occurAll course).living (c.living members) = (c.occurAll course).living members := by
  rw [living, living, living, List.filter_filter]
  refine List.filter_congr fun m hm => ?_
  cases later : (c.occurAll course).record? m.record with
  | none => rfl
  | some s =>
    obtain ⟨r, hr, -⟩ := outline_of_occurAll course (placed m hm) later
    rw [hr]
    rfl

theorem lt_of_newMembers {o : Occurrence} {m : Member}
    (h : m ∈ newMembers list (c.enlists? o)) : m.record.index < c.records.length := by
  obtain ⟨-, r, hr, -⟩ := record_of_enlists (mem_newMembers h)
  exact record?_isSome_lt (by rw [hr]; rfl)

theorem Placed.append (placed : c.Placed) (list : ScanListId) (o : Occurrence) :
    ∀ m ∈ c.members list ++ newMembers list (c.enlists? o), m.record.index < c.records.length := by
  intro m hm
  rcases List.mem_append.1 hm with old | new
  · exact placed list m old
  · exact lt_of_newMembers new

theorem Placed.occur (placed : c.Placed) (o : Occurrence) : (c.occur o).Placed := by
  intro list m hm
  refine Nat.lt_of_lt_of_le ?_ (length_records_occur c o)
  cases membersAfter c list o with
  | joined members =>
    rw [members] at hm
    exact placed.append list o m hm
  | pruned members =>
    rw [members] at hm
    exact placed list m (mem_living.1 hm).1

/-- Up to who is gone, a list loses nobody in an occurrence and gains who joins. -/
theorem living_members_occur (c : Controller) (list : ScanListId) (o : Occurrence) :
    (c.occur o).living ((c.occur o).members list) =
      (c.occur o).living (c.members list ++ newMembers list (c.enlists? o)) := by
  cases membersAfter c list o with
  | joined members => rw [members]
  | pruned members joining living =>
    have same : (c.occur o).living = c.living := by
      funext members
      simp only [Controller.living, living]
    rw [members, joining, same, newMembers, List.append_nil, living_living]

/-- **Who is there and on a list after a course was on it or joined it.** -/
theorem living_members_occurAll (placed : c.Placed) (list : ScanListId)
    (course : List Occurrence) :
    (c.occurAll course).living ((c.occurAll course).members list) =
      (c.occurAll course).living (c.members list ++ c.joined list course) := by
  induction course generalizing c with
  | nil => rw [occurAll_nil, joined, List.append_nil]
  | cons o rest ih =>
    have placed' : ∀ m ∈ c.members list ++ newMembers list (c.enlists? o),
        m.record.index < (c.occur o).records.length :=
      fun m hm => Nat.lt_of_lt_of_le (placed.append list o m hm) (length_records_occur c o)
    -- Whom the first occurrence took off the list is not there at the end either.
    have first : ((c.occur o).occurAll rest).living ((c.occur o).members list) =
        ((c.occur o).occurAll rest).living (c.members list ++ newMembers list (c.enlists? o)) := by
      rw [← living_later rest ((placed.occur o) list), living_members_occur,
        living_later rest placed']
    rw [occurAll_cons, ih (placed.occur o), living_append, first, ← living_append, joined,
      List.append_assoc]

/-- Who joined with a scheduler is processed by it as long as it is there. -/
theorem scheduler_of_joined {course : List Occurrence} {m : Member}
    (h : m ∈ c.joined list course) {s : Record}
    (hs : (c.occurAll course).record? m.record = some s) :
    s.common.scheduler = some m.scheduler := by
  induction course generalizing c with
  | nil => contradiction
  | cons o rest ih =>
    rcases List.mem_append.1 h with first | later
    · obtain ⟨-, r, hr, scheduled⟩ := record_of_enlists (mem_newMembers first)
      obtain ⟨q, hq, outline⟩ := outline_of_occurAll (o :: rest)
        (record?_isSome_lt (by rw [hr]; rfl)) hs
      obtain rfl := Option.some.inj (hr.symm.trans hq)
      have same : s.common.scheduler = r.common.scheduler :=
        congrArg (·.common.scheduler) outline
      exact same.trans scheduled
    · exact ih later hs

theorem count_newMembers_le (c : Controller) (list : ScanListId) (o : Occurrence)
    (id : RecordId) : ((newMembers list (c.enlists? o)).map (·.record)).count id ≤
      if o.initialises id then 1 else 0 := by
  cases h : c.enlists? o with
  | none => exact Nat.zero_le _
  | some p =>
    obtain ⟨l, m⟩ := p
    dsimp only [newMembers]
    split
    · by_cases same : m.record = id
      · rw [← same, (record_of_enlists h).1, List.map_singleton, List.count_singleton_self]
        exact Nat.le_refl _
      · rw [List.map_singleton, List.count_singleton, if_neg (by simpa using same)]
        exact Nat.zero_le _
    · exact Nat.zero_le _

/-- A record joins at most as often as it is initialised. -/
theorem joins_le_initialisations (c : Controller) (list : ScanListId) (course : List Occurrence)
    (id : RecordId) : c.joins list course id ≤ course.countP (·.initialises id) := by
  induction course generalizing c with
  | nil => exact Nat.le_refl _
  | cons o rest ih =>
    have first := count_newMembers_le c list o id
    rw [joins, joined, List.map_append, List.count_append, List.countP_cons]
    have later := ih (c.occur o)
    rw [joins] at later
    omega

end Course

/-! ## Requests for a scan -/

/-- How many requests wait, for all schedulers together. -/
def backlog (c : Controller) : Nat := (c.schedulers.map fun q => (q.getD []).length).sum

/-- A scan of the record is taken: the record is there, and its scheduler is open. -/
def Reaches (c : Controller) (id : RecordId) (s : SchedulerId) : Prop :=
  (∃ r, c.record? id = some r ∧ r.common.scheduler = some s) ∧ (c.queue? s).isSome

section Scans
variable {c d : Controller} {s : SchedulerId} {request : Request}

theorem sum_map_set {α : Type} (f : α → Nat) (y : α) {x : α} :
    ∀ {l : List α} {i : Nat}, l[i]? = some x →
      ((l.set i y).map f).sum + f x = (l.map f).sum + f y
  | [], _, h => by simp at h
  | a :: l, 0, h => by
    obtain rfl : a = x := by simpa using h
    simp only [List.set_cons_zero, List.map_cons, List.sum_cons]
    omega
  | a :: l, i + 1, h => by
    have ih := sum_map_set f y (l := l) (i := i) (by simpa using h)
    simp only [List.set_cons_succ, List.map_cons, List.sum_cons]
    omega

theorem backlog_of_send (h : c.send s request = .ok d) : d.backlog = c.backlog + 1 := by
  obtain ⟨queue, there, rfl⟩ := send_eq_ok h
  have here : c.schedulers[s.index]? = some (some queue) := Option.join_eq_some_iff.1 there
  have sum := sum_map_set (fun q : Option Queue => (q.getD []).length)
    (some (queue ++ [request])) here
  simp only [Option.getD_some, List.length_append, List.length_singleton] at sum
  simp only [backlog, setQueue]
  omega

/-- **A scan list is scanned in turn**, each member by its own scheduler. -/
theorem queue?_scanAll (c : Controller) (members : List Member) (s : SchedulerId) :
    (c.scanAll members).2.queue? s = (c.queue? s).map
      (· ++ ((members.filter (·.scheduler = s)).map (·.record)).map .scan) := by
  induction members generalizing c with
  | nil => simp [scanAll]
  | cons m rest ih =>
    unfold scanAll
    split
    · rename_i d sent
      dsimp only
      rw [ih d, queue?_of_send sent, Option.map_map]
      congr 1
      funext queue
      by_cases mine : s = m.scheduler
      · simp [mine]
      · simp [mine, Ne.symm mine]
    · rename_i refused
      rw [ih c]
      by_cases mine : m.scheduler = s
      · rw [← mine, send_eq_error refused]
        rfl
      · simp [mine]

/-- The members whose schedulers are open are scanned. -/
theorem scanAll_fst (c : Controller) (members : List Member) :
    (c.scanAll members).1 =
      (members.filter fun m => (c.queue? m.scheduler).isSome).length := by
  induction members generalizing c with
  | nil => rfl
  | cons m rest ih =>
    unfold scanAll
    split
    · rename_i d sent
      obtain ⟨queue, there, -⟩ := send_eq_ok sent
      have same : ∀ t, (d.queue? t).isSome = (c.queue? t).isSome := fun t => by
        rw [queue?_of_send sent, Option.isSome_map]
      dsimp only
      rw [ih d, List.filter_cons_of_pos (by rw [there]; rfl), List.length_cons]
      simp only [same]
    · rename_i refused
      rw [ih c, List.filter_cons_of_neg (by rw [send_eq_error refused]; simp)]

theorem backlog_scanAll (c : Controller) (members : List Member) :
    (c.scanAll members).2.backlog = c.backlog + (c.scanAll members).1 := by
  induction members generalizing c with
  | nil => rfl
  | cons m rest ih =>
    unfold scanAll
    split
    · rename_i d sent
      dsimp only
      rw [ih d, backlog_of_send sent]
      omega
    · exact ih c

variable (c)

/-- **A request scans the members that are there in turn**, each by its own scheduler. -/
theorem queue?_requestScan (list : ScanListId) (s : SchedulerId) :
    (c.requestScan list).2.queue? s = (c.queue? s).map
      (· ++ (((c.living (c.members list)).filter (·.scheduler = s)).map (·.record)).map .scan) := by
  rw [requestScan_eq_scanAll]
  exact queue?_scanAll (c.pruned list) _ s

theorem requestScan_fst (list : ScanListId) :
    (c.requestScan list).1 =
      ((c.living (c.members list)).filter fun m => (c.queue? m.scheduler).isSome).length := by
  rw [requestScan_eq_scanAll]
  exact scanAll_fst (c.pruned list) _

theorem backlog_requestScan (list : ScanListId) :
    (c.requestScan list).2.backlog = c.backlog + (c.requestScan list).1 := by
  rw [requestScan_eq_scanAll]
  exact backlog_scanAll (c.pruned list) _

end Scans

/-! ## How often a record is scanned -/

section Scanned
variable {members : List Member} {p : Member → Bool} {id : RecordId}

theorem count_records_filter (alike : ∀ m ∈ members, m.record = id → p m = true) :
    ((members.filter p).map (·.record)).count id = (members.map (·.record)).count id := by
  rw [List.count_eq_countP, List.count_eq_countP, List.countP_map, List.countP_map,
    List.countP_filter]
  refine List.countP_congr fun m hm => ?_
  by_cases mine : m.record = id
  · simp [mine, alike m hm mine]
  · simp [mine]

theorem count_records_filter_eq_zero (none : ∀ m ∈ members, m.record = id → p m = false) :
    ((members.filter p).map (·.record)).count id = 0 := by
  refine List.count_eq_zero.2 fun found => ?_
  obtain ⟨m, hm, mine⟩ := List.mem_map.1 found
  obtain ⟨there, kept⟩ := List.mem_filter.1 hm
  rw [none m there mine] at kept
  contradiction

variable {d : Controller} {s : SchedulerId}
  (own : ∀ m ∈ members, ∀ r, d.record? m.record = some r → r.common.scheduler = some m.scheduler)
include own

/-- A record that is scanned by a scheduler is so as often as it is a member. -/
theorem count_scans_of_reaches (reaches : d.Reaches id s) :
    (((d.living members).filter (·.scheduler = s)).map (·.record)).count id =
      (members.map (·.record)).count id := by
  obtain ⟨⟨r, hr, scheduled⟩, -⟩ := reaches
  rw [living, List.filter_filter]
  refine count_records_filter fun m hm mine => ?_
  rw [← mine] at hr
  have same : m.scheduler = s := Option.some.inj ((own m hm r hr).symm.trans scheduled)
  simp [same, hr]

theorem count_scans_of_not_reaches (opened : (d.queue? s).isSome) (spared : ¬d.Reaches id s) :
    (((d.living members).filter (·.scheduler = s)).map (·.record)).count id = 0 := by
  rw [living, List.filter_filter]
  refine count_records_filter_eq_zero fun m hm mine => ?_
  cases hr : d.record? m.record with
  | none => simp
  | some r =>
    -- If the scheduler of the member were this one, the record would be scanned by it.
    have other : m.scheduler ≠ s := by
      rintro rfl
      exact spared ⟨⟨r, mine ▸ hr, own m hm r hr⟩, opened⟩
    simp [other]

/-- The records that are scanned are those for which a scan is taken. -/
theorem mem_scanned_iff :
    id ∈ ((d.living members).filter fun m => (d.queue? m.scheduler).isSome).map (·.record) ↔
      id ∈ members.map (·.record) ∧ ∃ s, d.Reaches id s := by
  constructor
  · intro found
    obtain ⟨m, hm, rfl⟩ := List.mem_map.1 found
    obtain ⟨there, opened⟩ := List.mem_filter.1 hm
    obtain ⟨member, alive⟩ := mem_living.1 there
    obtain ⟨r, hr⟩ := Option.isSome_iff_exists.1 alive
    exact ⟨List.mem_map_of_mem member, m.scheduler, ⟨r, hr, own m member r hr⟩, opened⟩
  · rintro ⟨found, s, ⟨r, hr, scheduled⟩, opened⟩
    obtain ⟨m, member, rfl⟩ := List.mem_map.1 found
    have same : m.scheduler = s := Option.some.inj ((own m member r hr).symm.trans scheduled)
    refine List.mem_map_of_mem (List.mem_filter.2 ⟨mem_living.2 ⟨member, by rw [hr]; rfl⟩, ?_⟩)
    rw [same, opened]

/-- A record for which a scan is taken is scanned as often as it is a member. -/
theorem count_scanned (taken : ∃ s, d.Reaches id s) :
    (((d.living members).filter fun m => (d.queue? m.scheduler).isSome).map
      (·.record)).count id = (members.map (·.record)).count id := by
  obtain ⟨s, ⟨r, hr, scheduled⟩, opened⟩ := taken
  rw [living, List.filter_filter]
  refine count_records_filter fun m hm mine => ?_
  rw [← mine] at hr
  have same : m.scheduler = s := Option.some.inj ((own m hm r hr).symm.trans scheduled)
  simp [same, hr, opened]

/-- The records for which a scan is taken, and how many scans that makes. -/
theorem exists_due :
    ∃ due : Finset RecordId,
      (∀ id, id ∈ due ↔ 0 < (members.map (·.record)).count id ∧ ∃ s, d.Reaches id s) ∧
      ((d.living members).filter fun m => (d.queue? m.scheduler).isSome).length =
        ∑ id ∈ due, (members.map (·.record)).count id ∧
      (((d.living members).filter fun m => (d.queue? m.scheduler).isSome).length = due.card ↔
        ∀ id ∈ due, (members.map (·.record)).count id = 1) := by
  let scanned := ((d.living members).filter fun m => (d.queue? m.scheduler).isSome).map (·.record)
  have count : ((d.living members).filter fun m => (d.queue? m.scheduler).isSome).length =
      scanned.length := by
    rw [List.length_map]
  have mem (id : RecordId) : id ∈ scanned.toFinset ↔
      0 < (members.map (·.record)).count id ∧ ∃ s, d.Reaches id s := by
    rw [List.mem_toFinset, mem_scanned_iff own, List.count_pos_iff]
  have total : scanned.length = ∑ id ∈ scanned.toFinset, (members.map (·.record)).count id := by
    rw [← List.sum_toFinset_count_eq_length]
    exact Finset.sum_congr rfl fun id hid => count_scanned own ((mem id).1 hid).2
  have least : ∀ id ∈ scanned.toFinset, 1 ≤ (members.map (·.record)).count id :=
    fun id hid => ((mem id).1 hid).1
  refine ⟨scanned.toFinset, mem, count.trans total, ?_⟩
  rw [count, total, Finset.card_eq_sum_ones, eq_comm, Finset.sum_eq_sum_iff_of_le least]
  exact forall₂_congr fun _ _ => eq_comm

end Scanned

/-- **A request scans each record as often as it has joined the list.**  No scan list has
members before the course.  For each scheduler that is open, the scans of a record that the
request adds to its queue are as many as there were initialisations by which the record joined
the list, if the record is there and is processed by the scheduler, and none otherwise.  The
request yields how many requests it queued.  They are one for each record exactly when each
has joined once, which is so if no record is initialised more than once.  Afterwards the list
has lost the records that are gone and no other, and has those that joined and are there. -/
theorem scans_of_request {c : Controller} (vacant : ∀ list, c.members list = [])
    (course : List Occurrence) (list : ScanListId) :
    let d := c.occurAll course
    let n := (d.requestScan list).1
    let e := (d.requestScan list).2
    let joins := c.joins list course
    (∀ s queue, d.queue? s = some queue → ∃ ids : List RecordId,
      e.queue? s = some (queue ++ ids.map .scan) ∧
        ∀ id, (d.Reaches id s → ids.count id = joins id) ∧
          (¬d.Reaches id s → ids.count id = 0)) ∧
    (∀ s, d.queue? s = none → e.queue? s = none) ∧
    e.backlog = d.backlog + n ∧
    (∃ due : Finset RecordId, (∀ id, id ∈ due ↔ 0 < joins id ∧ ∃ s, d.Reaches id s) ∧
      n = ∑ id ∈ due, joins id ∧ (n = due.card ↔ ∀ id ∈ due, joins id = 1)) ∧
    (∀ m, m ∈ e.members list ↔ m ∈ d.members list ∧ (e.record? m.record).isSome) ∧
    (∀ id, (∃ m ∈ e.members list, m.record = id) ↔ 0 < joins id ∧ (e.record? id).isSome) ∧
    ∀ id, joins id ≤ course.countP (·.initialises id) := by
  intro d n e joins
  have placed : c.Placed := fun list m hm => by rw [vacant] at hm; contradiction
  have there : d.living (d.members list) = d.living (c.joined list course) := by
    have law := living_members_occurAll placed list course
    rwa [vacant, List.nil_append] at law
  have own : ∀ m ∈ c.joined list course, ∀ r, d.record? m.record = some r →
      r.common.scheduler = some m.scheduler := fun m hm r hr => scheduler_of_joined hm hr
  have queues (s : SchedulerId) : e.queue? s = (d.queue? s).map (· ++
      (((d.living (c.joined list course)).filter (·.scheduler = s)).map (·.record)).map .scan) := by
    rw [← there]
    exact queue?_requestScan d list s
  have left (m : Member) :
      m ∈ e.members list ↔ m ∈ d.members list ∧ (e.record? m.record).isSome := by
    rw [members_requestScan, if_pos rfl, isSome_record?_requestScan, mem_living]
  refine ⟨fun s queue opened => ?_, fun s gone => by rw [queues, gone, Option.map_none],
    backlog_requestScan d list, ?_, left, fun id => ?_, joins_le_initialisations c list course⟩
  · refine ⟨_, by rw [queues, opened, Option.map_some], fun id => ⟨?_, ?_⟩⟩
    · exact count_scans_of_reaches own
    · exact count_scans_of_not_reaches own (by rw [opened]; rfl)
  · have count : n = ((d.living (c.joined list course)).filter fun m =>
        (d.queue? m.scheduler).isSome).length := by
      rw [← there]
      exact requestScan_fst d list
    rw [count]
    exact exists_due own
  · have joined : 0 < joins id ↔ ∃ m ∈ c.joined list course, m.record = id :=
      List.count_pos_iff.trans List.mem_map
    rw [members_requestScan, if_pos rfl, there, isSome_record?_requestScan, joined]
    constructor
    · rintro ⟨m, hm, rfl⟩
      obtain ⟨member, alive⟩ := mem_living.1 hm
      exact ⟨⟨m, member, rfl⟩, alive⟩
    · rintro ⟨⟨m, member, rfl⟩, alive⟩
      exact ⟨m, mem_living.2 ⟨member, alive⟩, rfl⟩

/-- A record on events that reads a variable with a scan list. -/
def ticking : Controller :=
  let (s, c) := ({} : Controller).newScheduler
  let (list, c) := c.newScanList
  let c := (c.registerGroup "g" [{ value := .ulong 5, scan := some list }]).1
  (c.adopt ⟨{ name := "reader", scan := .event }, .hardware ⟨0, 0, "g"⟩,
    .scalar .shared (.longin 0)⟩ (some s)).2

/-- If the record is initialised once, one scan is requested for it, and the driver is told of
one. -/
theorem scans_of_ticking :
    let course := [.openScheduler, .operate (.initialise ⟨0⟩)]
    let d := ticking.occurAll course
    (∀ list, ticking.members list = []) ∧ ∃ due : Finset RecordId,
      (∀ id, id ∈ due ↔ 0 < ticking.joins ⟨0⟩ course id ∧ ∃ s, d.Reaches id s) ∧
        (d.requestScan ⟨0⟩).1 = due.card ∧ ⟨0⟩ ∈ due := by
  intro course d
  have vacant : ∀ list, ticking.members list = [] := by
    rintro ⟨_ | i⟩
    · rfl
    · rfl
  obtain ⟨-, -, -, ⟨due, mem, -, exact_when⟩, -, -, once⟩ := scans_of_request vacant course ⟨0⟩
  refine ⟨vacant, due, mem, exact_when.2 fun id hid => ?_, (mem ⟨0⟩).2 ⟨by decide, ⟨0⟩, ?_⟩⟩
  · have initialised : course.countP (·.initialises id) ≤ 1 := by
      simp only [course, List.countP_cons, List.countP_nil, Occurrence.initialises]
      split <;> simp
    have joined := ((mem id).1 hid).1
    have atMost := once id
    omega
  · exact ⟨⟨_, rfl, by decide⟩, by decide⟩

/-- If it is initialised twice, one request has it scanned twice. -/
theorem scanned_twice_after_second_initialisation :
    let d := ticking.occurAll [.operate (.initialise ⟨0⟩), .operate (.initialise ⟨0⟩)]
    d.records.length = 1 ∧ (d.requestScan ⟨0⟩).1 = 2 ∧
      (d.requestScan ⟨0⟩).2.queue? ⟨0⟩ = some [.scan ⟨0⟩, .scan ⟨0⟩] := by
  decide

end Controller

end ControlRecords
