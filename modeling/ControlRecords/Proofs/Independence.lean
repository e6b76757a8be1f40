import ControlRecords.Proofs.Footprint

/-! # Scans that do not depend on each other

Records whose regions lie apart do not notice each other: a pass of one changes nothing that a
pass of the other reads or writes.  All that two of them may share is the writer of an archive,
which may have no room for what the second one saves.  So passes are compared with the answers
of the writers given, and up to what the writers keep (`Controller.settled`): two passes with
given answers can be exchanged (`passed_comm`), and a run of scans is such passes, one after the
other, with the answers that the writers give on the way (`settled_dispatchAll`).  Two runs leave
the same behind if they are runs of the same scans in different orders, and each record meets
with the same answers in both of them (`run_perm`).  That is so whenever the writers have room
for everything (`repliesTo_of_room`); a writer without room makes the order matter
(`order_matters_without_room`).

What is left behind is compared as a whole: records, variables, register memory, cells,
arrays in storage, and files as they are once everything that the writers took is written. -/
namespace ControlRecords

namespace Archive.Writer

/-- A writer with this answer. -/
def replying : Except ArchiveError Unit → Writer
  | .ok () => {}
  | .error .writerStopped => { running := false }
  | .error _ => { waiting := depth }

@[simp] theorem reply_replying (w : Writer) : (replying w.offer.2).offer.2 = w.offer.2 := by
  unfold offer
  cases w.takes <;> cases w.running <;> rfl

/-- A writer takes what it has room for. -/
theorem offer_of_room {w : Writer} (running : w.running = true) {n : Nat}
    (room : w.waiting + (n + 1) ≤ depth) :
    w.offer.2 = .ok () ∧ w.offer.1.running = true ∧ w.offer.1.waiting + n ≤ depth := by
  have backlog : w.backlog ≤ w.waiting := Nat.sub_le ..
  have takes : w.takes = true := by
    simp only [Writer.takes, running, Bool.true_and, decide_eq_true_eq]
    omega
  simp only [offer, takes, if_true, true_and]
  exact ⟨running, by omega⟩

end Archive.Writer

namespace Controller

/-! ## Writers -/

/-- Every archive has this writer. -/
def withWriters (c : Controller) (w : Archive.Writer) : Controller :=
  { c with archives := c.archives.map ({ · with writer := w }) }

/-- The state without what its writers keep. -/
def settled (c : Controller) : Controller := c.withWriters {}

section Writers
variable (c : Controller) (w : Archive.Writer)

@[simp] theorem withWriters_withWriters (x : Archive.Writer) :
    (c.withWriters w).withWriters x = c.withWriters x := by
  simp only [withWriters, List.map_map]
  rfl

theorem archive?_withWriters (id : ArchiveId) :
    (c.withWriters w).archive? id = (c.archive? id).map ({ · with writer := w }) := by
  simp [archive?, withWriters]

theorem alike_withWriters : c.Alike (c.withWriters w) := by
  refine ⟨rfl, fun id absent => ?_, fun id archive found => ?_⟩
  · rw [archive?_withWriters, absent, Option.map_none]
  · refine ⟨{ archive with writer := w }, ?_, rfl, fun _ => rfl⟩
    rw [archive?_withWriters, found, Option.map_some]

/-- Writers that answer as the record's own writer does. -/
theorem reply_withWriters {r : Record} {a : Except Archive.ArchiveError Unit}
    (same : c.reply r = a) : (c.withWriters (.replying a)).reply r = c.reply r := by
  unfold reply at same ⊢
  split at same
  · rename_i id _ b _ _
    rw [archive?_withWriters]
    cases found : c.archive? id with
    | none => rfl
    | some x =>
      rw [found] at same
      simp only [Archive.Vault.reply] at same
      simp only [Option.map_some, Archive.Vault.reply]
      cases persists : b.persists with
      | false => rfl
      | true =>
        rw [persists] at same
        rw [← same]
        exact x.writer.reply_replying
  · rfl

theorem write_withWriters (x : Write) : (c.withWriters w).write x = (c.write x).withWriters w := by
  cases x with
  | slice id array start count elements =>
    have same : (c.archives.map ({ · with writer := w })).modify id.index
        (·.replace array start count elements) =
          (c.archives.modify id.index (·.replace array start count elements)).map
            ({ · with writer := w }) := by
      refine List.ext_getElem? fun i => ?_
      simp only [List.getElem?_map, List.getElem?_modify]
      cases c.archives[i]? with
      | none => rfl
      | some x => by_cases same : id.index = i <;> simp [same, Archive.replace]
    exact congrArg ({ c with archives := · }) same
  | _ => rfl

theorem writeAll_withWriters (ws : List Write) :
    (c.withWriters w).writeAll ws = (c.writeAll ws).withWriters w := by
  induction ws generalizing c with
  | nil => rfl
  | cons x rest ih => rw [writeAll_cons, writeAll_cons, write_withWriters, ih]

theorem asked_withWriters (r : Record) : (c.asked r).withWriters w = c.withWriters w := by
  unfold asked
  split
  · rename_i id _ b _ _
    have same : (c.archives.modify id.index (·.asked b)).map ({ · with writer := w }) =
        c.archives.map ({ · with writer := w }) := by
      refine map_modify_of_same (fun x => ?_) c.archives _
      unfold Archive.asked
      split <;> rfl
    exact congrArg ({ c with archives := · }) same
  · rfl

@[simp] theorem settled_withWriters : (c.withWriters w).settled = c.settled :=
  withWriters_withWriters c w {}

@[simp] theorem withWriters_settled : c.settled.withWriters w = c.withWriters w :=
  withWriters_withWriters c {} w

@[simp] theorem settled_settled : c.settled.settled = c.settled := withWriters_settled c {}

theorem settled_writeAll (ws : List Write) : (c.writeAll ws).settled = c.settled.writeAll ws :=
  (writeAll_withWriters c {} ws).symm

theorem settled_asked (r : Record) : (c.asked r).settled = c.settled := asked_withWriters c {} r

theorem settled_setRecord (id : RecordId) (r : Record) :
    (c.setRecord id r).settled = c.settled.setRecord id r := rfl

end Writers

section Answered
variable {c : Controller} {r : Record} {w : Archive.Writer}
  (same : (c.withWriters w).reply r = c.reply r)
include same

/-- Writers with the same answer change nothing that the next pass writes. -/
theorem writes_withWriters : (c.withWriters w).writes r = c.writes r := by
  cases route r with
  | register body bound | «variable» body bound =>
    obtain ⟨t, prepared⟩ := Record.body_prepare body
    simp only [writes, prepared, bound]
    rfl
  | archive body bound => exact (alike_withWriters c w).writes same body bound
  | nowhere writes _ _ => rw [writes, writes]

/-- Nor do they change what becomes of the record. -/
theorem after_withWriters : (c.withWriters w).after r = c.after r := by
  cases route r with
  | register body _ | «variable» body _ =>
    simp only [after, target, body]
    rfl
  | archive body bound => exact (alike_withWriters c w).after same body bound
  | nowhere _ _ exchange =>
    refine Record.process_congr ?_
    rw [exchange, exchange]
    rfl

end Answered

/-! ## Passes with given answers -/

/-- The regions to which the record with an identity is connected. -/
def regionsOf (c : Controller) (id : RecordId) : List Region :=
  match c.record? id with
  | some r => c.regions r
  | none => []

/-- Two records are connected to regions that have nothing in common. -/
def Independent (c : Controller) (i j : RecordId) : Prop :=
  ∀ p ∈ c.regionsOf i, ∀ q ∈ c.regionsOf j, p.Apart q

theorem regions_of_skeleton {r s : Record} (c : Controller) (h : s.skeleton = r.skeleton) :
    c.regions s = c.regions r := by
  have told : ∀ r : Record, c.regions r = c.regions r.skeleton := by
    intro r
    obtain ⟨⟨_, _, _, _, _, _, _, binding, _, _, _⟩, _, body⟩ := r
    cases body with
    | scalar support s => cases support <;> cases binding <;> rfl
    | array id a => cases binding <;> rfl
  rw [told s, told r, h]

/-- A record is connected to the same regions in states that look alike. -/
theorem Alike.regionsOf {c d : Controller} (h : c.Alike d) (kept : Keeps Record.skeleton c d)
    (j : RecordId) : d.regionsOf j = c.regionsOf j := by
  unfold Controller.regionsOf
  cases there : c.record? j with
  | none =>
    have gone := kept j
    rw [there] at gone
    rw [Option.map_eq_none_iff.1 gone]
  | some r =>
    obtain ⟨s, there', same⟩ := kept.record there
    rw [there']
    exact (h.regions s).trans (regions_of_skeleton c same)

/-- A pass with a given answer, of which no writer keeps anything. -/
def passed (c : Controller) (id : RecordId) (a : Except Archive.ArchiveError Unit) : Controller :=
  ((c.withWriters (.replying a)).process id).settled

section Passed
variable {c : Controller} {i j : RecordId} {r s : Record} {a b : Except Archive.ArchiveError Unit}

@[simp] theorem passed_settled : c.settled.passed i a = c.passed i a := by
  rw [passed, passed, withWriters_settled]

@[simp] theorem settled_passed : (c.passed i a).settled = c.passed i a := settled_settled _

theorem passed_of_none (h : c.record? i = none) : c.passed i a = c.settled := by
  have h : (c.withWriters (.replying a)).record? i = none := h
  rw [passed, process_of_none h, settled_withWriters]

/-- A pass writes what it writes with this answer. -/
theorem passed_eq_writes (h : c.record? i = some r) :
    c.passed i a = (c.settled.writeAll ((c.withWriters (.replying a)).writes r)).setRecord i
      ((c.withWriters (.replying a)).after r) := by
  have h : (c.withWriters (.replying a)).record? i = some r := h
  rw [passed, process_eq_writes h, settled_setRecord, settled_asked, settled_writeAll,
    settled_withWriters]

/-- **A pass is one with the answer that its record gets.** -/
theorem settled_process (h : c.record? i = some r) :
    (c.process i).settled = c.passed i (c.reply r) := by
  have same : (c.withWriters (.replying (c.reply r))).reply r = c.reply r :=
    reply_withWriters c rfl
  rw [passed_eq_writes h, writes_withWriters same, after_withWriters same, process_eq_writes h,
    settled_setRecord, settled_asked, settled_writeAll]

theorem alike_passed (c : Controller) (i : RecordId) (a : Except Archive.ArchiveError Unit) :
    c.Alike (c.passed i a) :=
  ((alike_withWriters c _).trans (alike_process _ i)).trans (alike_withWriters _ _)

theorem keeps_passed (c : Controller) (i : RecordId) (a : Except Archive.ArchiveError Unit) :
    Keeps Record.skeleton c (c.passed i a) :=
  keeps_skeleton_process (c.withWriters (.replying a)) i

theorem record?_passed_of_ne (ne : j ≠ i) : (c.passed i a).record? j = c.record? j :=
  record?_process_of_ne (c.withWriters (.replying a)) ne

/-- A pass of one record does not change what a pass of an independent one does. -/
theorem passed_passed (ne : i ≠ j) (hi : c.record? i = some r) (hj : c.record? j = some s)
    (apart : ∀ w ∈ (c.withWriters (.replying a)).writes r, ∀ p ∈ c.regions s,
      w.region.Apart p) :
    (c.passed i a).passed j b =
      (((c.settled.writeAll ((c.withWriters (.replying a)).writes r)).writeAll
        ((c.withWriters (.replying b)).writes s)).setRecord i
          ((c.withWriters (.replying a)).after r)).setRecord j
            ((c.withWriters (.replying b)).after s) := by
  have there : (c.passed i a).record? j = some s := (record?_passed_of_ne ne.symm).trans hj
  rw [passed_eq_writes there, passed_eq_writes hi]
  generalize hw : (c.withWriters (.replying a)).writes r = ws at apart ⊢
  generalize (c.withWriters (.replying a)).after r = q
  -- The second pass finds the state of the first one before any of its writes.
  have before : ((c.settled.writeAll ws).setRecord i q).withWriters (.replying b) =
      ((c.withWriters (.replying b)).writeAll ws).setRecord i q := by
    have same := writeAll_withWriters c.settled (.replying b) ws
    rw [withWriters_settled] at same
    exact congrArg (·.setRecord i q) same.symm
  have apart : ∀ w ∈ ws, ∀ p ∈ (c.withWriters (.replying b)).regions s, w.region.Apart p := by
    rw [(alike_withWriters c _).regions]
    exact apart
  have writes : (((c.withWriters (.replying b)).writeAll ws).setRecord i q).writes s =
      (c.withWriters (.replying b)).writes s := writes_writeAll apart
  have after : (((c.withWriters (.replying b)).writeAll ws).setRecord i q).after s =
      (c.withWriters (.replying b)).after s := after_writeAll apart
  rw [before, writes, after, settled_setRecord, settled_writeAll, settled_settled,
    writeAll_setRecord]

/-- **Passes of records whose regions lie apart can be exchanged.** -/
theorem passed_comm (ne : i ≠ j) (apart : c.Independent i j) :
    (c.passed i a).passed j b = (c.passed j b).passed i a := by
  cases hi : c.record? i with
  | none =>
    have gone : (c.passed j b).record? i = none := (record?_passed_of_ne ne).trans hi
    rw [passed_of_none hi, passed_of_none gone, passed_settled, settled_passed]
  | some r =>
    cases hj : c.record? j with
    | none =>
      have gone : (c.passed i a).record? j = none := (record?_passed_of_ne ne.symm).trans hj
      rw [passed_of_none hj, passed_of_none gone, passed_settled, settled_passed]
    | some s =>
      have apart : ∀ p ∈ c.regions r, ∀ q ∈ c.regions s, p.Apart q := by
        simpa [Independent, regionsOf, hi, hj] using apart
      have own : ∀ (t : Record) x w, w ∈ (c.withWriters (.replying x)).writes t →
          w.region ∈ c.regions t := fun t x w hw =>
        (alike_withWriters c _).regions t ▸ region_writes hw
      rw [passed_passed ne hi hj fun w hw => apart _ (own r a w hw),
        passed_passed ne.symm hj hi fun w hw p hp => (apart p hp _ (own s b w hw)).symm,
        writeAll_comm _ fun w hw x hx => apart _ (own r a w hw) _ (own s b x hx),
        setRecord_comm _ ne]

end Passed

/-! ## Scans with given answers -/

/-- A scan of the record makes it do a pass: it is there and idle. -/
def isIdle (c : Controller) (id : RecordId) : Bool :=
  match c.record? id with
  | some r => !r.common.active
  | none => false

theorem dispatch_scan (c : Controller) (id : RecordId) :
    c.dispatch (.scan id) = if c.isIdle id then c.process id else c := by
  unfold isIdle
  cases h : c.record? id with
  | none => exact dispatch_of_none h
  | some r =>
    rw [dispatch_of_record h]
    cases active : r.common.active <;> simp [active, Request.isCompletion, Request.record]

/-- What a scan of a record meets with; nothing is wrong if the record makes no pass. -/
def replyTo (c : Controller) (id : RecordId) : Except Archive.ArchiveError Unit :=
  match c.record? id with
  | some r => if r.common.active then .ok () else c.reply r
  | none => .ok ()

/-- A scan with a given answer. -/
def scanned (c : Controller) (p : RecordId × Except Archive.ArchiveError Unit) : Controller :=
  if c.isIdle p.1 then c.passed p.1 p.2 else c.settled

/-- Scans with given answers, one after the other. -/
def scanWith (c : Controller) (ps : List (RecordId × Except Archive.ArchiveError Unit)) :
    Controller :=
  ps.foldl scanned c

/-- What scans of records meet with, one after the other. -/
def replies (c : Controller) :
    List RecordId → List (RecordId × Except Archive.ArchiveError Unit)
  | [] => []
  | id :: rest => (id, c.replyTo id) :: (c.dispatch (.scan id)).replies rest

/-- What scans of one of the records meet with. -/
def repliesTo (c : Controller) (ids : List RecordId) (id : RecordId) :
    List (RecordId × Except Archive.ArchiveError Unit) :=
  (c.replies ids).filter (·.1 = id)

section Scanned
variable {c : Controller} {p q : RecordId × Except Archive.ArchiveError Unit}

/-- **A scan is one with the answer that it meets with.** -/
theorem settled_dispatch (c : Controller) (id : RecordId) :
    (c.dispatch (.scan id)).settled = c.settled.scanned (id, c.replyTo id) := by
  have idle : c.settled.isIdle id = c.isIdle id := rfl
  rw [dispatch_scan, scanned, idle, passed_settled, settled_settled]
  cases h : c.isIdle id with
  | false => rfl
  | true =>
    cases there : c.record? id with
    | none => simp [isIdle, there] at h
    | some r =>
      have inactive : r.common.active = false := by simpa [isIdle, there] using h
      simp only [if_true, settled_process there, replyTo, there, inactive, Bool.false_eq_true,
        if_false]

theorem settled_dispatchAll (c : Controller) (ids : List RecordId) :
    (c.dispatchAll (ids.map .scan)).settled = c.settled.scanWith (c.replies ids) := by
  induction ids generalizing c with
  | nil => rfl
  | cons id rest ih =>
    have first : (c.dispatchAll ((id :: rest).map .scan)) =
        (c.dispatch (.scan id)).dispatchAll (rest.map .scan) := rfl
    rw [first, ih, settled_dispatch]
    rfl

theorem scanned_eq (c : Controller) (p : RecordId × Except Archive.ArchiveError Unit) :
    c.scanned p = if c.isIdle p.1 then c.passed p.1 p.2 else c.settled := rfl

theorem alike_scanned (c : Controller) (p : RecordId × Except Archive.ArchiveError Unit) :
    c.Alike (c.scanned p) := by
  unfold scanned
  split
  · exact alike_passed c p.1 p.2
  · exact alike_withWriters c _

theorem keeps_scanned (c : Controller) (p : RecordId × Except Archive.ArchiveError Unit) :
    Keeps Record.skeleton c (c.scanned p) := by
  unfold scanned
  split
  · exact keeps_passed c p.1 p.2
  · exact .refl c

theorem Independent.scanned {i j : RecordId} (h : c.Independent i j)
    (p : RecordId × Except Archive.ArchiveError Unit) : (c.scanned p).Independent i j := by
  simpa only [Independent, (alike_scanned c p).regionsOf (keeps_scanned c p)] using h

theorem isIdle_scanned_of_ne {id : RecordId} (ne : id ≠ p.1) :
    (c.scanned p).isIdle id = c.isIdle id := by
  unfold Controller.scanned
  split
  · simp only [isIdle, record?_passed_of_ne ne]
  · rfl

/-- **Scans of records whose regions lie apart can be exchanged.** -/
theorem scanned_comm (ne : p.1 ≠ q.1) (apart : c.Independent p.1 q.1) :
    (c.scanned p).scanned q = (c.scanned q).scanned p := by
  have idle : (c.scanned q).isIdle p.1 = c.isIdle p.1 := isIdle_scanned_of_ne ne
  have idle' : (c.scanned p).isIdle q.1 = c.isIdle q.1 := isIdle_scanned_of_ne ne.symm
  rw [scanned_eq (c.scanned p), idle', scanned_eq (c.scanned q), idle, scanned_eq c, scanned_eq c]
  cases c.isIdle p.1 <;> cases c.isIdle q.1
  case true.true => exact passed_comm ne apart
  all_goals simp

/-- A scan can be made before or after others that are independent of it. -/
theorem scanWith_scanned {ps : List (RecordId × Except Archive.ArchiveError Unit)}
    (independent : ∀ q ∈ ps, q.1 ≠ p.1 ∧ c.Independent p.1 q.1) :
    (c.scanWith ps).scanned p = (c.scanned p).scanWith ps := by
  induction ps generalizing c with
  | nil => rfl
  | cons q rest ih =>
    obtain ⟨ne, apart⟩ := independent q List.mem_cons_self
    have later : ∀ x ∈ rest, x.1 ≠ p.1 ∧ (c.scanned q).Independent p.1 x.1 := fun x hx =>
      have ⟨ne', apart'⟩ := independent x (List.mem_cons_of_mem q hx)
      ⟨ne', apart'.scanned q⟩
    show ((c.scanned q).scanWith rest).scanned p = ((c.scanned p).scanned q).scanWith rest
    rw [ih later, scanned_comm ne.symm apart]

theorem mem_of_filter_eq {ps qs : List (RecordId × Except Archive.ArchiveError Unit)}
    (same : ∀ id, ps.filter (·.1 = id) = qs.filter (·.1 = id)) (h : p ∈ qs) : p ∈ ps := by
  have here : p ∈ qs.filter (·.1 = p.1) := List.mem_filter.2 ⟨h, by simp⟩
  rw [← same] at here
  exact (List.mem_filter.1 here).1

/-- **Scans of independent records can be made in any order** in which the answers to each
record come in the same order. -/
theorem scanWith_congr {ps qs : List (RecordId × Except Archive.ArchiveError Unit)}
    (same : ∀ id, ps.filter (·.1 = id) = qs.filter (·.1 = id)) (c : Controller)
    (independent : ∀ p ∈ ps, ∀ q ∈ ps, p.1 ≠ q.1 → c.Independent p.1 q.1) :
    c.scanWith ps = c.scanWith qs := by
  induction ps generalizing c qs with
  | nil =>
    obtain rfl : qs = [] := List.eq_nil_iff_forall_not_mem.2 fun x hx =>
      List.not_mem_nil (mem_of_filter_eq same hx)
    rfl
  | cons p rest ih =>
    -- The first scan stands somewhere in the other list, behind scans of other records.
    have own := same p.1
    rw [List.filter_cons_of_pos (by simp)] at own
    obtain ⟨before, behind, rfl, others, -, own⟩ := List.filter_eq_cons_iff.1 own.symm
    have others : ∀ x ∈ before, x.1 ≠ p.1 := by simpa using others
    have front : before.filter (·.1 = p.1) = [] := by
      simpa [List.filter_eq_nil_iff] using others
    have moved : c.scanWith (before ++ p :: behind) =
        (c.scanned p).scanWith (before ++ behind) := by
      have first : (c.scanWith before).scanned p = (c.scanned p).scanWith before := by
        refine scanWith_scanned fun q hq => ⟨others q hq, ?_⟩
        have later : q ∈ p :: rest := mem_of_filter_eq same (by simp [hq])
        exact independent p List.mem_cons_self q later (others q hq).symm
      simp only [scanWith, List.foldl_append, List.foldl_cons] at first ⊢
      rw [first]
    have rest' : ∀ id, rest.filter (·.1 = id) = (before ++ behind).filter (·.1 = id) := by
      intro id
      have here := same id
      rw [List.filter_append] at here ⊢
      by_cases mine : p.1 = id
      · subst mine
        rw [front, List.nil_append, own]
      · rwa [List.filter_cons_of_neg (by simpa using mine),
          List.filter_cons_of_neg (by simpa using mine)] at here
    rw [moved]
    refine ih rest' (c.scanned p) fun x hx y hy ne => ?_
    exact (independent x (List.mem_cons_of_mem p hx) y (List.mem_cons_of_mem p hy) ne).scanned p

end Scanned

/-! ## Runs -/

theorem schedulers_dispatchAll (c : Controller) (requests : List Request) :
    (c.dispatchAll requests).schedulers = c.schedulers := by
  induction requests generalizing c with
  | nil => rfl
  | cons request rest ih =>
    have first : (c.dispatch request).schedulers = c.schedulers := by
      rcases dispatch_cases c request with e | ⟨_, -, -, e⟩
      · rw [e]
      · rw [e, schedulers_process]
    exact (ih (c.dispatch request)).trans first

/-- The records that are scanned are those that meet with something. -/
theorem fst_mem_of_mem_replies {c : Controller} {ids : List RecordId}
    {p : RecordId × Except Archive.ArchiveError Unit} (h : p ∈ c.replies ids) : p.1 ∈ ids := by
  induction ids generalizing c with
  | nil => simp [replies] at h
  | cons id rest ih =>
    rcases List.mem_cons.1 h with rfl | later
    · exact List.mem_cons_self
    · exact List.mem_cons_of_mem id (ih later)

/-- **The order of independent scans does not matter,** as far as the writers let it.  Two states
are the same but for what their writers keep, and scans wait for a scheduler in the one in some
order and in the other in another.  If the regions of different records lie apart, and each
record meets with the same answers in both states, the scheduler handles all scans in both,
leaves none waiting, and leaves the same state behind but for what the writers keep. -/
theorem run_perm {c c' : Controller} {s : SchedulerId} {ids ids' : List RecordId}
    (waiting : c.queue? s = some (ids.map .scan)) (perm : ids.Perm ids')
    (other : c'.settled = (c.setQueue s (ids'.map .scan)).settled)
    (independent : ∀ i ∈ ids, ∀ j ∈ ids, i ≠ j → c.Independent i j)
    (met : ∀ id, (c.setQueue s []).repliesTo ids id = (c'.setQueue s []).repliesTo ids' id) :
    ∃ d d', c.run s = some (ids.length, d) ∧ c'.run s = some (ids.length, d') ∧
      d.queue? s = some [] ∧ d'.queue? s = some [] ∧ d'.settled = d.settled := by
  have there : (c.queue? s).isSome := by simp [waiting]
  have schedulers : c'.schedulers = (c.setQueue s (ids'.map .scan)).schedulers :=
    congrArg (·.schedulers) other
  have waiting' : c'.queue? s = some (ids'.map .scan) := by
    have own := queue?_setQueue_self c s (ids'.map .scan) there
    rwa [queue?, ← schedulers] at own
  have emptied : (c'.setQueue s []).settled = (c.setQueue s []).settled := by
    have same := congrArg (·.setQueue s []) other
    have twice : (c.setQueue s (ids'.map .scan)).setQueue s [] = c.setQueue s [] := by
      simp only [setQueue, List.set_set]
    exact same.trans (congrArg settled twice)
  refine ⟨(c.setQueue s []).dispatchAll (ids.map .scan),
    (c'.setQueue s []).dispatchAll (ids'.map .scan), ?_, ?_, ?_, ?_, ?_⟩
  · simp only [run, waiting, List.length_map]
  · simp only [run, waiting', List.length_map, perm.length_eq]
  · have kept := schedulers_dispatchAll (c.setQueue s []) (ids.map .scan)
    have empty := queue?_setQueue_self c s [] there
    simpa only [queue?, kept] using empty
  · have kept := schedulers_dispatchAll (c'.setQueue s []) (ids'.map .scan)
    have empty := queue?_setQueue_self c' s [] (by simp [waiting'])
    simpa only [queue?, kept] using empty
  · rw [settled_dispatchAll, settled_dispatchAll, emptied]
    refine (scanWith_congr met _ fun p hp q hq ne => ?_).symm
    have apart : (c.setQueue s []).Independent p.1 q.1 :=
      independent p.1 (fst_mem_of_mem_replies hp) q.1 (fst_mem_of_mem_replies hq) ne
    have alike := alike_withWriters (c.setQueue s []) {}
    simpa only [Independent, settled, alike.regionsOf (.refl _)] using apart

/-! ## Writers with room -/

/-- The writers work, and have room for so many more files. -/
def HasRoom (c : Controller) (n : Nat) : Prop :=
  ∀ w ∈ c.writers, w.running = true ∧ w.waiting + n ≤ Archive.Writer.depth

theorem HasRoom.of_writers {c d : Controller} {n : Nat} (h : c.HasRoom n)
    (same : d.writers = c.writers) : d.HasRoom n := by
  rwa [HasRoom, same]

section Room
variable {c : Controller} {n : Nat} (h : c.HasRoom (n + 1))
include h

theorem HasRoom.mono : c.HasRoom n := fun w hw => ⟨(h w hw).1, by have := (h w hw).2; omega⟩

/-- A record that is saved meets with no refusal. -/
theorem HasRoom.reply (r : Record) : c.reply r = .ok () := by
  unfold Controller.reply
  split
  · rename_i id _ b _ _
    cases found : c.archive? id with
    | none => rfl
    | some x =>
      have mem : x.writer ∈ c.writers := List.mem_map.2 ⟨x, List.mem_of_getElem? found, rfl⟩
      simp only [Archive.Vault.reply, (Archive.Writer.offer_of_room (h _ mem).1 (h _ mem).2).1,
        ite_self]
  · rfl

/-- Saving a record takes the room for one file. -/
theorem HasRoom.asked (r : Record) : (c.asked r).HasRoom n := by
  unfold Controller.asked
  split
  · rename_i id _ b _ _
    intro w hw
    obtain ⟨i, there⟩ := List.mem_iff_getElem?.1 hw
    simp only [writers, List.getElem?_map, List.getElem?_modify] at there
    cases found : c.archives[i]? with
    | none => simp [found] at there
    | some x =>
      have mem : x.writer ∈ c.writers := List.mem_map.2 ⟨x, List.mem_of_getElem? found, rfl⟩
      have offered := (Archive.Writer.offer_of_room (h _ mem).1 (h _ mem).2).2
      rw [found] at there
      by_cases own : id.index = i <;> cases persists : b.persists <;>
        simp [own, Archive.asked, persists] at there <;> subst there
      · exact h.mono _ mem
      · exact offered
      · exact h.mono _ mem
      · exact h.mono _ mem
  · exact h.mono

theorem HasRoom.dispatch (id : RecordId) : (c.dispatch (.scan id)).HasRoom n := by
  rw [dispatch_scan]
  split
  · cases there : c.record? id with
    | none =>
      rw [process_of_none there]
      exact h.mono
    | some r =>
      have written : (c.writeAll (c.writes r)).HasRoom (n + 1) :=
        h.of_writers (writers_writeAll c (c.writes r))
      rw [process_eq_writes there]
      exact (written.asked r).of_writers rfl
  · exact h.mono

end Room

/-- **Writers with room for everything refuse nothing.** -/
theorem replies_of_room {c : Controller} {ids : List RecordId} (h : c.HasRoom ids.length) :
    c.replies ids = ids.map (·, .ok ()) := by
  induction ids generalizing c with
  | nil => rfl
  | cons id rest ih =>
    have first : c.replyTo id = .ok () := by
      unfold replyTo
      split
      · rw [h.reply, ite_self]
      · rfl
    simp only [replies, first, List.map_cons, ih (h.dispatch id)]

/-- **Each record meets with the same answers** in states whose writers have room for everything. -/
theorem repliesTo_of_room {c d : Controller} {ids ids' : List RecordId} (perm : ids.Perm ids')
    (h : c.HasRoom ids.length) (h' : d.HasRoom ids'.length) (id : RecordId) :
    c.repliesTo ids id = d.repliesTo ids' id := by
  simp only [repliesTo, replies_of_room h, replies_of_room h']
  have all : ∀ l : List RecordId, ∀ p ∈ (l.map (·, Except.ok ())).filter (·.1 = id),
      p = ((id, .ok ()) : RecordId × Except Archive.ArchiveError Unit) := by
    intro l p hp
    obtain ⟨there, own⟩ := List.mem_filter.1 hp
    obtain ⟨i, -, rfl⟩ := List.mem_map.1 there
    simpa using own
  rw [List.eq_replicate_of_mem (all ids), List.eq_replicate_of_mem (all ids'),
    ((perm.map _).filter _).length_eq]

/-- An asynchronous output on a variable, an input from a register, and an array record that
is saved and copied to storage, all initialised.  The output is scanned twice. -/
def valveGaugeAndLog : Controller :=
  let valve : Record := ⟨{ name := "valve" }, .hardware ⟨0, 2, "g"⟩, .scalar .shared (.longout 0)⟩
  let gauge : Record := ⟨{ name := "gauge" }, .literal "0x10000000", .scalar .registers (.longin 0)⟩
  let log : Record := ⟨{ name := "log" }, .hardware ⟨0, 0, ""⟩, .array ⟨0⟩ {}⟩
  let c := (({} : Controller).registerGroup "g" [{ value := .ulong 7 }]).1
  let c := (c.newArchive { arrays := [⟨1, 3, 2, some [1, 2, 3]⟩] }).2
  let (s, c) := c.newScheduler
  let (i, c) := c.adopt valve (some s)
  let (j, c) := c.adopt gauge (some s)
  let (k, c) := c.adopt log (some s)
  let c := (((c.initialise i).1.initialise j).1.initialise k).1
  c.setQueue s [.scan i, .scan j, .scan k, .scan i]

/-- The same scans in another order, with a writer that already has files waiting. -/
def logValveAndGauge : Controller :=
  (valveGaugeAndLog.setQueue ⟨0⟩ ([⟨2⟩, ⟨0⟩, ⟨0⟩, ⟨1⟩].map .scan)).withWriters { waiting := 5 }

theorem run_of_valveGaugeAndLog :
    valveGaugeAndLog.queue? ⟨0⟩ = some ([⟨0⟩, ⟨1⟩, ⟨2⟩, ⟨0⟩].map .scan) ∧
      ([⟨0⟩, ⟨1⟩, ⟨2⟩, ⟨0⟩] : List RecordId).Perm [⟨2⟩, ⟨0⟩, ⟨0⟩, ⟨1⟩] ∧
      (∀ i ∈ [⟨0⟩, ⟨1⟩, ⟨2⟩, ⟨0⟩], ∀ j ∈ [⟨0⟩, ⟨1⟩, ⟨2⟩, ⟨0⟩], i ≠ j →
        valveGaugeAndLog.Independent i j) ∧
      ∃ d d', valveGaugeAndLog.run ⟨0⟩ = some (4, d) ∧ logValveAndGauge.run ⟨0⟩ = some (4, d') ∧
        d.queue? ⟨0⟩ = some [] ∧ d'.queue? ⟨0⟩ = some [] ∧ d'.settled = d.settled := by
  have waiting : valveGaugeAndLog.queue? ⟨0⟩ = some ([⟨0⟩, ⟨1⟩, ⟨2⟩, ⟨0⟩].map .scan) := by cbv
  have valve : valveGaugeAndLog.regionsOf ⟨0⟩ = [.shared ⟨0⟩] := by cbv
  have gauge : valveGaugeAndLog.regionsOf ⟨1⟩ = [.octets 0x10000000 4] := by cbv
  have log : valveGaugeAndLog.regionsOf ⟨2⟩ = [.slice ⟨0⟩ 0 0 3, .file "log"] := by cbv
  have independent : ∀ i ∈ [⟨0⟩, ⟨1⟩, ⟨2⟩, ⟨0⟩], ∀ j ∈ [⟨0⟩, ⟨1⟩, ⟨2⟩, ⟨0⟩], i ≠ j →
      valveGaugeAndLog.Independent i j := by
    simp [Independent, valve, gauge, log, Region.Apart]
  have perm : ([⟨0⟩, ⟨1⟩, ⟨2⟩, ⟨0⟩] : List RecordId).Perm [⟨2⟩, ⟨0⟩, ⟨0⟩, ⟨1⟩] := by decide
  have writers : (valveGaugeAndLog.setQueue ⟨0⟩ []).writers = [{}] := by cbv
  have writers' : (logValveAndGauge.setQueue ⟨0⟩ []).writers = [{ waiting := 5 }] := by cbv
  have met := repliesTo_of_room (c := valveGaugeAndLog.setQueue ⟨0⟩ [])
    (d := logValveAndGauge.setQueue ⟨0⟩ []) perm
    (by simp [HasRoom, writers, Archive.Writer.depth])
    (by simp [HasRoom, writers', Archive.Writer.depth])
  exact ⟨waiting, perm, independent,
    run_perm waiting perm (settled_withWriters _ _) independent met⟩

/-- Scans of two records that are saved by the same archive, whose writer has room for one. -/
def twoLogs : Controller :=
  let first : Record := ⟨{ name := "a" }, .hardware ⟨0, 0, ""⟩, .array ⟨0⟩ {}⟩
  let second : Record := ⟨{ name := "b" }, .hardware ⟨0, 1, ""⟩, .array ⟨0⟩ {}⟩
  let arrays : Archive := { arrays := [⟨2, 1, 1, none⟩], writer := { waiting := 9 } }
  let c := (({} : Controller).newArchive arrays).2
  let (s, c) := c.newScheduler
  let (i, c) := c.adopt first (some s)
  let (j, c) := c.adopt second (some s)
  ((c.initialise i).1.initialise j).1.setQueue s [.scan i, .scan j]

/-- The record that is scanned last is not saved, and stays undefined.  So it matters which of
the two that is. -/
theorem order_matters_without_room :
    twoLogs.queue? ⟨0⟩ = some ([⟨0⟩, ⟨1⟩].map .scan) ∧ twoLogs.Independent ⟨0⟩ ⟨1⟩ ∧
      ∃ d d', twoLogs.run ⟨0⟩ = some (2, d) ∧
        (twoLogs.setQueue ⟨0⟩ ([⟨1⟩, ⟨0⟩].map .scan)).run ⟨0⟩ = some (2, d') ∧
        (d.record? ⟨1⟩).map (·.common.undefined) = some true ∧
        (d'.record? ⟨1⟩).map (·.common.undefined) = some false := by
  have first : twoLogs.regionsOf ⟨0⟩ = [.file "a"] := by cbv
  have second : twoLogs.regionsOf ⟨1⟩ = [.file "b"] := by cbv
  have apart : twoLogs.Independent ⟨0⟩ ⟨1⟩ := by simp [Independent, first, second, Region.Apart]
  have waiting : twoLogs.queue? ⟨0⟩ = some ([⟨0⟩, ⟨1⟩].map .scan) := by cbv
  have waiting' : (twoLogs.setQueue ⟨0⟩ ([⟨1⟩, ⟨0⟩].map .scan)).queue? ⟨0⟩ =
      some ([⟨1⟩, ⟨0⟩].map .scan) := by cbv
  refine ⟨waiting, apart, _, _, by rw [run, waiting]; rfl, by rw [run, waiting']; rfl, ?_, ?_⟩
  · cbv
  · cbv

end Controller

end ControlRecords
