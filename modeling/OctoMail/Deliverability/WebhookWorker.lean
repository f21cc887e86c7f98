import Mathlib.Data.List.Basic
import Mathlib.Logic.Function.Basic
import OctoMail.Transition

/-!
# Webhook workers

Each node claims due webhook events under a lease, posts them one after the other and writes each
result where it still has the lease. A batch is leased once, for thirty seconds, and a POST may take
fifteen: a batch of more than two events outlives its lease, and what is left of it is claimed and
posted by another node as well.

The database is the list of its rows, in the order of their ids. Its statements take no time; time
passes while every node that has events left has a POST in progress. There are no crashes. Log lines
and the content of events are left out.
-/

namespace OctoMail.Deliverability.WebhookWorker

open List Transition Function

/-! ### The table -/

/-- Thirty seconds, in milliseconds. -/
def leaseTime : Nat := 30000

/-- The time-out of the default client. -/
def postTime : Nat := 15000

/-- `interval '100 years'`, at the least. -/
def century : Nat := 100 * 365 * 24 * 3600 * 1000

structure Row where
  nextAttempt : Int
  attempts : Nat := 0
  maxAttempts : Nat := 10
  leasedBy : Option String := none
  leaseUntil : Nat := 0
  delivered : Bool := false
deriving DecidableEq, Repr

/-- UPDATE with a condition. -/
def updateWhere (rows : List Row) (cond : Nat → Row → Bool) (change : Row → Row) : List Row :=
  rows.mapIdx (fun id row => if cond id row then change row else row)

def Row.due (row : Row) (now : Nat) : Bool :=
  !row.delivered && decide (row.nextAttempt ≤ now) &&
    (row.leasedBy.isNone || decide (row.leaseUntil < now))

/-! ### Workers -/

structure Job where
  id : Nat
  attempts : Nat
  maxAtt : Nat
deriving DecidableEq, Repr

structure Worker where
  /-- The events of the batch that are not finished. -/
  jobs : List Job := []
  /-- When the POST of the first of them began. -/
  posting : Option Nat := none
deriving DecidableEq, Repr

/-- The event of which a POST is in progress. -/
def Worker.current (worker : Worker) : Option Nat :=
  worker.posting.bind (fun _ => worker.jobs.head?.map Job.id)

structure Settings where
  nodes : List String
  batch : String → Int
  backoff : String → Int

/-- `Batch`, or its default. -/
def Settings.limit (settings : Settings) (node : String) : Nat :=
  if settings.batch node ≤ 0 then 20 else (settings.batch node).toNat

/-- `Backoff`, or its default. -/
def Settings.delay (settings : Settings) (node : String) : Int :=
  if settings.backoff node = 0 then 30000 else settings.backoff node

inductive Fact where
  | began (node : String) (id : Nat)
  | ended (node : String) (id : Nat) (ok : Bool)
deriving DecidableEq, Repr

structure State where
  now : Nat := 0
  rows : List Row := []
  workers : String → Worker := fun _ => {}
  log : List Fact := []

inductive Label where
  | enqueue
  | tick (time : Nat)
  | claim (node : String) (locked ids : List Nat) (outcome : Outcome)
  | begin_ (node : String)
  | finish (node : String) (ok : Bool) (outcome : Outcome)
deriving DecidableEq, Repr

/-- The due rows that no other transaction has locked. -/
def candidates (st : State) (locked : List Nat) : List Nat :=
  (List.range st.rows.length).filter (fun id =>
    !locked.contains id && (st.rows[id]?).any (fun row => row.due st.now))

/-- What a claim returns: as many candidates as the limit allows, the earliest of them, in any
order. -/
def selects (settings : Settings) (st : State) (node : String) (locked ids : List Nat) : Bool :=
  let due := candidates st locked
  let next := fun id => (st.rows[id]?).elim 0 Row.nextAttempt
  decide ids.Nodup && ids.all (fun id => due.contains id) &&
    decide (ids.length = min due.length (settings.limit node)) &&
    ids.all (fun id => due.all (fun other => ids.contains other || decide (next id ≤ next other)))

def lease (st : State) (node : String) (ids : List Nat) : List Row :=
  updateWhere st.rows (fun id _ => ids.contains id)
    (fun row => { row with leasedBy := some node, leaseUntil := st.now + leaseTime })

def jobOf (rows : List Row) (id : Nat) : Option Job :=
  (rows[id]?).map (fun row => ⟨id, row.attempts, row.maxAttempts⟩)

/-- The claim of `RunOnce`. If the answer is lost, the leases stay and nothing is posted. -/
def claim (settings : Settings) (st : State) (node : String) (locked ids : List Nat)
    (outcome : Outcome) : Option State :=
  if (st.workers node).jobs = [] ∧ selects settings st node locked ids then
    match outcome with
    | .failed => some st
    | .unreported => some { st with rows := lease st node ids }
    | .committed => some { st with
        rows := lease st node ids
        workers := update st.workers node ⟨ids.filterMap (jobOf st.rows), none⟩ }
  else none

/-- What is written of the row once a POST has ended. -/
def resultOf (settings : Settings) (now : Nat) (node : String) (job : Job) (ok : Bool) (row : Row) :
    Row :=
  if ok then { row with delivered := true, leasedBy := none }
  else if job.maxAtt ≤ job.attempts + 1 then
    { row with attempts := job.attempts + 1, leasedBy := none, nextAttempt := now + century }
  else
    { row with
      attempts := job.attempts + 1, leasedBy := none, nextAttempt := now + settings.delay node }

/-- The UPDATE after a POST, where the lease is still held. -/
def written (settings : Settings) (st : State) (node : String) (job : Job) (ok : Bool) : List Row :=
  updateWhere st.rows (fun id row => id == job.id && row.leasedBy == some node)
    (resultOf settings st.now node job ok)

/-- The end of a POST, and of its UPDATE. -/
def finish (settings : Settings) (st : State) (node : String) (ok : Bool) (outcome : Outcome) :
    Option State :=
  match (st.workers node).jobs, (st.workers node).posting with
  | job :: jobs, some _ =>
      some { st with
        rows := if outcome = .failed then st.rows else written settings st node job ok
        workers := update st.workers node ⟨jobs, none⟩
        log := st.log ++ [.ended node job.id ok] }
  | _, _ => none

/-- Time may pass: who has events left is posting, and no POST takes longer than its time-out. -/
def mayWait (st : State) (time : Nat) (worker : Worker) : Bool :=
  worker.jobs.isEmpty || worker.posting.any (fun start => decide (st.now + time ≤ start + postTime))

def step (settings : Settings) (st : State) : Label → Option State
  | .enqueue => some { st with rows := st.rows ++ [{ nextAttempt := st.now }] }
  | .tick time =>
      if settings.nodes.all (fun node => mayWait st time (st.workers node)) then
        some { st with now := st.now + time }
      else none
  | .claim node locked ids outcome =>
      if node ∈ settings.nodes then claim settings st node locked ids outcome else none
  | .begin_ node =>
      match (st.workers node).jobs, (st.workers node).posting with
      | job :: jobs, none => some { st with
          workers := update st.workers node ⟨job :: jobs, some st.now⟩
          log := st.log ++ [.began node job.id] }
      | _, _ => none
  | .finish node ok outcome => finish settings st node ok outcome

def Fact.begins (id : Nat) : Fact → Bool
  | .began _ other => other == id
  | .ended _ _ _ => false

/-- How often an event was posted. -/
def posts (st : State) (id : Nat) : Nat := st.log.countP (Fact.begins id)

/-- One node at a time, at most so many times, and not again after a success. -/
structure Safe (settings : Settings) (st : State) : Prop where
  exclusive : ∀ id, ∀ first ∈ settings.nodes, ∀ second ∈ settings.nodes,
    (st.workers first).current = some id → (st.workers second).current = some id → first = second
  limited : ∀ (id : Nat) (row : Row), st.rows[id]? = some row → posts st id ≤ row.maxAttempts
  once : ∀ front rest node other id, st.log = front ++ .began node id :: rest →
    .ended other id true ∉ front

/-- The result of every POST is written. -/
def Written (_ : State) : Label → Prop
  | .finish _ _ outcome => outcome ≠ .failed
  | _ => True

/-! ### What is known between two steps -/

/-- A row of which a worker has the event in its batch. -/
structure Held (node : String) (job : Job) (row : Row) : Prop where
  leased : row.leasedBy = some node
  open_ : row.delivered = false
  attempts : row.attempts = job.attempts
  maxAtt : row.maxAttempts = job.maxAtt
  left : row.attempts < row.maxAttempts

/-- When a worker is finished at the latest. -/
def Worker.finishes (worker : Worker) (now : Nat) : Nat :=
  worker.posting.getD now + postTime * worker.jobs.length

/-- Nobody else claims. -/
def Alone (settings : Settings) : Prop :=
  ∀ first ∈ settings.nodes, ∀ second ∈ settings.nodes, first = second

/-- A batch of which every event is finished under its lease. -/
def Short (settings : Settings) : Prop := ∀ node ∈ settings.nodes, settings.limit node ≤ 2

/-- What holds of one worker. -/
structure Fair (settings : Settings) (now : Nat) (rows : List Row) (node : String)
    (worker : Worker) : Prop where
  known : node ∉ settings.nodes → worker.jobs = []
  held : ∀ job ∈ worker.jobs, ∃ row, rows[job.id]? = some row ∧ Held node job row ∧
    (Alone settings ∨ worker.finishes now ≤ row.leaseUntil)
  distinct : (worker.jobs.map Job.id).Nodup
  posting : ∀ start, worker.posting = some start → worker.jobs ≠ [] ∧ now ≤ start + postTime

/-- The invariant of every run whose results are written. A worker is done with its batch while it
holds the leases, unless nobody else claims. An event was posted as often as its row counts, with
one more for a POST in progress and for a success. A row without attempts left is not due for a
century, and no POST begins after a success. -/
structure Good (settings : Settings) (st : State) : Prop where
  fair : ∀ node, Fair settings st.now st.rows node (st.workers node)
  resting : ∀ (id : Nat) (row : Row), st.rows[id]? = some row →
    (∀ node, (st.workers node).current ≠ some id) → posts st id = row.attempts + row.delivered.toNat
  active : ∀ (node : String) (id : Nat) (row : Row), (st.workers node).current = some id →
    st.rows[id]? = some row → posts st id = row.attempts + 1
  limit : ∀ (id : Nat) (row : Row), st.rows[id]? = some row →
    row.attempts + row.delivered.toNat ≤ row.maxAttempts ∧
      (row.attempts = row.maxAttempts → century ≤ row.nextAttempt)
  fresh : ∀ id, st.rows.length ≤ id → posts st id = 0
  succeeded : ∀ node id, .ended node id true ∈ st.log →
    ∃ row, st.rows[id]? = some row ∧ row.delivered = true
  once : ∀ front rest node other id, st.log = front ++ .began node id :: rest →
    .ended other id true ∉ front

section Steps

variable {settings : Settings} {st : State}

theorem get_updateWhere (rows : List Row) (cond : Nat → Row → Bool) (change : Row → Row)
    (id : Nat) : (updateWhere rows cond change)[id]? =
      (rows[id]?).map (fun row => if cond id row then change row else row) := by
  rw [updateWhere, getElem?_mapIdx]

@[simp] theorem length_updateWhere (rows : List Row) (cond : Nat → Row → Bool)
    (change : Row → Row) : (updateWhere rows cond change).length = rows.length := by
  simp [updateWhere]

variable {id : Nat} {worker : Worker} {job : Job} {node : String} {locked ids : List Nat}

theorem current_some (current : worker.current = some id) :
    ∃ job jobs start, worker.jobs = job :: jobs ∧ job.id = id ∧ worker.posting = some start := by
  obtain ⟨start, posting, head⟩ := Option.bind_eq_some_iff.mp current
  obtain ⟨job, first, rfl⟩ := Option.map_eq_some_iff.mp head
  obtain ⟨jobs, shape⟩ := head?_eq_some_iff.mp first
  exact ⟨job, jobs, start, shape, rfl, posting⟩

theorem current_mem (current : worker.current = some id) : ∃ job ∈ worker.jobs, job.id = id := by
  obtain ⟨job, jobs, _, shape, same, _⟩ := current_some current
  exact ⟨job, by simp [shape], same⟩

theorem Good.row (good : Good settings st) {row : Row} (member : job ∈ (st.workers node).jobs)
    (here : st.rows[job.id]? = some row) : Held node job row := by
  obtain ⟨own, found, held, _⟩ := (good.fair node).held job member
  cases here.symm.trans found
  exact held

/-- One event is in the batch of one node. -/
theorem Good.same_node (good : Good settings st) {first second : String} {other : Job}
    (member : job ∈ (st.workers first).jobs) (memberToo : other ∈ (st.workers second).jobs)
    (same : other.id = job.id) : first = second := by
  obtain ⟨row, here, held, _⟩ := (good.fair first).held job member
  have heldToo := good.row memberToo (same ▸ here)
  exact Option.some.inj (held.leased.symm.trans heldToo.leased)

/-- Another node is not posting an event of the batch. -/
theorem Good.elsewhere (good : Good settings st) (member : job ∈ (st.workers node).jobs)
    {other : String} (different : other ≠ node) (busy : (st.workers other).current = some id) :
    id ≠ job.id := by
  rintro rfl
  obtain ⟨its, memberToo, same⟩ := current_mem busy
  exact different (good.same_node member memberToo same).symm

/-- An event of the batch is not delivered. -/
theorem Good.undelivered (good : Good settings st) (member : job ∈ (st.workers node).jobs)
    {row : Row} (here : st.rows[id]? = some row) (done : row.delivered = true) : id ≠ job.id := by
  rintro rfl
  have open_ := (good.row member here).open_
  rw [done] at open_
  cases open_

theorem Good.known (good : Good settings st)
    (member : job ∈ (st.workers node).jobs) : node ∈ settings.nodes := by
  apply Decidable.byContradiction
  intro outside
  rw [(good.fair node).known outside] at member
  cases member

/-- The lease of an event lasts as long as it is in a batch. -/
theorem Good.leased (good : Good settings st) (several : ¬ Alone settings) {row : Row}
    (member : job ∈ (st.workers node).jobs)
    (here : st.rows[job.id]? = some row) : st.now ≤ row.leaseUntil := by
  obtain ⟨own, found, _, time⟩ := (good.fair node).held job member
  cases here.symm.trans found
  refine Nat.le_trans ?_ (time.resolve_left several)
  have some_ := length_pos_of_mem member
  have enough : postTime ≤ postTime * (st.workers node).jobs.length :=
    Nat.le_mul_of_pos_right _ some_
  rw [Worker.finishes]
  cases posting : (st.workers node).posting with
  | none => exact Nat.le_add_right _ _
  | some start =>
    have late := ((good.fair node).posting start posting).2
    simp only [Option.getD_some]
    omega

theorem Good.safe (good : Good settings st) : Safe settings st where
  exclusive := by
    intro id first _ second _ one two
    obtain ⟨job, member, rfl⟩ := current_mem one
    obtain ⟨other, memberToo, same⟩ := current_mem two
    exact good.same_node member memberToo same
  limited := by
    intro id row here
    by_cases busy : ∃ node, (st.workers node).current = some id
    · obtain ⟨node, current⟩ := busy
      obtain ⟨job, member, rfl⟩ := current_mem current
      rw [good.active node job.id row current here]
      exact (good.row member here).left
    · rw [good.resting id row here (fun node current => busy ⟨node, current⟩)]
      exact (good.limit id row here).1
  once := good.once

theorem good_start : Good settings {} where
  fair _ := ⟨fun _ => rfl, fun _ member => (not_mem_nil member).elim, nodup_nil,
    fun _ some_ => (Option.some_ne_none _ some_.symm).elim⟩
  resting _ _ here := by cases here
  active _ _ _ _ here := by cases here
  limit _ _ here := by cases here
  fresh _ _ := rfl
  succeeded _ _ member := by cases member
  once _ _ _ _ _ shape := by simp at shape

/-- A worker reads of the table the rows of its batch. -/
theorem Fair.of_rows {now : Nat} {rows others : List Row}
    (fair : Fair settings now rows node worker)
    (same : ∀ job ∈ worker.jobs, others[job.id]? = rows[job.id]?) :
    Fair settings now others node worker where
  known := fair.known
  held := fun job member => by
    rw [same job member]
    exact fair.held job member
  distinct := fair.distinct
  posting := fair.posting

theorem good_enqueue (good : Good settings st) :
    Good settings { st with rows := st.rows ++ [{ nextAttempt := st.now }] } := by
  have split : ∀ {id : Nat} {row : Row},
      (st.rows ++ [{ nextAttempt := st.now }])[id]? = some row →
        st.rows[id]? = some row ∨ id = st.rows.length ∧ row = { nextAttempt := st.now } := by
    intro id row here
    rw [getElem?_append] at here
    split at here
    · exact Or.inl here
    · rename_i late
      obtain ⟨place, last⟩ := List.getElem?_eq_some_iff.mp here
      have zero : id - st.rows.length = 0 := by simpa using place
      simp only [zero, List.getElem_cons_zero] at last
      exact Or.inr ⟨by omega, last.symm⟩
  have inside : ∀ node, ∀ job ∈ (st.workers node).jobs, job.id < st.rows.length := by
    intro node job member
    obtain ⟨_, found, _⟩ := (good.fair node).held job member
    exact (List.getElem?_eq_some_iff.mp found).1
  refine ⟨?_, ?_, ?_, ?_, ?_, ?_, good.once⟩
  · intro node
    apply (good.fair node).of_rows
    intro job member
    exact List.getElem?_append_left (inside node job member)
  · intro id row here free
    rcases split here with old | ⟨rfl, rfl⟩
    · exact good.resting id row old free
    · exact good.fresh st.rows.length (Nat.le_refl _)
  · intro node id row current here
    rcases split here with old | ⟨rfl, rfl⟩
    · exact good.active node id row current old
    · obtain ⟨job, member, same⟩ := current_mem current
      have := inside node job member
      omega
  · intro id row here
    rcases split here with old | ⟨rfl, rfl⟩
    · exact good.limit id row old
    · simp
  · intro id late
    rw [length_append, length_singleton] at late
    exact good.fresh id (by omega)
  · intro node id member
    obtain ⟨row, here, delivered⟩ := good.succeeded node id member
    exact ⟨row, by rw [List.getElem?_append_left (List.getElem?_eq_some_iff.mp here).1, here],
      delivered⟩

theorem good_tick (good : Good settings st) (time : Nat)
    (may : settings.nodes.all (fun node => mayWait st time (st.workers node)) = true) :
    Good settings { st with now := st.now + time } := by
  have waits : ∀ node, (st.workers node).jobs ≠ [] →
      ∃ start, (st.workers node).posting = some start ∧ st.now + time ≤ start + postTime := by
    intro node some_
    obtain ⟨job, member⟩ := exists_mem_of_ne_nil _ some_
    have this := all_eq_true.mp may node (good.known member)
    simp only [mayWait, Bool.or_eq_true, List.isEmpty_iff, some_, false_or] at this
    cases posting : (st.workers node).posting with
    | none => simp [posting] at this
    | some start => exact ⟨start, rfl, by simpa [posting] using this⟩
  refine ⟨?_, good.resting, good.active, good.limit, good.fresh, good.succeeded, good.once⟩
  intro node
  have fair := good.fair node
  refine ⟨fair.known, ?_, fair.distinct, ?_⟩
  · intro job member
    obtain ⟨row, here, held, lasts⟩ := fair.held job member
    obtain ⟨start, posting, _⟩ := waits node (ne_nil_of_mem member)
    refine ⟨row, here, held, lasts.imp_right (fun early => ?_)⟩
    simpa only [Worker.finishes, posting, Option.getD_some] using early
  · intro start posting
    obtain ⟨some_, _⟩ := fair.posting start posting
    obtain ⟨same, began, late⟩ := waits node some_
    cases posting.symm.trans began
    exact ⟨some_, late⟩

theorem mem_candidates (member : id ∈ candidates st locked) :
    ∃ row, st.rows[id]? = some row ∧ row.due st.now = true := by
  simp only [candidates, mem_filter, mem_range, Bool.and_eq_true] at member
  obtain ⟨_, _, due⟩ := member
  cases here : st.rows[id]? with
  | none => simp [here] at due
  | some row => exact ⟨row, rfl, by simpa [here] using due⟩

theorem selects_spec (chosen : selects settings st node locked ids = true) :
    ids.Nodup ∧ ids.length ≤ settings.limit node ∧
      ∀ id ∈ ids, ∃ row, st.rows[id]? = some row ∧ row.due st.now = true := by
  simp only [selects, Bool.and_eq_true, decide_eq_true_eq, all_eq_true, contains_iff_mem]
    at chosen
  obtain ⟨⟨⟨nodup, due⟩, length⟩, _⟩ := chosen
  exact ⟨nodup, by omega, fun id member => mem_candidates (due id member)⟩

/-- What is due is in nobody's batch. -/
theorem Good.due_free (good : Good settings st) (known : node ∈ settings.nodes)
    (idle : (st.workers node).jobs = []) {row : Row} (here : st.rows[id]? = some row)
    (due : row.due st.now = true) (other : String) :
    ∀ job ∈ (st.workers other).jobs, job.id ≠ id := by
  rintro job member rfl
  have held := good.row member here
  by_cases alone : Alone settings
  · rw [alone other (good.known member) node known, idle] at member
    cases member
  · have lasts := good.leased alone member here
    simp [Row.due, held.leased] at due
    omega

/-- Leasing free rows changes nothing that is known of the others. -/
theorem good_lease (good : Good settings st) (known : node ∈ settings.nodes)
    (idle : (st.workers node).jobs = [])
    (due : ∀ id ∈ ids, ∃ row, st.rows[id]? = some row ∧ row.due st.now = true) :
    Good settings { st with rows := lease st node ids } := by
  have before : ∀ {id : Nat} {row : Row}, (lease st node ids)[id]? = some row →
      ∃ old, st.rows[id]? = some old ∧ row.attempts = old.attempts ∧
        row.delivered = old.delivered ∧ row.maxAttempts = old.maxAttempts ∧
          row.nextAttempt = old.nextAttempt := by
    intro id row here
    rw [lease, get_updateWhere] at here
    obtain ⟨old, found, rfl⟩ := Option.map_eq_some_iff.mp here
    refine ⟨old, found, ?_⟩
    split <;> exact ⟨rfl, rfl, rfl, rfl⟩
  refine ⟨?_, ?_, ?_, ?_, ?_, ?_, good.once⟩
  · intro other
    apply (good.fair other).of_rows
    intro job member
    have outside : job.id ∉ ids := by
      intro inside
      obtain ⟨_, found, ready⟩ := due job.id inside
      exact good.due_free known idle found ready other job member rfl
    simp [lease, get_updateWhere, outside]
  · intro id row here free
    obtain ⟨old, found, attempts, delivered, _⟩ := before here
    rw [attempts, delivered]
    exact good.resting id old found free
  · intro other id row current here
    obtain ⟨old, found, attempts, _⟩ := before here
    rw [attempts]
    exact good.active other id old current found
  · intro id row here
    obtain ⟨old, found, attempts, delivered, maxAtt, next⟩ := before here
    rw [attempts, delivered, maxAtt, next]
    exact good.limit id old found
  · intro id late
    rw [lease, length_updateWhere] at late
    exact good.fresh id late
  · intro other id member
    obtain ⟨row, here, delivered⟩ := good.succeeded other id member
    refine ⟨_, by rw [lease, get_updateWhere, here]; rfl, ?_⟩
    split <;> exact delivered

/-- The worker of a new batch. -/
theorem fair_batch (good : Good settings st) (fine : Alone settings ∨ Short settings)
    (early : st.now < century) (known : node ∈ settings.nodes)
    (nodup : ids.Nodup) (length : ids.length ≤ settings.limit node)
    (due : ∀ id ∈ ids, ∃ row, st.rows[id]? = some row ∧ row.due st.now = true) :
    Fair settings st.now (lease st node ids) node ⟨ids.filterMap (jobOf st.rows), none⟩ := by
  refine ⟨fun outside => absurd known outside, ?_, ?_, fun start posting => by cases posting⟩
  · intro job member
    obtain ⟨id, inside, made⟩ := mem_filterMap.mp member
    obtain ⟨row, here, rfl⟩ := Option.map_eq_some_iff.mp made
    obtain ⟨_, found, ready⟩ := due id inside
    cases here.symm.trans found
    simp only [Row.due, Bool.and_eq_true, Bool.not_eq_true', decide_eq_true_eq] at ready
    refine ⟨{ row with leasedBy := some node, leaseUntil := st.now + leaseTime },
      by simp [lease, get_updateWhere, here, inside], ⟨rfl, ready.1.1, rfl, rfl, ?_⟩, ?_⟩
    · -- an event that was given up is not due for a century
      obtain ⟨bound, last⟩ := good.limit id row here
      apply Nat.lt_of_le_of_ne (Nat.le_trans (Nat.le_add_right _ _) bound)
      intro full
      have := last full
      omega
    · refine fine.imp_right (fun short => ?_)
      have two := short node known
      have fewer := length_filterMap_le (jobOf st.rows) ids
      simp only [Worker.finishes, Option.getD_none, postTime, leaseTime]
      omega
  · have all : ∀ id ∈ ids, (jobOf st.rows id).map Job.id = some id := by
      intro id inside
      obtain ⟨row, here, _⟩ := due id inside
      simp [jobOf, here]
    rw [map_filterMap, filterMap_congr all, filterMap_some]
    exact nodup

/-- The POSTs in progress once a worker has changed. -/
theorem current_update (workers : String → Worker) (node : String) (worker : Worker)
    (other : String) (id : Nat) :
    (update workers node worker other).current = some id ↔
      (other = node ∧ worker.current = some id) ∨
        (other ≠ node ∧ (workers other).current = some id) := by
  by_cases same : other = node
  · subst same
    simp
  · simp [same]

theorem good_claim (good : Good settings st) (fine : Alone settings ∨ Short settings)
    (early : st.now < century) (known : node ∈ settings.nodes) (idle : (st.workers node).jobs = [])
    (chosen : selects settings st node locked ids = true) :
    Good settings { st with
      rows := lease st node ids
      workers := update st.workers node ⟨ids.filterMap (jobOf st.rows), none⟩ } := by
  obtain ⟨nodup, length, due⟩ := selects_spec chosen
  have leased := good_lease good known idle due
  have current : ∀ other id,
      (update st.workers node ⟨ids.filterMap (jobOf st.rows), none⟩ other).current
        = some id ↔ (st.workers other).current = some id := by
    intro other id
    rw [current_update]
    by_cases same : other = node
    · subst same
      simp [Worker.current, idle]
    · simp [same]
  refine ⟨?_, ?_, ?_, leased.limit, leased.fresh, leased.succeeded, leased.once⟩
  · apply (forall_update_iff st.workers
      (fun other worker => Fair settings st.now (lease st node ids) other worker)).mpr
    exact ⟨fair_batch good fine early known nodup length due, fun other _ => leased.fair other⟩
  · intro id row here free
    exact leased.resting id row here (fun other busy => free other ((current other id).mpr busy))
  · intro other id row busy here
    exact leased.active other id row ((current other id).mp busy) here

theorem posts_concat (log : List Fact) (fact : Fact) (id : Nat) :
    (log ++ [fact]).countP (Fact.begins id) = log.countP (Fact.begins id) +
      if fact.begins id then 1 else 0 := by
  rw [countP_append, countP_singleton]

/-- A fact of a longer log is its last or was there before. -/
theorem concat_split {log front rest : List Fact} {last fact : Fact}
    (shape : log ++ [last] = front ++ fact :: rest) :
    (∃ less, log = front ++ fact :: less) ∨ log = front ∧ last = fact := by
  rcases eq_nil_or_concat rest with rfl | ⟨less, final, rfl⟩
  · obtain ⟨same, ends⟩ := append_inj' shape rfl
    exact Or.inr ⟨same, singleton_inj.mp ends⟩
  · rw [concat_eq_append, ← cons_append, ← append_assoc] at shape
    obtain ⟨same, _⟩ := append_inj' shape rfl
    exact Or.inl ⟨less, same⟩

theorem good_begin (good : Good settings st) {jobs : List Job}
    (shape : (st.workers node).jobs = job :: jobs) (quiet : (st.workers node).posting = none) :
    Good settings { st with
      workers := update st.workers node ⟨job :: jobs, some st.now⟩
      log := st.log ++ [.began node job.id] } := by
  have first : job ∈ (st.workers node).jobs := by simp [shape]
  obtain ⟨own, found, held, _⟩ := (good.fair node).held job first
  have counted : ∀ id, (st.log ++ [Fact.began node job.id]).countP (Fact.begins id) =
      posts st id + if job.id = id then 1 else 0 := by
    intro id
    rw [posts_concat]
    simp [posts, Fact.begins]
  have silent : ∀ id, (st.workers node).current ≠ some id := by
    intro id current
    simp [Worker.current, quiet] at current
  refine ⟨?_, ?_, ?_, good.limit, ?_, ?_, ?_⟩
  · apply (forall_update_iff st.workers
      (fun other worker => Fair settings st.now st.rows other worker)).mpr
    refine ⟨?_, fun other _ => good.fair other⟩
    have fair := good.fair node
    rw [← shape]
    refine ⟨fair.known, ?_, fair.distinct, ?_⟩
    · simpa only [Worker.finishes, quiet, Option.getD_none, Option.getD_some] using fair.held
    · intro start posting
      cases posting
      exact ⟨ne_nil_of_mem first, Nat.le_add_right _ _⟩
  · intro id row here free
    have different : job.id ≠ id := by
      rintro rfl
      exact free node (by simp [Worker.current])
    refine (counted id).trans ?_
    rw [if_neg different, Nat.add_zero]
    apply good.resting id row here
    intro other current
    have another : other ≠ node := fun same => silent id (same ▸ current)
    exact free other ((current_update ..).mpr (Or.inr ⟨another, current⟩))
  · intro other id row current here
    refine (counted id).trans ?_
    rcases (current_update ..).mp current with ⟨rfl, mine⟩ | ⟨different, current⟩
    · obtain rfl : job.id = id := Option.some.inj mine
      cases here.symm.trans found
      rw [if_pos rfl, good.resting job.id _ here, held.open_]
      · rfl
      · intro another busy
        by_cases same : another = other
        · exact silent job.id (same ▸ busy)
        · exact good.elsewhere first same busy rfl
    · rw [if_neg (good.elsewhere first different current).symm]
      exact good.active other id row current here
  · intro id late
    have inside := (List.getElem?_eq_some_iff.mp found).1
    refine (counted id).trans ?_
    rw [good.fresh id late, if_neg (Nat.ne_of_lt (Nat.lt_of_lt_of_le inside late))]
  · intro other id member
    exact good.succeeded other id (by simpa using member)
  · intro front rest other another id split ended
    rcases concat_split split with ⟨less, earlier⟩ | ⟨rfl, last⟩
    · exact good.once front less other another id earlier ended
    · obtain ⟨_, rfl⟩ := Fact.began.inj last
      obtain ⟨row, here, delivered⟩ := good.succeeded another job.id ended
      exact good.undelivered first here delivered rfl

/-- The row of a POST that ended. -/
theorem resultOf_spec (settings : Settings) {row : Row}
    (held : Held node job row) (now : Nat) (ok : Bool) :
    (resultOf settings now node job ok row).attempts +
        (resultOf settings now node job ok row).delivered.toNat = row.attempts + 1 ∧
      (resultOf settings now node job ok row).delivered = ok ∧
      (resultOf settings now node job ok row).maxAttempts = row.maxAttempts ∧
      ((resultOf settings now node job ok row).attempts = row.maxAttempts →
        century ≤ (resultOf settings now node job ok row).nextAttempt) := by
  have left := held.left
  rw [held.maxAtt, held.attempts] at left
  cases ok with
  | true =>
    simp only [resultOf, if_true, held.attempts, held.maxAtt]
    exact ⟨rfl, trivial, trivial, fun full => by omega⟩
  | false =>
    by_cases last : job.maxAtt ≤ job.attempts + 1
    · simp only [resultOf, Bool.false_eq_true, if_false, last, if_true, held.open_, held.attempts]
      exact ⟨rfl, trivial, trivial, fun _ => by omega⟩
    · simp only [resultOf, Bool.false_eq_true, if_false, last, held.open_, held.attempts,
        held.maxAtt]
      exact ⟨rfl, trivial, trivial, fun full => by omega⟩

theorem get_written_other (node : String) (job : Job) (ok : Bool)
    (different : id ≠ job.id) : (written settings st node job ok)[id]? = st.rows[id]? := by
  simp [written, get_updateWhere, different]

section Finish

variable {jobs : List Job} {start : Nat}

/-- Every worker has the rows of its batch when a POST has ended. -/
theorem fair_finish (good : Good settings st) (shape : (st.workers node).jobs = job :: jobs)
    (posting : (st.workers node).posting = some start) (ok : Bool) (other : String) :
    Fair settings st.now (written settings st node job ok) other
      (update st.workers node ⟨jobs, none⟩ other) := by
  have fair := good.fair node
  have distinct := fair.distinct
  rw [shape, map_cons, nodup_cons] at distinct
  refine (forall_update_iff st.workers (fun other worker =>
    Fair settings st.now (written settings st node job ok) other worker)).mpr ⟨?_, ?_⟩ other
  · refine Fair.of_rows (?_ : Fair settings st.now st.rows node ⟨jobs, none⟩) ?_
    · refine ⟨fun outside => ?_, ?_, distinct.2, fun _ some_ => by cases some_⟩
      · rw [fair.known outside] at shape
        cases shape
      · intro its member
        obtain ⟨row, here, its, time⟩ := fair.held its (by simp [shape, member])
        refine ⟨row, here, its, time.imp_right (fun early => ?_)⟩
        have late := (fair.posting start posting).2
        simp only [Worker.finishes, shape, posting, Option.getD_some, Option.getD_none,
          length_cons, postTime] at early late ⊢
        omega
    · intro its member
      apply get_written_other
      intro same
      exact distinct.1 (same ▸ mem_map_of_mem member)
  · intro other different
    apply (good.fair other).of_rows
    intro its member
    apply get_written_other
    intro same
    exact different (good.same_node (by simp [shape]) member same).symm

theorem good_finish (good : Good settings st) (shape : (st.workers node).jobs = job :: jobs)
    (posting : (st.workers node).posting = some start) (ok : Bool) :
    Good settings { st with
      rows := written settings st node job ok
      workers := update st.workers node ⟨jobs, none⟩
      log := st.log ++ [.ended node job.id ok] } := by
  have first : job ∈ (st.workers node).jobs := by simp [shape]
  obtain ⟨own, found, held, _⟩ := (good.fair node).held job first
  obtain ⟨sum, delivered, maxAtt, last⟩ := resultOf_spec settings held st.now ok
  have current : (st.workers node).current = some job.id := by
    simp [Worker.current, posting, shape]
  have mine : (written settings st node job ok)[job.id]? =
      some (resultOf settings st.now node job ok own) := by
    simp [written, get_updateWhere, found, held.leased]
  have counted : ∀ id, (st.log ++ [Fact.ended node job.id ok]).countP (Fact.begins id) =
      posts st id := by
    intro id
    rw [posts_concat]
    rfl
  refine ⟨fair_finish good shape posting ok, ?_, ?_, ?_, ?_, ?_, ?_⟩
  · intro id row here free
    refine (counted id).trans ?_
    by_cases same : id = job.id
    · subst same
      cases here.symm.trans mine
      rw [good.active node job.id own current found]
      exact sum.symm
    · rw [get_written_other node job ok same] at here
      apply good.resting id row here
      intro other busy
      by_cases another : other = node
      · subst another
        exact same (Option.some.inj (busy.symm.trans current))
      · exact free other ((current_update ..).mpr (Or.inr ⟨another, busy⟩))
  · intro other id row busy here
    refine (counted id).trans ?_
    rcases (current_update ..).mp busy with ⟨_, none_⟩ | ⟨different, busy⟩
    · simp [Worker.current] at none_
    · rw [get_written_other node job ok (good.elsewhere first different busy)] at here
      exact good.active other id row busy here
  · intro id row here
    by_cases same : id = job.id
    · subst same
      cases here.symm.trans mine
      rw [sum, maxAtt]
      exact ⟨held.left, last⟩
    · rw [get_written_other node job ok same] at here
      exact good.limit id row here
  · intro id late
    rw [written, length_updateWhere] at late
    exact (counted id).trans (good.fresh id late)
  · intro other id member
    rcases mem_append.mp member with old | new
    · obtain ⟨row, here, done⟩ := good.succeeded other id old
      have different := good.undelivered first here done
      exact ⟨row, (get_written_other node job ok different).trans here, done⟩
    · obtain ⟨_, rfl, rfl⟩ := Fact.ended.inj (mem_singleton.mp new)
      exact ⟨_, mine, delivered⟩
  · intro front rest other another id split
    rcases concat_split split with ⟨less, earlier⟩ | ⟨_, last⟩
    · exact good.once front less other another id earlier
    · cases last

end Finish

/-- One step of any node. -/
theorem good_step (fine : Alone settings ∨ Short settings) {label : Label} {next : State}
    (good : Good settings st) (early : st.now < century) (writes : Written st label)
    (moved : step settings st label = some next) : Good settings next := by
  cases label with
  | enqueue =>
    cases moved
    exact good_enqueue good
  | tick time =>
    simp only [step] at moved
    split at moved <;> try contradiction
    rename_i may
    cases moved
    exact good_tick good time may
  | claim node locked ids outcome =>
    simp only [step, claim] at moved
    split at moved <;> try contradiction
    rename_i known
    split at moved <;> try contradiction
    rename_i here
    cases outcome with
    | failed =>
      cases moved
      exact good
    | unreported =>
      cases moved
      exact good_lease good known here.1 (selects_spec here.2).2.2
    | committed =>
      cases moved
      exact good_claim good fine early known here.1 here.2
  | begin_ node =>
    simp only [step] at moved
    split at moved <;> try contradiction
    rename_i job jobs shape quiet
    cases moved
    exact good_begin good shape quiet
  | finish node ok outcome =>
    simp only [step, finish] at moved
    split at moved <;> try contradiction
    rename_i job jobs start shape posting
    cases moved
    have all : outcome ≠ .failed := writes
    rw [if_neg all]
    exact good_finish good shape posting ok

/-! ### Whole runs -/

theorem step_now {label : Label} {next : State} (moved : step settings st label = some next) :
    st.now ≤ next.now := by
  cases label with
  | enqueue =>
    cases moved
    exact Nat.le_refl _
  | tick =>
    simp only [step, Option.ite_none_right_eq_some, Option.some.injEq] at moved
    obtain ⟨_, rfl⟩ := moved
    exact Nat.le_add_right _ _
  | claim _ _ _ outcome =>
    simp only [step, claim, Option.ite_none_right_eq_some] at moved
    obtain ⟨_, _, moved⟩ := moved
    cases outcome <;> obtain rfl := Option.some.inj moved <;> exact Nat.le_refl _
  | begin_ =>
    simp only [step] at moved
    split at moved
    · cases moved
      exact Nat.le_refl _
    · cases moved
  | finish =>
    simp only [step, finish] at moved
    split at moved
    · cases moved
      exact Nat.le_refl _
    · cases moved

theorem good_run (fine : Alone settings ∨ Short settings) {labels : List Label} {final : State}
    (writes : Meets (step settings) Written {} labels)
    (reached : run (step settings) {} labels = some final) (early : final.now < century) :
    Good settings final := by
  refine invariant (fun st => st.now < century → Good settings st) ?_ (fun _ => good_start) writes
    reached early
  intro st label next good writes moved before
  have earlier := Nat.lt_of_le_of_lt (step_now moved) before
  exact good_step fine (good earlier) earlier writes moved

/-- A batch of three, and another node when the third POST has taken a millisecond. -/
def overrun (node other : String) : List Label :=
  [.enqueue, .enqueue, .enqueue, .claim node [] [0, 1, 2] .committed, .begin_ node, .tick 15000,
    .finish node true .committed, .begin_ node, .tick 15000, .finish node true .committed,
    .begin_ node, .tick 1, .claim other [] [2] .committed, .begin_ other]

theorem limit_pos (settings : Settings) (node : String) : 1 ≤ settings.limit node := by
  rw [Settings.limit]
  split <;> omega

/-- Only one node has events. -/
def single (node : String) (worker : Worker) (now : Nat) (rows : List Row) (log : List Fact) :
    State :=
  ⟨now, rows, update (fun _ => {}) node worker, log⟩

section Single

variable (settings) (node : String) (job : Job) (jobs : List Job) (now start : Nat)
  (rows : List Row) (log : List Fact)

theorem single_begin : step settings (single node ⟨job :: jobs, none⟩ now rows log) (.begin_ node) =
    some (single node ⟨job :: jobs, some now⟩ now rows (log ++ [.began node job.id])) := by
  simp [step, single]

theorem single_tick {time : Nat} (timely : now + time ≤ start + postTime) :
    step settings (single node ⟨jobs, some start⟩ now rows log) (.tick time) =
      some (single node ⟨jobs, some start⟩ (now + time) rows log) := by
  rw [step, if_pos]
  · rfl
  · rw [all_eq_true]
    intro other _
    by_cases same : other = node
    · subst same
      simp [mayWait, single, timely]
    · simp [mayWait, single, same]

theorem single_finish :
    step settings (single node ⟨job :: jobs, some start⟩ now rows log)
        (.finish node true .committed) =
      some (single node ⟨jobs, none⟩ now
        (updateWhere rows (fun id row => id == job.id && row.leasedBy == some node)
          (fun row => { row with delivered := true, leasedBy := none }))
        (log ++ [.ended node job.id true])) := by
  simp [step, finish, single, written]
  rfl

end Single

/-- Three new events, all claimed. -/
theorem three_claimed (known : node ∈ settings.nodes) (large : 3 ≤ settings.limit node) :
    step settings { rows := List.replicate 3 { nextAttempt := 0 } }
        (.claim node [] [0, 1, 2] .committed) =
      some (single node ⟨[⟨0, 0, 10⟩, ⟨1, 0, 10⟩, ⟨2, 0, 10⟩], none⟩ 0
        (List.replicate 3 ⟨0, 0, 10, some node, leaseTime, false⟩) []) := by
  have due : candidates { rows := List.replicate 3 { nextAttempt := 0 } } [] = [0, 1, 2] := rfl
  have chosen : selects settings { rows := List.replicate 3 { nextAttempt := 0 } } node []
      [0, 1, 2] = true := by
    rw [selects, due]
    simp [Nat.min_eq_left large]
  simp only [step, known, if_true, claim, chosen, and_self]
  rfl

/-- Two of them are posted and the lease of the third is over. -/
def lapsed (node : String) (log : List Fact) : State :=
  single node ⟨[⟨2, 0, 10⟩], some 30000⟩ 30001
    [⟨0, 0, 10, none, leaseTime, true⟩, ⟨0, 0, 10, none, leaseTime, true⟩,
      ⟨0, 0, 10, some node, leaseTime, false⟩] log

theorem lapsed_claimed {other : String} (knownToo : other ∈ settings.nodes)
    (different : other ≠ node) {log : List Fact} :
    step settings (lapsed node log) (.claim other [] [2] .committed) = some { lapsed node log with
      rows := lease (lapsed node log) other [2]
      workers := update (lapsed node log).workers other ⟨[⟨2, 0, 10⟩], none⟩ } := by
  have one := limit_pos settings other
  have due : candidates (lapsed node log) [] = [2] := rfl
  have chosen : selects settings (lapsed node log) other [] [2] = true := by
    rw [selects, due]
    simp [Nat.min_eq_left one]
  rw [step, if_pos knownToo, claim, if_pos ⟨by simp [lapsed, single, different], chosen⟩]
  rfl

theorem overrun_twice {other : String} (known : node ∈ settings.nodes)
    (knownToo : other ∈ settings.nodes) (different : other ≠ node)
    (large : 3 ≤ settings.limit node) :
    ∃ final, Meets (step settings) Written {} (overrun node other) ∧
      run (step settings) {} (overrun node other) = some final ∧ final.now < century ∧
        (final.workers node).current = some 2 ∧ (final.workers other).current = some 2 := by
  obtain ⟨log, isLog⟩ : ∃ log : List Fact, log = [.began node 0, .ended node 0 true, .began node 1,
    .ended node 1 true, .began node 2] := ⟨_, rfl⟩
  have lapses : step settings (single node ⟨[⟨2, 0, 10⟩], some 30000⟩ 30000
      (updateWhere (updateWhere (List.replicate 3 ⟨0, 0, 10, some node, leaseTime, false⟩)
        (fun id row => id == 0 && row.leasedBy == some node)
          (fun row => { row with delivered := true, leasedBy := none }))
        (fun id row => id == 1 && row.leasedBy == some node)
          (fun row => { row with delivered := true, leasedBy := none })) log) (.tick 1) =
      some (lapsed node log) := by
    rw [single_tick _ _ _ _ _ _ _ (by decide)]
    simp [lapsed, updateWhere]
  refine ⟨⟨30001, lease (lapsed node log) other [2], update (update
    (lapsed node log).workers other ⟨[⟨2, 0, 10⟩], none⟩) other ⟨[⟨2, 0, 10⟩], some 30001⟩,
      log ++ [.began other 2]⟩, by simp [overrun, Meets, Written], ?_,
      (by decide : 30001 < century), ?_, ?_⟩
  · simp only [overrun, run_cons]
    refine ⟨_, rfl, _, rfl, _, rfl, _, three_claimed known large, _, single_begin .., _,
      single_tick _ _ _ _ _ _ _ (by decide), _, single_finish .., _, single_begin .., _,
      single_tick _ _ _ _ _ _ _ (by decide), _, single_finish .., _, single_begin .., _,
      isLog ▸ lapses, _, lapsed_claimed knownToo different, _, ?_, rfl⟩
    simp only [step, update_self]
    rw [isLog]
    rfl
  · simp [lapsed, single, different.symm, Worker.current]
  · simp [Worker.current]

end Steps

/-- As long as results are written, and up to a hundred years after the start, the workers are safe
exactly if no batch outlives its lease, or there is nobody else to claim what is left of it. -/
theorem workers_safe_iff (settings : Settings) :
    (∀ labels final, Meets (step settings) Written {} labels →
      run (step settings) {} labels = some final → final.now < century → Safe settings final) ↔
        Alone settings ∨ Short settings := by
  constructor
  · intro safe
    apply Classical.or_iff_not_imp_left.mpr
    intro several node known
    apply Nat.le_of_not_lt
    intro large
    obtain ⟨other, knownToo, different⟩ : ∃ other ∈ settings.nodes, other ≠ node := by
      apply Classical.byContradiction
      intro nobody
      apply several
      have all : ∀ other ∈ settings.nodes, other = node := fun other member =>
        Classical.byContradiction (fun different => nobody ⟨other, member, different⟩)
      intro first member second memberToo
      rw [all first member, all second memberToo]
    obtain ⟨final, writes, reached, early, one, two⟩ :=
      overrun_twice known knownToo different large
    have safe := safe _ final writes reached early
    exact different (safe.exclusive 2 other knownToo node known two one)
  · intro fine labels final writes reached early
    exact (good_run fine writes reached early).safe

/-- The batch size of the server, with two nodes. -/
def production : Settings := ⟨["node-1", "node-2"], fun _ => 50, fun _ => 0⟩

/-- The last of three slow events is posted by both nodes at once. -/
theorem batch_outlives_lease :
    ∃ final, Meets (step production) Written {} (overrun "node-1" "node-2") ∧
      run (step production) {} (overrun "node-1" "node-2") = some final ∧ final.now < century ∧
        ¬ Safe production final := by
  have known : "node-1" ∈ production.nodes := by simp [production]
  have knownToo : "node-2" ∈ production.nodes := by simp [production]
  have different : "node-2" ≠ "node-1" := by decide
  obtain ⟨final, writes, reached, early, one, two⟩ :=
    overrun_twice known knownToo different (by decide)
  refine ⟨final, writes, reached, early, ?_⟩
  intro safe
  exact different (safe.exclusive 2 _ knownToo _ known two one)

end OctoMail.Deliverability.WebhookWorker
