import OctoMail.Queue.Outcomes

/-!
# The queue in operation

The system of workers and administrators with three things the final outcome of a
message does not depend on. Deliver is called some time after its lease was renewed,
so the call is a step of its own. `HoldRuleAdd` holds queued messages and
`CleanupRetired` deletes the log of retired ones (`mailflow/queue/admin.go`). And
every step happens at a time, against which leases and context deadlines run.

The time of a step is when its transaction takes effect; the `now()` of the
transaction is read when it begins and may be earlier. Nothing relates the times of
a run unless a theorem asks for it.

`held` is the hold flag that each message has, or had when its row was deleted. With
`leaseEnd`, the end of the lease a worker renewed last, it records history.
-/

namespace OctoMail.Queue

open Function
open Transition (Outcome)

/-- `deliveryTimeout`: the lease less a fifth of it, and less a second at least. -/
def Worker.deliveryTimeout (w : Worker) : Int :=
  let margin := if w.lease.tdiv 5 < second then second else w.lease.tdiv 5
  if w.lease ≤ margin then w.lease else w.lease - margin

/-- The criteria of a hold rule; zero and empty ones match everything. -/
structure HoldRule where
  tenantId : Nat
  accountId : Nat
  senderDomain : String
  recipientDomain : String
deriving DecidableEq, Repr

/-- `split_part(address, '@', 2)`. -/
def domainOf (address : String) : List Char :=
  ((address.toList.dropWhile (· != '@')).drop 1).takeWhile (· != '@')

def HoldRule.matches (rule : HoldRule) (row : Row) : Bool :=
  row.tenantId == rule.tenantId && (rule.accountId == 0 || row.accountId == rule.accountId) &&
    (rule.senderDomain == "" || domainOf row.mailFrom == rule.senderDomain.toList) &&
      (rule.recipientDomain == "" || domainOf row.rcptTo == rule.recipientDomain.toList)

/-- The UPDATE of `HoldRuleAdd` on the rows it met. No entry is logged. -/
def Db.holdRuleAddTx (db : Db) (ids : List Nat) : Db :=
  { db with queue := fun id =>
      if id ∈ ids then (db.queue id).map (fun row => { row with hold := true }) else db.queue id }

/-- The message has an entry whose retention has passed. -/
def Db.expired (db : Db) (now : Int) (id : Nat) : Bool :=
  db.log.any (fun entry => entry.queueId == id && entry.keepUntil.any (fun keep => keep < now))

def Db.cleanupRetiredTx (db : Db) (now : Int) : Db :=
  { db with log := db.log.filter (fun entry => !db.expired now entry.queueId) }

inductive Act where
  | queue (label : Label)
  /-- Deliver is called. -/
  | enter (node : String)
  | holdRuleAdd (rule : HoldRule) (ids : List Nat)
  | cleanupRetired (now : Int)
deriving DecidableEq, Repr

structure Event where
  time : Int
  act : Act
deriving DecidableEq, Repr

structure Site where
  base : State
  /-- The workers whose Deliver call is running. -/
  inside : String → Bool
  held : Nat → Bool
  time : Int
  leaseEnd : String → Int
  /-- The deadline of the context of the Deliver call. -/
  deadline : String → Int

variable {label : Label} {settings : String → Worker} {node : String} {now : Int} {s t : State}

namespace Site

def initial : Site where
  base := Queue.initial
  inside := fun _ => false
  held := fun _ => false
  time := 0
  leaseEnd := fun _ => 0
  deadline := fun _ => 0

/-- The tables have changed at a time. -/
def observe (s : Site) (time : Int) (base : State) : Site :=
  { s with
    base := base
    time := time
    held := fun id =>
      match base.db.queue id with
      | some row => row.hold
      | none => s.held id }

/-- A step of the queue. Deliver returns only after it was called. -/
def queue (settings : String → Worker) (s : Site) (time : Int) (label : Label) : Option Site :=
  match label with
  | .renewLease node _ now => (step settings s.base label).map (fun base =>
      { s.observe time base with
        leaseEnd := update s.leaseEnd node (now + (settings node).lease) })
  | .deliver node _ =>
      if s.inside node then
        (step settings s.base label).map (fun base =>
          { s.observe time base with inside := update s.inside node false })
      else none
  | .crash node => (step settings s.base label).map (fun base =>
      { s.observe time base with inside := update s.inside node false })
  | _ => (step settings s.base label).map (s.observe time)

def enter (settings : String → Worker) (s : Site) (time : Int) (node : String) : Option Site :=
  match s.base.workers node, s.inside node with
  | .delivering _ _, false => some { s.observe time s.base with
      inside := update s.inside node true
      deadline := update s.deadline node (time + (settings node).deliveryTimeout) }
  | _, _ => none

def holdRuleAdd (s : Site) (time : Int) (rule : HoldRule) (ids : List Nat) : Option Site :=
  if ids.all (fun id => (s.base.db.queue id).any (fun row => !row.hold && rule.matches row)) then
    some (s.observe time { s.base with db := s.base.db.holdRuleAddTx ids })
  else none

def step (settings : String → Worker) (s : Site) (event : Event) : Option Site :=
  match event.act with
  | .queue label => s.queue settings event.time label
  | .enter node => s.enter settings event.time node
  | .holdRuleAdd rule ids => s.holdRuleAdd event.time rule ids
  | .cleanupRetired now =>
      some (s.observe event.time { s.base with db := s.base.db.cleanupRetiredTx now })

/-- What a step does to the workers' Deliver calls and to the leases they remember. -/
inductive Calls (settings : String → Worker) (s t : Site) : Act → Prop
  | renew (node : String) (outcome : Outcome) (now : Int) (inside : t.inside = s.inside)
      (leaseEnd : t.leaseEnd = update s.leaseEnd node (now + (settings node).lease))
      (deadline : t.deadline = s.deadline) :
      Calls settings s t (.queue (.renewLease node outcome now))
  | leave (node : String) (label : Label)
      (which : label = .crash node ∨ s.inside node = true ∧ ∃ a, label = .deliver node a)
      (inside : t.inside = update s.inside node false)
      (leaseEnd : t.leaseEnd = s.leaseEnd) (deadline : t.deadline = s.deadline) :
      Calls settings s t (.queue label)
  | other (label : Label) (renews : ∀ node outcome now, label ≠ .renewLease node outcome now)
      (leaves : ∀ node a, label ≠ .deliver node a) (crashes : ∀ node, label ≠ .crash node)
      (inside : t.inside = s.inside) (leaseEnd : t.leaseEnd = s.leaseEnd)
      (deadline : t.deadline = s.deadline) : Calls settings s t (.queue label)

theorem observe_held (s : Site) (time : Int) (base : State) (id : Nat) :
    (s.observe time base).held id = ((base.db.queue id).map Row.hold).getD (s.held id) := by
  simp only [observe]
  cases base.db.queue id <;> rfl

variable {time : Int}

/-- A step of the queue, with the workers' calls. -/
theorem step_queue {s t : Site} (moved : s.step settings ⟨time, .queue label⟩ = some t) :
    Queue.step settings s.base label = some t.base ∧ t.time = time ∧
      (∀ id, t.held id = ((t.base.db.queue id).map Row.hold).getD (s.held id)) ∧
      Calls settings s t (.queue label) := by
  simp only [step, queue] at moved
  split at moved
  · rename_i node outcome now
    obtain ⟨base, ran, rfl⟩ := Option.map_eq_some_iff.mp moved
    exact ⟨ran, rfl, observe_held s time base, .renew node outcome now rfl rfl rfl⟩
  · rename_i node a
    split at moved <;> try contradiction
    rename_i called
    obtain ⟨base, ran, rfl⟩ := Option.map_eq_some_iff.mp moved
    exact ⟨ran, rfl, observe_held s time base, .leave node _ (.inr ⟨called, a, rfl⟩) rfl rfl rfl⟩
  · rename_i node
    obtain ⟨base, ran, rfl⟩ := Option.map_eq_some_iff.mp moved
    exact ⟨ran, rfl, observe_held s time base, .leave node _ (.inl rfl) rfl rfl rfl⟩
  · rename_i renews leaves crashes
    obtain ⟨base, ran, rfl⟩ := Option.map_eq_some_iff.mp moved
    exact ⟨ran, rfl, observe_held s time base, .other label renews leaves crashes rfl rfl rfl⟩

/-- Deliver is called by a worker that has renewed and not called it yet. -/
theorem step_enter {s t : Site} (moved : s.step settings ⟨time, .enter node⟩ = some t) :
    (∃ m rest, s.base.workers node = .delivering m rest) ∧ s.inside node = false ∧
      t = { s.observe time s.base with
        inside := update s.inside node true
        deadline := update s.deadline node (time + (settings node).deliveryTimeout) } := by
  simp only [step, enter] at moved
  split at moved
  · rename_i m rest at_ outside
    exact ⟨⟨m, rest, at_⟩, outside, (Option.some.inj moved).symm⟩
  · cases moved

/-- A hold rule holds rows that were not on hold. -/
theorem step_holdRuleAdd {s t : Site} {rule : HoldRule}
    {ids : List Nat} (moved : s.step settings ⟨time, .holdRuleAdd rule ids⟩ = some t) :
    (∀ id ∈ ids, ∃ row, s.base.db.queue id = some row ∧ row.hold = false) ∧
      t = s.observe time { s.base with db := s.base.db.holdRuleAddTx ids } := by
  simp only [step, holdRuleAdd] at moved
  split at moved <;> try contradiction
  rename_i met
  refine ⟨fun id member => ?_, (Option.some.inj moved).symm⟩
  have found := List.all_eq_true.mp met id member
  obtain ⟨row, stored, free⟩ := (Option.any_eq_true _ _).mp found
  exact ⟨row, stored, by simp at free; exact free.1⟩

end Site

/-- What a step of the queue does to the row of one id. -/
inductive Touched (settings : String → Worker) (id : Nat) : Label → Option Row → Option Row → Prop
  | same (label : Label) (row : Option Row) : Touched settings id label row row
  | inserted (m : Msg) (hold : Bool) (maxAttempts : Nat) (now : Int) (before : Option Row)
      (row : Row) (leasedBy : row.leasedBy = none) (leaseUntil : row.leaseUntil = none)
      (holds : row.hold = hold) :
      Touched settings id (.enqueue id m hold maxAttempts now) before (some row)
  | claimed (node : String) (ids : List Nat) (outcome : Outcome) (now : Int) (row : Row)
      (taken : id ∈ ids) (due : row.due now = true) :
      Touched settings id (.claim node ids outcome now) (some row)
        (some (row.claimed node (settings node).lease now))
  | renewed (node : String) (outcome : Outcome) (now : Int) (row : Row)
      (leased : row.leasedBy = some node)
      (running : row.leaseUntil.any (fun until_ => now < until_) = true) :
      Touched settings id (.renewLease node outcome now) (some row)
        (some (row.renewed (settings node).lease now))
  | released (node : String) (outcome : Outcome) (clock now delay : Int) (row : Row)
      (error : String) (wantDelay : Bool) (leased : row.leasedBy = some node) :
      Touched settings id (.reschedule node outcome clock now delay) (some row)
        (some (row.released delay error wantDelay now))
  | removed (label : Label) (row : Option Row) : Touched settings id label row none
  | changed (op : AdminOp) (f : Filter) (ids : List Nat) (clock now : Int) (row : Row)
      (taken : id ∈ ids) :
      Touched settings id (.admin op f ids clock now) (some row) (op.change now row)

/-- A row other than the one a transaction is about stays. -/
theorem touched_about {m : Msg} {row : Option Row} {more : List Fact} {change : Outbound → Outbound}
    {db next : Db} (about : About m row more change db next) (id : Nat)
    (mine : Touched settings m.id label (db.queue m.id) row) :
    Touched settings id label (db.queue id) (next.queue id) := by
  rw [about.queue]
  by_cases same : id = m.id
  · subst same
    rwa [update_self]
  · rw [update_of_ne same]
    exact .same label _

/-- A claim takes rows that are due. -/
theorem claim_due (settings : String → Worker) (s t : State) (node : String) (ids : List Nat)
    (outcome : Outcome) (now : Int) (moved : step settings s (.claim node ids outcome now) = some t)
    (id : Nat) (taken : id ∈ ids) : ∃ row, s.db.queue id = some row ∧ row.due now = true := by
  simp only [step, State.claim] at moved
  split at moved <;> try contradiction
  split at moved
  · rename_i enabled
    exact (Option.any_eq_true _ _).mp (List.all_eq_true.mp enabled.2.2 id taken)
  · cases moved

theorem claim_touched {ids : List Nat} {outcome : Outcome}
    (moved : step settings s (.claim node ids outcome now) = some t) (id : Nat) :
    Touched settings id (.claim node ids outcome now) (s.db.queue id) (t.db.queue id) := by
  have due := claim_due settings s t node ids outcome now moved id
  simp only [step, State.claim] at moved
  split at moved <;> try contradiction
  split at moved <;> try contradiction
  cases moved
  have table : Touched settings id (.claim node ids outcome now) (s.db.queue id)
      ((s.db.claimTx node ids (settings node).lease now).queue id) := by
    simp only [Db.claimTx]
    split
    · rename_i taken
      obtain ⟨row, stored, due⟩ := due taken
      rw [stored]
      exact .claimed node ids outcome now row taken due
    · exact .same _ _
  cases outcome with
  | failed => exact .same _ _
  | committed | unreported => exact table

/-- A renewal acts on a row leased to the node whose lease has not run out. -/
theorem renewLeaseTx_running {db next : Db} {m : Msg} {lease : Int}
    {attempts : Nat} (renewed : db.renewLeaseTx node m lease now = some (attempts, next)) :
    ∃ row, db.queue m.id = some row ∧ row.leasedBy = some node ∧
      row.leaseUntil.any (fun until_ => now < until_) = true ∧
      About m (some (row.renewed lease now)) [] (Outbound.deliver attempts now) db next := by
  obtain ⟨row, stored, leased, _, about⟩ :=
    renewLeaseTx_spec renewed
  simp only [Db.renewLeaseTx, stored] at renewed
  split at renewed
  · rename_i running
    exact ⟨row, stored, leased, running.2, about⟩
  · cases renewed

theorem renewLease_touched {outcome : Outcome}
    (moved : step settings s (.renewLease node outcome now) = some t) (id : Nat) :
    Touched settings id (.renewLease node outcome now) (s.db.queue id) (t.db.queue id) := by
  simp only [step, State.renewLease] at moved
  split at moved <;> try contradiction
  rename_i m rest at_
  split at moved
  · cases moved
    exact .same _ _
  rename_i attempts db renewed
  obtain ⟨row, stored, leased, running, about⟩ :=
    renewLeaseTx_running renewed
  have table : Touched settings id (.renewLease node outcome now) (s.db.queue id)
      (db.queue id) :=
    touched_about about id
      (stored ▸ .renewed node outcome now row leased running)
  split at moved
  · rename_i committed
    subst committed
    cases moved
    exact table
  · cases moved
    cases outcome with
    | failed => exact .same _ _
    | committed | unreported => exact table

/-- Every step of the queue, seen from one row. -/
theorem step_touched (moved : step settings s label = some t) (id : Nat) :
    Touched settings id label (s.db.queue id) (t.db.queue id) := by
  cases step_moved moved with
  | claim => exact claim_touched moved id
  | renew | start => exact renewLease_touched moved id
  | enqueue new m hold maxAttempts now =>
    obtain ⟨row, queue, _, _, leasedBy, leaseUntil, holds⟩ :=
      enqueueTx_row s.db new m hold maxAttempts now
    simp only [queue]
    by_cases same : id = new
    · subst same
      rw [update_self]
      exact .inserted m hold maxAttempts now _ row leasedBy leaseUntil holds
    · rw [update_of_ne same]
      exact .same _ _
  | record _ m a =>
    exact touched_about (recordResultTx_spec s.db m a _) id
      (.same _ _)
  | deliver _ _ retired | giveUp _ _ _ retired =>
    obtain ⟨_, about⟩ := retireTx_spec retired
    exact touched_about about id (.removed _ _)
  | backOff node _ released =>
    obtain ⟨row, stored, leased, about⟩ := rescheduleTx_spec released
    exact touched_about about id (stored ▸ .released node _ _ _ _ row _ _ leased)
  | admin op ids =>
    rw [mutateLog_queue]
    split
    · rename_i taken
      cases stored : s.db.queue id with
      | none => exact .same _ _
      | some row => exact .changed op _ ids _ _ row taken
    · exact .same _ _
  | failDelete _ _ _ removed =>
    obtain ⟨_, about⟩ := failTx_spec removed
    exact touched_about about id (.removed _ _)
  | bounce | alone | failHook | failAlone => exact .same _ _

/-- A step inserts the rows that appear. -/
theorem moved_rows (moved : step settings s label = some t) {id : Nat}
    (rows : s.db.queue id ≠ none → s.inserted id ≠ none) (stored : t.db.queue id ≠ none) :
    t.inserted id ≠ none := by
  intro absent
  have moves := step_moved moved
  have vacant : s.inserted id = none := moved_inserted moves absent
  have empty : s.db.queue id = none := by
    by_contra present
    exact rows present vacant
  have touched := step_touched moved id
  rw [empty] at touched
  generalize from_ : (none : Option Row) = before at touched
  generalize became : t.db.queue id = after at touched stored
  cases touched with
  | inserted m hold maxAttempts now =>
    cases moves with
    | enqueue =>
      obtain ⟨row, queue, _⟩ := enqueueTx_row s.db id m hold maxAttempts now
      simp [queue] at absent
    | alone =>
      rw [setWorker_db, empty] at became
      cases became
    | failAlone =>
      rw [setCall_db, empty] at became
      cases became
  | same => exact stored from_.symm
  | removed => exact stored rfl
  | claimed | renewed | released | changed => cases from_

/-- Rows, and messages in a worker's hands, have been inserted. -/
structure Known (s : State) : Prop where
  held : ∀ node, ∀ m ∈ (s.workers node).msgs, s.inserted m.id ≠ none
  rows : ∀ id, s.db.queue id ≠ none → s.inserted id ≠ none

theorem initial_known : Known initial := by
  refine ⟨?_, fun _ stored => absurd rfl stored⟩
  intro node m member
  cases member

theorem queue_known (known : Known s) (moved : step settings s label = some t) : Known t := by
  have moves := step_moved moved
  refine ⟨?_, fun id => moved_rows moved (known.rows id)⟩
  intro node m member absent
  have vacant := moved_inserted moves absent
  rcases moved_held moves member with ⟨old, inside, same⟩ | live
  · exact known.held node old inside (same ▸ vacant)
  · exact known.rows m.id live vacant

theorem Site.step_known (settings : String → Worker) (s t : Site) (event : Event)
    (known : Known s.base) (moved : s.step settings event = some t) : Known t.base := by
  obtain ⟨time, act⟩ := event
  cases act with
  | queue =>
    exact queue_known known
      (step_queue moved).1
  | enter =>
    obtain ⟨_, _, rfl⟩ := step_enter moved
    exact known
  | holdRuleAdd =>
    obtain ⟨_, rfl⟩ := step_holdRuleAdd moved
    refine ⟨known.held, fun id stored => known.rows id (fun empty => stored ?_)⟩
    simp [observe, Db.holdRuleAddTx, empty]
  | cleanupRetired =>
    cases moved
    exact ⟨known.held, known.rows⟩

/-- What a step of the queue does to the position of one worker. -/
inductive Walked (s : State) (node : String) : Label → Position → Prop
  | same (label : Label) (stays : ∀ a, label ≠ .deliver node a) (lives : label ≠ .crash node) :
      Walked s node label (s.workers node)
  | taken (ids : List Nat) (outcome : Outcome) (now : Int) (free : s.workers node = .batch []) :
      Walked s node (.claim node ids outcome now) (.batch (s.db.returning ids))
  | begun (outcome : Outcome) (now : Int) (m : Msg) (rest : List Msg) (attempts : Nat)
      (at_ : s.workers node = .batch (m :: rest)) (leased : s.db.leases node m.id = true) :
      Walked s node (.renewLease node outcome now)
        (.delivering { m with attempts := attempts } rest)
  /-- The worker moves on and calls nothing. -/
  | on (label : Label) (position : Position)
      (fewer : position.rest.Sublist (s.workers node).rest)
      (idle : ∀ m rest, position ≠ .delivering m rest) : Walked s node label position

/-- A step about one worker leaves the others where they are. -/
theorem walked_setWorker {next : State} (workers : next.workers = s.workers) (who : String)
    {position : Position} (stays : ∀ a, label ≠ .deliver node a)
    (lives : label ≠ .crash node) (mine : who = node → Walked s node label position) :
    Walked s node label ((next.setWorker who position).workers node) := by
  rw [setWorker_workers, workers]
  split
  · rename_i same
    exact mine same.symm
  · exact .same label stays lives

/-- A worker that moves on without a transaction calls nothing. -/
theorem next_idle {before after : Position} (next : before.Next after) (m : Msg)
    (rest : List Msg) : after ≠ .delivering m rest := by
  rintro rfl
  cases next

theorem step_walked (moved : step settings s label = some t) (node : String) :
    Walked s node label (t.workers node) := by
  by_cases returns : ∃ a, label = .deliver node a
  · obtain ⟨a, rfl⟩ := returns
    simp only [step, State.deliver] at moved
    split at moved <;> try contradiction
    rename_i m rest at_
    cases moved
    rw [setWorker_workers, if_pos rfl]
    exact .on _ _ (by rw [at_]; exact List.Sublist.refl rest) (fun _ _ => by simp)
  by_cases stops : label = .crash node
  · subst stops
    cases moved
    rw [setWorker_workers, if_pos rfl]
    exact .on _ _ (List.nil_sublist _) (fun _ _ => by simp)
  have stays : ∀ a, label ≠ .deliver node a := fun a equal => returns ⟨a, equal⟩
  -- the step of a worker between two messages: `rest` was behind the current one
  have settles {who : String} {m : Msg} {a : Attempt} {rest : List Msg} {position : Position}
      (at_ : s.workers who = .recorded m a rest) (same : position.rest = rest)
      (idle : ∀ m rest, position ≠ .delivering m rest) : who = node →
      Walked s node label position := by
    rintro rfl
    exact .on _ _ (by rw [at_, same]; exact List.Sublist.refl rest) idle
  cases step_moved moved with
  | claim who ids free _ _ got =>
    refine walked_setWorker (by rfl) who stays stops ?_
    rintro rfl
    rcases got with rfl | rfl
    · exact .on _ _ (List.nil_sublist _) (fun _ _ => by simp)
    · exact .taken ids _ _ free
  | renew who at_ =>
    refine walked_setWorker (by rfl) who stays stops ?_
    rintro rfl
    exact .on _ _ (by rw [at_]; exact List.sublist_cons_self _ _) (fun _ _ => by simp)
  | start who _ at_ renewed =>
    refine walked_setWorker (by rfl) who stays stops ?_
    rintro rfl
    obtain ⟨row, stored, leased, _⟩ := renewLeaseTx_spec renewed
    exact .begun _ _ _ _ _ at_ ((leases_iff s.db who _).mpr ⟨row, stored, leased⟩)
  | record who _ _ at_ | bounce who _ at_ =>
    refine walked_setWorker (by rfl) who stays stops ?_
    rintro rfl
    exact .on _ _ (by rw [at_]; exact List.Sublist.refl _) (fun _ _ => by simp)
  | deliver who at_ =>
    exact walked_setWorker (by rfl) who stays stops (settles at_ rfl (fun _ _ => by simp))
  | giveUp who _ at_ _ then_ | backOff who at_ _ then_ =>
    refine walked_setWorker (by rfl) who stays stops (settles at_ ?_ ?_)
    · rcases then_ with rfl | rfl <;> rfl
    · rcases then_ with rfl | rfl <;> exact fun _ _ => by simp
  | alone who next =>
    refine walked_setWorker (by rfl) who stays stops ?_
    rintro rfl
    exact .on _ _ (next_rest next) (next_idle next)
  | enqueue | admin | failDelete | failHook | failAlone => exact .same _ stays stops

end OctoMail.Queue
