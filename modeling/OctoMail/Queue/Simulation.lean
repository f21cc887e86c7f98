import OctoMail.Queue.Lifecycle
import OctoMail.Queue.Worker

/-!
# Every transaction is a move of every message

For each transaction of the queue and each id, the tables before and after are one
move of the life of that message. A transaction is about one message, or about the
rows of one statement; the lives of all others stay.
-/

namespace OctoMail.Queue

open List Function

open Transition (Outcome)

variable {id : Nat}

section Frames

variable (db : Db) (m : Msg)

@[simp] theorem setRow_queue (id : Nat) (row : Option Row) :
    (db.setRow id row).queue = update db.queue id row := rfl

@[simp] theorem setRow_log (id : Nat) (row : Option Row) : (db.setRow id row).log = db.log := rfl

@[simp] theorem setRow_outbound (id : Nat) (row : Option Row) :
    (db.setRow id row).outbound = db.outbound := rfl

@[simp] theorem appendLog_queue (fact : Fact) (keep : Option Int) :
    (db.appendLog m fact keep).queue = db.queue := rfl

@[simp] theorem appendLog_outbound (fact : Fact) (keep : Option Int) :
    (db.appendLog m fact keep).outbound = db.outbound := rfl

@[simp] theorem updateLinked_queue (change : Outbound → Outbound) :
    (db.updateLinked m change).queue = db.queue := by
  unfold Db.updateLinked
  split <;> rfl

@[simp] theorem updateLinked_log (change : Outbound → Outbound) :
    (db.updateLinked m change).log = db.log := by
  unfold Db.updateLinked
  split <;> rfl

/-- The facts about one id. -/
def Db.facts (db : Db) (id : Nat) : List Fact :=
  (db.log.filter (fun entry => entry.queueId = id)).map LogEntry.fact

@[simp] theorem life_row (id : Nat) : (db.life id).row = db.queue id := rfl

@[simp] theorem life_facts (id : Nat) : (db.life id).facts = db.facts id := rfl

@[simp] theorem life_outbound (id account : Nat) :
    (db.life id).outbound account = db.outbound account id := rfl

/-- A life is its row, its facts and its outbound rows. -/
theorem life_ext {next : Db} (row : next.queue id = db.queue id)
    (facts : next.facts id = db.facts id)
    (outbound : ∀ account, next.outbound account id = db.outbound account id) :
    next.life id = db.life id := by
  simp only [Db.life, row, Life.mk.injEq, true_and]
  exact ⟨facts, funext outbound⟩

theorem appendLog_facts (fact : Fact) (keep : Option Int) (id : Nat) :
    (db.appendLog m fact keep).facts id =
      db.facts id ++ if m.id = id then [fact] else [] := by
  by_cases same : m.id = id <;>
    simp [Db.facts, Db.appendLog, filter_append, same]

@[simp] theorem setRow_facts (id other : Nat) (row : Option Row) :
    (db.setRow id row).facts other = db.facts other := rfl

@[simp] theorem updateLinked_facts (change : Outbound → Outbound) (id : Nat) :
    (db.updateLinked m change).facts id = db.facts id := by
  simp [Db.facts]

/-- The update reaches at most the outbound row of the message. -/
theorem updateLinked_outbound (change : Outbound → Outbound) (account id : Nat) :
    (db.updateLinked m change).outbound account id =
      if m.messageId ≠ 0 ∧ account = m.accountId ∧ id = m.id then
        (db.outbound account id).map change
      else db.outbound account id := by
  unfold Db.updateLinked
  by_cases unlinked : m.messageId = 0
  · simp [unlinked]
  by_cases mine : account = m.accountId
  · subst mine
    by_cases same : id = m.id
    · subst same
      simp [unlinked, Db.updateOutbound]
    · simp [unlinked, Db.updateOutbound, same]
  · simp [unlinked, Db.updateOutbound, mine]

theorem updateLinked_other (change : Outbound → Outbound) (account id : Nat) (other : id ≠ m.id) :
    (db.updateLinked m change).outbound account id = db.outbound account id := by
  simp [updateLinked_outbound, other]

theorem updateLinked_shows (change : Outbound → Outbound) (id : Nat) :
    Life.Shown change (fun account => db.outbound account id)
      (fun account => (db.updateLinked m change).outbound account id) := by
  intro account
  simp only [updateLinked_outbound]
  split
  · exact .inr rfl
  · exact .inl rfl

end Frames

section Transactions

variable (db next : Db) {begins : Prop}

/-- The row that enqueueing inserts has not been attempted. -/
theorem enqueueTx_row (id : Nat) (m : Msg) (hold : Bool) (maxAttempts : Nat) (now : Int) :
    ∃ row, (db.enqueueTx id m hold maxAttempts now).queue = update db.queue id (some row) ∧
      row.attempts = 0 ∧ row.maxAttempts = maxAttempts ∧ row.leasedBy = none ∧
        row.leaseUntil = none ∧ row.hold = hold := by
  simp only [Db.enqueueTx]
  split <;> exact ⟨_, rfl, rfl, rfl, rfl, rfl, rfl⟩

/-- Enqueueing touches no other message. -/
theorem enqueueTx_other (id : Nat) (m : Msg) (hold : Bool) (maxAttempts : Nat) (now : Int)
    (other : Nat) (apart : other ≠ id) :
    (db.enqueueTx id m hold maxAttempts now).life other = db.life other := by
  obtain ⟨row, queue, _⟩ := enqueueTx_row db id m hold maxAttempts now
  refine life_ext db (by simp [queue, apart]) ?_ ?_
  · rw [Db.enqueueTx, appendLog_facts]
    simp only [apart.symm, ↓reduceIte, append_nil]
    split <;> rfl
  · intro account
    simp only [Db.enqueueTx, appendLog_outbound]
    split
    · rfl
    · by_cases mine : account = m.accountId
      · subst mine
        simp [apart]
      · simp [mine]

variable {m : Msg} {now : Int} {change : Outbound → Outbound} {more : List Fact} {node : String}

/-- The outbound row of a new message, where it is linked, starts from nothing. -/
theorem enqueueTx_outbound {hold : Bool} {maxAttempts : Nat}
    (vacant : db.life id = Life.unborn) {account : Nat} {o : Outbound}
    (found : (db.enqueueTx id m hold maxAttempts now).outbound account id = some o) :
    o.status = .queued ∧ o.attemptCount = 0 := by
  have empty : ∀ account, db.outbound account id = none := fun account =>
    congrFun (congrArg Life.outbound vacant) account
  simp only [Db.enqueueTx, appendLog_outbound] at found
  split at found
  · simp [empty] at found
  by_cases mine : account = m.accountId
  · subst mine
    simp only [update_self, Option.some.injEq] at found
    subst found
    exact ⟨rfl, rfl⟩
  · simp [mine, empty] at found

/-- Enqueueing begins one life. -/
theorem enqueueTx_life (id : Nat) (m : Msg) (hold : Bool) (maxAttempts : Nat) (now : Int)
    (vacant : db.life id = Life.unborn) (other : Nat) (new : other = id → begins) :
    Life.Step begins (db.life other) ((db.enqueueTx id m hold maxAttempts now).life other) := by
  by_cases same : other = id
  · subst same
    have silent : db.facts other = [] := congrArg Life.facts vacant
    obtain ⟨row, queue, _⟩ := enqueueTx_row db other m hold maxAttempts now
    refine .insert (new rfl) row (.enqueued hold m.size) vacant (by simp [queue]) ?_ rfl ?_
    · rw [life_facts, Db.enqueueTx, appendLog_facts]
      simp only [↓reduceIte]
      split <;> simpa [Db.facts] using silent
    · intro account o found
      rw [(enqueueTx_outbound db vacant found).1]
      rfl
  · exact .stay (enqueueTx_other db id m hold maxAttempts now other same)

/-- Claiming replaces live rows. -/
theorem claimTx_life {ids : List Nat} {lease : Int} (id : Nat) :
    Life.Step begins (db.life id) ((db.claimTx node ids lease now).life id) := by
  by_cases taken : id ∈ ids
  · cases found : db.queue id with
    | none =>
      exact .stay (life_ext db (by simp [Db.claimTx, taken, found]) rfl (fun _ => rfl))
    | some row =>
      exact .change row (row.claimed node lease now) [] (fun o =>
        { o with status := .queued }) found
        (by simp [Db.claimTx, taken, found]) (by simp [Db.facts, Db.claimTx]) (by simp)
        (fun _ => rfl) (fun _ => .inl rfl)
  · exact .stay (life_ext db (by simp [Db.claimTx, taken]) rfl (fun _ => rfl))

/-- The transaction is about one message: it leaves `row` in its place, appends
`more` to its facts and applies `change` to its outbound row. -/
structure About (m : Msg) (row : Option Row) (more : List Fact) (change : Outbound → Outbound)
    (db next : Db) : Prop where
  queue : next.queue = update db.queue m.id row
  facts : ∀ id, next.facts id = db.facts id ++ if m.id = id then more else []
  outbound : ∀ account id,
    next.outbound account id = (db.updateLinked m change).outbound account id

variable {db next}

/-- Nothing happens to the other messages. -/
theorem about_other {row : Option Row} (about : About m row more change db next)
    (other : id ≠ m.id) : next.life id = db.life id := by
  have apart : m.id ≠ id := fun same => other same.symm
  refine life_ext db ?_ ?_ ?_
  · rw [about.queue, update_of_ne other]
  · simp [about.facts, apart]
  · intro account
    rw [about.outbound, updateLinked_other db m change account id other]

theorem about_shows {row : Option Row} (about : About m row more change db next) :
    Life.Shown change (db.life m.id).outbound (next.life m.id).outbound := by
  intro account
  simp only [life_outbound, about.outbound]
  exact updateLinked_shows db m change m.id account

/-- renewLease acts on a row leased to this node and counts the attempt. -/
theorem renewLeaseTx_spec {lease : Int} {attempts : Nat}
    (renewed : db.renewLeaseTx node m lease now = some (attempts, next)) :
    ∃ row, db.queue m.id = some row ∧ row.leasedBy = some node ∧ attempts = row.attempts + 1 ∧
      About m (some (row.renewed lease now)) [] (Outbound.deliver attempts now) db next := by
  simp only [Db.renewLeaseTx] at renewed
  split at renewed
  · cases renewed
  rename_i row found
  split at renewed <;> try contradiction
  rename_i held
  obtain ⟨rfl, rfl⟩ := Prod.mk.inj (Option.some.inj renewed)
  refine ⟨row, found, held.1, rfl, by simp, by simp, ?_⟩
  intro account id
  simp only [updateLinked_outbound, setRow_outbound]

theorem recordResultTx_spec (db : Db) (m : Msg) (a : Attempt) (now : Int) :
    About m (db.queue m.id) [a.fact m] (Outbound.record m a now) db
      (db.recordResultTx m a now) := by
  refine ⟨by simp [Db.recordResultTx], by simp [Db.recordResultTx, appendLog_facts], ?_⟩
  intro account id
  simp only [Db.recordResultTx, updateLinked_outbound, appendLog_outbound]

variable {fact : Fact}

/-- Deleting the row with one fact, as retire and Fail do. -/
theorem removed_spec (m : Msg) {keep : Option Int} {change : Outbound → Outbound} :
    About m none [fact] change db
      (((db.setRow m.id none).appendLog m fact keep).updateLinked m change) := by
  refine ⟨by simp, by simp [appendLog_facts], ?_⟩
  intro account id
  simp only [updateLinked_outbound, appendLog_outbound, setRow_outbound]

/-- A row leased to a node is there. -/
theorem leases_iff (db : Db) (node : String) (id : Nat) :
    db.leases node id = true ↔ ∃ row, db.queue id = some row ∧ row.leasedBy = some node := by
  unfold Db.leases
  cases db.queue id <;> simp

/-- retire acts on a row leased to this node. -/
theorem retireTx_spec {success : Bool} {reason : String} {keep : Int}
    (retired : db.retireTx node m success reason keep now = some next) :
    db.leases node m.id = true ∧
      About m none [if success then .delivered m.attempts else .failed m.attempts false]
        (if success then Outbound.succeed now else Outbound.fail reason now) db next := by
  simp only [Db.retireTx] at retired
  split at retired <;> try contradiction
  rename_i leased
  cases retired
  exact ⟨leased, removed_spec m⟩

/-- The retry acts on a row leased to this node, gives the lease back and leaves the
attempt count. -/
theorem rescheduleTx_spec {delay : Int} {error : String} {wantDelay fired : Bool}
    (released : db.rescheduleTx node m delay error wantDelay now = some (fired, next)) :
    ∃ row, db.queue m.id = some row ∧ row.leasedBy = some node ∧
      About m (some (row.released delay error wantDelay now))
        (.rescheduled m.attempts delay error :: if fired then [.delayed m.attempts] else [])
        (Outbound.retry m.attempts now) db next := by
  simp only [Db.rescheduleTx] at released
  split at released
  · cases released
  rename_i row found
  split at released <;> try contradiction
  rename_i leased
  obtain ⟨rfl, rfl⟩ := Prod.mk.inj (Option.some.inj released)
  refine ⟨row, found, leased, ?_, ?_, ?_⟩
  · split <;> simp
  · intro id
    split <;> by_cases same : m.id = id <;> simp [appendLog_facts, same]
  · intro account id
    split <;> simp only [appendLog_outbound, updateLinked_outbound, setRow_outbound]

/-- Fail acts on a row that is still there. -/
theorem failTx_spec {keep : Int} (removed : db.failTx m keep now = some next) :
    db.queue m.id ≠ none ∧
      About m none [.failed m.attempts true] (Outbound.fail "" now) db next := by
  simp only [Db.failTx] at removed
  split at removed
  · cases removed
  rename_i row found
  cases removed
  exact ⟨by simp [found], removed_spec m⟩

/-- A live row replaced by a live row is a change of one life. -/
theorem about_change {before after : Row} (about : About m (some after) more change db next)
    (found : db.queue m.id = some before) (open_ : ∀ fact ∈ more, fact.terminal = false)
    (unsettled : ∀ o, (change o).status.terminal = false) (id : Nat) :
    Life.Step begins (db.life id) (next.life id) := by
  by_cases same : id = m.id
  · subst same
    exact .change before after more change found (by simp [about.queue])
      (by simp [about.facts]) open_ unsettled (about_shows about)
  · exact .stay (about_other about same)

/-- A fact noted without touching the row. -/
theorem about_note
    (about : About m (db.queue m.id) [fact] change db next) (known : db.facts m.id ≠ [])
    (open_ : fact.terminal = false) (kept : ∀ o, (change o).status = o.status) (id : Nat) :
    Life.Step begins (db.life id) (next.life id) := by
  by_cases same : id = m.id
  · subst same
    exact .note fact change known (by simp [about.queue]) (by simp [about.facts]) open_ kept
      (about_shows about)
  · exact .stay (about_other about same)

/-- A live row deleted with one terminal fact. -/
theorem about_remove
    (about : About m none [fact] change db next) (live : db.queue m.id ≠ none)
    (final : fact.terminal = true) (id : Nat) : Life.Step begins (db.life id) (next.life id) := by
  by_cases same : id = m.id
  · subst same
    obtain ⟨row, found⟩ := Option.ne_none_iff_exists'.mp live
    exact .remove row fact change found (by simp [about.queue]) (by simp [about.facts]) final
      (about_shows about)
  · exact .stay (about_other about same)

variable (db)

/-- The messages of a statement are those of its rows that exist. -/
theorem mem_returning (ids : List Nat) (m : Msg) :
    m ∈ db.returning ids ↔ ∃ id ∈ ids, ∃ row, db.queue id = some row ∧ row.msg id = m := by
  simp [Db.returning, mem_filterMap, Option.map_eq_some_iff]

theorem returning_ids (ids : List Nat) :
    (db.returning ids).map Msg.id = ids.filter (fun id => (db.queue id).isSome) := by
  induction ids with
  | nil => rfl
  | cons id rest ih =>
    cases found : db.queue id <;>
      simpa [Db.returning, found, Row.msg] using ih

section Mutation

variable (fact : Fact) (keep : Option Int) (now : Int)

@[simp] theorem mutateOne_queue (m : Msg) : (db.mutateOne fact keep now m).queue = db.queue := by
  unfold Db.mutateOne
  cases fact.terminal <;> simp

theorem mutateOne_facts (m : Msg) (id : Nat) :
    (db.mutateOne fact keep now m).facts id = db.facts id ++ if m.id = id then [fact] else [] := by
  unfold Db.mutateOne
  cases fact.terminal <;> simp [appendLog_facts]

theorem mutateOne_other (account : Nat) (other : id ≠ m.id) :
    (db.mutateOne fact keep now m).outbound account id = db.outbound account id := by
  unfold Db.mutateOne
  cases fact.terminal <;> simp [updateLinked_other, other]

theorem mutateOne_shows (m : Msg) (id : Nat) :
    Life.Shown (Outbound.fail "" now) (fun account => db.outbound account id)
      (fun account => (db.mutateOne fact keep now m).outbound account id) := by
  unfold Db.mutateOne
  cases fact.terminal
  · exact fun _ => .inl rfl
  · exact updateLinked_shows (db.appendLog m fact keep) m (Outbound.fail "" now) id

variable (msgs : List Msg)

theorem mutate_queue : (msgs.foldl (Db.mutateOne fact keep now) db).queue = db.queue := by
  induction msgs generalizing db with
  | nil => rfl
  | cons m rest ih =>
    exact (ih (db.mutateOne fact keep now m)).trans (by simp)

/-- The loop leaves the ids it does not meet. -/
theorem mutate_other (absent : id ∉ msgs.map Msg.id) :
    (msgs.foldl (Db.mutateOne fact keep now) db).facts id = db.facts id ∧
      ∀ account, (msgs.foldl (Db.mutateOne fact keep now) db).outbound account id =
        db.outbound account id := by
  induction msgs generalizing db with
  | nil => exact ⟨rfl, fun _ => rfl⟩
  | cons m rest ih =>
    simp only [map_cons, mem_cons, not_or] at absent
    obtain ⟨facts, outbound⟩ := ih (db.mutateOne fact keep now m) absent.2
    have apart : m.id ≠ id := fun same => absent.1 same.symm
    refine ⟨?_, fun account => ?_⟩
    · rw [foldl_cons, facts, mutateOne_facts]
      simp [apart]
    · rw [foldl_cons, outbound, mutateOne_other _ _ _ _ _ absent.1]

/-- Only a terminal kind touches the outbound rows. -/
theorem mutate_quiet (open_ : fact.terminal = false) :
    (msgs.foldl (Db.mutateOne fact keep now) db).outbound = db.outbound := by
  induction msgs generalizing db with
  | nil => rfl
  | cons m rest ih =>
    refine (ih (db.mutateOne fact keep now m)).trans ?_
    simp [Db.mutateOne, open_]

/-- The loop meets each of its ids once: one entry and at most one update. -/
theorem mutate_met (id : Nat) (unique : (msgs.map Msg.id).Nodup) (met : id ∈ msgs.map Msg.id) :
    (msgs.foldl (Db.mutateOne fact keep now) db).facts id = db.facts id ++ [fact] ∧
      Life.Shown (Outbound.fail "" now) (fun account => db.outbound account id)
        (fun account =>
          (msgs.foldl (Db.mutateOne fact keep now) db).outbound account id) := by
  induction msgs generalizing db with
  | nil => cases met
  | cons m rest ih =>
    obtain ⟨once, later⟩ := nodup_cons.mp unique
    rw [foldl_cons]
    by_cases same : m.id = id
    · subst same
      obtain ⟨facts, outbound⟩ :=
        mutate_other (db.mutateOne fact keep now m) fact keep now rest once
      refine ⟨by rw [facts, mutateOne_facts]; simp, fun account => ?_⟩
      simp only [outbound]
      exact mutateOne_shows db fact keep now m m.id account
    · have apart : id ≠ m.id := fun equal => same equal.symm
      have inside : id ∈ rest.map Msg.id := by
        rcases mem_cons.mp met with equal | inside
        · exact absurd equal apart
        · exact inside
      obtain ⟨facts, shows⟩ :=
        ih (db.mutateOne fact keep now m) later inside
      refine ⟨by rw [facts, mutateOne_facts]; simp [same], fun account => ?_⟩
      have before := mutateOne_other db fact keep now account apart
      have after := shows account
      simp only [before] at after
      exact after

end Mutation

/-- Every statement but `drop` keeps the row, its attempts and its lease. -/
theorem adminChange_spec {op : AdminOp} (now : Int) (row : Row) (kept : op ≠ .drop) :
    op.fact.terminal = false ∧ ∃ after, op.change now row = some after ∧
      after.attempts = row.attempts ∧ after.maxAttempts = row.maxAttempts ∧
        after.leasedBy = row.leasedBy := by
  cases op with
  | drop => exact absurd rfl kept
  | holdSet hold => exact ⟨by cases hold <;> rfl, _, rfl, rfl, rfl, rfl⟩
  | kick | schedule | scheduleAt | requireTlsSet => exact ⟨rfl, _, rfl, rfl, rfl, rfl⟩

theorem mutateLog_queue (op : AdminOp) (ids : List Nat) (keep : Option Int) (now : Int) (id : Nat) :
    (db.mutateLog op ids keep now).queue id =
      if id ∈ ids then (db.queue id).bind (op.change now) else db.queue id := by
  rw [Db.mutateLog, mutate_queue]
  rfl

/-- A row the statement does not reach keeps its life. -/
theorem mutateLog_other (op : AdminOp) {ids : List Nat} (keep : Option Int) (now : Int)
    (missed : id ∉ ids ∨ db.queue id = none) :
    (db.mutateLog op ids keep now).life id = db.life id := by
  have absent : id ∉ (db.returning ids).map Msg.id := by
    rw [returning_ids, mem_filter]
    rintro ⟨taken, live⟩
    rcases missed with outside | gone
    · exact outside taken
    · simp [gone] at live
  obtain ⟨facts, outbound⟩ := mutate_other (db.execute op ids now) op.fact keep now _ absent
  refine life_ext db ?_ facts outbound
  rw [mutateLog_queue]
  rcases missed with outside | gone
  · simp [outside]
  · simp [gone]

/-- A row the statement reaches gets one fact and at most one update. -/
theorem mutateLog_met (op : AdminOp) {ids : List Nat} (keep : Option Int) (now : Int)
    (unique : ids.Nodup) (taken : id ∈ ids) (live : db.queue id ≠ none) :
    (db.mutateLog op ids keep now).facts id = db.facts id ++ [op.fact] ∧
      Life.Shown (Outbound.fail "" now) (db.life id).outbound
        ((db.mutateLog op ids keep now).life id).outbound := by
  have each : ((db.returning ids).map Msg.id).Nodup := by
    rw [returning_ids]
    exact unique.filter _
  have met : id ∈ (db.returning ids).map Msg.id := by
    rw [returning_ids, mem_filter]
    exact ⟨taken, Option.isSome_iff_ne_none.mpr live⟩
  exact mutate_met (db.execute op ids now) op.fact keep now _ id each met

/-- An administrator's statement changes or removes live rows, one fact each. -/
theorem mutateLog_life {op : AdminOp} {ids : List Nat} {keep : Option Int}
    (unique : ids.Nodup) (id : Nat) :
    Life.Step begins (db.life id) ((db.mutateLog op ids keep now).life id) := by
  by_cases missed : id ∉ ids ∨ db.queue id = none
  · exact .stay (mutateLog_other db op keep now missed)
  simp only [not_or, Classical.not_not] at missed
  obtain ⟨taken, live⟩ := missed
  obtain ⟨before, found⟩ := Option.ne_none_iff_exists'.mp live
  have row := mutateLog_queue db op ids keep now id
  rw [if_pos taken, found, Option.bind_some] at row
  obtain ⟨facts, shows⟩ := mutateLog_met db op keep now unique taken live
  by_cases kept : op = .drop
  · subst kept
    exact .remove before .dropped (Outbound.fail "" now) found row facts rfl shows
  · obtain ⟨open_, after, changed, _⟩ := adminChange_spec now before kept
    have quiet := mutate_quiet (db.execute op ids now) op.fact keep now (db.returning ids) open_
    exact .change before after [op.fact] (fun o => { o with status := .queued }) found
      (row.trans changed) facts (by simpa using open_) (fun _ => rfl)
      (fun account => .inl (congrFun (congrFun quiet account) id))

/-- Rows may go, but none appears, changes its attempts or passes to a new holder. -/
def Quiet (db next : Db) : Prop :=
  ∀ id after, next.queue id = some after → ∃ before, db.queue id = some before ∧
    after.attempts = before.attempts ∧ after.maxAttempts = before.maxAttempts ∧
      (after.leasedBy = before.leasedBy ∨ after.leasedBy = none)

variable {db}

theorem quiet_of_queue (same : next.queue = db.queue) : Quiet db next := by
  intro id after found
  exact ⟨after, same ▸ found, rfl, rfl, .inl rfl⟩

theorem quiet_of_remove (about : About m none more change db next) : Quiet db next := by
  intro id after found
  rw [about.queue] at found
  by_cases same : id = m.id
  · simp [same] at found
  · rw [update_of_ne same] at found
    exact ⟨after, found, rfl, rfl, .inl rfl⟩

theorem rescheduleTx_quiet {delay : Int} {error : String} {wantDelay fired : Bool}
    (released : db.rescheduleTx node m delay error wantDelay now = some (fired, next)) :
    Quiet db next := by
  obtain ⟨row, stored, _, about⟩ := rescheduleTx_spec released
  intro id after found
  rw [about.queue] at found
  by_cases same : id = m.id
  · subst same
    rw [update_self] at found
    cases found
    exact ⟨row, stored, rfl, rfl, .inr rfl⟩
  · rw [update_of_ne same] at found
    exact ⟨after, found, rfl, rfl, .inl rfl⟩

theorem mutateLog_quiet {op : AdminOp} {ids : List Nat} {keep : Option Int} :
    Quiet db (db.mutateLog op ids keep now) := by
  intro id after found
  rw [mutateLog_queue] at found
  split at found
  · obtain ⟨before, stored, changed⟩ := Option.bind_eq_some_iff.mp found
    have kept : op ≠ .drop := by
      rintro rfl
      cases changed
    obtain ⟨_, other, result, attempts, maxAttempts, leasedBy⟩ :=
      adminChange_spec now before kept
    cases Option.some.inj (changed.symm.trans result)
    exact ⟨before, stored, attempts, maxAttempts, .inl leasedBy⟩
  · exact ⟨after, found, rfl, rfl, .inl rfl⟩

end Transactions

/-- The moves of a worker that touch nothing shared. -/
inductive Position.Next : Position → Position → Prop
  | skip {m : Msg} {rest : List Msg} : Next (.batch (m :: rest)) (.batch rest)
  | return_ {m : Msg} {a : Attempt} {rest : List Msg} :
      Next (.delivering m rest) (.returned m a rest)
  | record {m : Msg} {a : Attempt} {rest : List Msg} :
      Next (.returned m a rest) (.recorded m a rest)
  | settle {m : Msg} {a : Attempt} {rest : List Msg} : Next (.recorded m a rest) (.batch rest)
  | warned {m : Msg} {rest : List Msg} : Next (.warning m rest) (.batch rest)
  | stop {position : Position} : Next position (.batch [])

/-- What a step can do, with the message it is about. -/
inductive Moved (s : State) : Label → State → Prop
  | enqueue (id : Nat) (m : Msg) (hold : Bool) (maxAttempts : Nat) (now : Int)
      (vacant : s.inserted id = none) :
      Moved s (.enqueue id m hold maxAttempts now)
        { s with
          db := s.db.enqueueTx id m hold maxAttempts now
          inserted := update s.inserted id
            ((s.db.enqueueTx id m hold maxAttempts now).queue id) }
  | claim (node : String) (ids : List Nat) {outcome : Outcome} {now lease : Int}
      {rest : List Msg} (free : s.workers node = .batch []) (ran : outcome ≠ .failed)
      (unique : ids.Nodup) (got : rest = [] ∨ rest = s.db.returning ids) :
      Moved s (.claim node ids outcome now)
        ({ s with db := s.db.claimTx node ids lease now }.setWorker node (.batch rest))
  | renew (node : String) {outcome : Outcome} {now lease : Int} {m : Msg} {rest : List Msg}
      {attempts : Nat} {db : Db} (at_ : s.workers node = .batch (m :: rest))
      (renewed : s.db.renewLeaseTx node m lease now = some (attempts, db)) :
      Moved s (.renewLease node outcome now) ({ s with db := db }.setWorker node (.batch rest))
  | start (node : String) (m : Msg) {outcome : Outcome} {now lease : Int} {rest : List Msg}
      {attempts : Nat} {db : Db} (at_ : s.workers node = .batch (m :: rest))
      (renewed : s.db.renewLeaseTx node m lease now = some (attempts, db)) :
      Moved s (.renewLease node outcome now)
        ({ s with db := db, delivers := s.delivers ++ [(node, m.id)] }.setWorker node
          (.delivering { m with attempts := attempts } rest))
  | record (node : String) (m : Msg) (a : Attempt) {outcome : Outcome} {now : Int}
      {rest : List Msg} (at_ : s.workers node = .returned m a rest) (ran : outcome ≠ .failed) :
      Moved s (.recordResult node outcome now)
        ({ s with db := s.db.recordResultTx m a now }.setWorker node (.recorded m a rest))
  | deliver (node : String) {outcome : Outcome} {clock now keep : Int} {m : Msg} {a : Attempt}
      {rest : List Msg} {db : Db} (at_ : s.workers node = .recorded m a rest)
      (retired : s.db.retireTx node m true "" keep now = some db) :
      Moved s (.retire node outcome clock now)
        ({ s with db := db }.setWorker node (.batch rest))
  | giveUp (node : String) (m : Msg) {outcome : Outcome} {clock now delay keep : Int}
      {a : Attempt} {rest : List Msg} {reason : String} {db : Db} {position : Position}
      (at_ : s.workers node = .recorded m a rest)
      (retired : s.db.retireTx node m false reason keep now = some db)
      (then_ : position = .batch rest ∨ position = .bouncing m rest) :
      Moved s (.reschedule node outcome clock now delay)
        ({ s with db := db }.setWorker node position)
  | backOff (node : String) {outcome : Outcome} {clock now delay : Int} {m : Msg}
      {a : Attempt} {rest : List Msg} {error : String} {wantDelay fired : Bool} {db : Db}
      {position : Position} (at_ : s.workers node = .recorded m a rest)
      (released : s.db.rescheduleTx node m delay error wantDelay now = some (fired, db))
      (then_ : position = .batch rest ∨ position = .warning m rest) :
      Moved s (.reschedule node outcome clock now delay)
        ({ s with db := db }.setWorker node position)
  | bounce (node : String) (m : Msg) {rest : List Msg} (at_ : s.workers node = .bouncing m rest) :
      Moved s (.onFailed node)
        ({ s with started := s.started ++ [m.id] }.setWorker node (.batch rest))
  /-- A step of a worker that changes its position only. -/
  | alone {label : Label} (node : String) {position : Position}
      (next : (s.workers node).Next position) : Moved s label (s.setWorker node position)
  | admin (op : AdminOp) (ids : List Nat) {f : Filter} {clock now : Int} {keep : Option Int}
      (unique : ids.Nodup) :
      Moved s (.admin op f ids clock now) { s with db := s.db.mutateLog op ids keep now }
  | failDelete (call : Nat) (m : Msg) {outcome : Outcome} {clock now keep : Int}
      {rest : List Msg} {db : Db} {position : FailCall} (at_ : s.calls call = .loop (m :: rest))
      (removed : s.db.failTx m keep now = some db)
      (then_ : position = .loop rest ∨ position = .bouncing m rest) :
      Moved s (.failDelete call outcome clock now)
        ({ s with db := db }.setCall call position)
  | failHook (call : Nat) (m : Msg) {rest : List Msg} (at_ : s.calls call = .bouncing m rest) :
      Moved s (.failHook call)
        ({ s with started := s.started ++ [m.id] }.setCall call (.loop rest))
  /-- A step of a Fail call that changes its position only. -/
  | failAlone {label : Label} (call : Nat) {rest : List Msg} :
      Moved s label (s.setCall call (.loop rest))

/-- The part of a worker's batch it has not come to. -/
def Position.rest : Position → List Msg
  | .batch rest => rest
  | .delivering _ rest => rest
  | .returned _ _ rest => rest
  | .recorded _ _ rest => rest
  | .bouncing _ rest => rest
  | .warning _ rest => rest

/-- A worker moves on without taking anything into its batch. -/
theorem next_rest {before after : Position} (next : before.Next after) :
    after.rest.Sublist before.rest := by
  cases next with
  | skip => exact sublist_cons_self _ _
  | stop => exact nil_sublist _
  | _ => exact List.Sublist.refl _

section Labels

variable {w : Worker} {s t : State} {node : String} {outcome : Outcome} {clock now delay : Int}

theorem claim_moved {ids : List Nat} (moved : s.claim w node ids outcome now = some t) :
    Moved s (.claim node ids outcome now) t := by
  simp only [State.claim] at moved
  split at moved <;> try contradiction
  rename_i free
  split at moved <;> cases moved
  rename_i enabled
  cases outcome with
  | failed => exact .alone node .stop
  | committed => exact .claim node ids free (by simp) enabled.1 (.inr rfl)
  | unreported => exact .claim node ids free (by simp) enabled.1 (.inl rfl)

theorem renewLease_moved (moved : s.renewLease w node outcome now = some t) :
    Moved s (.renewLease node outcome now) t := by
  simp only [State.renewLease] at moved
  split at moved <;> try contradiction
  rename_i at_
  split at moved
  · cases moved
    exact .alone node (at_ ▸ .skip)
  rename_i renewed
  split at moved <;> rename_i committed <;> cases moved
  · subst committed
    exact .start node _ at_ renewed
  · cases outcome with
    | failed => exact .alone node (at_ ▸ .skip)
    | committed | unreported => exact .renew node at_ renewed

theorem recordResult_moved (moved : s.recordResult node outcome now = some t) :
    Moved s (.recordResult node outcome now) t := by
  simp only [State.recordResult] at moved
  split at moved <;> cases moved
  rename_i m a rest at_
  cases outcome with
  | failed => exact .alone node (at_ ▸ .record)
  | committed | unreported => exact .record node m a at_ (by simp)

theorem retire_moved (moved : s.retire w node outcome clock now = some t) :
    Moved s (.retire node outcome clock now) t := by
  simp only [State.retire] at moved
  split at moved <;> try contradiction
  rename_i at_
  split at moved <;> cases moved
  · exact .alone node (at_ ▸ .settle)
  · rename_i retired
    cases outcome with
    | failed => exact .alone node (at_ ▸ .settle)
    | committed | unreported => exact .deliver node at_ retired

/-- After an error the message is given up, which may call for a bounce, or put back. -/
theorem reschedule_moved (moved : s.reschedule w node outcome clock now delay = some t) :
    Moved s (.reschedule node outcome clock now delay) t := by
  simp only [State.reschedule] at moved
  split at moved <;> try contradiction
  rename_i m _ _ _ rest at_
  split at moved
  · split at moved <;> cases moved
    · exact .alone node (at_ ▸ .settle)
    · rename_i retired
      cases outcome with
      | failed => exact .alone node (at_ ▸ .settle)
      | committed | unreported => exact .giveUp node m at_ retired (by split <;> simp)
  · split at moved <;> try contradiction
    split at moved <;> cases moved
    · exact .alone node (at_ ▸ .settle)
    · rename_i released
      cases outcome with
      | failed => exact .alone node (at_ ▸ .settle)
      | committed | unreported => exact .backOff node at_ released (by split <;> simp)

theorem failDelete_moved {call : Nat} (moved : s.failDelete call outcome clock now = some t) :
    Moved s (.failDelete call outcome clock now) t := by
  simp only [State.failDelete] at moved
  split at moved <;> try contradiction
  rename_i m rest at_
  split at moved <;> cases moved
  · exact .failAlone call
  · rename_i removed
    cases outcome with
    | failed => exact .failAlone call
    | committed => exact .failDelete call m at_ removed (.inr rfl)
    | unreported => exact .failDelete call m at_ removed (.inl rfl)

/-- The step function read backwards, once for all invariants. -/
theorem step_moved {settings : String → Worker} {label : Label}
    (moved : step settings s label = some t) : Moved s label t := by
  cases label with
  | enqueue id m hold maxAttempts now =>
    simp only [step, State.enqueue] at moved
    split at moved <;> cases moved
    rename_i vacant
    exact .enqueue id m hold maxAttempts now vacant
  | claim => exact claim_moved moved
  | renewLease => exact renewLease_moved moved
  | deliver node a =>
    simp only [step, State.deliver] at moved
    split at moved <;> cases moved
    rename_i at_
    exact .alone node (at_ ▸ .return_)
  | recordResult => exact recordResult_moved moved
  | retire => exact retire_moved moved
  | reschedule => exact reschedule_moved moved
  | onFailed node =>
    simp only [step, State.onFailed] at moved
    split at moved <;> cases moved
    rename_i m rest at_
    exact .bounce node m at_
  | onDelayed node =>
    simp only [step, State.onDelayed] at moved
    split at moved <;> cases moved
    rename_i at_
    exact .alone node (at_ ▸ .warned)
  | crash node =>
    cases moved
    exact .alone node .stop
  | admin op f ids =>
    simp only [step, State.admin] at moved
    split at moved <;> cases moved
    rename_i enabled
    exact .admin op ids enabled.1
  | failSelect call =>
    simp only [step, State.failSelect] at moved
    split at moved <;> try contradiction
    split at moved <;> cases moved
    exact .failAlone call
  | failDelete => exact failDelete_moved moved
  | failHook call =>
    simp only [step, State.failHook] at moved
    split at moved <;> cases moved
    rename_i m rest at_
    exact .failHook call m at_
  | failCrash call =>
    cases moved
    exact .failAlone call

end Labels

end OctoMail.Queue
