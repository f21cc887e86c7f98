import OctoMail.Queue.Holds

/-!
# The queue table as the fold of its log

The package comment calls `queue_log` the source of truth and the queue table its
projection. Folding the entries of an id tells whether the id is live and whether it is
on hold. Every transaction but `HoldRuleAdd` keeps the table equal to that fold: it
changes the row and appends the entry that changes the fold in the same way, or it
touches neither. `HoldRuleAdd` sets the flag and logs nothing.

`CleanupRetired` deletes the entries of an id. It keeps the two equal because an entry
with a retention is only ever written with the deletion of the row.
-/

namespace OctoMail.Queue

open List

open Transition (Outcome Meets invariant run)

/-- The effect of one entry: no row, or a row with its hold flag. -/
def Fact.fold (live : Option Bool) : Fact → Option Bool
  | .enqueued hold _ => some hold
  | .held => live.map (fun _ => true)
  | .unheld => live.map (fun _ => false)
  | .scheduled .kick => live.map (fun _ => false)
  | .delivered _ | .failed _ _ | .dropped => none
  | .scheduled (.schedule _) | .scheduled (.scheduleAt _) => live
  | .attempt .. | .rescheduled .. | .delayed _ | .requireTls _ => live

/-- What the entries of an id say. -/
def Db.folded (db : Db) (id : Nat) : Option Bool := (db.facts id).foldl Fact.fold none

/-- What the table says. -/
def Db.live (db : Db) (id : Nat) : Option Bool := (db.queue id).map Row.hold

/-- The facts appended for an id change the fold as the row changes. -/
def Follows (db next : Db) (id : Nat) : Prop :=
  ∃ more, next.facts id = db.facts id ++ more ∧ next.live id = more.foldl Fact.fold (db.live id)

variable {db next : Db} {id : Nat} {m : Msg} {label : Label} {s t : State}
  {settings : String → Worker}

theorem follows_same (facts : next.facts id = db.facts id)
    (live : next.live id = db.live id) : Follows db next id :=
  ⟨[], by rw [facts, append_nil], live⟩

/-- A transaction about one message follows the log where its facts say what becomes of
the row. -/
theorem follows_about {row : Option Row} {more : List Fact}
    {change : Outbound → Outbound} (about : About m row more change db next) (id : Nat)
    (told : row.map Row.hold = more.foldl Fact.fold (db.live m.id)) : Follows db next id := by
  by_cases same : id = m.id
  · subst same
    refine ⟨more, by simp [about.facts], ?_⟩
    rw [Db.live, about.queue, Function.update_self, told]
  · refine follows_same ?_ ?_
    · rw [about.facts, if_neg (fun equal => same equal.symm), append_nil]
    · rw [Db.live, about.queue, Function.update_of_ne same, Db.live]

/-- An administrator's entry says what the statement did to the row. -/
theorem adminChange_folds (op : AdminOp) (now : Int) (row : Row) :
    (op.change now row).map Row.hold = op.fact.fold (some row.hold) := by
  cases op with
  | holdSet hold => cases hold <;> rfl
  | _ => rfl

theorem mutateLog_follows (db : Db) {op : AdminOp} {ids : List Nat} {keep : Option Int} {now : Int}
    (unique : ids.Nodup) (id : Nat) : Follows db (db.mutateLog op ids keep now) id := by
  by_cases missed : id ∉ ids ∨ db.queue id = none
  · have same := mutateLog_other db op keep now missed
    exact follows_same (congrArg Life.facts same)
      (congrArg (fun life => life.row.map Row.hold) same)
  simp only [not_or, Classical.not_not] at missed
  obtain ⟨taken, present⟩ := missed
  obtain ⟨row, stored⟩ := Option.ne_none_iff_exists'.mp present
  refine ⟨[op.fact], (mutateLog_met db op keep now unique taken present).1, ?_⟩
  rw [Db.live, mutateLog_queue, if_pos taken, stored, Option.bind_some, adminChange_folds]
  simp [Db.live, stored]

/-- Every step of the queue follows the log. -/
theorem moved_follows (moved : Moved s label t) (id : Nat) : Follows s.db t.db id := by
  cases moved with
  | enqueue new m hold maxAttempts now =>
    obtain ⟨row, queue, _, _, _, _, holds⟩ := enqueueTx_row s.db new m hold maxAttempts now
    by_cases same : id = new
    · subst same
      refine ⟨[.enqueued hold m.size], ?_, by simp [Db.live, queue, Fact.fold, holds]⟩
      simp only [Db.enqueueTx, appendLog_facts, ↓reduceIte]
      split <;> rfl
    · have stays := enqueueTx_other s.db new m hold maxAttempts now id same
      exact follows_same (congrArg Life.facts stays)
        (congrArg (fun life => life.row.map Row.hold) stays)
  | claim =>
    refine follows_same rfl ?_
    simp only [Db.live, setWorker_db, Db.claimTx]
    split
    · cases s.db.queue id <;> rfl
    · rfl
  | renew _ _ renewed | start _ _ _ renewed =>
    obtain ⟨row, stored, _, _, about⟩ := renewLeaseTx_spec renewed
    exact follows_about about id (by simp [Db.live, stored, Row.renewed])
  | record _ m a =>
    exact follows_about (recordResultTx_spec s.db m a _) id rfl
  | deliver _ _ retired | giveUp _ _ _ retired =>
    obtain ⟨_, about⟩ := retireTx_spec retired
    exact follows_about about id rfl
  | backOff _ _ released =>
    obtain ⟨row, stored, _, about⟩ := rescheduleTx_spec released
    refine follows_about about id ?_
    split <;> simp [Db.live, stored, Row.released, Fact.fold]
  | admin _ _ unique => exact mutateLog_follows s.db unique id
  | failDelete _ _ _ removed =>
    obtain ⟨_, about⟩ := failTx_spec removed
    exact follows_about about id rfl
  | bounce | alone | failHook | failAlone => exact follows_same rfl rfl

theorem folded_follows (follows : Follows db next id)
    (same : db.live id = db.folded id) : next.live id = next.folded id := by
  obtain ⟨more, facts, live⟩ := follows
  rw [live, same, Db.folded, Db.folded, facts, foldl_append]

section Retention

/-- The entries of the loop of mutateLog. -/
theorem mutate_log (fact : Fact) (keep : Option Int) (now : Int) (msgs : List Msg) (db : Db)
    (entry : LogEntry) (member : entry ∈ (msgs.foldl (Db.mutateOne fact keep now) db).log) :
    entry ∈ db.log ∨ entry.keepUntil = keep ∧ ∃ m ∈ msgs, entry.queueId = m.id := by
  induction msgs generalizing db with
  | nil => exact .inl member
  | cons m rest ih =>
    rcases ih (db.mutateOne fact keep now m) member with
      earlier | ⟨kept, other, inside, same⟩
    · have log : (db.mutateOne fact keep now m).log = (db.appendLog m fact keep).log := by
        unfold Db.mutateOne
        split <;> simp
      rw [log, Db.appendLog, mem_append, mem_singleton] at earlier
      rcases earlier with old | rfl
      · exact .inl old
      · exact .inr ⟨rfl, m, mem_cons_self, rfl⟩
    · exact .inr ⟨kept, other, mem_cons_of_mem _ inside, same⟩

/-- A new entry with a retention comes with the deletion of its row. -/
def Retains (db next : Db) : Prop :=
  ∀ entry ∈ next.log, entry ∈ db.log ∨ entry.keepUntil = none ∨
    db.queue entry.queueId ≠ none ∧ next.queue entry.queueId = none

theorem retains_same (db next : Db) (log : next.log = db.log) : Retains db next :=
  fun _ member => .inl (log ▸ member)

/-- An entry without a retention, noted after a change that keeps the log. -/
theorem retains_note (db next : Db) (m : Msg) (fact : Fact) (retains : Retains db next) :
    Retains db (next.appendLog m fact none) := by
  intro entry member
  rw [Db.appendLog, mem_append, mem_singleton] at member
  rcases member with old | rfl
  · exact retains entry old
  · exact .inr (.inl rfl)

theorem retains_linked (db : Db) {next : Db} (m : Msg) (change : Outbound → Outbound)
    (retains : Retains db next) : Retains db (next.updateLinked m change) := by
  intro entry member
  rw [updateLinked_log] at member
  rw [updateLinked_queue]
  exact retains entry member

/-- The deletion of a row with its entry. -/
theorem retains_removed {fact : Fact} {keep : Option Int}
    {change : Outbound → Outbound} (stored : db.queue m.id ≠ none) :
    Retains db (((db.setRow m.id none).appendLog m fact keep).updateLinked m change) := by
  refine retains_linked db m change ?_
  intro entry member
  rw [Db.appendLog, mem_append, mem_singleton] at member
  rcases member with old | rfl
  · exact .inl old
  · exact .inr (.inr ⟨stored, by simp⟩)

variable {node : String} {now : Int}

theorem retireTx_retains {success : Bool} {reason : String} {keep : Int}
    (retired : db.retireTx node m success reason keep now = some next) : Retains db next := by
  obtain ⟨leased, _⟩ := retireTx_spec retired
  obtain ⟨row, stored, _⟩ := (leases_iff db node m.id).mp leased
  simp only [Db.retireTx, leased, ↓reduceIte, Option.some.injEq] at retired
  exact retired ▸ retains_removed (by simp [stored])

theorem failTx_retains {keep : Int}
    (removed : db.failTx m keep now = some next) : Retains db next := by
  obtain ⟨stored, _⟩ := failTx_spec removed
  simp only [Db.failTx] at removed
  split at removed
  · cases removed
  · cases removed
    exact retains_removed stored

theorem rescheduleTx_retains {delay : Int} {error : String} {wantDelay fired : Bool}
    (released : db.rescheduleTx node m delay error wantDelay now = some (fired, next)) :
    Retains db next := by
  simp only [Db.rescheduleTx] at released
  split at released
  · cases released
  split at released <;> try contradiction
  obtain ⟨_, rfl⟩ := Prod.mk.inj (Option.some.inj released)
  have once := fun row => retains_note db _ m (.rescheduled m.attempts delay error)
    (retains_linked db m (Outbound.retry m.attempts now)
      (retains_same db (db.setRow m.id row) rfl))
  split
  · exact retains_note db _ m _ (once _)
  · exact once _

theorem renewLeaseTx_log {lease : Int} {attempts : Nat}
    (renewed : db.renewLeaseTx node m lease now = some (attempts, next)) : next.log = db.log := by
  simp only [Db.renewLeaseTx] at renewed
  split at renewed
  · cases renewed
  split at renewed
  · obtain ⟨_, rfl⟩ := Prod.mk.inj (Option.some.inj renewed)
    simp
  · cases renewed

/-- Of the administrator's statements only `drop` writes a retention. -/
theorem admin_retains {op : AdminOp} {f : Filter} {ids : List Nat}
    {clock : Int} (moved : s.admin op f ids clock now = some t) : Retains s.db t.db := by
  simp only [State.admin] at moved
  split at moved <;> try contradiction
  cases moved
  intro entry member
  rcases mutate_log _ _ now _ _ entry member with old | ⟨kept, m, inside, same⟩
  · exact .inl old
  · right
    by_cases dropped : op = .drop
    · obtain ⟨id, taken, row, stored, rfl⟩ := (mem_returning s.db ids m).mp inside
      have id_ : entry.queueId = id := same
      right
      rw [id_, mutateLog_queue, if_pos taken, stored, dropped]
      exact ⟨by simp, rfl⟩
    · left
      rw [kept, if_neg dropped]

theorem step_retains (moved : step settings s label = some t) : Retains s.db t.db := by
  cases step_moved moved with
  | enqueue =>
    refine retains_note s.db _ _ _ (retains_same s.db _ ?_)
    split <;> rfl
  | claim => exact retains_same _ _ rfl
  | renew _ _ renewed | start _ _ _ renewed =>
    exact retains_same _ _ (renewLeaseTx_log renewed)
  | record _ m =>
    exact retains_linked s.db m _ (retains_note s.db s.db m _ (retains_same _ _ rfl))
  | deliver _ _ retired | giveUp _ _ _ retired => exact retireTx_retains retired
  | backOff _ _ released => exact rescheduleTx_retains released
  | admin => exact admin_retains moved
  | failDelete _ _ _ removed => exact failTx_retains removed
  | bounce | alone | failHook | failAlone => exact retains_same _ _ rfl

end Retention

/-- CleanupRetired takes all entries of an id or none. -/
theorem cleanupRetiredTx_facts (db : Db) (now : Int) (id : Nat) :
    (db.cleanupRetiredTx now).facts id = if db.expired now id then [] else db.facts id := by
  simp only [Db.facts, Db.cleanupRetiredTx, filter_filter]
  split
  · rename_i gone
    rw [map_eq_nil_iff, filter_eq_nil_iff]
    intro entry _ both
    simp only [Bool.and_eq_true, decide_eq_true_eq, Bool.not_eq_true'] at both
    rw [both.1, gone] at both
    exact Bool.noConfusion both.2
  · rename_i kept
    congr 1
    refine filter_congr (fun entry _ => ?_)
    by_cases same : entry.queueId = id
    · simp [same, kept]
    · simp [same]

namespace Site

/-- The table is the fold of the log for one id, and an entry of the id has a retention
only after the row is gone. -/
structure Folds (id : Nat) (s : Site) : Prop where
  fold : s.base.db.live id = s.base.db.folded id
  retained : ∀ entry ∈ s.base.db.log, entry.queueId = id → entry.keepUntil ≠ none →
    s.base.db.queue id = none ∧ s.base.inserted id ≠ none

theorem initial_folds (id : Nat) : Folds id initial := by
  refine ⟨rfl, ?_⟩
  intro entry member
  cases member

/-- A row that is gone does not come back under its id. -/
theorem touched_gone (moved : Queue.step settings s label = some t) (gone : s.db.queue id = none)
    (born : s.inserted id ≠ none) : t.db.queue id = none := by
  have touched := step_touched moved id
  generalize s.db.queue id = before at touched gone
  generalize t.db.queue id = after at touched ⊢
  cases touched with
  | same => exact gone
  | removed => rfl
  | inserted m hold maxAttempts now =>
    simp only [Queue.step, State.enqueue] at moved
    split at moved
    · cases moved
    · rename_i vacant
      exact absurd vacant born
  | claimed | renewed | released | changed => cases gone

theorem queue_folds {s t : Site} {time : Int} (known : Known s.base) (folds : Folds id s)
    (moved : s.step settings ⟨time, .queue label⟩ = some t) : Folds id t := by
  obtain ⟨ran, _⟩ := step_queue moved
  have moves := step_moved ran
  have born : s.base.inserted id ≠ none → t.base.inserted id ≠ none :=
    fun before absent => before (moved_inserted moves absent)
  refine ⟨folded_follows (moved_follows moves id) folds.fold, ?_⟩
  rintro entry member rfl kept
  rcases step_retains ran entry member with
    old | open_ | ⟨stored, gone⟩
  · obtain ⟨gone, before⟩ := folds.retained entry old rfl kept
    exact ⟨touched_gone ran gone before, born before⟩
  · exact absurd open_ kept
  · exact ⟨gone, born (known.rows _ stored)⟩

/-- The ids that a new hold rule puts on hold. -/
def ruleHolds (event : Event) : List Nat :=
  match event.act with
  | .holdRuleAdd _ ids => ids
  | _ => []

theorem step_folds {s t : Site} {event : Event} (known : Known s.base) (folds : Folds id s)
    (spared : id ∉ ruleHolds event) (moved : s.step settings event = some t) : Folds id t := by
  obtain ⟨time, act⟩ := event
  cases act with
  | queue => exact queue_folds known folds moved
  | enter =>
    obtain ⟨_, _, rfl⟩ := step_enter moved
    exact ⟨folds.fold, folds.retained⟩
  | holdRuleAdd _ ids =>
    obtain ⟨_, rfl⟩ := step_holdRuleAdd moved
    have same : (s.base.db.holdRuleAddTx ids).queue id = s.base.db.queue id := if_neg spared
    refine ⟨?_, ?_⟩
    · simp only [observe, Db.live, same]
      exact folds.fold
    · simp only [observe, same]
      exact folds.retained
  | cleanupRetired now =>
    cases moved
    refine ⟨?_, ?_⟩
    · have facts := cleanupRetiredTx_facts s.base.db now id
      simp only [observe, Db.folded, facts]
      split
      · rename_i expired
        obtain ⟨entry, member, due⟩ := any_eq_true.mp expired
        simp only [Bool.and_eq_true, beq_iff_eq, Option.any_eq_true] at due
        obtain ⟨same, keep, kept, _⟩ := due
        have gone := (folds.retained entry member same (by simp [kept])).1
        exact congrArg (Option.map Row.hold) gone
      · exact folds.fold
    · intro entry member
      exact folds.retained entry ((mem_filter.mp member).1)

/-- In every run and for every id that no new hold rule has put on hold, the queue
table is the fold of the log: the id is live, with this hold flag, exactly when its
entries say so. -/
theorem queue_is_log_fold (settings : String → Worker) (s : Site) (events : List Event) (id : Nat)
    (reached : run (step settings) initial events = some s)
    (spared : ∀ event ∈ events, id ∉ ruleHolds event) :
    s.base.db.live id = s.base.db.folded id := by
  have met : ∀ (events : List Event) (state : Site), (∀ event ∈ events, id ∉ ruleHolds event) →
      Meets (step settings) (fun _ event => id ∉ ruleHolds event) state events := by
    intro events
    induction events with
    | nil => exact fun _ _ => trivial
    | cons event rest ih =>
      intro state spared
      refine ⟨spared event mem_cons_self, fun next _ => ?_⟩
      exact ih next (fun later member =>
        spared later (mem_cons_of_mem _ member))
  exact (invariant (fun s => Known s.base ∧ Folds id s)
    (fun inv spared moved => ⟨step_known _ _ _ _ inv.1 moved,
      step_folds inv.1 inv.2 spared moved⟩)
    ⟨initial_known, initial_folds id⟩ (met events initial spared) reached).2.fold

/-- A message is queued, and a rule that matches its recipient's domain is added. -/
def ruleAdded : List Event :=
  [⟨0, .queue (.enqueue 1 sample false 10 0)⟩, ⟨1, .holdRuleAdd ⟨1, 0, "", "example.net"⟩ [1]⟩]

/-- The row is on hold and its log says that it is not. -/
theorem rule_hold_is_not_logged :
    ∃ s, run (step fun _ => defaults) initial ruleAdded = some s ∧
      s.base.db.facts 1 = [.enqueued false 100] ∧ s.base.db.folded 1 = some false ∧
      s.base.db.live 1 = some true := by
  have ended : (run (step fun _ => defaults) initial ruleAdded).map (fun s : Site =>
      decide (s.base.db.facts 1 = [.enqueued false 100] ∧ s.base.db.folded 1 = some false ∧
        s.base.db.live 1 = some true)) = some true := by decide +kernel
  obtain ⟨s, reached, seen⟩ := Option.map_eq_some_iff.mp ended
  exact ⟨s, reached, of_decide_eq_true seen⟩

/-- A rule that matches nothing; the message is held, delivered, and its log deleted. -/
def wholeLife : List Event :=
  [⟨0, .queue (.enqueue 1 sample false 10 0)⟩, ⟨0, .queue (.enqueue 2 sample true 10 0)⟩,
    ⟨1, .holdRuleAdd ⟨1, 0, "example.com", ""⟩ []⟩,
    ⟨2, .queue (.admin (.holdSet true) ⟨[1], 0, 0, ""⟩ [1] 2 2)⟩,
    ⟨3, .queue (.admin .kick ⟨[], 1, 0, ""⟩ [1] 3 3)⟩,
    ⟨4, .queue (.claim "A" [1] .committed 4)⟩, ⟨4, .queue (.renewLease "A" .committed 4)⟩,
    ⟨5, .enter "A"⟩, ⟨6, .queue (.deliver "A" ⟨5, 1, none⟩)⟩,
    ⟨6, .queue (.recordResult "A" .committed 6)⟩, ⟨7, .queue (.retire "A" .committed 7 7)⟩,
    ⟨0, .cleanupRetired (8 * 24 * 3600 * second)⟩]

theorem whole_life_folds :
    ∃ s, run (step fun _ => defaults) initial wholeLife = some s ∧
      s.base.db.facts 1 = [] ∧ s.base.db.live 1 = s.base.db.folded 1 ∧
      s.base.db.live 2 = some true ∧ s.base.db.live 2 = s.base.db.folded 2 := by
  have ended : (run (step fun _ => defaults) initial wholeLife).map (fun s : Site =>
      decide (s.base.db.facts 1 = [] ∧ s.base.db.live 2 = some true)) = some true := by
    decide +kernel
  obtain ⟨s, reached, seen⟩ := Option.map_eq_some_iff.mp ended
  obtain ⟨empty, held⟩ := of_decide_eq_true seen
  exact ⟨s, reached, empty, queue_is_log_fold _ s wholeLife 1 reached (by decide), held,
    queue_is_log_fold _ s wholeLife 2 reached (by decide)⟩

end Site

end OctoMail.Queue
