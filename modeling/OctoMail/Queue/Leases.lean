import OctoMail.Queue.Attempts

/-!
# What a worker does after it lost its lease

renewLease, retire and the retry transaction name the leaseholder in their WHERE
clause, so a worker whose lease went to another, or whose row is gone, changes
nothing with them. recordResult has no such clause. As long as every result is
recorded by the current leaseholder, a worker that lost its lease leaves no trace,
and the attempt count shown to the sender never decreases.
-/

namespace OctoMail.Queue

open Function
open Transition (Meets Outcome meets_of_invariant run)

/-- The worker whose processing of a claimed message the label is part of. -/
def Label.worker : Label → Option String
  | .renewLease node _ _ => some node
  | .deliver node _ => some node
  | .recordResult node _ _ => some node
  | .retire node _ _ _ => some node
  | .reschedule node _ _ _ _ => some node
  | .onFailed node => some node
  | .onDelayed node => some node
  | _ => none

/-- The message a worker is processing. -/
def Position.current : Position → Option Msg
  | .batch [] => none
  | .batch (m :: _) => some m
  | .delivering m _ => some m
  | .returned m _ _ => some m
  | .recorded m _ _ => some m
  | .bouncing m _ => some m
  | .warning m _ => some m

def Fact.isAttempt : Fact → Bool
  | .attempt .. => true
  | _ => false

/-- The recorded results of a message: the attempts in its log and the result
columns of its outbound rows. -/
def Db.results (db : Db) (id : Nat) : List Fact × (Nat → Option (Int × String × String)) :=
  ((db.facts id).filter Fact.isAttempt, fun account =>
    (db.outbound account id).map (fun o => (o.smtpCode, o.smtpSecode, o.technicalDetail)))

/-- A worker without the lease of the message it is processing changes none of the
tables, the attempt count of an outbound row does not decrease, and the results of
a message change only by a step of its leaseholder. -/
structure Traceless (s : State) (label : Label) (t : State) : Prop where
  trace : ∀ node m, label.worker = some node → (s.workers node).current = some m →
    s.db.leases node m.id = false → t.db = s.db
  count : ∀ account id o, s.db.outbound account id = some o →
    ∃ o', t.db.outbound account id = some o' ∧ o.attemptCount ≤ o'.attemptCount
  result : ∀ id, s.inserted id ≠ none → t.db.results id ≠ s.db.results id →
    ∃ node, label.worker = some node ∧ s.db.leases node id = true

/-- A result that takes effect is recorded while the worker leases the message. -/
def HeldResult (s : State) : Label → Bool
  | .recordResult node outcome _ => outcome = .failed ||
      match s.workers node with
      | .returned m _ _ => s.db.leases node m.id
      | _ => true
  | _ => true

/-- The message of an attempt that has been counted and not settled. -/
def Position.attempt : Position → Option Msg
  | .delivering m _ => some m
  | .returned m _ _ => some m
  | .recorded m _ _ => some m
  | _ => none

/-- The shown count never exceeds the counted one, and a worker that leases the
message of its attempt carries the counted number. -/
structure Counted (s : State) : Prop where
  shown : ∀ account id o row, s.db.outbound account id = some o → s.db.queue id = some row →
    o.attemptCount ≤ row.attempts
  carried : ∀ node m row, (s.workers node).attempt = some m → s.db.queue m.id = some row →
    row.leasedBy = some node → m.attempts = row.attempts

theorem initial_counted : Counted initial := by
  constructor
  · intro account id o row found
    cases found
  · intro node m row at_
    cases at_

/-- Outbound rows stay, and each count stays or becomes the counted number. -/
def Counts (db next : Db) : Prop :=
  ∀ account id, (next.outbound account id).isSome = (db.outbound account id).isSome ∧
    ∀ o o', db.outbound account id = some o → next.outbound account id = some o' →
      o'.attemptCount = o.attemptCount ∨
        ∃ row, db.queue id = some row ∧ o'.attemptCount = row.attempts

theorem counts_refl (db : Db) : Counts db db := by
  intro account id
  refine ⟨rfl, fun o o' found again => .inl ?_⟩
  rw [Option.some.inj (found.symm.trans again)]

/-- An update of every shown row that keeps the count, or sets it to the counted one. -/
theorem counts_shown (db : Db) {next : Db} {change : Outbound → Outbound}
    (shows : ∀ id, Life.Shown change (db.life id).outbound (next.life id).outbound)
    (kept : ∀ o, (change o).attemptCount = o.attemptCount) : Counts db next := by
  intro account id
  rcases shows id account with same | changed
  · simp only [life_outbound] at same
    rw [same]
    exact counts_refl db account id
  · simp only [life_outbound] at changed
    rw [changed]
    refine ⟨by simp, fun o o' found again => .inl ?_⟩
    rw [found, Option.map_some] at again
    rw [← Option.some.inj again, kept]

variable {change : Outbound → Outbound} {db next : Db} {m : Msg} {more : List Fact}
  {row : Option Row} {s t : State} {id : Nat} {label : Label} {node : String}

theorem counts_about (about : About m row more change db next)
    (kept : ∀ o, (change o).attemptCount = o.attemptCount ∨
      ∃ row, db.queue m.id = some row ∧ (change o).attemptCount = row.attempts) :
    Counts db next := by
  intro account id
  rw [about.outbound, updateLinked_outbound]
  split
  · rename_i mine
    obtain ⟨_, _, rfl⟩ := mine
    refine ⟨by simp, fun o o' found again => ?_⟩
    rw [found, Option.map_some] at again
    rw [← Option.some.inj again]
    exact kept o
  · exact counts_refl db account id

/-- A step that keeps every counted number keeps the invariant. -/
theorem counted_quiet (counted : Counted s) (quiet : Quiet s.db t.db) (counts : Counts s.db t.db)
    (attempts : ∀ node m, (t.workers node).attempt = some m → (s.workers node).attempt = some m) :
    Counted t := by
  constructor
  · intro account id o' after found stored
    obtain ⟨before, earlier, same, _⟩ := quiet id after stored
    obtain ⟨present, change⟩ := counts account id
    rw [found, Option.isSome_some, eq_comm, Option.isSome_iff_exists] at present
    obtain ⟨o, old⟩ := present
    rw [same]
    rcases change o o' old found with unchanged | ⟨row, known, equal⟩
    · rw [unchanged]
      exact counted.shown account id o before old earlier
    · cases Option.some.inj (earlier.symm.trans known)
      exact Nat.le_of_eq equal
  · intro node m after at_ stored leased
    obtain ⟨before, earlier, same, _, holder⟩ := quiet m.id after stored
    have mine : before.leasedBy = some node := by
      rcases holder with equal | released
      · exact equal ▸ leased
      · rw [released] at leased
        cases leased
    rw [same]
    exact counted.carried node m before (attempts node m at_) earlier mine

/-- The counts shown do not decrease. -/
theorem counts_grow (s : State) (next : Db) (counted : Counted s) (counts : Counts s.db next)
    (account id : Nat) (o : Outbound) (found : s.db.outbound account id = some o) :
    ∃ o', next.outbound account id = some o' ∧ o.attemptCount ≤ o'.attemptCount := by
  obtain ⟨present, change⟩ := counts account id
  rw [found, Option.isSome_some, Option.isSome_iff_exists] at present
  obtain ⟨o', new⟩ := present
  refine ⟨o', new, ?_⟩
  rcases change o o' found new with unchanged | ⟨row, known, equal⟩
  · exact Nat.le_of_eq unchanged.symm
  · rw [equal]
    exact counted.shown account id o row found known

/-- The results of a message are read off its life. -/
theorem results_ext
    (facts : (next.facts id).filter Fact.isAttempt = (db.facts id).filter Fact.isAttempt)
    (columns : ∀ account, (next.outbound account id).map
        (fun o => (o.smtpCode, o.smtpSecode, o.technicalDetail)) =
      (db.outbound account id).map (fun o => (o.smtpCode, o.smtpSecode, o.technicalDetail))) :
    next.results id = db.results id := by
  simp only [Db.results, facts, Prod.mk.injEq, true_and]
  exact funext columns

theorem results_life (same : next.life id = db.life id) : next.results id = db.results id := by
  refine results_ext ?_ ?_
  · exact congrArg (fun life => life.facts.filter Fact.isAttempt) same
  · intro account
    exact congrArg (fun life => (life.outbound account).map
      (fun o => (o.smtpCode, o.smtpSecode, o.technicalDetail))) same

/-- A move that appends no attempt and keeps the result columns keeps the results. -/
theorem results_shown (facts : next.facts id = db.facts id ++ more)
    (none_ : ∀ fact ∈ more, fact.isAttempt = false)
    (shows : Life.Shown change (db.life id).outbound (next.life id).outbound)
    (kept : ∀ o, ((change o).smtpCode, (change o).smtpSecode, (change o).technicalDetail) =
      (o.smtpCode, o.smtpSecode, o.technicalDetail)) : next.results id = db.results id := by
  refine results_ext ?_ ?_
  · have dropped : more.filter Fact.isAttempt = [] := by
      simpa [List.filter_eq_nil_iff] using none_
    rw [facts, List.filter_append, dropped, List.append_nil]
  · intro account
    rcases shows account with same | changed
    · exact congrArg _ same
    · simp only [life_outbound] at changed
      rw [changed, Option.map_map]
      exact congrArg (fun f => Option.map f (db.outbound account id)) (funext kept)

theorem results_about (about : About m row more change db next)
    (none_ : ∀ fact ∈ more, fact.isAttempt = false)
    (kept : ∀ o, ((change o).smtpCode, (change o).smtpSecode, (change o).technicalDetail) =
      (o.smtpCode, o.smtpSecode, o.technicalDetail)) (id : Nat) :
    next.results id = db.results id := by
  by_cases same : id = m.id
  · subst same
    exact results_shown (by simp [about.facts]) none_
      (about_shows about) kept
  · exact results_life (about_other about same)

/-- A worker with the lease, or a step that is no worker's, may change the tables. -/
theorem traceless_of (s t : State) (label : Label)
    (held : ∀ node m, label.worker = some node → (s.workers node).current = some m →
      s.db.leases node m.id = true) (count : ∀ account id o, s.db.outbound account id = some o →
      ∃ o', t.db.outbound account id = some o' ∧ o.attemptCount ≤ o'.attemptCount)
    (results : ∀ id, s.inserted id ≠ none → t.db.results id = s.db.results id) :
    Traceless s label t := by
  refine ⟨?_, count, fun id known changed => absurd (results id known) changed⟩
  intro node m acts at_ lost
  rw [held node m acts at_] at lost
  cases lost

/-- A step that leaves the tables alone leaves no trace. -/
theorem traceless_same {label : Label} (same : t.db = s.db) : Traceless s label t := by
  refine ⟨fun _ _ _ _ _ => same, ?_, fun id _ changed => absurd (by rw [same]) changed⟩
  intro account id o found
  exact ⟨o, same ▸ found, Nat.le_refl _⟩

/-- Replacing one worker's position. -/
theorem attempt_setWorker (s : State) (node : String) {position : Position}
    (fewer : ∀ m, position.attempt = some m → (s.workers node).attempt = some m) (other : String)
    (m : Msg) (at_ : ((s.setWorker node position).workers other).attempt = some m) :
    (s.workers other).attempt = some m := by
  rw [setWorker_workers] at at_
  split at at_
  · rename_i same
    exact same ▸ fewer m at_
  · exact at_

/-- The step is the processing of a message its worker leases. -/
theorem held_of (acts : label.worker = some node) (at_ : (s.workers node).current = some m)
    (leased : s.db.leases node m.id = true) :
    ∀ other m', label.worker = some other → (s.workers other).current = some m' →
      s.db.leases other m'.id = true := by
  intro other m' acts' at'
  cases Option.some.inj (acts.symm.trans acts')
  cases Option.some.inj (at_.symm.trans at')
  exact leased

/-- Enqueueing shows a count of zero beside a row without attempts. -/
theorem counted_enqueue (s : State) (counted : Counted s) (lives : Lives s) (id : Nat) (m : Msg)
    (hold : Bool) (maxAttempts : Nat) (now : Int) (vacant : s.inserted id = none) :
    Counted { s with
      db := s.db.enqueueTx id m hold maxAttempts now
      inserted := update s.inserted id
        ((s.db.enqueueTx id m hold maxAttempts now).queue id) } := by
  have unborn : s.db.life id = Life.unborn :=
    (lives.sound id).unborn ((lives.born id).mp vacant)
  obtain ⟨new, queue, _, _, unleased, _⟩ := enqueueTx_row s.db id m hold maxAttempts now
  have others : ∀ other, other ≠ id →
      (s.db.enqueueTx id m hold maxAttempts now).life other = s.db.life other :=
    enqueueTx_other s.db id m hold maxAttempts now
  constructor
  · intro account other o row found stored
    by_cases same : other = id
    · subst same
      rw [(enqueueTx_outbound s.db unborn found).2]
      exact Nat.zero_le _
    · have shown : s.db.outbound account other = some o :=
        (congrArg (fun life => life.outbound account) (others other same)).symm.trans found
      have kept : s.db.queue other = some row :=
        (congrArg Life.row (others other same)).symm.trans stored
      exact counted.shown account other o row shown kept
  · intro node current row at_ stored leased
    simp only [queue] at stored
    by_cases same : current.id = id
    · rw [same, update_self] at stored
      cases stored
      rw [unleased] at leased
      cases leased
    · rw [update_of_ne same] at stored
      exact counted.carried node current row at_ stored leased

/-- A claim moves leases only, to a worker without an attempt. -/
theorem counted_claim (s : State) (counted : Counted s) (node : String) (ids : List Nat)
    (now lease : Int) (rest : List Msg) :
    Counted ({ s with db := s.db.claimTx node ids lease now }.setWorker node (.batch rest)) := by
  constructor
  · intro account id o row found stored
    have stored' : (s.db.claimTx node ids lease now).queue id = some row := stored
    simp only [Db.claimTx] at stored'
    split at stored'
    · obtain ⟨before, earlier, rfl⟩ := Option.map_eq_some_iff.mp stored'
      exact counted.shown account id o before found earlier
    · exact counted.shown account id o row found stored'
  · intro who m row at_ stored leased
    rw [setWorker_workers] at at_
    split at at_
    · cases at_
    rename_i different
    have stored' : (s.db.claimTx node ids lease now).queue m.id = some row := stored
    simp only [Db.claimTx] at stored'
    split at stored'
    · obtain ⟨before, earlier, rfl⟩ := Option.map_eq_some_iff.mp stored'
      have holder : some node = some who := leased
      exact absurd (Option.some.inj holder).symm different
    · exact counted.carried who m row at_ stored' leased

/-- A renewal shows the number it counts, and the worker carries it. -/
theorem counted_renew (counted : Counted s) {lease now : Int} {attempts : Nat}
    (renewed : s.db.renewLeaseTx node m lease now = some (attempts, db))
    (delivers : List (String × Nat)) {position : Position}
    (carries : ∀ m', position.attempt = some m' → m' = { m with attempts := attempts }) :
    Counted ({ s with db := db, delivers := delivers }.setWorker node position) := by
  obtain ⟨row, stored, leased, number, about⟩ := renewLeaseTx_spec renewed
  have queue : db.queue = update s.db.queue m.id (some (row.renewed lease now)) :=
    about.queue
  constructor
  · intro account id o' after found kept
    simp only [setWorker_db, queue] at found kept
    rw [about.outbound, updateLinked_outbound] at found
    by_cases same : id = m.id
    · subst same
      rw [update_self] at kept
      cases kept
      split at found
      · obtain ⟨o, _, rfl⟩ := Option.map_eq_some_iff.mp found
        exact Nat.le_of_eq number
      · exact Nat.le_succ_of_le (counted.shown account m.id o' row found stored)
    · rw [update_of_ne same] at kept
      simp only [same, and_false, ↓reduceIte] at found
      exact counted.shown account id o' after found kept
  · intro who current after at_ kept holder
    simp only [setWorker_db, queue] at kept
    rw [setWorker_workers] at at_
    split at at_
    · rw [carries current at_] at kept ⊢
      rw [update_self] at kept
      cases kept
      exact number
    · rename_i different
      by_cases same : current.id = m.id
      · rw [same, update_self] at kept
        cases kept
        have mine : row.leasedBy = some who := holder
        rw [leased] at mine
        exact absurd (Option.some.inj mine).symm different
      · rw [update_of_ne same] at kept
        exact counted.carried who current after at_ kept holder

/-- A renewal by the leaseholder leaves the trace it may. -/
theorem traceless_renew (counted : Counted s) {rest : List Msg} {lease now : Int} {attempts : Nat}
    (acts : label.worker = some node) (at_ : s.workers node = .batch (m :: rest))
    (renewed : s.db.renewLeaseTx node m lease now = some (attempts, db)) (after : t.db = db) :
    Traceless s label t := by
  obtain ⟨row, stored, leased, number, about⟩ := renewLeaseTx_spec renewed
  have holds : s.db.leases node m.id = true :=
    (leases_iff s.db node m.id).mpr ⟨row, stored, leased⟩
  have current : (s.workers node).current = some m := by rw [at_]; rfl
  refine traceless_of s t label (held_of acts current holds) ?_ ?_
  · intro account id o found
    rw [after, about.outbound, updateLinked_outbound]
    split
    · rename_i mine
      obtain ⟨_, _, rfl⟩ := mine
      rw [found]
      refine ⟨_, rfl, ?_⟩
      have bound := counted.shown account m.id o row found stored
      have larger : o.attemptCount ≤ attempts := by omega
      exact larger
    · exact ⟨o, found, Nat.le_refl _⟩
  · intro id _
    rw [after]
    exact results_about about (by simp) (fun _ => rfl) id

/-- An administrator's statement keeps counts and results. -/
theorem mutateLog_results (db : Db) (op : AdminOp) (ids : List Nat) (keep : Option Int)
    (now : Int) (unique : ids.Nodup) :
    Counts db (db.mutateLog op ids keep now) ∧
      ∀ id, (db.mutateLog op ids keep now).results id = db.results id := by
  have silent : op.fact.isAttempt = false := by
    cases op with
    | holdSet hold => cases hold <;> rfl
    | _ => rfl
  have each : ∀ id, Life.Shown (Outbound.fail "" now) (db.life id).outbound
        ((db.mutateLog op ids keep now).life id).outbound ∧
      (db.mutateLog op ids keep now).results id = db.results id := by
    intro id
    by_cases missed : id ∉ ids ∨ db.queue id = none
    · have same := mutateLog_other db op keep now missed
      exact ⟨fun account => .inl (congrArg (fun life => life.outbound account) same),
        results_life same⟩
    · simp only [not_or, Classical.not_not] at missed
      obtain ⟨facts, shows⟩ := mutateLog_met db op keep now unique missed.1 missed.2
      exact ⟨shows, results_shown facts (by simpa using silent) shows
        (fun _ => rfl)⟩
  exact ⟨counts_shown db (fun id => (each id).1) (fun _ => rfl), fun id => (each id).2⟩

/-- A step about one message, by the worker that leases it, which counts nothing. -/
theorem traceless_about (counted : Counted s)
    (acts : label.worker = some node) (at_ : (s.workers node).current = some m)
    (leased : s.db.leases node m.id = true) (about : About m row more change s.db t.db)
    (counts : Counts s.db t.db) (none_ : ∀ fact ∈ more, fact.isAttempt = false)
    (kept : ∀ o, ((change o).smtpCode, (change o).smtpSecode, (change o).technicalDetail) =
      (o.smtpCode, o.smtpSecode, o.technicalDetail)) : Traceless s label t :=
  traceless_of s t label (held_of acts at_ leased)
    (counts_grow s t.db counted counts)
    (fun id _ => results_about about none_ kept id)

/-- A message that enters the queue has no results yet, and no other message is touched. -/
theorem traceless_enqueue (lives : Lives s) (id : Nat) (m : Msg) (hold : Bool)
    (maxAttempts : Nat) (now : Int) (vacant : s.inserted id = none)
    (after : t.db = s.db.enqueueTx id m hold maxAttempts now) :
    Traceless s (.enqueue id m hold maxAttempts now) t := by
  have unborn : s.db.life id = Life.unborn :=
    (lives.sound id).unborn ((lives.born id).mp vacant)
  refine traceless_of s _ _ (fun _ _ acts => by cases acts) ?_ ?_ <;> rw [after]
  · intro account other o found
    have apart : other ≠ id := by
      rintro rfl
      have none_ := congrFun (congrArg Life.outbound unborn) account
      exact absurd (none_.symm.trans found) (by simp [Life.unborn])
    have same := enqueueTx_other s.db id m hold maxAttempts now other apart
    exact ⟨o, (congrArg (fun life => life.outbound account) same).trans found, Nat.le_refl _⟩
  · intro other known
    have apart : other ≠ id := by
      rintro rfl
      exact known vacant
    exact results_life (enqueueTx_other s.db id m hold maxAttempts now other apart)

section Settling

variable {rest : List Msg} {a : Attempt} {now : Int} {position : Position}
  (idle : position.attempt = none)

/-- The result is the one thing a worker records, and it records it under its lease. -/
theorem moved_record {outcome : Outcome} (counted : Counted s)
    (at_ : s.workers node = .returned m a rest) (leased : s.db.leases node m.id = true)
    (after : t = { s with db := s.db.recordResultTx m a now }.setWorker node (.recorded m a rest)) :
    Traceless s (.recordResult node outcome now) t ∧ Counted t := by
  subst after
  obtain ⟨row, stored, holder⟩ := (leases_iff s.db node m.id).mp leased
  have number : m.attempts = row.attempts :=
    counted.carried node m row (by rw [at_]; rfl) stored holder
  have about := recordResultTx_spec s.db m a now
  have counts : Counts s.db (s.db.recordResultTx m a now) :=
    counts_about about (fun _ => .inr ⟨row, stored, number⟩)
  have current : (s.workers node).current = some m := by rw [at_]; rfl
  refine ⟨⟨?_, counts_grow s _ counted counts, ?_⟩, ?_⟩
  · intro other m' acts' at' lost
    rw [held_of rfl current leased other m' acts' at'] at lost
    cases lost
  · intro id _ changed
    by_cases same : id = m.id
    · exact ⟨node, rfl, same ▸ leased⟩
    · exact absurd (results_life (about_other about same)) changed
  · refine counted_quiet counted (quiet_of_queue ?_) counts ?_
    · exact about.queue.trans (update_eq_self _ _)
    · exact attempt_setWorker s node (by rw [at_]; exact fun _ same => same)

include idle

/-- Retiring deletes a row under the lease and leaves the counts. -/
theorem moved_retire (counted : Counted s) {success : Bool} {reason : String} {keep : Int}
    (acts : label.worker = some node) (at_ : s.workers node = .recorded m a rest)
    (retired : s.db.retireTx node m success reason keep now = some db)
    (after : t = { s with db := db }.setWorker node position) :
    Traceless s label t ∧ Counted t := by
  subst after
  obtain ⟨leased, about⟩ := retireTx_spec retired
  have counts : Counts s.db db := counts_about about (fun _ => .inl (by split <;> rfl))
  refine ⟨traceless_about counted acts (by rw [at_]; rfl) leased about counts
    (by cases success <;> simp [Fact.isAttempt]) (fun _ => by split <;> rfl), ?_⟩
  exact counted_quiet counted (quiet_of_remove about) counts
    (attempt_setWorker s node (by simp [idle]))

/-- A retry shows the number that was counted when the attempt began. -/
theorem moved_backOff (counted : Counted s) {delay : Int} {error : String}
    {wantDelay fired : Bool} (acts : label.worker = some node)
    (at_ : s.workers node = .recorded m a rest)
    (released : s.db.rescheduleTx node m delay error wantDelay now = some (fired, db))
    (after : t = { s with db := db }.setWorker node position) :
    Traceless s label t ∧ Counted t := by
  subst after
  obtain ⟨row, stored, holder, about⟩ := rescheduleTx_spec released
  have number : m.attempts = row.attempts :=
    counted.carried node m row (by rw [at_]; rfl) stored holder
  have counts : Counts s.db db := counts_about about (fun _ => .inr ⟨row, stored, number⟩)
  refine ⟨traceless_about counted acts (by rw [at_]; rfl)
    ((leases_iff s.db node m.id).mpr ⟨row, stored, holder⟩) about counts
    (by cases fired <;> simp [Fact.isAttempt]) (fun _ => rfl), ?_⟩
  exact counted_quiet counted (rescheduleTx_quiet released) counts
    (attempt_setWorker s node (by simp [idle]))

end Settling

/-- Every step whose results are recorded by the leaseholder is traceless and keeps
the counts. -/
theorem moved_traceless (moved : Moved s label t) (lives : Lives s) (counted : Counted s)
    (meets : HeldResult s label = true) : Traceless s label t ∧ Counted t := by
  cases moved with
  | enqueue id m hold maxAttempts now vacant =>
    exact ⟨traceless_enqueue lives id m hold maxAttempts now vacant rfl,
      counted_enqueue s counted lives id m hold maxAttempts now vacant⟩
  | claim node ids =>
    refine ⟨?_, counted_claim s counted node ids _ _ _⟩
    exact traceless_of s _ _ (fun _ _ acts => by cases acts)
      (fun _ _ o found => ⟨o, found, Nat.le_refl _⟩) (fun _ _ => rfl)
  | renew _ at_ renewed =>
    exact ⟨traceless_renew counted rfl at_ renewed rfl,
      counted_renew counted renewed s.delivers (fun _ none_ => by cases none_)⟩
  | start _ _ at_ renewed =>
    exact ⟨traceless_renew counted rfl at_ renewed rfl,
      counted_renew counted renewed _ (fun _ same => (Option.some.inj same).symm)⟩
  | record node m a at_ ran =>
    exact moved_record counted at_ (by simpa [HeldResult, ran, at_] using meets) rfl
  | deliver node at_ retired => exact moved_retire rfl counted rfl at_ retired rfl
  | giveUp node m at_ retired then_ =>
    exact moved_retire (by rcases then_ with rfl | rfl <;> rfl) counted rfl at_ retired rfl
  | backOff node at_ released then_ =>
    exact moved_backOff (by rcases then_ with rfl | rfl <;> rfl) counted rfl at_ released rfl
  | bounce node =>
    exact ⟨traceless_same rfl, counted_quiet counted (quiet_of_queue rfl)
      (counts_refl _) (attempt_setWorker s node (fun _ none_ => by cases none_))⟩
  | alone node next =>
    refine ⟨traceless_same rfl, counted_quiet counted (quiet_of_queue rfl)
      (counts_refl _) (attempt_setWorker s node ?_)⟩
    generalize s.workers node = before at next
    cases next <;> exact fun _ same => by first | exact same | cases same
  | admin op ids unique =>
    obtain ⟨counts, results⟩ := mutateLog_results s.db op ids _ _ unique
    refine ⟨traceless_of s _ _ (fun _ _ acts => by cases acts) (counts_grow s _ counted counts)
      (fun id _ => results id), ?_⟩
    exact counted_quiet counted mutateLog_quiet counts (fun _ _ same => same)
  | failDelete _ _ _ removed =>
    obtain ⟨_, about⟩ := failTx_spec removed
    have counts := counts_about about (fun _ => .inl rfl)
    refine ⟨traceless_of s _ _ (fun _ _ acts => by cases acts) (counts_grow s _ counted counts)
      (fun id _ => results_about about (by simp [Fact.isAttempt]) (fun _ => rfl) id), ?_⟩
    exact counted_quiet counted (quiet_of_remove about) counts (fun _ _ same => same)
  | failHook | failAlone =>
    exact ⟨traceless_same rfl, counted_quiet counted (quiet_of_queue rfl)
      (counts_refl _) (fun _ _ same => same)⟩

/-- A result recorded without the lease is a trace. -/
theorem held_of_traceless {settings : String → Worker} (moved : step settings s label = some t)
    (traceless : Traceless s label t) : HeldResult s label = true := by
  unfold HeldResult
  split
  · rename_i node outcome now
    by_contra unheld
    simp only [Bool.or_eq_true, decide_eq_true_eq, not_or, Bool.not_eq_true] at unheld
    obtain ⟨ran, unheld⟩ := unheld
    split at unheld <;> try contradiction
    rename_i m a rest at_
    have same := traceless.trace node m rfl (by rw [at_]; rfl) unheld
    have recorded : t.db = s.db.recordResultTx m a now := by
      simp only [step, State.recordResult, at_] at moved
      cases moved
      cases outcome with
      | failed => exact absurd rfl ran
      | committed | unreported => rfl
    have grown := congrArg (fun db => db.log.length) (recorded.symm.trans same)
    simp [Db.recordResultTx, Db.appendLog] at grown
  · rfl

/-- Along a run, every step of a worker without the lease leaves no trace, shown
counts do not decrease and results come from the leaseholder, exactly when every
result of the run is recorded by a worker that leases the message. -/
theorem traceless_iff_held_results (settings : String → Worker) (final : State)
    (labels : List Label) (reached : run (step settings) initial labels = some final) :
    Meets (step settings)
        (fun s label => ∀ t, step settings s label = some t → Traceless s label t) initial labels ↔
      Meets (step settings) (HeldResult · ·) initial labels := by
  constructor
  · intro traceless
    exact meets_of_invariant (fun _ => True) (fun _ _ _ => trivial)
      (fun _ holds moved => held_of_traceless moved (holds _ moved)) trivial traceless reached
  · intro held
    have each : ∀ s label t, (Lives s ∧ Hooks s) ∧ Counted s → HeldResult s label = true →
        step settings s label = some t → Traceless s label t ∧ Counted t :=
      fun s label t inv meets moved =>
        moved_traceless (step_moved moved) inv.1.1 inv.2 meets
    refine meets_of_invariant (fun s => (Lives s ∧ Hooks s) ∧ Counted s) ?_ ?_
      ⟨⟨initial_lives, initial_hooks⟩, initial_counted⟩ held reached
    · intro s label t inv meets moved
      exact ⟨step_lives inv.1 moved, (each s label t inv meets moved).2⟩
    · intro s label t inv meets moved t' moved'
      exact (each s label t' inv meets moved').1

/-- Worker A loses its lease to B while delivering, and its result arrives late. -/
def lateResult : List Label :=
  [.enqueue 1 sample false 10 0, .claim "A" [1] .committed 0, .renewLease "A" .committed 0,
    .claim "B" [1] .committed (31 * second), .renewLease "B" .committed (31 * second),
    .deliver "A" rejected]

/-- The late result is logged and takes the shown attempt count back from 2 to 1. -/
theorem late_result_leaves_trace :
    ∃ s t, run (step fun _ => defaults) initial lateResult = some s ∧
      step (fun _ => defaults) s (.recordResult "A" .committed (40 * second)) = some t ∧
      s.db.leases "A" 1 = false ∧ s.db.leases "B" 1 = true ∧
      (s.db.outbound 7 1).map Outbound.attemptCount = some 2 ∧
      (t.db.outbound 7 1).map Outbound.attemptCount = some 1 ∧
      (t.db.facts 1).length = (s.db.facts 1).length + 1 ∧
        ¬ Traceless s (.recordResult "A" .committed (40 * second)) t := by
  have ended : (run (step fun _ => defaults) initial lateResult).bind (fun s =>
      (step (fun _ => defaults) s (.recordResult "A" .committed (40 * second))).map (fun t =>
        (s.db.leases "A" 1, s.db.leases "B" 1, (s.db.outbound 7 1).map Outbound.attemptCount,
          (t.db.outbound 7 1).map Outbound.attemptCount, (s.db.facts 1).length,
          (t.db.facts 1).length))) = some (false, true, some 2, some 1, 1, 2) := by decide
  obtain ⟨s, reached, last⟩ := Option.bind_eq_some_iff.mp ended
  obtain ⟨t, moved, seen⟩ := Option.map_eq_some_iff.mp last
  simp only [Prod.mk.injEq] at seen
  obtain ⟨lost, leased, before, after, few, more⟩ := seen
  refine ⟨s, t, reached, moved, lost, leased, before, after, by omega, ?_⟩
  intro traceless
  obtain ⟨o, found, two⟩ := Option.map_eq_some_iff.mp before
  obtain ⟨o', found', grows⟩ := traceless.count 7 1 o found
  rw [found', Option.map_some, Option.some.injEq] at after
  omega

theorem overtaken_traceless :
    ∃ s, run (step fun _ => defaults) initial overtaken = some s ∧
      Meets (step fun _ => defaults)
        (fun s label => ∀ t, step (fun _ => defaults) s label = some t → Traceless s label t)
        initial overtaken := by
  have ended : (run (step fun _ => defaults) initial overtaken).isSome = true := by
    decide
  obtain ⟨s, reached⟩ := Option.isSome_iff_exists.mp ended
  exact ⟨s, reached, (traceless_iff_held_results _ s overtaken reached).mpr (by decide)⟩

end OctoMail.Queue
