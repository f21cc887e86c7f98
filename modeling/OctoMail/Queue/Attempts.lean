import OctoMail.Queue.Outcomes

/-!
# How often a message is delivered

renewLease counts an attempt before Deliver is called, so there are never more
calls than counted attempts. Only `reschedule` compares the count with
max_attempts, and a worker that crashes between the two leaves a row whose count
is spent but which any worker may claim again. As long as no such row is claimed,
the count stays within the bound.
-/

namespace OctoMail.Queue

open Function
open Transition (Meets invariant run)

/-- How often Deliver has been called for an id. -/
def State.deliveries (s : State) (id : Nat) : Nat := s.delivers.countP (fun call => call.2 = id)

/-- Deliver is called for each id at most as often as its row allows. -/
def WithinBudget (s : State) : Prop :=
  ∀ id row, s.inserted id = some row → s.deliveries id ≤ row.maxAttempts

/-- A claim that takes effect takes no row whose attempts are spent. -/
def UnspentClaim (s : State) : Label → Bool
  | .claim _ ids outcome _ => outcome = .failed ||
      ids.all (fun id => (s.db.queue id).all (fun row => row.attempts < row.maxAttempts))
  | _ => true

/-- The count covers the calls and stays within the bound; a worker that still
leases a row of its batch may count once more. -/
structure Budget (s : State) : Prop where
  row : ∀ id row, s.db.queue id = some row → ∃ first, s.inserted id = some first ∧
    row.maxAttempts = first.maxAttempts ∧ s.deliveries id ≤ row.attempts ∧
      row.attempts ≤ row.maxAttempts
  within : WithinBudget s
  unborn : ∀ id, s.inserted id = none → s.deliveries id = 0
  unspent : ∀ node, ∀ m ∈ (s.workers node).rest, ∀ row, s.db.queue m.id = some row →
    row.leasedBy = some node → row.attempts < row.maxAttempts
  distinct : ∀ node, ((s.workers node).rest.map Msg.id).Nodup

theorem initial_budget : Budget initial := by
  refine ⟨?_, ?_, fun _ _ => rfl, ?_, fun _ => List.nodup_nil⟩
  · intro id row found
    cases found
  · intro id row found
    cases found
  · intro node m held
    cases held

variable {s : State}

/-- A step that counts nothing and takes nothing into a batch. -/
theorem budget_quiet {t : State} (budget : Budget s) (quiet : Quiet s.db t.db)
    (inserted : t.inserted = s.inserted) (delivers : t.delivers = s.delivers)
    (rest : ∀ node, (t.workers node).rest.Sublist (s.workers node).rest) : Budget t := by
  have calls : ∀ id, t.deliveries id = s.deliveries id := by
    intro id
    simp [State.deliveries, delivers]
  refine ⟨?_, ?_, ?_, ?_, fun node => ((rest node).map Msg.id).nodup (budget.distinct node)⟩
  · intro id after found
    obtain ⟨before, stored, attempts, maxAttempts, _⟩ := quiet id after found
    obtain ⟨first, known, bound, counted, within⟩ := budget.row id before stored
    refine ⟨first, inserted ▸ known, maxAttempts.trans bound, ?_, ?_⟩
    · rw [calls, attempts]
      exact counted
    · rw [attempts, maxAttempts]
      exact within
  · intro id first known
    rw [calls]
    exact budget.within id first (inserted ▸ known)
  · intro id absent
    rw [calls]
    exact budget.unborn id (inserted ▸ absent)
  · intro node m held after found leased
    obtain ⟨before, stored, attempts, maxAttempts, holder⟩ := quiet m.id after found
    have mine : before.leasedBy = some node := by
      rcases holder with same | released
      · exact same ▸ leased
      · rw [released] at leased
        cases leased
    rw [attempts, maxAttempts]
    exact budget.unspent node m ((rest node).subset held) before stored mine

/-- Replacing one worker's position by one with no more in its batch. -/
theorem rest_setWorker {node : String} {position : Position}
    (less : position.rest.Sublist (s.workers node).rest) (other : String) :
    ((s.setWorker node position).workers other).rest.Sublist (s.workers other).rest := by
  rw [setWorker_workers]
  split
  · rename_i same
    exact same ▸ less
  · exact List.Sublist.refl _

theorem budget_enqueue (s : State) (budget : Budget s) (id : Nat) (m : Msg) (hold : Bool)
    (maxAttempts : Nat) (now : Int) (vacant : s.inserted id = none) :
    Budget { s with
      db := s.db.enqueueTx id m hold maxAttempts now
      inserted := update s.inserted id
        ((s.db.enqueueTx id m hold maxAttempts now).queue id) } := by
  obtain ⟨new, queue, unattempted, _, unleased, _⟩ :=
    enqueueTx_row s.db id m hold maxAttempts now
  have none_ : s.deliveries id = 0 := budget.unborn id vacant
  refine ⟨?_, ?_, ?_, ?_, budget.distinct⟩
  · intro other row found
    simp only [queue] at found ⊢
    by_cases same : other = id
    · subst same
      simp only [update_self, Option.some.injEq] at found ⊢
      subst found
      exact ⟨new, rfl, rfl, Nat.le_trans (Nat.le_of_eq none_) (Nat.zero_le _), by omega⟩
    · simp only [update_of_ne same] at found ⊢
      exact budget.row other row found
  · intro other row known
    simp only [queue] at known
    by_cases same : other = id
    · subst same
      have zero : s.deliveries other ≤ row.maxAttempts := by omega
      exact zero
    · rw [update_of_ne same] at known
      exact budget.within other row known
  · intro other absent
    by_cases same : other = id
    · exact same ▸ none_
    · exact budget.unborn other (by simpa [same] using absent)
  · intro node held inside row found leased
    simp only [queue] at found
    by_cases same : held.id = id
    · rw [same, update_self] at found
      cases found
      rw [unleased] at leased
      cases leased
    · rw [update_of_ne same] at found
      exact budget.unspent node held inside row found leased

/-- A claim of unspent rows gives its worker rows it may count once more, and takes
nothing from another worker but a lease. -/
theorem budget_claim (budget : Budget s) (node : String) {ids : List Nat} (now lease : Int)
    {rest : List Msg} (unique : ids.Nodup) (got : rest = [] ∨ rest = s.db.returning ids)
    (unspent : ∀ id ∈ ids, ∀ row, s.db.queue id = some row → row.attempts < row.maxAttempts) :
    Budget ({ s with db := s.db.claimTx node ids lease now }.setWorker node (.batch rest)) := by
  have claimed : ∀ id after, (s.db.claimTx node ids lease now).queue id = some after →
      ∃ before, s.db.queue id = some before ∧ after.attempts = before.attempts ∧
        after.maxAttempts = before.maxAttempts ∧
          (id ∈ ids ∧ after.leasedBy = some node ∨ after.leasedBy = before.leasedBy) := by
    intro id after found
    simp only [Db.claimTx] at found
    split at found
    · rename_i taken
      obtain ⟨before, stored, rfl⟩ := Option.map_eq_some_iff.mp found
      exact ⟨before, stored, rfl, rfl, .inl ⟨taken, rfl⟩⟩
    · exact ⟨after, found, rfl, rfl, .inr rfl⟩
  have known : ∀ m ∈ rest, m.id ∈ ids := by
    rcases got with rfl | rfl
    · simp
    · intro m inside
      obtain ⟨id, member, row, _, rfl⟩ := (mem_returning s.db ids m).mp inside
      exact member
  refine ⟨?_, budget.within, budget.unborn, ?_, ?_⟩
  · intro id after found
    obtain ⟨before, stored, attempts, maxAttempts, _⟩ := claimed id after found
    obtain ⟨first, inserted, bound, counted, within⟩ := budget.row id before stored
    exact ⟨first, inserted, maxAttempts.trans bound, attempts ▸ counted, by
      rw [attempts, maxAttempts]; exact within⟩
  · intro who m held after found leased
    obtain ⟨before, stored, attempts, maxAttempts, holder⟩ := claimed m.id after found
    rw [attempts, maxAttempts]
    rw [setWorker_workers] at held
    split at held
    · exact unspent m.id (known m held) before stored
    · rename_i different
      rcases holder with ⟨_, taken⟩ | same
      · rw [taken] at leased
        exact absurd (Option.some.inj leased).symm different
      · exact budget.unspent who m held before stored (same ▸ leased)
  · intro who
    rw [setWorker_workers]
    split
    · rcases got with rfl | rfl
      · exact List.nodup_nil
      · simp only [Position.rest, returning_ids]
        exact unique.filter _
    · exact budget.distinct who

/-- A renewal counts one attempt of a row that had one left, and at most one call
follows it. -/
theorem budget_renew (budget : Budget s) {node : String} {m : Msg} {rest : List Msg}
    {lease now : Int} {attempts : Nat} {db : Db} (at_ : s.workers node = .batch (m :: rest))
    (renewed : s.db.renewLeaseTx node m lease now = some (attempts, db))
    {delivers : List (String × Nat)} {position : Position} (left : position.rest = rest)
    (called : delivers = s.delivers ∨ delivers = s.delivers ++ [(node, m.id)]) :
    Budget ({ s with db := db, delivers := delivers }.setWorker node position) := by
  obtain ⟨row, stored, leased, _, about⟩ :=
    renewLeaseTx_spec renewed
  have head : m ∈ (s.workers node).rest := by
    rw [at_]
    exact List.mem_cons_self
  have left_ : row.attempts < row.maxAttempts := budget.unspent node m head row stored leased
  have distinct := budget.distinct node
  rw [at_] at distinct
  obtain ⟨once, later⟩ := List.nodup_cons.mp distinct
  have calls : ∀ id, delivers.countP (fun call => call.2 = id) ≤
      s.deliveries id + if id = m.id then 1 else 0 := by
    intro id
    rcases called with rfl | rfl
    · exact Nat.le_add_right _ _
    · simp only [List.countP_append, State.deliveries, List.countP_singleton]
      by_cases same : m.id = id <;> simp [same, eq_comm]
  obtain ⟨first, inserted, bound, counted, within⟩ := budget.row m.id row stored
  refine ⟨?_, ?_, ?_, ?_, ?_⟩
  · intro id after found
    have shown : update s.db.queue m.id (some (row.renewed lease now)) id = some after :=
      about.queue ▸ found
    have added := calls id
    by_cases same : id = m.id
    · subst same
      rw [update_self] at shown
      cases shown
      refine ⟨first, inserted, bound, ?_, left_⟩
      simp only [↓reduceIte] at added
      exact Nat.le_trans added (Nat.succ_le_succ counted)
    · rw [update_of_ne same] at shown
      simp only [same, ↓reduceIte, Nat.add_zero] at added
      obtain ⟨other, known, max, fewer, inside⟩ := budget.row id after shown
      exact ⟨other, known, max, Nat.le_trans added fewer, inside⟩
  · intro id other known
    have added := calls id
    by_cases same : id = m.id
    · subst same
      cases Option.some.inj (inserted.symm.trans known)
      simp only [↓reduceIte] at added
      have total : delivers.countP (fun call => call.2 = m.id) ≤ first.maxAttempts := by omega
      exact total
    · simp only [same, ↓reduceIte, Nat.add_zero] at added
      exact Nat.le_trans added (budget.within id other known)
  · intro id absent
    have added := calls id
    have different : id ≠ m.id := by
      rintro rfl
      exact absurd (inserted.symm.trans absent) (by simp)
    simp only [different, ↓reduceIte, Nat.add_zero, budget.unborn id absent] at added
    exact Nat.le_zero.mp added
  · intro who held inside after found mine
    have shown : update s.db.queue m.id (some (row.renewed lease now)) held.id =
        some after := about.queue ▸ found
    rw [setWorker_workers] at inside
    by_cases same : held.id = m.id
    · rw [same, update_self] at shown
      cases shown
      split at inside
      · rw [left] at inside
        exact absurd (same ▸ List.mem_map_of_mem inside) once
      · rename_i different
        have holder : row.leasedBy = some who := mine
        rw [leased] at holder
        exact absurd (Option.some.inj holder).symm different
    · rw [update_of_ne same] at shown
      split at inside
      · rename_i equal
        subst equal
        rw [left] at inside
        exact budget.unspent who held (by rw [at_]; exact List.mem_cons_of_mem _ inside) after
          shown mine
      · exact budget.unspent who held inside after shown mine
  · intro who
    rw [setWorker_workers]
    split
    · rw [left]
      exact later
    · exact budget.distinct who

theorem moved_budget {t : State} {label : Label} (moved : Moved s label t) (budget : Budget s)
    (meets : UnspentClaim s label = true) : Budget t := by
  cases moved with
  | enqueue id m hold maxAttempts now vacant =>
    exact budget_enqueue s budget id m hold maxAttempts now vacant
  | claim node _ _ ran unique got =>
    refine budget_claim budget node _ _ unique got ?_
    intro id taken row found
    simp only [UnspentClaim, ran, decide_false, Bool.false_or, List.all_eq_true] at meets
    simpa [found] using meets id taken
  | renew _ at_ renewed =>
    exact budget_renew budget at_ renewed rfl (.inl rfl)
  | start _ _ at_ renewed =>
    exact budget_renew budget at_ renewed rfl (.inr rfl)
  | record _ m a at_ =>
    refine budget_quiet budget (quiet_of_queue ?_) rfl rfl ?_
    · exact (recordResultTx_spec s.db m a _).queue.trans (update_eq_self _ _)
    · exact rest_setWorker (by rw [at_]; exact List.Sublist.refl _)
  | deliver _ at_ retired =>
    refine budget_quiet budget ?_ rfl rfl
      (rest_setWorker (by rw [at_]; exact List.Sublist.refl _))
    exact quiet_of_remove (retireTx_spec retired).2
  | giveUp _ _ at_ retired then_ =>
    refine budget_quiet budget ?_ rfl rfl (rest_setWorker ?_)
    · exact quiet_of_remove (retireTx_spec retired).2
    · rw [at_]
      rcases then_ with rfl | rfl <;> exact List.Sublist.refl _
  | backOff _ at_ released then_ =>
    refine budget_quiet budget ?_ rfl rfl (rest_setWorker ?_)
    · exact rescheduleTx_quiet released
    · rw [at_]
      rcases then_ with rfl | rfl <;> exact List.Sublist.refl _
  | bounce _ _ at_ =>
    exact budget_quiet budget (quiet_of_queue rfl) rfl rfl
      (rest_setWorker (by rw [at_]; exact List.Sublist.refl _))
  | alone _ next =>
    exact budget_quiet budget (quiet_of_queue rfl) rfl rfl
      (rest_setWorker (next_rest next))
  | admin =>
    exact budget_quiet budget mutateLog_quiet rfl rfl (fun _ => List.Sublist.refl _)
  | failDelete _ _ _ removed =>
    refine budget_quiet budget ?_ rfl rfl (fun _ => List.Sublist.refl _)
    exact quiet_of_remove (failTx_spec removed).2
  | failHook | failAlone =>
    exact budget_quiet budget (quiet_of_queue rfl) rfl rfl (fun _ => List.Sublist.refl _)

/-- In every run whose claims take no row with spent attempts, Deliver is called for
each message at most max_attempts times, whatever crashes and expiries occur. -/
theorem deliveries_within_budget (settings : String → Worker) (s : State) (labels : List Label)
    (reached : run (step settings) initial labels = some s)
    (unspent : Meets (step settings) (UnspentClaim · ·) initial labels) :
    WithinBudget s :=
  (invariant Budget (fun before meets moved => moved_budget (step_moved moved) before meets)
    initial_budget unspent reached).within

/-- One round of a worker that crashes during delivery, after its last lease has
expired. -/
def crashRound (round : Nat) : List Label :=
  let now := 60 * second * round
  [.claim "A" [1] .committed now, .renewLease "A" .committed now, .crash "A"]

/-- With the default bound of 10, the eleventh round delivers once more. -/
theorem crashes_exceed_budget :
    ∃ s, run (step fun _ => defaults) initial
        (.enqueue 1 sample false 10 0 :: (List.range 11).flatMap crashRound) = some s ∧
      (s.inserted 1).map Row.maxAttempts = some 10 ∧ s.deliveries 1 = 11 ∧
        ¬ WithinBudget s := by
  have ended : (run (step fun _ => defaults) initial
      (.enqueue 1 sample false 10 0 :: (List.range 11).flatMap crashRound)).map
        (fun s => ((s.inserted 1).map Row.maxAttempts, s.deliveries 1)) = some (some 10, 11) := by
    decide +kernel
  obtain ⟨s, reached, seen⟩ := Option.map_eq_some_iff.mp ended
  obtain ⟨allowed, called⟩ := Prod.mk.inj seen
  obtain ⟨row, inserted, bound⟩ := Option.map_eq_some_iff.mp allowed
  refine ⟨s, reached, allowed, called, ?_⟩
  intro within
  have few := within 1 row inserted
  omega

theorem overtaken_within_budget :
    ∃ s, run (step fun _ => defaults) initial overtaken = some s ∧
      s.deliveries 1 = 2 ∧ WithinBudget s := by
  have ended : (run (step fun _ => defaults) initial overtaken).map
      (fun s => s.deliveries 1) = some 2 := by decide
  obtain ⟨s, reached, called⟩ := Option.map_eq_some_iff.mp ended
  exact ⟨s, reached, called, deliveries_within_budget _ s overtaken reached (by decide)⟩

end OctoMail.Queue
