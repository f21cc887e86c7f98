import OctoMail.Queue.Operation

/-!
# One delivery of a message at a time

No lock is held while Deliver runs. A lease is renewed to its full length right before
the call, the call has a deadline inside the lease, and a row is claimed only after its
lease has run out. While the lease that a worker renewed for its call has not run out,
the row is leased to this worker until exactly then, so no other worker can renew it.

The times of a run are assumed to be those of one clock: they do not decrease, and a
transaction's `now()` is not in its future. A worker calls Deliver soon enough after the
database stamped the lease, and Deliver returns by its deadline.
-/

namespace OctoMail.Queue

open Transition (Outcome Meets invariant meets_of_invariant run)

/-- A lease of two seconds leaves time for a delivery. -/
theorem deliveryTimeout_pos {w : Worker} (long : 2 * second ≤ w.lease) : 0 < w.deliveryTimeout := by
  have fifth : w.lease.tdiv 5 = w.lease / 5 :=
    Int.tdiv_eq_ediv_of_nonneg (by simp only [second] at long; omega)
  simp only [Worker.deliveryTimeout, fifth]
  simp only [second] at long ⊢
  omega

/-- The `now()` of a transaction. -/
def Label.now : Label → Option Int
  | .enqueue _ _ _ _ now => some now
  | .claim _ _ _ now => some now
  | .renewLease _ _ now => some now
  | .recordResult _ _ now => some now
  | .retire _ _ _ now => some now
  | .reschedule _ _ _ now _ => some now
  | .admin _ _ _ _ now => some now
  | .failDelete _ _ _ now => some now
  | _ => none

def Act.now : Act → Option Int
  | .queue label => label.now
  | .enter _ => none
  | .holdRuleAdd _ _ => none
  | .cleanupRetired now => some now

namespace Site

/-- What is assumed of time at a step. -/
structure Timely (settings : String → Worker) (s : Site) (event : Event) : Prop where
  monotone : s.time ≤ event.time
  past : ∀ now, event.act.now = some now → now ≤ event.time
  /-- A Deliver call has ended when its deadline has passed. -/
  returns : ∀ node, s.inside node = true → event.time ≤ s.deadline node
  /-- Less time has passed since the lease was stamped than the lease exceeds the timeout. -/
  prompt : ∀ node, event.act = .enter node →
    event.time < s.leaseEnd node - (settings node).deliveryTimeout

/-- The worker is inside Deliver for the message. -/
def Delivers (s : Site) (node : String) (id : Nat) : Prop :=
  s.inside node = true ∧ ∃ m rest, s.base.workers node = .delivering m rest ∧ m.id = id

/-- The worker has renewed for the message and the lease it stamped has not run out. -/
def Covers (s : Site) (node : String) (id : Nat) : Prop :=
  s.time < s.leaseEnd node ∧ ∃ m rest, s.base.workers node = .delivering m rest ∧ m.id = id

/-- A call is covered by a lease, a covered row is leased accordingly, and one worker
covers a message. -/
structure Exclusive (s : Site) : Prop where
  calls : ∀ node, s.inside node = true →
    (∃ m rest, s.base.workers node = .delivering m rest) ∧ s.time ≤ s.deadline node ∧
      s.deadline node < s.leaseEnd node
  leased : ∀ node id row, s.Covers node id → s.base.db.queue id = some row →
    row.leasedBy = some node ∧ row.leaseUntil = some (s.leaseEnd node)
  unique : ∀ first second id, s.Covers first id → s.Covers second id → first = second

theorem initial_exclusive : Exclusive initial := by
  refine ⟨?_, ?_, ?_⟩
  · intro node inside
    cases inside
  · intro node id row _ stored
    cases stored
  · rintro first second id ⟨_, m, rest, at_, _⟩
    cases at_

end Site

variable {now : Int} {outcome : Outcome} {settings : String → Worker} {m : Msg} {rest : List Msg}
  {label : Label}

variable {s t : State}

/-- A worker that renews stands between two messages. -/
theorem renewLease_at {node : String}
    (moved : step settings s (.renewLease node outcome now) = some t) :
    ∃ m rest, s.workers node = .batch (m :: rest) := by
  simp only [step, State.renewLease] at moved
  split at moved
  · rename_i m rest at_
    exact ⟨m, rest, at_⟩
  · cases moved

/-- A worker that reschedules has recorded its result. -/
theorem reschedule_at {node : String} {clock delay : Int}
    (moved : step settings s (.reschedule node outcome clock now delay) = some t) :
    ∃ m a rest, s.workers node = .recorded m a rest := by
  simp only [step, State.reschedule] at moved
  split at moved
  · rename_i m start duration err rest at_
    exact ⟨m, _, rest, at_⟩
  · cases moved

/-- Where the renewal ends in a delivery, it has stamped the row. -/
theorem renewLease_stamps {node : String}
    (moved : step settings s (.renewLease node outcome now) = some t)
    (at_ : t.workers node = .delivering m rest) :
    ∃ row, s.db.queue m.id = some row ∧ row.leasedBy = some node ∧
      t.db.queue m.id = some (row.renewed (settings node).lease now) := by
  simp only [step, State.renewLease] at moved
  split at moved <;> try contradiction
  rename_i current later before
  split at moved
  · cases moved
    rw [setWorker_workers, if_pos rfl] at at_
    cases at_
  · rename_i attempts db renewed
    obtain ⟨row, stored, leased, _, about⟩ :=
      renewLeaseTx_running renewed
    split at moved
    · rename_i committed
      subst committed
      cases moved
      rw [setWorker_workers, if_pos rfl] at at_
      cases at_
      refine ⟨row, stored, leased, ?_⟩
      simp only [setWorker_db, settled, about.queue, Function.update_self]
    · cases moved
      rw [setWorker_workers, if_pos rfl] at at_
      cases at_

/-- The worker whose step it is. -/
def Label.node : Label → Option String
  | .claim node _ _ _ => some node
  | .renewLease node _ _ => some node
  | .deliver node _ => some node
  | .recordResult node _ _ => some node
  | .retire node _ _ _ => some node
  | .reschedule node _ _ _ _ => some node
  | .onFailed node => some node
  | .onDelayed node => some node
  | .crash node => some node
  | _ => none

/-- The other workers stay where they are. -/
theorem step_others (moved : step settings s label = some t) {node : String}
    (other : label.node ≠ some node) : t.workers node = s.workers node := by
  have apart : ∀ (next : State) (who : String) (position : Position), next.workers = s.workers →
      some who ≠ some node → (next.setWorker who position).workers node = s.workers node := by
    intro next who position workers different
    rw [setWorker_workers, if_neg (fun same => different (by rw [same])), workers]
  cases label <;>
    simp only [step, State.enqueue, State.claim, State.renewLease, State.deliver,
      State.recordResult, State.retire, State.reschedule, State.onFailed, State.onDelayed,
      State.admin, State.failSelect, State.failDelete, State.failHook] at moved <;>
    repeat' split at moved
  all_goals first
    | cases moved; done
    | (cases Option.some.inj moved; rfl)
    | (cases Option.some.inj moved; exact apart _ _ _ rfl other)

/-- A worker in a delivery stays in it until Deliver returns or it crashes. -/
theorem delivering_stays (moved : step settings s label = some t) {node : String}
    (at_ : s.workers node = .delivering m rest) (stays : ∀ a, label ≠ .deliver node a)
    (lives : label ≠ .crash node) : t.workers node = .delivering m rest := by
  rw [← at_]
  refine step_others moved ?_
  intro acts
  cases label <;> simp only [Label.node, Option.some.injEq, reduceCtorEq] at acts <;>
    subst acts <;>
    simp [step, State.claim, State.renewLease, State.recordResult, State.retire,
      State.reschedule, State.onFailed, State.onDelayed, at_] at moved stays lives

theorem adminChange_lease {op : AdminOp} {row after : Row}
    (changed : op.change now row = some after) :
    after.leasedBy = row.leasedBy ∧ after.leaseUntil = row.leaseUntil := by
  cases op with
  | drop => cases changed
  | _ =>
    cases changed
    exact ⟨rfl, rfl⟩

namespace Site

variable {s t : Site} {time : Int}

/-- A worker in a delivery, or about to begin it, renews nothing: its lease stays. -/
theorem leaseEnd_stays
    (moved : s.step settings ⟨time, .queue label⟩ = some t) {node : String}
    (at_ : s.base.workers node = .delivering m rest) :
    t.leaseEnd node = s.leaseEnd node ∧ t.deadline = s.deadline := by
  obtain ⟨ran, _, _, calls⟩ := step_queue moved
  cases calls with
  | renew who _ _ _ leaseEnd deadline =>
    refine ⟨?_, deadline⟩
    obtain ⟨current, later, free⟩ := renewLease_at ran
    have apart : node ≠ who := by
      rintro rfl
      rw [at_] at free
      cases free
    rw [leaseEnd, Function.update_of_ne apart]
  | leave _ _ _ _ leaseEnd deadline => exact ⟨by rw [leaseEnd], deadline⟩
  | other _ _ _ _ _ leaseEnd deadline =>
    exact ⟨by rw [leaseEnd], deadline⟩

/-- A worker that covers a message after a step has covered it, or has stamped it now. -/
theorem covers_step (settings : String → Worker) (s t : Site) (time : Int) (label : Label)
    (moved : s.step settings ⟨time, .queue label⟩ = some t) (later : s.time ≤ time)
    (node : String) (id : Nat) (covers : t.Covers node id) :
    (s.Covers node id ∧ t.leaseEnd node = s.leaseEnd node) ∨
      ∃ outcome now row, label = .renewLease node outcome now ∧
        t.leaseEnd node = now + (settings node).lease ∧ s.base.db.queue id = some row ∧
        row.leasedBy = some node ∧
        t.base.db.queue id = some (row.renewed (settings node).lease now) := by
  obtain ⟨ran, clock, _, calls⟩ := step_queue moved
  obtain ⟨running, m, rest, at_, rfl⟩ := covers
  have walked := step_walked ran node
  rw [at_] at walked
  generalize became : Position.delivering m rest = position at walked
  cases walked with
  | same =>
    obtain ⟨leaseEnd, _⟩ := leaseEnd_stays moved became.symm
    rw [clock, leaseEnd] at running
    exact .inl ⟨⟨by omega, m, rest, became.symm, rfl⟩, leaseEnd⟩
  | taken => cases became
  | begun outcome now =>
    obtain ⟨row, stored, holder, stamped⟩ :=
      renewLease_stamps ran at_
    refine .inr ⟨outcome, now, row, rfl, ?_, stored, holder, stamped⟩
    cases calls with
    | renew _ _ _ _ leaseEnd => rw [leaseEnd, Function.update_self]
    | leave _ _ which =>
      rcases which with impossible | ⟨_, a, impossible⟩
      · cases impossible
      · cases impossible
    | other _ renews => exact absurd rfl (renews node outcome now)
  | on _ _ _ idle => exact absurd became.symm (idle m rest)

/-- While a worker covers a message, no step gives its row to another or shortens its
lease. -/
theorem covered_row (known : Known s.base) (exclusive : Exclusive s)
    (timely : Timely settings s ⟨time, .queue label⟩)
    (moved : s.step settings ⟨time, .queue label⟩ = some t) {node : String} {id : Nat}
    (covers : s.Covers node id) (running : time < s.leaseEnd node) {after : Row}
    (stored : t.base.db.queue id = some after) :
    after.leasedBy = some node ∧ after.leaseUntil = some (s.leaseEnd node) := by
  obtain ⟨ran, _⟩ := step_queue moved
  have leased := fun row => exclusive.leased node id row covers
  obtain ⟨_, m, rest, at_, same⟩ := covers
  have touched := step_touched ran id
  rw [stored] at touched
  generalize s.base.db.queue id = before at touched leased
  generalize became : some after = result at touched
  cases touched with
  | same => exact leased after became.symm
  | inserted new hold maxAttempts now =>
    have born := known.held node m (by rw [at_]; exact List.mem_cons_self)
    simp only [Queue.step, State.enqueue] at ran
    split at ran
    · cases ran
    · rename_i vacant
      exact absurd vacant (same ▸ born)
  | claimed _ _ _ now row _ due =>
    -- the row is due only when the lease has run out
    have past := timely.past now rfl
    simp only [Row.due, (leased row rfl).2, Bool.and_eq_true, decide_eq_true_eq] at due
    have ended := due.2
    simp only at past running
    omega
  | renewed _ _ _ row holder =>
    have mine := (leased row rfl).1.symm.trans holder
    cases mine
    obtain ⟨_, _, free⟩ := renewLease_at ran
    rw [at_] at free
    cases free
  | released _ _ _ _ _ row _ _ holder =>
    have mine := (leased row rfl).1.symm.trans holder
    cases mine
    obtain ⟨_, _, _, settled⟩ := reschedule_at ran
    rw [at_] at settled
    cases settled
  | removed => cases became
  | changed _ _ _ _ _ row =>
    obtain ⟨leasedBy, leaseUntil⟩ := adminChange_lease became.symm
    rw [leasedBy, leaseUntil]
    exact leased row rfl

/-- A Deliver call that runs after a step has run before, and its worker stays. -/
theorem inside_stays (moved : s.step settings ⟨time, .queue label⟩ = some t) {node : String}
    (inside : t.inside node = true) :
    s.inside node = true ∧ (∀ a, label ≠ .deliver node a) ∧ label ≠ .crash node := by
  obtain ⟨_, _, _, calls⟩ := step_queue moved
  cases calls with
  | renew _ _ _ same =>
    exact ⟨by rwa [same] at inside, by simp, by simp⟩
  | leave who _ which same =>
    have apart : node ≠ who := by
      rintro rfl
      rw [same, Function.update_self] at inside
      cases inside
    rw [same, Function.update_of_ne apart] at inside
    rcases which with rfl | ⟨_, a, rfl⟩
    · exact ⟨inside, by simp, by simpa using apart.symm⟩
    · exact ⟨inside, fun b equal => apart (by cases equal; rfl), by simp⟩
  | other _ _ leaves crashes same =>
    exact ⟨by rwa [same] at inside, leaves node, crashes node⟩

theorem queue_exclusive (known : Known s.base) (exclusive : Exclusive s)
    (timely : Timely settings s ⟨time, .queue label⟩)
    (moved : s.step settings ⟨time, .queue label⟩ = some t) : Exclusive t := by
  obtain ⟨ran, clock, _, _⟩ := step_queue moved
  have steps := covers_step settings s t time label moved timely.monotone
  refine ⟨?_, ?_, ?_⟩
  · intro node inside
    obtain ⟨before, stays, lives⟩ := inside_stays moved inside
    obtain ⟨⟨m, rest, at_⟩, _, covered⟩ := exclusive.calls node before
    obtain ⟨leaseEnd, deadline⟩ := leaseEnd_stays moved at_
    rw [clock, leaseEnd, deadline]
    exact ⟨⟨m, rest, delivering_stays ran at_ stays lives⟩,
      timely.returns node before, covered⟩
  · intro node id after covers stored
    have running : time < t.leaseEnd node := clock ▸ covers.1
    rcases steps node id covers with
      ⟨before, leaseEnd⟩ | ⟨outcome, now, row, _, leaseEnd, _, holder, stamped⟩
    · rw [leaseEnd] at running ⊢
      exact covered_row known exclusive timely moved before
        running stored
    · cases Option.some.inj (stored.symm.trans stamped)
      rw [leaseEnd]
      exact ⟨holder, rfl⟩
  · intro first second id covers covers'
    rcases steps first id covers with
      ⟨before, _⟩ | ⟨outcome, now, row, renews, _, stored, holder, _⟩ <;>
    rcases steps second id covers' with
      ⟨before', _⟩ | ⟨outcome', now', row', renews', _, stored', holder', _⟩
    · exact exclusive.unique first second id before before'
    · have leased := (exclusive.leased first id row' before stored').1
      exact Option.some.inj (leased.symm.trans holder')
    · have leased := (exclusive.leased second id row before' stored).1
      exact Option.some.inj (holder.symm.trans leased)
    · rw [renews] at renews'
      cases renews'
      rfl

/-- A step that moves no worker and changes no lease. -/
theorem exclusive_of (exclusive : Exclusive s) (workers : t.base.workers = s.base.workers)
    (leaseEnd : t.leaseEnd = s.leaseEnd) (later : s.time ≤ t.time)
    (rows : ∀ id row, t.base.db.queue id = some row → ∃ before, s.base.db.queue id = some before ∧
      row.leasedBy = before.leasedBy ∧ row.leaseUntil = before.leaseUntil)
    (calls : ∀ node, t.inside node = true →
      (∃ m rest, s.base.workers node = .delivering m rest) ∧ t.time ≤ t.deadline node ∧
        t.deadline node < s.leaseEnd node) : Exclusive t := by
  have covers : ∀ node id, t.Covers node id → s.Covers node id := by
    rintro node id ⟨running, at_⟩
    rw [leaseEnd] at running
    exact ⟨by omega, workers ▸ at_⟩
  refine ⟨?_, ?_, ?_⟩
  · rw [workers, leaseEnd]
    exact calls
  · intro node id row covered stored
    obtain ⟨before, found, leasedBy, leaseUntil⟩ := rows id row stored
    rw [leasedBy, leaseUntil, leaseEnd]
    exact exclusive.leased node id before (covers node id covered) found
  · intro first second id covered covered'
    exact exclusive.unique first second id (covers _ _ covered) (covers _ _ covered')

theorem step_exclusive {event : Event} (long : ∀ node, 2 * second ≤ (settings node).lease)
    (known : Known s.base) (exclusive : Exclusive s) (timely : Timely settings s event)
    (moved : s.step settings event = some t) : Exclusive t := by
  obtain ⟨time, act⟩ := event
  have running : ∀ node, s.inside node = true →
      (∃ m rest, s.base.workers node = .delivering m rest) ∧ time ≤ s.deadline node ∧
        s.deadline node < s.leaseEnd node := by
    intro node inside
    obtain ⟨at_, _, covered⟩ := exclusive.calls node inside
    exact ⟨at_, timely.returns node inside, covered⟩
  cases act with
  | queue => exact queue_exclusive known exclusive timely moved
  | enter node =>
    obtain ⟨at_, _, rfl⟩ := step_enter moved
    refine exclusive_of exclusive rfl rfl timely.monotone
      (fun id row stored => ⟨row, stored, rfl, rfl⟩) ?_
    intro other inside
    by_cases same : other = node
    · subst same
      have positive := deliveryTimeout_pos (long other)
      have prompt := timely.prompt other rfl
      simp only [observe, Function.update_self] at prompt ⊢
      exact ⟨at_, by omega, by omega⟩
    · simp only [observe, Function.update_of_ne same] at inside ⊢
      exact running other inside
  | holdRuleAdd =>
    obtain ⟨_, rfl⟩ := step_holdRuleAdd moved
    refine exclusive_of exclusive rfl rfl timely.monotone ?_ running
    intro id row stored
    simp only [observe, Db.holdRuleAddTx] at stored
    split at stored
    · obtain ⟨before, found, rfl⟩ := Option.map_eq_some_iff.mp stored
      exact ⟨before, found, rfl, rfl⟩
    · exact ⟨row, stored, rfl, rfl⟩
  | cleanupRetired =>
    cases moved
    exact exclusive_of exclusive rfl rfl timely.monotone
      (fun id row stored => ⟨row, stored, rfl, rfl⟩) running

/-- With leases of two seconds and more, at most one worker at a time is inside Deliver
for a message, in every run in time. -/
theorem one_delivery_at_a_time (settings : String → Worker) (s : Site) (events : List Event)
    (long : ∀ node, 2 * second ≤ (settings node).lease)
    (reached : run (step settings) initial events = some s)
    (timely : Meets (step settings) (Timely settings) initial events)
    (first second : String) (id : Nat) (delivers : s.Delivers first id)
    (delivers' : s.Delivers second id) : first = second := by
  obtain ⟨_, exclusive⟩ := invariant (fun s => Known s.base ∧ Exclusive s)
    (fun inv timely moved => ⟨step_known _ _ _ _ inv.1 moved,
      step_exclusive long inv.1 inv.2 timely moved⟩)
    ⟨initial_known, initial_exclusive⟩ timely reached
  have covers : ∀ node, s.Delivers node id → s.Covers node id := by
    rintro node ⟨inside, at_⟩
    obtain ⟨_, before, covered⟩ := exclusive.calls node inside
    exact ⟨by omega, at_⟩
  exact exclusive.unique first second id (covers first delivers) (covers second delivers')

/-- `Timely` where only the given workers deliver. -/
def timelyAmong (nodes : List String) (settings : String → Worker) (s : Site) (event : Event) :
    Bool :=
  s.time ≤ event.time && event.act.now.all (fun now => now ≤ event.time) &&
    nodes.all (fun node => !s.inside node || event.time ≤ s.deadline node) &&
      match event.act with
      | .enter node =>
          node ∈ nodes && event.time < s.leaseEnd node - (settings node).deliveryTimeout
      | _ => true

theorem timely_of_among {nodes : List String}
    {event : Event} (idle : ∀ node, node ∉ nodes → s.inside node = false)
    (among : timelyAmong nodes settings s event = true) : Timely settings s event := by
  obtain ⟨time, act⟩ := event
  simp only [timelyAmong, Bool.and_eq_true, decide_eq_true_eq, List.all_eq_true, Bool.or_eq_true,
    Bool.not_eq_true'] at among
  obtain ⟨⟨⟨monotone, past⟩, returns⟩, prompt⟩ := among
  refine ⟨monotone, ?_, ?_, ?_⟩
  · intro now read
    simpa [read] using past
  · intro node inside
    by_cases member : node ∈ nodes
    · exact (returns node member).resolve_left (by simp [inside])
    · rw [idle node member] at inside
      cases inside
  · rintro node rfl
    simp only [Bool.and_eq_true, decide_eq_true_eq] at prompt
    exact prompt.2

/-- Whether a run is in time can be evaluated, given the workers that deliver in it. -/
theorem meets_timely {nodes : List String}
    {events : List Event} (reached : run (step settings) initial events = some s)
    (among : Meets (step settings) (timelyAmong nodes settings · ·) initial events) :
    Meets (step settings) (Timely settings) initial events := by
  refine meets_of_invariant (fun s => ∀ node, node ∉ nodes → s.inside node = false) ?_
    (fun idle among _ => timely_of_among idle among) (fun _ _ => rfl) among reached
  rintro s ⟨time, act⟩ t idle among moved node outside
  cases act with
  | queue =>
    by_contra inside
    have before := (inside_stays moved (by simpa using inside)).1
    rw [idle node outside] at before
    cases before
  | enter who =>
    obtain ⟨_, _, rfl⟩ := step_enter moved
    simp only [timelyAmong, Bool.and_eq_true, decide_eq_true_eq] at among
    have apart : node ≠ who := fun same => outside (same ▸ among.2.1)
    simp only [Function.update_of_ne apart]
    exact idle node outside
  | holdRuleAdd =>
    obtain ⟨_, rfl⟩ := step_holdRuleAdd moved
    exact idle node outside
  | cleanupRetired =>
    cases moved
    exact idle node outside

/-- Worker A stops in the middle of a delivery, claims another message and is slow. Both
leases run out, and B and C claim and deliver the messages; A finds its lease gone. -/
def reclaimed : List Event :=
  [⟨0, .queue (.enqueue 1 sample false 10 0)⟩, ⟨0, .queue (.claim "A" [1] .committed 0)⟩,
    ⟨1, .queue (.renewLease "A" .committed 1)⟩, ⟨2, .enter "A"⟩, ⟨3, .queue (.crash "A")⟩,
    ⟨4, .queue (.enqueue 2 sample false 10 4)⟩, ⟨5, .queue (.claim "A" [2] .committed 5)⟩,
    ⟨31 * second, .queue (.claim "B" [1] .committed (31 * second))⟩,
    ⟨32 * second, .queue (.claim "C" [2] .committed (32 * second))⟩,
    ⟨33 * second, .queue (.renewLease "B" .committed (33 * second))⟩,
    ⟨34 * second, .enter "B"⟩, ⟨35 * second, .queue (.renewLease "A" .committed (35 * second))⟩,
    ⟨36 * second, .queue (.renewLease "C" .committed (36 * second))⟩, ⟨37 * second, .enter "C"⟩]

theorem reclaimed_one_delivery :
    ∃ s, run (step fun _ => defaults) initial reclaimed = some s ∧
      s.Delivers "B" 1 ∧ s.Delivers "C" 2 ∧ (∀ node, s.Delivers node 1 → node = "B") ∧
        ∀ node, s.Delivers node 2 → node = "C" := by
  have ended : (run (step fun _ => defaults) initial reclaimed).map (fun s : Site =>
      decide (s.inside "B" = true ∧ s.inside "C" = true ∧
        s.base.workers "B" = .delivering { sample with
          id := 1, attempts := 2, maxAttempts := 10, createdAt := some 0 } [] ∧
        s.base.workers "C" = .delivering { sample with
          id := 2, attempts := 1, maxAttempts := 10, createdAt := some 4 } [])) = some true := by
    decide +kernel
  obtain ⟨s, reached, seen⟩ := Option.map_eq_some_iff.mp ended
  obtain ⟨insideB, insideC, atB, atC⟩ := of_decide_eq_true seen
  have among : Meets (step fun _ => defaults)
      (timelyAmong ["A", "B", "C"] (fun _ => defaults) · ·) initial reclaimed := by decide +kernel
  have timely := meets_timely reached among
  have one := one_delivery_at_a_time _ s reclaimed (fun _ => by decide) reached timely
  have deliversB : s.Delivers "B" 1 := ⟨insideB, _, _, atB, rfl⟩
  have deliversC : s.Delivers "C" 2 := ⟨insideC, _, _, atC, rfl⟩
  exact ⟨s, reached, deliversB, deliversC, fun node delivers => one node "B" 1 delivers deliversB,
    fun node delivers => one node "C" 2 delivers deliversC⟩

end Site

end OctoMail.Queue
