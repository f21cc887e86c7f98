import OctoMail.Queue.Operation

/-!
# Messages on hold

`claim` skips rows on hold, but `renewLease` does not look at the hold flag, and
nothing is looked at between the renewal and the call of Deliver. A hold that lands
while a worker has the row in its batch is therefore too late. Where every hold meets
rows that no worker is about to deliver, no delivery of a held message begins.
-/

namespace OctoMail.Queue

open Transition (Outcome Meets meets_append meets_of_invariant run)

/-- The ids that an administrator's act puts on hold. -/
def Act.holds : Act → List Nat
  | .queue (.admin (.holdSet true) _ ids _ _) => ids
  | .holdRuleAdd _ ids => ids
  | _ => []

namespace Site

/-- The worker has claimed the row and not begun to deliver it: the row is leased to it
and in the part of the batch it has not come to, or Deliver is called next. -/
def Awaits (s : Site) (node : String) (id : Nat) : Prop :=
  (s.base.db.leases node id = true ∧ ∃ m ∈ (s.base.workers node).rest, m.id = id) ∨
    (s.inside node = false ∧ ∃ m rest, s.base.workers node = .delivering m rest ∧ m.id = id)

/-- A hold lands on rows that no worker is about to deliver. -/
def HoldsIdle (s : Site) (event : Event) : Prop :=
  ∀ id ∈ event.act.holds, ∀ node, ¬ s.Awaits node id

/-- A Deliver call that begins is for a message that is not on hold. -/
def StartsFree (s : Site) (event : Event) : Prop :=
  ∀ node m rest, event.act = .enter node → s.base.workers node = .delivering m rest →
    s.held m.id = false

/-- Nobody is about to deliver a message on hold. -/
structure Stilled (s : Site) : Prop where
  hold : ∀ id row, s.base.db.queue id = some row → s.held id = row.hold
  still : ∀ id, s.held id = true → ∀ node, ¬ s.Awaits node id

theorem initial_stilled : Stilled initial := by
  refine ⟨?_, fun _ held => by cases held⟩
  intro id row stored
  cases stored

end Site

theorem rest_msgs {position : Position} (m : Msg) (member : m ∈ position.rest) :
    m ∈ position.msgs := by
  cases position with
  | batch => exact member
  | _ => exact List.mem_cons_of_mem _ member

variable {id : Nat} {label : Label} {settings : String → Worker}

/-- A row on hold was on hold, was inserted on hold, or has been put on hold. -/
theorem touched_hold {before : Option Row} {after : Row}
    (touched : Touched settings id label before (some after)) (holds : after.hold = true) :
    (∃ row, before = some row ∧ row.hold = true) ∨
      (∃ m hold maxAttempts now, label = .enqueue id m hold maxAttempts now) ∨
        id ∈ (Act.queue label).holds := by
  generalize same : some after = result at touched
  cases touched with
  | same => exact .inl ⟨after, same.symm, holds⟩
  | inserted m hold maxAttempts now => exact .inr (.inl ⟨m, hold, maxAttempts, now, rfl⟩)
  | claimed _ _ _ _ row | renewed _ _ _ row | released _ _ _ _ _ row =>
    cases same
    exact .inl ⟨row, rfl, holds⟩
  | removed => cases same
  | changed op _ _ _ _ row taken =>
    cases op with
    | holdSet hold =>
      cases same
      obtain rfl : hold = true := holds
      exact .inr (.inr taken)
    | kick =>
      cases same
      cases holds
    | drop => cases same
    | _ =>
      cases same
      exact .inl ⟨row, rfl, holds⟩

/-- A row leased to a node was leased to it or has been claimed by it. -/
theorem touched_leased
    {before : Option Row} {after : Row} (touched : Touched settings id label before (some after))
    {node : String} (leased : after.leasedBy = some node) :
    (∃ row, before = some row ∧ row.leasedBy = some node) ∨
      ∃ ids outcome now row, label = .claim node ids outcome now ∧ before = some row ∧
        row.due now = true := by
  generalize same : some after = result at touched
  cases touched with
  | same => exact .inl ⟨after, same.symm, leased⟩
  | inserted _ _ _ _ _ _ leasedBy =>
    cases same
    rw [leasedBy] at leased
    cases leased
  | claimed _ ids outcome now row _ due =>
    cases same
    cases leased
    exact .inr ⟨ids, outcome, now, row, rfl, rfl, due⟩
  | renewed _ _ _ row =>
    cases same
    exact .inl ⟨row, rfl, leased⟩
  | released =>
    cases same
    cases leased
  | removed => cases same
  | changed op _ _ _ now row =>
    by_cases dropped : op = .drop
    · subst dropped
      cases same
    · obtain ⟨_, changed, result, _, _, leasedBy⟩ := adminChange_spec now row dropped
      cases Option.some.inj (same.trans result)
      exact .inl ⟨row, rfl, leasedBy ▸ leased⟩

namespace Site

variable {s t : Site} {time : Int}

/-- A worker comes to await a row by claiming it. -/
theorem awaits_step (moved : s.step settings ⟨time, .queue label⟩ = some t) {node : String}
    (awaits : t.Awaits node id) :
    s.Awaits node id ∨ ∃ ids outcome now row, label = .claim node ids outcome now ∧
      s.base.db.queue id = some row ∧ row.due now = true := by
  obtain ⟨ran, _, _, calls⟩ := step_queue moved
  have walked := step_walked ran node
  rcases awaits with ⟨leased, m, member, same⟩ | ⟨outside, m, rest, at_, same⟩
  · obtain ⟨after, stored, holder⟩ := (leases_iff _ _ _).mp leased
    have touched := step_touched ran id
    rw [stored] at touched
    rcases touched_leased touched holder with
      ⟨row, stored, leased⟩ | claimed
    · have leases := (leases_iff s.base.db node id).mpr ⟨row, stored, leased⟩
      generalize t.base.workers node = after at walked member
      cases walked with
      | same => exact .inl (.inl ⟨leases, m, member, same⟩)
      | taken ids outcome now =>
        obtain ⟨other, inside, _, _, rfl⟩ := (mem_returning s.base.db ids m).mp member
        obtain rfl : other = id := same
        obtain ⟨row, stored, due⟩ := claim_due settings _ _ node ids outcome now ran other inside
        exact .inr ⟨ids, outcome, now, row, rfl, stored, due⟩
      | begun _ _ _ _ _ at_ =>
        exact .inl (.inl ⟨leases, m, by rw [at_]; exact List.mem_cons_of_mem _ member, same⟩)
      | on _ _ fewer => exact .inl (.inl ⟨leases, m, fewer.subset member, same⟩)
    · exact .inr claimed
  · rw [at_] at walked
    generalize became : Position.delivering m rest = position at walked
    cases walked with
    | same label stays lives =>
      refine .inl (.inr ⟨?_, m, rest, became.symm, same⟩)
      cases calls with
      | renew _ _ _ inside => rwa [inside] at outside
      | leave who _ which inside =>
        rcases which with rfl | ⟨_, a, rfl⟩
        · have apart : node ≠ who := fun equal => lives (by rw [equal])
          rwa [inside, Function.update_of_ne apart] at outside
        · have apart : node ≠ who := fun equal => stays a (by rw [equal])
          rwa [inside, Function.update_of_ne apart] at outside
      | other _ _ _ _ inside => rwa [inside] at outside
    | taken => cases became
    | begun _ _ current _ _ at_ leased =>
      cases became
      exact .inl (.inl ⟨same ▸ leased, current, by rw [at_]; exact List.mem_cons_self, same⟩)
    | on _ _ _ idle => exact absurd became.symm (idle m rest)

/-- A hold that is there after a step was there, came with the row, or was set. -/
theorem newly_held (stilled : Stilled s) (moved : s.step settings ⟨time, .queue label⟩ = some t)
    (on : t.held id = true) :
    s.held id = true ∨ s.base.inserted id = none ∨ id ∈ (Act.queue label).holds := by
  obtain ⟨ran, _, held, _⟩ := step_queue moved
  rw [held] at on
  cases stored : t.base.db.queue id with
  | none =>
    rw [stored] at on
    exact .inl on
  | some after =>
    rw [stored] at on
    have touched := step_touched ran id
    rw [stored] at touched
    rcases touched_hold touched on with
      ⟨row, present, holds⟩ | ⟨m, hold, maxAttempts, now, rfl⟩ | put
    · exact .inl ((stilled.hold id row present).trans holds)
    · simp only [Queue.step, State.enqueue] at ran
      split at ran
      · cases ran
      · rename_i vacant
        exact .inr (.inl vacant)
    · exact .inr (.inr put)

/-- A row that is due is not on hold. -/
theorem due_free (row : Row) (now : Int) (due : row.due now = true) : row.hold = false := by
  simp only [Row.due, Bool.and_eq_true, Bool.not_eq_true'] at due
  exact due.1.2

theorem queue_stilled
    (known : Known s.base) (stilled : Stilled s) (idle : HoldsIdle s ⟨time, .queue label⟩)
    (moved : s.step settings ⟨time, .queue label⟩ = some t) : Stilled t := by
  obtain ⟨ran, _, held, _⟩ := step_queue moved
  have awaited : ∀ node id, s.Awaits node id → s.base.inserted id ≠ none := by
    rintro node id (⟨_, m, member, rfl⟩ | ⟨_, m, rest, at_, rfl⟩)
    · exact known.held node m (rest_msgs m member)
    · exact known.held node m (by rw [at_]; exact List.mem_cons_self)
  refine ⟨?_, ?_⟩
  · intro id row stored
    rw [held, stored]
    rfl
  · intro id on node awaits
    have new := newly_held stilled moved on
    rcases awaits_step moved awaits with
      before | ⟨ids, outcome, now, row, rfl, stored, due⟩
    · rcases new with was | vacant | put
      · exact stilled.still id was node before
      · exact awaited node id before vacant
      · exact idle id put node before
    · rcases new with was | vacant | put
      · rw [stilled.hold id row stored, due_free row now due] at was
        cases was
      · exact known.rows id (by simp [stored]) vacant
      · cases put

/-- A step that moves no worker and takes no lease keeps the invariant, where what it
puts on hold is awaited by nobody. -/
theorem stilled_of (stilled : Stilled s) (workers : t.base.workers = s.base.workers)
    (leases : ∀ node id, t.base.db.leases node id = s.base.db.leases node id)
    (inside : ∀ node, t.inside node = false → s.inside node = false)
    (hold : ∀ id row, t.base.db.queue id = some row → t.held id = row.hold)
    (new : ∀ id, t.held id = true → s.held id = true ∨ ∀ node, ¬ s.Awaits node id) : Stilled t := by
  refine ⟨hold, fun id on node awaits => ?_⟩
  have before : s.Awaits node id := by
    rw [Awaits, workers, leases] at awaits
    exact awaits.imp_right (And.imp_left (inside node))
  rcases new id on with was | free
  · exact stilled.still id was node before
  · exact free node before

/-- Observing unchanged rows changes no hold flag. -/
theorem observe_same (stilled : Stilled s) (time : Int) {base : State}
    (queue : base.db.queue = s.base.db.queue) (id : Nat) :
    (s.observe time base).held id = s.held id := by
  rw [observe_held, queue]
  cases stored : s.base.db.queue id with
  | none => rfl
  | some row => exact (stilled.hold id row stored).symm

theorem step_stilled {event : Event} (known : Known s.base) (stilled : Stilled s)
    (idle : HoldsIdle s event) (moved : s.step settings event = some t) : Stilled t := by
  obtain ⟨time, act⟩ := event
  have observed : ∀ (base : State) (id : Nat) (row : Row), base.db.queue id = some row →
      (s.observe time base).held id = row.hold := by
    intro base id row stored
    rw [observe_held, stored]
    rfl
  cases act with
  | queue => exact queue_stilled known stilled idle moved
  | enter node =>
    obtain ⟨_, _, rfl⟩ := step_enter moved
    refine stilled_of stilled rfl (fun _ _ => rfl) ?_
      (observed s.base) (fun id on => .inl ?_)
    · intro other outside
      by_cases same : other = node
      · simp [same] at outside
      · simpa [same, observe] using outside
    · rwa [← observe_same stilled time rfl id]
  | holdRuleAdd _ ids =>
    obtain ⟨met, rfl⟩ := step_holdRuleAdd moved
    refine stilled_of stilled rfl ?_ (fun _ outside => outside) (observed _) ?_
    · intro node id
      simp only [observe, Db.leases, Db.holdRuleAddTx]
      by_cases put : id ∈ ids
      · rw [if_pos put]
        cases s.base.db.queue id <;> rfl
      · rw [if_neg put]
    · intro id on
      by_cases put : id ∈ ids
      · exact .inr (idle id put)
      · left
        rw [observe_held] at on
        simp only [Db.holdRuleAddTx, if_neg put] at on
        rwa [← observe_same stilled time rfl id, observe_held]
  | cleanupRetired =>
    cases moved
    refine stilled_of stilled rfl (fun _ _ => rfl)
      (fun _ outside => outside) (observed _) (fun id on => .inl ?_)
    rwa [← observe_same stilled time rfl id]

/-- Where every hold meets rows that no worker is about to deliver, every Deliver call
is for a message that is not on hold, in every run. -/
theorem held_never_starts (settings : String → Worker) (s : Site) (events : List Event)
    (reached : run (step settings) initial events = some s)
    (idle : Meets (step settings) HoldsIdle initial events) :
    Meets (step settings) StartsFree initial events := by
  refine meets_of_invariant (fun s => Known s.base ∧ Stilled s)
    (fun inv idle moved => ⟨step_known _ _ _ _ inv.1 moved,
      step_stilled inv.1 inv.2 idle moved⟩) ?_ ⟨initial_known, initial_stilled⟩ idle reached
  rintro s ⟨time, act⟩ t ⟨_, stilled⟩ _ moved node m rest rfl at_
  obtain ⟨_, outside, _⟩ := step_enter moved
  have awaits : s.Awaits node m.id := .inr ⟨outside, m, rest, at_, rfl⟩
  by_contra on
  exact stilled.still m.id (by simpa using on) node awaits

/-- The message is put on hold between the claim and the renewal. -/
def heldInBatch : List Event :=
  [⟨0, .queue (.enqueue 1 sample false 10 0)⟩, ⟨0, .queue (.claim "A" [1] .committed 0)⟩,
    ⟨1, .queue (.admin (.holdSet true) ⟨[1], 0, 0, ""⟩ [1] 1 1)⟩,
    ⟨2, .queue (.renewLease "A" .committed 2)⟩]

/-- The worker renews the lease of the held message and calls Deliver. -/
theorem held_in_batch_starts :
    ∃ s t m rest, run (step fun _ => defaults) initial heldInBatch = some s ∧
      s.base.workers "A" = .delivering m rest ∧ m.id = 1 ∧ s.held 1 = true ∧
      (s.base.db.queue 1).map Row.hold = some true ∧
      s.step (fun _ => defaults) ⟨3, .enter "A"⟩ = some t ∧ ¬ StartsFree s ⟨3, .enter "A"⟩ := by
  have ended : (run (step fun _ => defaults) initial heldInBatch).map (fun s : Site =>
      decide ((s.base.workers "A").msgs.map Msg.id = [1] ∧ s.held 1 = true ∧
        (s.base.db.queue 1).map Row.hold = some true ∧
        (s.step (fun _ => defaults) ⟨3, .enter "A"⟩).isSome = true)) = some true := by
    decide +kernel
  obtain ⟨s, reached, seen⟩ := Option.map_eq_some_iff.mp ended
  obtain ⟨batch, held, stored, enabled⟩ := of_decide_eq_true seen
  obtain ⟨t, moved⟩ := Option.isSome_iff_exists.mp enabled
  obtain ⟨⟨m, rest, at_⟩, _⟩ := step_enter moved
  have id : m.id = 1 := by
    rw [at_] at batch
    exact (List.cons.inj batch).1
  refine ⟨s, t, m, rest, reached, at_, id, held, stored, moved, fun free => ?_⟩
  have off := free "A" m rest rfl at_
  rw [id, held] at off
  cases off

/-- The sample as its worker has claimed it. -/
def claimed : Msg := { sample with id := 1, maxAttempts := 10, createdAt := some 0 }

def inDelivery : List Event :=
  [⟨0, .queue (.enqueue 1 sample false 10 0)⟩, ⟨0, .queue (.claim "A" [1] .committed 0)⟩,
    ⟨1, .queue (.renewLease "A" .committed 1)⟩, ⟨2, .enter "A"⟩]

/-- The message is put on hold while it is being delivered, and released later. -/
def heldInDelivery : List Event :=
  [⟨3, .queue (.admin (.holdSet true) ⟨[1], 0, 0, ""⟩ [1] 3 3)⟩,
    ⟨4, .queue (.deliver "A" ⟨2, 2, some ⟨"timeout", none, none, none⟩⟩)⟩,
    ⟨5, .queue (.recordResult "A" .committed 5)⟩,
    ⟨6, .queue (.reschedule "A" .committed 6 6 (5 * second))⟩,
    ⟨7, .queue (.admin .kick ⟨[1], 0, 0, ""⟩ [1] 7 7)⟩,
    ⟨8, .queue (.claim "B" [1] .committed 8)⟩, ⟨8, .queue (.renewLease "B" .committed 8)⟩,
    ⟨9, .enter "B"⟩]

/-- Events that hold nothing put no message on hold too late. -/
theorem meets_quiet (settings : String → Worker) (s : Site) (events : List Event)
    (quiet : ∀ event ∈ events, event.act.holds = []) :
    Meets (step settings) HoldsIdle s events := by
  induction events generalizing s with
  | nil => trivial
  | cons event rest ih =>
    refine ⟨?_, fun next _ =>
      ih next (fun later member => quiet later (List.mem_cons_of_mem _ member))⟩
    intro id member
    rw [quiet event List.mem_cons_self] at member
    cases member

theorem in_delivery_idle
    (reached : run (step fun _ => defaults) initial inDelivery = some s)
    (node : String) : ¬ s.Awaits node 1 := by
  have ended : (run (step fun _ => defaults) initial inDelivery).map
      (fun s : Site => (s.base.workers, s.inside "A")) = some (Function.update
        (Function.update (fun _ => .batch []) "A" (.batch [claimed])) "A"
        (.delivering { claimed with attempts := 1 } []), true) := by rfl
  rw [reached] at ended
  obtain ⟨workers, inside⟩ := Prod.mk.inj (Option.some.inj ended)
  have position : s.base.workers node =
      if node = "A" then .delivering { claimed with attempts := 1 } [] else .batch [] := by
    simp only [workers, Function.update_apply]
    split <;> rfl
  by_cases same : node = "A"
  · subst same
    simp [Awaits, position, Position.rest, inside]
  · simp [Awaits, position, same, Position.rest]

theorem held_in_delivery_starts_free :
    ∃ s, run (step fun _ => defaults) initial (inDelivery ++ heldInDelivery) = some s ∧
      s.inside "B" = true ∧
      Meets (step fun _ => defaults) StartsFree initial
        (inDelivery ++ heldInDelivery) := by
  have ended : (run (step fun _ => defaults) initial
      (inDelivery ++ heldInDelivery)).map (fun s : Site => s.inside "B") = some true := by
    decide +kernel
  obtain ⟨s, reached, called⟩ := Option.map_eq_some_iff.mp ended
  refine ⟨s, reached, called, held_never_starts _ s _ reached ?_⟩
  rw [meets_append]
  refine ⟨meets_quiet _ _ _ (by decide), fun middle ran => ⟨?_, fun next _ => ?_⟩⟩
  · intro id member node
    obtain rfl : id = 1 := List.mem_singleton.mp member
    exact in_delivery_idle ran node
  · exact meets_quiet _ _ _ (by decide)

end Site

end OctoMail.Queue
