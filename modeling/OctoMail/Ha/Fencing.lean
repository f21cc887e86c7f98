import OctoMail.Ha.Leader

/-!
# When fenced work stays inside its tenure

A `FenceExec` commit is safe when no tenure began between the read of its epoch
and its commit. The lease row always carries the pair of the latest tenure or is
absent, so a passed check identifies the latest tenure by its pair. That is the
tenure in which the epoch was read exactly when pairs are not handed out twice.

`Resign` deletes the row and the next claim restarts at epoch 1, so a node that
resigns and campaigns again can be given a pair it has held before. A call that
read its epoch before the resignation then passes the check of the later tenure.
-/

namespace OctoMail.Ha

open List Function

open Transition (Outcome Meets invariant run run_cons)

/-- A committed call saw no tenure begin between its epoch read and its commit, and
the latest tenure at its commit is the one whose pair it read. -/
def Commit.Fenced (tenures : List Lease) (commit : Commit) : Prop :=
  commit.ended = commit.began ∧ commit.ended ≤ tenures.length ∧
    (tenures.take commit.ended).getLast? = some ⟨commit.node, commit.epoch⟩

/-- No pair names two tenures, and every committed call stayed in its tenure. -/
def Fenced (s : State) : Prop :=
  s.tenures.Nodup ∧ ∀ commit ∈ s.commits, commit.Fenced s.tenures

/-- The tenures that begin with a label: the one of a committed claim. -/
def State.begins (s : State) : Label → List Lease
  | .claim node .committed _ => [⟨node, nextEpoch s.lease⟩]
  | .claim node .unreported _ => [⟨node, nextEpoch s.lease⟩]
  | _ => []

/-- A claim does not hand the node an epoch that an earlier tenure of the same node
already had. -/
def FreshEpoch (s : State) (label : Label) : Prop :=
  ∀ lease ∈ s.begins label, lease ∉ s.tenures

/-- What the memory of one process says about the tenures begun so far. A call
that has passed its check holds the row lock, no tenure began since it read its
epoch, and the latest tenure is its own. -/
structure Leader.Sound (tenures : List Lease) (rowLock : Option (String × Nat))
    (node : String) (leader : Leader) : Prop where
  held : leader.epoch ≠ 0 → ⟨node, leader.epoch⟩ ∈ tenures
  claimed : ∀ session epoch, leader.campaign = .claimed session epoch → ⟨node, epoch⟩ ∈ tenures
  read : ∀ call c, leader.calls call = some c →
    ⟨node, c.epoch⟩ ∈ tenures.take c.began ∧ c.began ≤ tenures.length
  passed : ∀ call c, leader.calls call = some c → c.passed = true →
    rowLock = some (node, call) ∧ c.began = tenures.length ∧
      tenures.getLast? = some ⟨node, c.epoch⟩

/-- The lease row, where there is one, is the latest tenure's. -/
structure Inv (s : State) : Prop where
  latest : ∀ lease, s.lease = some lease → s.tenures.getLast? = some lease
  sound : ∀ node, (s.leaders node).Sound s.tenures s.rowLock node
  commits : ∀ commit ∈ s.commits, commit.Fenced s.tenures

theorem initial_inv : Inv initial := by
  refine ⟨by simp [initial], fun node => ?_, by simp [initial]⟩
  constructor <;> simp [initial, New]

@[simp] theorem setLeader_lease (s : State) (node : String) (leader : Leader) :
    (s.setLeader node leader).lease = s.lease := rfl

@[simp] theorem setLeader_rowLock (s : State) (node : String) (leader : Leader) :
    (s.setLeader node leader).rowLock = s.rowLock := rfl

@[simp] theorem setLeader_tenures (s : State) (node : String) (leader : Leader) :
    (s.setLeader node leader).tenures = s.tenures := rfl

/-- Only the named process changes its memory. -/
theorem setLeader_leaders (s : State) (node other : String) (leader : Leader) :
    (s.setLeader node leader).leaders other =
      if other = node then leader else s.leaders other := by
  simp [State.setLeader, update_apply]

/-- Replacing one process's memory keeps soundness when the new memory is sound
and the row lock still serves the calls of the other processes. -/
theorem sound_setLeader (s : State) (node : String) (leader : Leader)
    (changed : leader.Sound s.tenures s.rowLock node)
    (others : ∀ other, other ≠ node → (s.leaders other).Sound s.tenures s.rowLock other) :
    ∀ other, ((s.setLeader node leader).leaders other).Sound s.tenures s.rowLock other := by
  intro other
  rw [setLeader_leaders]
  by_cases same : other = node
  · subst same
    simpa using changed
  · simpa [same] using others other same

variable {leader : Leader} {node : String} {tenures : List Lease} {s next : State} {call : Nat}

variable {campaign : Campaign}

/-- Moving the campaign to a position that carries no claimed epoch, and keeping
or clearing the epoch, keeps a process sound. -/
theorem sound_campaign {rowLock : Option (String × Nat)} (sound : leader.Sound tenures rowLock node)
    {conn : Option Session} {epoch : Nat} (kept : epoch = leader.epoch ∨ epoch = 0)
    (plain : ∀ session claimed, campaign ≠ .claimed session claimed) :
    ({ leader with conn := conn, epoch := epoch, campaign := campaign } : Leader).Sound
      tenures rowLock node := by
  refine ⟨?_, fun session claimed at_ => absurd at_ (plain session claimed),
    sound.read, sound.passed⟩
  intro nonzero
  rcases kept with same | cleared
  · exact same ▸ sound.held (same ▸ nonzero)
  · exact absurd cleared nonzero

/-- Ending a call keeps a process sound. -/
theorem sound_end {tenures : List Lease} (rowLock : Option (String × Nat))
    {next : Option (String × Nat)} {node : String}
    {leader : Leader} (sound : leader.Sound tenures rowLock node) (call : Nat)
    (unlocked : rowLock = next ∨ rowLock = some (node, call)) :
    (leader.setCall call none).Sound tenures next node := by
  refine ⟨sound.held, sound.claimed, ?_, ?_⟩
  · intro other c found
    simp only [Leader.setCall, update_apply] at found
    split at found
    · cases found
    · exact sound.read other c found
  · intro other c found passed
    simp only [Leader.setCall, update_apply] at found
    split at found
    · cases found
    rename_i different
    obtain ⟨locked, current⟩ := sound.passed other c found passed
    refine ⟨?_, current⟩
    rcases unlocked with same | mine
    · exact same ▸ locked
    · rw [mine] at locked
      exact absurd (Prod.mk.inj (Option.some.inj locked)).2.symm different

/-- A process none of whose calls holds the row lock stays sound when the lock
moves elsewhere. -/
theorem sound_unlocked {rowLock : Option (String × Nat)} {next : Option (String × Nat)}
    (sound : leader.Sound tenures rowLock node)
    (elsewhere : ∀ call, rowLock ≠ some (node, call)) : leader.Sound tenures next node :=
  ⟨sound.held, sound.claimed, sound.read, fun call c found passed =>
    absurd (sound.passed call c found passed).1 (elsewhere call)⟩

/-- A new tenure keeps a process sound while no call holds the row lock. -/
theorem sound_tenure {lease : Lease} (sound : leader.Sound tenures none node) :
    leader.Sound (tenures ++ [lease]) none node := by
  refine ⟨fun nonzero => mem_append_left _ (sound.held nonzero),
    fun session epoch at_ => mem_append_left _ (sound.claimed session epoch at_), ?_, ?_⟩
  · intro call c found
    obtain ⟨member, bound⟩ := sound.read call c found
    refine ⟨?_, by simp only [length_append]; omega⟩
    rw [take_append_of_le_length bound]
    exact member
  · intro call c found passed
    exact absurd (sound.passed call c found passed).1 (by simp)

/-- A later tenure does not disturb a committed call. -/
theorem commit_tenure (tenures : List Lease) {lease : Lease} (commit : Commit)
    (fenced : commit.Fenced tenures) : commit.Fenced (tenures ++ [lease]) := by
  obtain ⟨same, bound, latest⟩ := fenced
  refine ⟨same, by simp only [length_append]; omega, ?_⟩
  rw [take_append_of_le_length bound]
  exact latest

/-- Every move of the campaign other than a claim leaves the tenures alone, keeps
the lease row or deletes it, and ends with an epoch that is unchanged, cleared or
the one claimed. -/
theorem moved_inv (inv : Inv s) (lock : Option (Session × Nat)) {lease : Option Lease}
    {conn : Option Session} {epoch : Nat}
    (row : lease = s.lease ∨ lease = none) (kept : epoch = (s.leaders node).epoch ∨ epoch = 0)
    (plain : ∀ session claimed, campaign ≠ .claimed session claimed) :
    Inv ({ s with lock := lock, lease := lease }.setLeader node
      { s.leaders node with conn := conn, epoch := epoch, campaign := campaign }) := by
  refine ⟨?_, ?_, inv.commits⟩
  · intro current same
    rcases row with unchanged | deleted
    · exact inv.latest current (unchanged ▸ same)
    · exact absurd (deleted ▸ same) (by simp)
  · exact sound_setLeader { s with lock := lock, lease := lease } node _
      (sound_campaign (inv.sound node) kept plain) (fun other _ => inv.sound other)

/-- The upsert appends the tenure of the row it writes. It runs only while no fenced
transaction holds the row, so no passed call sees a tenure begin. -/
theorem tenure_inv (s : State) (node : String) (inv : Inv s) (free : s.rowLock = none)
    (lock : Option (Session × Nat))
    (written : ∀ session epoch, campaign = .claimed session epoch → epoch = nextEpoch s.lease) :
    Inv ({ s with
        lock := lock
        lease := some ⟨node, nextEpoch s.lease⟩
        tenures := s.tenures ++ [Lease.mk node (nextEpoch s.lease)] }.setLeader node
      { s.leaders node with campaign := campaign }) := by
  have grown : ∀ other, (s.leaders other).Sound (s.tenures ++ [⟨node, nextEpoch s.lease⟩])
      s.rowLock other := fun other =>
    free ▸ sound_tenure (free ▸ inv.sound other)
  refine ⟨fun lease same => by simpa using same, ?_, fun commit member =>
    commit_tenure s.tenures commit (inv.commits commit member)⟩
  refine sound_setLeader { s with tenures := s.tenures ++ [Lease.mk node (nextEpoch s.lease)] }
    node _ ?_ (fun other _ => grown other)
  refine ⟨(grown node).held, ?_, (grown node).read, (grown node).passed⟩
  intro session epoch claimed
  simp [written session epoch claimed]

theorem claim_inv {outcome : Outcome} {unlocked : Bool}
    (inv : Inv s) (moved : s.claim node outcome unlocked = some next) : Inv next := by
  simp only [State.claim] at moved
  split at moved <;> try contradiction
  split at moved
  · split at moved <;> try contradiction
    rename_i enabled
    cases moved
    exact tenure_inv s node inv enabled.2 s.lock (by simp +contextual [eq_comm])
  · split at moved <;> try contradiction
    rename_i enabled
    cases moved
    exact tenure_inv s node inv enabled.2 _ (by simp)
  · cases moved
    exact moved_inv inv _ (.inl rfl) (.inl rfl) (by simp)

/-- Winning or missing the advisory lock begins no tenure. -/
theorem tryLock_inv {number : Nat} (inv : Inv s)
    (moved : s.tryLock node number = some next) : Inv next := by
  simp only [State.tryLock] at moved
  split at moved
  · exact Option.some.inj moved ▸ inv
  · split at moved
    · exact Option.some.inj moved ▸ inv
    · split at moved
      · exact Option.some.inj moved ▸ inv
      · rename_i lock _
        cases moved
        exact moved_inv inv lock (.inl rfl) (.inl rfl) (by simp)
  · cases moved

/-- The epoch that becomes visible to `FenceExec` is the claimed tenure's. -/
theorem lead_inv (inv : Inv s) (moved : s.lead node = some next) : Inv next := by
  simp only [State.lead] at moved
  split at moved <;> try contradiction
  rename_i session epoch at_
  cases moved
  refine ⟨inv.latest, ?_, inv.commits⟩
  refine sound_setLeader s node _ ?_ (fun other _ => inv.sound other)
  have before := inv.sound node
  exact ⟨fun _ => before.claimed session epoch at_, by simp, before.read, before.passed⟩

/-- Stepping down, for whatever reason, begins no tenure. -/
theorem stepDown_inv (node : String) (inv : Inv s) :
    Inv (s.setLeader node { s.leaders node with campaign := .releasing }) :=
  moved_inv inv s.lock (.inl rfl) (.inl rfl) (by simp)

theorem isLeader_inv {transientError : Bool} (inv : Inv s)
    (moved : s.isLeader node transientError = some next) : Inv next := by
  simp only [State.isLeader] at moved
  split at moved
  · exact Option.some.inj moved ▸ inv
  · split at moved
    · exact Option.some.inj moved ▸ inv
    · split at moved
      · exact Option.some.inj moved ▸ stepDown_inv node inv
      · split at moved
        · exact Option.some.inj moved ▸ inv
        · exact Option.some.inj moved ▸ stepDown_inv node inv
  · cases moved

theorem heartbeat_inv {transientError : Bool} (inv : Inv s)
    (moved : s.heartbeat node transientError = some next) : Inv next := by
  simp only [State.heartbeat] at moved
  split at moved
  · exact Option.some.inj moved ▸ inv
  · split at moved
    · exact Option.some.inj moved ▸ inv
    split at moved
    · exact Option.some.inj moved ▸ stepDown_inv node inv
    · split at moved
      · split at moved
        · exact Option.some.inj moved ▸ inv
        · cases moved
      · exact Option.some.inj moved ▸ stepDown_inv node inv
  · cases moved

/-- Deleting the lease row is the only move that forgets the latest tenure. -/
theorem resign_inv {deleted : Bool} (inv : Inv s)
    (moved : s.resign node deleted = some next) : Inv next := by
  simp only [State.resign] at moved
  split at moved
  · exact Option.some.inj moved ▸ inv
  · split at moved
    · split at moved <;> try contradiction
      cases moved
      exact moved_inv inv s.lock (.inr rfl) (.inl rfl) (by simp)
    · exact Option.some.inj moved ▸ stepDown_inv node inv
  · cases moved

theorem release_inv {unlocked : Bool} (inv : Inv s)
    (moved : s.release node unlocked = some next) : Inv next := by
  simp only [State.release] at moved
  split at moved
  · cases moved
    exact moved_inv inv _ (.inl rfl) (.inl rfl) (by simp)
  · cases moved

theorem clear_inv (inv : Inv s) (moved : s.clear node = some next) : Inv next := by
  simp only [State.clear] at moved
  split at moved
  · cases moved
    exact moved_inv inv s.lock (.inl rfl) (.inr rfl) (by simp)
  · cases moved

/-- A call reads an epoch of a tenure that has already begun. -/
theorem fenceRead_inv (inv : Inv s) (moved : s.fenceRead node call = some next) : Inv next := by
  simp only [State.fenceRead] at moved
  split at moved
  · cases moved
  split at moved
  · exact Option.some.inj moved ▸ inv
  rename_i leading
  cases moved
  refine ⟨inv.latest, ?_, inv.commits⟩
  refine sound_setLeader s node _ ?_ (fun other _ => inv.sound other)
  have before := inv.sound node
  refine ⟨before.held, before.claimed, ?_, ?_⟩
  · intro other c found
    simp only [Leader.setCall, update_apply] at found
    split at found
    · cases found
      exact ⟨by simpa using before.held leading, Nat.le_refl _⟩
    · exact before.read other c found
  · intro other c found passed
    simp only [Leader.setCall, update_apply] at found
    split at found
    · cases found
      cases passed
    · exact before.passed other c found passed

/-- The last tenure appears among the first tenures of a list without repetition
only when these are all of them. -/
theorem all_begun (tenures : List Lease) (lease : Lease) (began : Nat) (unique : tenures.Nodup)
    (latest : tenures.getLast? = some lease) (early : lease ∈ tenures.take began)
    (bound : began ≤ tenures.length) : began = tenures.length := by
  obtain ⟨before, rfl⟩ := getLast?_eq_some_iff.mp latest
  by_contra short
  have inside : began ≤ before.length := by
    simp only [length_append, length_singleton] at bound short
    omega
  rw [take_append_of_le_length inside] at early
  have repeated : lease ∈ before := mem_of_mem_take early
  have apart := (nodup_append.mp unique).2.2 lease repeated lease (by simp)
  exact apart rfl

/-- A passed check identifies the latest tenure by its pair. With pairs handed out
once, that is the tenure in which the call read its epoch. -/
theorem fenceCheck_inv (inv : Inv s)
    (unique : s.tenures.Nodup) (moved : s.fenceCheck node call = some next) : Inv next := by
  simp only [State.fenceCheck] at moved
  split at moved <;> try contradiction
  rename_i epoch began found
  split at moved <;> try contradiction
  rename_i free
  split at moved
  · rename_i mine
    cases moved
    refine ⟨inv.latest, ?_, inv.commits⟩
    have before := inv.sound node
    obtain ⟨early, bound⟩ := before.read call _ found
    have current : began = s.tenures.length :=
      all_begun s.tenures ⟨node, epoch⟩ began unique (inv.latest _ mine) early bound
    refine sound_setLeader { s with rowLock := _ } node _ ?_ ?_
    · refine ⟨before.held, before.claimed, ?_, ?_⟩
      · intro other c same
        simp only [Leader.setCall, update_apply] at same
        split at same
        · cases same
          exact ⟨early, bound⟩
        · exact before.read other c same
      · intro other c same passed
        simp only [Leader.setCall, update_apply] at same
        split at same
        · rename_i this
          cases same
          exact ⟨by rw [this]; rfl, current, inv.latest _ mine⟩
        · exact absurd (free ▸ (before.passed other c same passed).1) (by simp)
    · intro other _
      exact sound_unlocked (inv.sound other)
        (by simp [free])
  · cases moved
    exact ⟨inv.latest, sound_setLeader s node _
      (sound_end _ (inv.sound node) call (.inl rfl)) (fun other _ => inv.sound other),
      inv.commits⟩

theorem fenceAbort_inv (inv : Inv s) (moved : s.fenceAbort node call = some next) : Inv next := by
  simp only [State.fenceAbort] at moved
  split at moved <;> try contradiction
  cases moved
  refine ⟨inv.latest, ?_, inv.commits⟩
  refine sound_setLeader { s with rowLock := _ } node _ ?_ ?_
  · refine sound_end s.rowLock (inv.sound node) call ?_
    by_cases mine : s.rowLock = some (node, call)
    · exact .inr mine
    · exact .inl (by simp [mine])
  · intro other different
    by_cases mine : s.rowLock = some (node, call)
    · refine sound_unlocked (inv.sound other) ?_
      intro held same
      rw [mine] at same
      exact different (Prod.mk.inj (Option.some.inj same)).1.symm
    · simpa [mine] using inv.sound other

/-- A commit happens while its call holds the row lock, hence in the tenure in
which the call read its epoch. -/
theorem fenceCommit_inv (inv : Inv s) (moved : s.fenceCommit node call = some next) : Inv next := by
  simp only [State.fenceCommit] at moved
  split at moved <;> try contradiction
  rename_i epoch began found
  cases moved
  obtain ⟨mine, current, latest⟩ := (inv.sound node).passed call _ found rfl
  refine ⟨inv.latest, ?_, ?_⟩
  · refine sound_setLeader { s with rowLock := _, commits := _ } node _ ?_ ?_
    · exact sound_end s.rowLock (inv.sound node) call (.inr mine)
    · intro other different
      refine sound_unlocked (inv.sound other) ?_
      intro held same
      rw [mine] at same
      exact different (Prod.mk.inj (Option.some.inj same)).1.symm
  · intro commit member
    rcases mem_append.mp member with earlier | this
    · exact inv.commits commit earlier
    · cases mem_singleton.mp this
      exact ⟨current.symm, Nat.le_refl _, by simpa using latest⟩

/-- A restarted process keeps no epoch and no call; the other processes keep their
row lock. -/
theorem restart_inv (s : State) (node : String) (inv : Inv s) : Inv (s.restart node) := by
  refine ⟨inv.latest, ?_, inv.commits⟩
  refine sound_setLeader
    { s with rowLock := s.rowLock.filter (fun owner => owner.1 ≠ node) } node New ?_ ?_
  · constructor <;> simp [New]
  · intro other different
    have before := inv.sound other
    refine ⟨before.held, before.claimed, before.read, ?_⟩
    intro call c found passed
    obtain ⟨mine, current⟩ := before.passed call c found passed
    exact ⟨by simp [mine, different], current⟩

/-- Every step keeps the invariant while pairs have been handed out once. -/
theorem step_inv (s next : State) (label : Label) (inv : Inv s) (unique : s.tenures.Nodup)
    (moved : step s label = some next) : Inv next := by
  cases label with
  | tryLock => exact tryLock_inv inv moved
  | claim => exact claim_inv inv moved
  | lead => exact lead_inv inv moved
  | isLeader => exact isLeader_inv inv moved
  | heartbeat => exact heartbeat_inv inv moved
  | resign => exact resign_inv inv moved
  | release => exact release_inv inv moved
  | clear => exact clear_inv inv moved
  | fenceRead => exact fenceRead_inv inv moved
  | fenceCheck => exact fenceCheck_inv inv unique moved
  | fenceAbort => exact fenceAbort_inv inv moved
  | fenceCommit => exact fenceCommit_inv inv moved
  | sessionLoss =>
    exact Option.some.inj moved ▸ ⟨inv.latest, inv.sound, inv.commits⟩
  | restart node => exact Option.some.inj moved ▸ restart_inv s node inv

/-- The recorded tenures are exactly the committed claims, in order. -/
theorem step_tenures {label : Label} (moved : step s label = some next) :
    next.tenures = s.tenures ++ s.begins label := by
  cases label <;>
    simp only [step, State.tryLock, State.claim, State.lead, State.isLeader, State.heartbeat,
      State.resign, State.release, State.clear, State.fenceRead, State.fenceCheck,
      State.fenceAbort, State.fenceCommit] at moved
  all_goals
    repeat' split at moved
    all_goals
      cases moved <;> simp [State.begins, State.sessionLoss, State.restart]

/-- A step leaves the pairs distinct exactly when it reissues none of them. -/
theorem step_unique {label : Label} (moved : step s label = some next) :
    next.tenures.Nodup ↔ s.tenures.Nodup ∧ FreshEpoch s label := by
  rw [step_tenures moved]
  have atMostOne : (s.begins label).Nodup := by
    unfold State.begins
    split <;> simp
  simp only [nodup_append, FreshEpoch]
  constructor
  · rintro ⟨unique, _, apart⟩
    exact ⟨unique, fun lease begun earlier => apart lease earlier lease begun rfl⟩
  · rintro ⟨unique, fresh⟩
    exact ⟨unique, atMostOne, fun first earlier second begun same =>
      fresh second begun (same ▸ earlier)⟩

/-- Pairs are distinct at the end of a run exactly when they were at its start and
no claim of the run reissued one. -/
theorem run_unique (s final : State) (labels : List Label)
    (reached : run step s labels = some final) :
    final.tenures.Nodup ↔ s.tenures.Nodup ∧ Meets step FreshEpoch s labels := by
  induction labels generalizing s with
  | nil =>
    cases reached
    simp [Meets]
  | cons label rest ih =>
    obtain ⟨next, moved, continued⟩ := (run_cons step s final label rest).mp reached
    rw [ih next continued, step_unique moved]
    constructor
    · rintro ⟨⟨unique, fresh⟩, later⟩
      refine ⟨unique, fresh, fun other same => ?_⟩
      exact Option.some.inj (moved.symm.trans same) ▸ later
    · rintro ⟨unique, fresh, later⟩
      exact ⟨⟨unique, fresh⟩, later next moved⟩

/-- Fencing holds in a run exactly when no claim hands a node an epoch it has had
before. The condition is about the state a claim finds: a row deleted by `Resign`
restarts the epochs, and the run is safe as long as no node meets one of its own
again. -/
theorem fenced_iff_fresh_epochs (final : State) (labels : List Label)
    (reached : run step initial labels = some final) :
    Fenced final ↔ Meets step FreshEpoch initial labels := by
  have distinct := run_unique initial final labels reached
  have empty : initial.tenures.Nodup := nodup_nil
  constructor
  · rintro ⟨unique, _⟩
    exact (distinct.mp unique).2
  · intro fresh
    have kept : Inv final ∧ final.tenures.Nodup :=
      invariant (fun s => Inv s ∧ s.tenures.Nodup)
        (fun before meets moved => ⟨step_inv _ _ _ before.1 before.2 moved,
          (step_unique moved).mpr ⟨before.2, meets⟩⟩) ⟨initial_inv, empty⟩ fresh reached
    exact ⟨kept.2, kept.1.commits⟩

/-- Node A leads, starts a fenced call, is resigned before the call's check, and
campaigns again. -/
def reacquired : List Label :=
  [.tryLock "A" 0, .claim "A" .committed true, .lead "A", .fenceRead "A" 0, .resign "A" true,
    .release "A" true, .clear "A", .tryLock "A" 0, .claim "A" .committed true, .lead "A",
    .fenceCheck "A" 0, .fenceCommit "A" 0]

/-- The call of the first tenure commits in the second, whose pair is the same. -/
theorem reacquired_not_fenced :
    ∃ final, run step initial reacquired = some final ∧
      final.tenures = [⟨"A", 1⟩, ⟨"A", 1⟩] ∧ final.commits = [⟨"A", 1, 1, 2⟩] ∧
        ¬ Fenced final := by
  have ended : (run step initial reacquired).map (fun s => (s.tenures, s.commits)) =
      some ([⟨"A", 1⟩, ⟨"A", 1⟩], [⟨"A", 1, 1, 2⟩]) := by decide
  obtain ⟨final, reached, history⟩ := Option.map_eq_some_iff.mp ended
  obtain ⟨tenures, commits⟩ := Prod.mk.inj history
  refine ⟨final, reached, tenures, commits, ?_⟩
  rintro ⟨_, inside⟩
  have stayed := (inside ⟨"A", 1, 1, 2⟩ (by simp [commits])).1
  exact absurd stayed (by decide)

/-- Two nodes, one fenced call each, the second tenure won after the first node's
session was lost. -/
def takenOver : List Label :=
  [.tryLock "A" 0, .claim "A" .committed true, .lead "A", .fenceRead "A" 0, .fenceCheck "A" 0,
    .fenceCommit "A" 0, .fenceRead "A" 1, .sessionLoss ⟨"A", 0⟩, .tryLock "B" 0,
    .claim "B" .committed true, .lead "B", .fenceCheck "A" 1, .fenceRead "B" 0,
    .fenceCheck "B" 0, .fenceCommit "B" 0]

theorem takenOver_fenced :
    ∃ final, run step initial takenOver = some final ∧
      final.commits = [⟨"A", 1, 1, 1⟩, ⟨"B", 2, 2, 2⟩] ∧ Fenced final := by
  have ended : (run step initial takenOver).map (fun s => (s.tenures, s.commits)) =
      some ([⟨"A", 1⟩, ⟨"B", 2⟩], [⟨"A", 1, 1, 1⟩, ⟨"B", 2, 2, 2⟩]) := by decide
  obtain ⟨final, reached, history⟩ := Option.map_eq_some_iff.mp ended
  obtain ⟨tenures, commits⟩ := Prod.mk.inj history
  have unique : final.tenures.Nodup := by
    rw [tenures]
    decide
  have fresh := ((run_unique initial final takenOver reached).mp unique).2
  exact ⟨final, reached, commits, (fenced_iff_fresh_epochs final takenOver reached).mpr fresh⟩

end OctoMail.Ha
