import Mathlib.Data.Int.ConditionallyCompleteOrder
import Mathlib.Order.ConditionallyCompleteLattice.Basic
import Mathlib.Order.WithBot
import OctoMail.Deliverability.IpRouter

/-!
# Which source address is chosen

`LeaseSourceIP` is to refuse a tenant only if all its addresses are at their caps, and to choose
the address with the most left of its cap, from a dedicated pool if it can.

It passes over addresses that other transactions have locked, and so refuses a tenant whose only
address is being leased. It orders addresses by what they have sent and not by what they have left,
and so prefers an address at the beginning of its warmup.
-/

namespace OctoMail.Deliverability

open List Transition RowLocks

namespace Address

/-- The pool of the address is dedicated to the tenant. -/
def dedicated (pools : Pools) (tenant : Nat) (address : Address) : Bool :=
  (pools.assigned tenant address.pool).getD false

/-- What is left of the cap. -/
def headroom (address : Address) : WithTop Int :=
  if address.cap = 0 then ⊤ else ((address.cap - address.sentToday : Int) : WithTop Int)

end Address

/-- An address that a tenant may be given and that is below its cap. -/
structure Open (pools : Pools) (ips : List Address) (tenant id : Nat) (address : Address) :
    Prop where
  found : ips[id]? = some address
  eligible : address.eligible pools tenant = true
  below : address.atCap = false

/-- The rule of choice. -/
structure Follows (pools : Pools) (ips : List Address) (tenant id : Nat) (address : Address) :
    Prop where
  chosen : Open pools ips tenant id address
  dedicated : ∀ other version, Open pools ips tenant other version →
    version.dedicated pools tenant = true → address.dedicated pools tenant = true
  headroom : ∀ other version, Open pools ips tenant other version →
    version.dedicated pools tenant = address.dedicated pools tenant →
      version.headroom ≤ address.headroom

/-- An open address that the SELECT may return before the other open ones: of a dedicated pool if
one of those is open, and none of its kind has sent less. -/
structure Foremost (pools : Pools) (ips : List Address) (tenant id : Nat) (address : Address) :
    Prop where
  chosen : Open pools ips tenant id address
  dedicated : ∀ other version, Open pools ips tenant other version →
    version.dedicated pools tenant = true → address.dedicated pools tenant = true
  least : ∀ other version, Open pools ips tenant other version →
    version.dedicated pools tenant = address.dedicated pools tenant →
      address.sentToday ≤ version.sentToday

/-- What has sent least has most left, among the open addresses of the kind that is chosen. -/
def LeastHasMost (pools : Pools) (ips : List Address) (tenant : Nat) : Prop :=
  ∀ id address, Foremost pools ips tenant id address →
    ∀ other version, Open pools ips tenant other version →
      version.dedicated pools tenant = address.dedicated pools tenant →
        version.headroom ≤ address.headroom

/-- An order in which the SELECT may return its rows; the ORDER BY leaves ties open. -/
structure Ordered (pools : Pools) (ips : List Address) (tenant : Nat) (order : List Nat) :
    Prop where
  perm : order.Perm (candidates pools ips tenant)
  sorted : order.Pairwise (fun one other => precedes pools ips tenant one other = true)

/-- A process goes on with its SELECT, and does not pass over the address. -/
def Reads (p id : Nat) (state : State) (label : Nat × Label) : Prop :=
  label.1 = p → label.2 = .lock ∧ ∀ tenant todo locked found,
    state.procs[p]? = some (.selecting tenant (id :: todo) locked found) →
      free Proc.locks state.procs p (.ip id) = true

/-- A call of a process, from the SELECT to the commit, with nothing in between. -/
def loneCall (p tenant : Nat) (order : List Nat) : List (Nat × Label) :=
  (p, .select tenant order) :: (List.replicate order.length (p, .lock) ++
    [(p, .choose), (p, .charge), (p, .finish .committed)])

/-- A call alone ends with a lease of the address. -/
def Grants (pools : Pools) (state : State) (p tenant : Nat) (order : List Nat) (id : Nat)
    (address : Address) : Prop :=
  ∃ final, run (step pools) state (loneCall p tenant order) = some final ∧
    final.trace = state.trace ++ [.granted tenant (address.leased id)]

variable {id : Nat} {address : Address}

section Moves

variable {pools : Pools} {tables : Tables} {isFree : Key → Bool} {move : Move}

theorem step_some {state next : State} {p : Nat} {act : Label}
    (moved : step pools state (p, act) = some next) :
    ∃ proc move, state.procs[p]? = some proc ∧
      moveOf pools state.tables (free Proc.locks state.procs p) proc act = some move ∧
      next = ⟨move.tables, state.procs.set p move.proc, state.trace ++ move.events⟩ := by
  simp only [step, Option.bind_eq_bind, Option.pure_def] at moved
  obtain ⟨proc, mine, moved⟩ := Option.bind_eq_some_iff.mp moved
  obtain ⟨move, made, done⟩ := Option.bind_eq_some_iff.mp moved
  exact ⟨proc, move, mine, made, (Option.some.inj done).symm⟩

variable {tenant : Nat}

/-- A row is read, or passed over. -/
theorem lock_move {todo locked : List Nat} {found : List (Nat × Address)}
    (moved : moveOf pools tables isFree (.selecting tenant todo locked found) .lock = some move) :
    ∃ id rest, todo = id :: rest ∧ move.tables = tables ∧ move.events = [] ∧
      ((isFree (.ip id) = true ∧ ∃ address, tables.ips[id]? = some address ∧
          move.proc = .selecting tenant rest (id :: locked)
            (if address.eligible pools tenant then found ++ [(id, address)] else found)) ∨
        (isFree (.ip id) = false ∧ move.proc = .selecting tenant rest locked found)) := by
  cases todo with
  | nil => simp [moveOf, leaseMove, maintenanceMove] at moved
  | cons id rest =>
    refine ⟨id, rest, rfl, ?_⟩
    have mine : leaseMove pools tables isFree (.selecting tenant (id :: rest) locked found) .lock =
        some move := by
      simpa [moveOf, maintenanceMove] using moved
    simp only [leaseMove] at mine
    split at mine
    · rename_i open_
      obtain ⟨address, here, rfl⟩ := Option.map_eq_some_iff.mp mine
      exact ⟨rfl, rfl, Or.inl ⟨open_, address, here, rfl⟩⟩
    · rename_i taken
      cases mine
      exact ⟨rfl, rfl, Or.inr ⟨by simpa using taken, rfl⟩⟩

/-- The end of the SELECT. -/
theorem choose_move {todo locked : List Nat} {found : List (Nat × Address)}
    (moved : moveOf pools tables isFree (.selecting tenant todo locked found) .choose = some move) :
    todo = [] ∧
      ((found.find? (fun (_, address) => !address.atCap) = none ∧
          move.events = [.noSourceIP tenant]) ∨ move.events = []) := by
  cases todo with
  | cons id rest => simp [moveOf, leaseMove, maintenanceMove] at moved
  | nil =>
    have mine : leaseMove pools tables isFree (.selecting tenant [] locked found) .choose =
        some move := by
      simpa [moveOf, maintenanceMove] using moved
    simp only [leaseMove] at mine
    split at mine
    · rename_i none_
      cases mine
      exact ⟨rfl, Or.inl ⟨none_, rfl⟩⟩
    · cases mine
      exact ⟨rfl, Or.inr rfl⟩

theorem select_move {order : List Nat} {proc : Proc}
    (moved : moveOf pools tables isFree proc (.select tenant order) = some move) :
    order.Perm (candidates pools tables.ips tenant) ∧
      order.Pairwise (fun one other => precedes pools tables.ips tenant one other = true) ∧
      move = ⟨.selecting tenant order [] [], tables, []⟩ := by
  cases proc with
  | idle =>
    have mine : leaseMove pools tables isFree .idle (.select tenant order) = some move := by
      simpa [moveOf, maintenanceMove] using moved
    simp only [leaseMove] at mine
    split at mine
    · rename_i sorted
      exact ⟨sorted.1, sorted.2, (Option.some.inj mine).symm⟩
    · cases mine
  | _ => simp [moveOf, leaseMove, maintenanceMove] at moved

theorem mem_candidates {ips : List Address} :
    id ∈ candidates pools ips tenant ↔
      ∃ address, ips[id]? = some address ∧ address.eligible pools tenant = true := by
  rw [candidates, mem_filter, mem_range]
  constructor
  · rintro ⟨inside, eligible⟩
    rw [getElem?_eq_getElem inside] at eligible
    exact ⟨_, getElem?_eq_getElem inside, eligible⟩
  · rintro ⟨address, found, eligible⟩
    refine ⟨(List.getElem?_eq_some_iff.mp found).1, ?_⟩
    rw [found]
    exact eligible

end Moves

/-! ### A refusal -/

/-- What a SELECT that does not pass over an address has read, or has still to read. -/
structure Visiting (pools : Pools) (p tenant id : Nat) (state : State) : Prop where
  protected_ : Protected (discipline pools) state.tables state.procs
  covered : ∃ todo locked found, state.procs[p]? = some (.selecting tenant todo locked found) ∧
    (id ∈ candidates pools state.tables.ips tenant →
      id ∈ todo ∨ ∃ address, (id, address) ∈ found)

section Refusal

variable {pools : Pools} {p tenant id : Nat} {state next : State}

theorem candidates_step (tenant id : Nat) {label : Nat × Label}
    (protected_ : Protected (discipline pools) state.tables state.procs)
    (moved : step pools state label = some next)
    (here : id ∈ candidates pools next.tables.ips tenant) :
    id ∈ candidates pools state.tables.ips tenant := by
  obtain ⟨_, events, _, change⟩ := step_change protected_ moved
  obtain ⟨version, found, eligible⟩ := mem_candidates.mp here
  obtain ⟨address, before, turned⟩ := change_turned change found
  rw [turned.same] at eligible
  exact mem_candidates.mpr ⟨address, before, eligible⟩

theorem visiting_step {label : Nat × Label} (visiting : Visiting pools p tenant id state)
    (reads : Reads p id state label) (moved : step pools state label = some next) :
    Visiting pools p tenant id next := by
  have protected_ := (step_change visiting.protected_ moved).1
  have same := candidates_step tenant id visiting.protected_ moved
  obtain ⟨todo, locked, found, mine, covered⟩ := visiting.covered
  refine ⟨protected_, ?_⟩
  obtain ⟨q, act⟩ := label
  obtain ⟨proc, move, theirs, made, rfl⟩ := step_some moved
  by_cases own : q = p
  · subst own
    obtain ⟨rfl, open_⟩ := reads rfl
    cases mine.symm.trans theirs
    obtain ⟨first, rest, rfl, _, _, case_⟩ := lock_move made
    have set_ : (state.procs.set q move.proc)[q]? = some move.proc :=
      List.getElem?_set_self (List.getElem?_eq_some_iff.mp mine).1
    rcases case_ with ⟨_, address, here, read⟩ | ⟨taken, passed⟩
    · refine ⟨rest, _, _, set_.trans (congrArg some read), fun now => ?_⟩
      obtain ⟨version, found_, eligible⟩ := mem_candidates.mp (same now)
      rcases covered (same now) with waits | ⟨known, member⟩
      · rcases mem_cons.mp waits with rfl | later
        · cases here.symm.trans found_
          exact Or.inr ⟨address, by simp [eligible]⟩
        · exact Or.inl later
      · refine Or.inr ⟨known, ?_⟩
        split
        · exact mem_append_left _ member
        · exact member
    · refine ⟨rest, _, _, set_.trans (congrArg some passed), fun now => ?_⟩
      rcases covered (same now) with waits | read
      · rcases mem_cons.mp waits with rfl | later
        · rw [open_ tenant rest locked found mine] at taken
          cases taken
        · exact Or.inl later
      · exact Or.inr read
  · refine ⟨todo, locked, found, ?_, fun now => covered (same now)⟩
    rw [getElem?_set_ne own]
    exact mine

/-- An address that was not passed over is at its cap when the tenant is refused. -/
theorem refused_atCap {order : List Nat} {opened last final : State} {during : List (Nat × Label)}
    (protected_ : Protected (discipline pools) state.tables state.procs)
    (begun : step pools state (p, .select tenant order) = some opened)
    (read : run (step pools) opened during = some last)
    (refused : step pools last (p, .choose) = some final)
    (told : final.trace = last.trace ++ [.noSourceIP tenant])
    (reads : Meets (step pools) (Reads p id) opened during)
    (found : last.tables.ips[id]? = some address)
    (eligible : address.eligible pools tenant = true) : address.atCap = true := by
  have first : Visiting pools p tenant id opened := by
    have kept := (step_change protected_ begun).1
    obtain ⟨proc, move, mine, made, rfl⟩ := step_some begun
    obtain ⟨perm, _, rfl⟩ := select_move made
    refine ⟨kept, order, [], [], ?_, fun here => Or.inl (perm.mem_iff.mpr here)⟩
    exact List.getElem?_set_self (List.getElem?_eq_some_iff.mp mine).1
  have visiting := invariant (Visiting pools p tenant id) visiting_step first reads read
  obtain ⟨todo, locked, rows, mine, covered⟩ := visiting.covered
  obtain ⟨proc, move, same, made, rfl⟩ := step_some refused
  cases mine.symm.trans same
  obtain ⟨rfl, none_ | silent⟩ := choose_move made
  · obtain ⟨version, member⟩ :=
      (covered (mem_candidates.mpr ⟨address, found, eligible⟩)).resolve_left not_mem_nil
    obtain ⟨_, current, _⟩ := visiting.protected_.known mine id version member
    cases found.symm.trans current
    simpa using find?_eq_none.mp none_.1 (id, address) member
  · rw [silent] at told
    simp at told

end Refusal

/-! ### A call alone -/

/-- The rows of a list of numbers. -/
def rowsOf (ips : List Address) (ids : List Nat) : List (Nat × Address) :=
  ids.filterMap (fun id => ips[id]?.map (fun address => (id, address)))

/-- Nobody else is in a transaction, and the process has rows left to read of its order. -/
structure Lone (pools : Pools) (p tenant : Nat) (order : List Nat) (start : State)
    (todo : List Nat) (state : State) : Prop where
  tables : state.tables = start.tables
  trace : state.trace = start.trace
  others : ∀ (q : Nat) (proc : Proc), q ≠ p → state.procs[q]? = some proc → proc.locks = []
  eligible : ∀ id ∈ todo, id ∈ candidates pools start.tables.ips tenant
  reading : ∃ locked found, state.procs[p]? = some (.selecting tenant todo locked found) ∧
    rowsOf start.tables.ips order = found ++ rowsOf start.tables.ips todo

section Alone

variable {pools : Pools} {p tenant : Nat} {order todo : List Nat} {start state next : State}

theorem step_of_move {proc : Proc} {act : Label} {move : Move} (mine : state.procs[p]? = some proc)
    (made : moveOf pools state.tables (free Proc.locks state.procs p) proc act = some move) :
    step pools state (p, act) =
      some ⟨move.tables, state.procs.set p move.proc, state.trace ++ move.events⟩ := by
  simp [step, mine, made]

theorem free_alone {procs : List Proc}
    (others : ∀ (q : Nat) (proc : Proc), q ≠ p → procs[q]? = some proc → proc.locks = [])
    (key : Key) : free Proc.locks procs p key = true := by
  rw [free, all_eq_true]
  rintro ⟨proc, q⟩ member
  have here : procs[q]? = some proc := mk_mem_zipIdx_iff_getElem?.mp member
  by_cases own : q = p
  · simp [own]
  · simp [others q proc own here]

theorem Lone.lock (lone : Lone pools p tenant order start (id :: todo) state) :
    ∃ next, step pools state (p, .lock) = some next ∧
      Lone pools p tenant order start todo next := by
  obtain ⟨locked, found, mine, read⟩ := lone.reading
  obtain ⟨address, here, may⟩ := mem_candidates.mp (lone.eligible id mem_cons_self)
  have made : moveOf pools state.tables (free Proc.locks state.procs p)
      (.selecting tenant (id :: todo) locked found) .lock =
        some ⟨.selecting tenant todo (id :: locked) (found ++ [(id, address)]), state.tables,
          []⟩ := by
    simp [moveOf, leaseMove, free_alone lone.others, lone.tables, here, may]
  refine ⟨_, step_of_move mine made, lone.tables, ?_, ?_, ?_, ?_⟩
  · rw [List.append_nil]
    exact lone.trace
  · intro q other apart held
    rw [getElem?_set_ne (Ne.symm apart)] at held
    exact lone.others q other apart held
  · exact fun other member => lone.eligible other (mem_cons_of_mem _ member)
  · refine ⟨_, _, List.getElem?_set_self (List.getElem?_eq_some_iff.mp mine).1, ?_⟩
    rw [read]
    simp [rowsOf, here]

theorem Lone.locks (lone : Lone pools p tenant order start todo state) :
    ∃ next, run (step pools) state (List.replicate todo.length (p, .lock)) = some next ∧
      Lone pools p tenant order start [] next := by
  induction todo generalizing state with
  | nil => exact ⟨state, rfl, lone⟩
  | cons id todo ih =>
    obtain ⟨middle, moved, later⟩ := lone.lock
    obtain ⟨next, reached, last⟩ := ih later
    exact ⟨next, (run_cons ..).mpr ⟨middle, moved, reached⟩, last⟩

theorem lone_select (idle : ∀ proc ∈ state.procs, proc = .idle) (inside : p < state.procs.length)
    (ordered : Ordered pools state.tables.ips tenant order) :
    ∃ next, step pools state (p, .select tenant order) = some next ∧
      Lone pools p tenant order state order next := by
  have mine : state.procs[p]? = some .idle := by
    rw [getElem?_eq_getElem inside, idle _ (getElem_mem inside)]
  have made : moveOf pools state.tables (free Proc.locks state.procs p) .idle
      (.select tenant order) = some ⟨.selecting tenant order [] [], state.tables, []⟩ := by
    simp [moveOf, leaseMove, ordered.perm, ordered.sorted]
  refine ⟨_, step_of_move mine made, rfl, List.append_nil _, ?_,
    fun id => ordered.perm.mem_iff.mp, ?_⟩
  · intro q other apart held
    rw [getElem?_set_ne (Ne.symm apart)] at held
    rw [idle other (mem_of_getElem? held)]
    rfl
  · exact ⟨[], [], List.getElem?_set_self inside, rfl⟩

/-- From the end of the SELECT on. -/
theorem Lone.leases (lone : Lone pools p tenant order start [] state)
    (found : start.tables.ips[id]? = some address)
    (first : (rowsOf start.tables.ips order).find? (fun (_, address) => !address.atCap) =
      some (id, address)) :
    ∃ final, run (step pools) state [(p, .choose), (p, .charge), (p, .finish .committed)] =
        some final ∧
      final.trace = start.trace ++ [.granted tenant (address.leased id)] := by
  obtain ⟨locked, rows, mine, read⟩ := lone.reading
  have inside := (List.getElem?_eq_some_iff.mp mine).1
  have nothing : rowsOf start.tables.ips [] = [] := rfl
  rw [nothing, List.append_nil] at read
  have chooses : step pools state (p, .choose) = some ⟨state.tables,
      state.procs.set p (.chosen tenant locked (address.leased id)), state.trace⟩ := by
    simp [step, mine, moveOf, leaseMove, ← read, first]
  have charges : step pools ⟨state.tables, state.procs.set p (.chosen tenant locked
        (address.leased id)), state.trace⟩ (p, .charge) =
      some ⟨state.tables, state.procs.set p (.charging tenant locked (address.leased id)
        address.charged), state.trace⟩ := by
    simp [step, inside, moveOf, leaseMove, lone.tables, Address.leased, found]
  have commits : ∃ final, step pools ⟨state.tables, state.procs.set p (.charging tenant locked
        (address.leased id) address.charged), state.trace⟩ (p, .finish .committed) = some final ∧
      final.trace = start.trace ++ [.granted tenant (address.leased id)] := by
    simp [step, inside, moveOf, leaseMove, lone.trace]
  obtain ⟨final, committed, told⟩ := commits
  simp only [run_cons]
  exact ⟨final, ⟨_, chooses, _, charges, _, committed, rfl⟩, told⟩

variable {other : Nat}

section Orders

variable {ips : List Address} {id : Nat} {address : Address}

theorem mem_rowsOf {version : Address} :
    (other, version) ∈ rowsOf ips order ↔ other ∈ order ∧ ips[other]? = some version := by
  simp [rowsOf]

/-- The order of the SELECT, for two rows. -/
theorem precedes_iff {one : Nat} {first second : Address} (here : ips[one]? = some first)
    (there : ips[other]? = some second) :
    precedes pools ips tenant one other = true ↔
      (first.dedicated pools tenant = true ∧ second.dedicated pools tenant = false) ∨
        (first.dedicated pools tenant = second.dedicated pools tenant ∧
          first.sentToday ≤ second.sentToday) := by
  simp only [precedes, here, there, Address.dedicated, Bool.or_eq_true, Bool.and_eq_true,
    Bool.not_eq_true', beq_iff_eq, decide_eq_true_eq]

/-- The first open row of an order is foremost. -/
theorem first_foremost (ordered : Ordered pools ips tenant order)
    (first : (rowsOf ips order).find? (fun (_, address) => !address.atCap) = some (id, address)) :
    Foremost pools ips tenant id address := by
  obtain ⟨below, before, after, shape, earlier⟩ := find?_eq_some_iff_append.mp first
  have mine := mem_rowsOf.mp (mem_of_find?_eq_some first)
  obtain ⟨_, found, eligible⟩ := mem_candidates.mp (ordered.perm.mem_iff.mp mine.1)
  cases mine.2.symm.trans found
  have chosen : Open pools ips tenant id address := ⟨mine.2, eligible, by simpa using below⟩
  have sorted : (rowsOf ips order).Pairwise
      (fun one other => precedes pools ips tenant one.1 other.1 = true) := by
    apply List.Pairwise.filterMap _ _ ordered.sorted
    intro one other precedes_ first here second there
    obtain ⟨_, _, rfl⟩ := Option.map_eq_some_iff.mp here
    obtain ⟨_, _, rfl⟩ := Option.map_eq_some_iff.mp there
    exact precedes_
  -- an open row is the first one or comes after it
  have later : ∀ other version, Open pools ips tenant other version →
      version = address ∨ precedes pools ips tenant id other = true := by
    intro other version isOpen
    have inside : (other, version) ∈ rowsOf ips order := mem_rowsOf.mpr ⟨ordered.perm.mem_iff.mpr
      (mem_candidates.mpr ⟨version, isOpen.found, isOpen.eligible⟩), isOpen.found⟩
    rw [shape] at inside sorted
    rcases mem_append.mp inside with early | late
    · have full := earlier _ early
      simp [isOpen.below] at full
    · rcases mem_cons.mp late with same | behind
      · exact Or.inl (Prod.mk.inj same).2
      · exact Or.inr ((pairwise_cons.mp (pairwise_append.mp sorted).2.1).1 _ behind)
  refine ⟨chosen, ?_, ?_⟩
  · intro other version isOpen dedicated
    rcases later other version isOpen with rfl | precedes_
    · exact dedicated
    · have sorted := (precedes_iff mine.2 isOpen.found).mp precedes_
      rw [dedicated] at sorted
      exact sorted.elim And.left And.left
  · intro other version isOpen kind
    rcases later other version isOpen with rfl | precedes_
    · exact le_refl _
    · have sorted := (precedes_iff mine.2 isOpen.found).mp precedes_
      rw [kind] at sorted
      exact sorted.elim (fun ⟨yes, no⟩ => by rw [yes] at no; cases no) And.right

/-- A foremost row may come first: the rows that have to come before it are at their caps. -/
theorem foremost_first (ordered : Ordered pools ips tenant order)
    (foremost : Foremost pools ips tenant id address) :
    ∃ order, Ordered pools ips tenant order ∧
      (rowsOf ips order).find? (fun (_, address) => !address.atCap) = some (id, address) := by
  have row : ∀ other ∈ order, ∃ version, ips[other]? = some version ∧
      version.eligible pools tenant = true :=
    fun other member => mem_candidates.mp (ordered.perm.mem_iff.mp member)
  have here := foremost.chosen.found
  have mine : id ∈ order.filter (precedes pools ips tenant id) :=
    mem_filter.mpr ⟨ordered.perm.mem_iff.mpr
      (mem_candidates.mpr ⟨address, here, foremost.chosen.eligible⟩),
      (precedes_iff here here).mpr (Or.inr ⟨rfl, le_refl _⟩)⟩
  refine ⟨order.filter (fun other => !precedes pools ips tenant id other) ++
    id :: (order.filter (precedes pools ips tenant id)).erase id, ⟨?_, ?_⟩, ?_⟩
  · refine (((perm_cons_erase mine).symm.append_left _).trans ?_).trans ordered.perm
    exact perm_append_comm.trans (filter_append_perm _ _)
  · refine pairwise_append.mpr ⟨ordered.sorted.filter _, pairwise_cons.mpr ⟨?_, ?_⟩, ?_⟩
    · exact fun other member => (mem_filter.mp (mem_of_mem_erase member)).2
    · exact (ordered.sorted.filter _).sublist erase_sublist
    · intro early before late behind
      obtain ⟨before, not_⟩ := mem_filter.mp before
      have after : late ∈ order.filter (precedes pools ips tenant id) := by
        rcases mem_cons.mp behind with rfl | behind
        · exact mine
        · exact mem_of_mem_erase behind
      obtain ⟨first, there, _⟩ := row early before
      obtain ⟨second, where_, _⟩ := row late (mem_filter.mp after).1
      have follows := (precedes_iff here where_).mp (mem_filter.mp after).2
      have leads : ¬ precedes pools ips tenant id early = true := by simpa using not_
      rw [precedes_iff here there] at leads
      rw [precedes_iff there where_]
      revert follows leads
      cases first.dedicated pools tenant <;> cases second.dedicated pools tenant <;>
        cases address.dedicated pools tenant <;> simp <;> omega
  · have closed : (rowsOf ips
        (order.filter (fun other => !precedes pools ips tenant id other))).find?
          (fun (_, address) => !address.atCap) = none := by
      refine find?_eq_none.mpr fun ⟨other, version⟩ member open_ => ?_
      obtain ⟨member, there⟩ := mem_rowsOf.mp member
      obtain ⟨member, not_⟩ := mem_filter.mp member
      obtain ⟨_, there', eligible⟩ := row other member
      cases there.symm.trans there'
      have isOpen : Open pools ips tenant other version := ⟨there, eligible, by simpa using open_⟩
      have leads : ¬ precedes pools ips tenant id other = true := by simpa using not_
      rw [precedes_iff here there] at leads
      have dedicated := foremost.dedicated other version isOpen
      have least := foremost.least other version isOpen
      revert leads dedicated least
      cases version.dedicated pools tenant <;> cases address.dedicated pools tenant <;> simp
    rw [rowsOf, filterMap_append, find?_append, ← rowsOf, closed]
    simp [here, foremost.chosen.below]

end Orders

/-- A call that runs alone leases the first open row. -/
theorem lone_call (idle : ∀ proc ∈ state.procs, proc = .idle) (inside : p < state.procs.length)
    (ordered : Ordered pools state.tables.ips tenant order)
    (first : (rowsOf state.tables.ips order).find? (fun (_, address) => !address.atCap) =
      some (id, address)) : Grants pools state p tenant order id address := by
  obtain ⟨opened, begun, lone⟩ := lone_select idle inside ordered
  obtain ⟨read, locked, lone⟩ := lone.locks
  obtain ⟨final, leased, told⟩ := lone.leases (mem_rowsOf.mp (mem_of_find?_eq_some first)).2
    first
  refine ⟨final, ?_, told⟩
  rw [loneCall, run_cons]
  refine ⟨opened, begun, ?_⟩
  rw [run_append, locked]
  exact leased

theorem lone_foremost (idle : ∀ proc ∈ state.procs, proc = .idle)
    (inside : p < state.procs.length) (ordered : Ordered pools state.tables.ips tenant order)
    (some_ : ∃ id address, Open pools state.tables.ips tenant id address) :
    ∃ id address, Grants pools state p tenant order id address ∧
      Foremost pools state.tables.ips tenant id address := by
  obtain ⟨other, version, isOpen⟩ := some_
  obtain ⟨⟨id, address⟩, first⟩ : ∃ row, (rowsOf state.tables.ips order).find?
      (fun (_, address) => !address.atCap) = some row := by
    apply Option.isSome_iff_exists.mp
    rw [find?_isSome]
    refine ⟨(other, version), mem_rowsOf.mpr ⟨?_, isOpen.found⟩, by simp [isOpen.below]⟩
    exact ordered.perm.mem_iff.mpr (mem_candidates.mpr ⟨version, isOpen.found, isOpen.eligible⟩)
  exact ⟨id, address, lone_call idle inside ordered first, first_foremost ordered first⟩

/-- The trace of a call tells which address it leased. -/
theorem Grants.unique {version : Address} (grants : Grants pools state p tenant order id address)
    (again : Grants pools state p tenant order other version) : id = other := by
  obtain ⟨final, ran, told⟩ := grants
  obtain ⟨_, ran', told'⟩ := again
  cases ran.symm.trans ran'
  have same := append_cancel_left (told.symm.trans told')
  simp only [Address.leased, List.cons.injEq, Event.granted.injEq, LeasedIP.mk.injEq] at same
  exact same.1.2.1

end Alone

/-- From any reachable state: a call that refuses a tenant has found every address of the tenant
that it did not pass over at its cap, at the moment when it refuses. A call that runs alone while an
address is open leases one, from a dedicated pool if one of those is open; it follows the rule in
every order that the ORDER BY allows exactly if what has sent least has most left. -/
theorem source_choice (pools : Pools) (tables : Tables) (count p tenant : Nat) (order : List Nat)
    (before : List (Nat × Label)) (state : State)
    (reached : run (step pools) (initial tables count) before = some state) :
    (∀ during opened last final,
      step pools state (p, .select tenant order) = some opened →
      run (step pools) opened during = some last →
      step pools last (p, .choose) = some final →
      final.trace = last.trace ++ [.noSourceIP tenant] →
      ∀ (id : Nat) address, last.tables.ips[id]? = some address →
        address.eligible pools tenant = true → Meets (step pools) (Reads p id) opened during →
          address.atCap = true) ∧
    ((∀ proc ∈ state.procs, proc = .idle) → p < state.procs.length →
      Ordered pools state.tables.ips tenant order →
      (∃ id address, Open pools state.tables.ips tenant id address) →
      (∃ id address, Grants pools state p tenant order id address ∧
        Foremost pools state.tables.ips tenant id address) ∧
      ((∀ order, Ordered pools state.tables.ips tenant order →
          ∃ id address, Grants pools state p tenant order id address ∧
            Follows pools state.tables.ips tenant id address) ↔
        LeastHasMost pools state.tables.ips tenant)) := by
  constructor
  · intro during opened last final begun read refused told id address found eligible reads
    exact refused_atCap (run_protected reached).1 begun read refused told reads found eligible
  · intro idle inside ordered some_
    refine ⟨lone_foremost idle inside ordered some_, ?_, ?_⟩
    · intro follow id address foremost
      obtain ⟨order, ordered, first⟩ := foremost_first ordered foremost
      obtain ⟨other, version, granted, follows⟩ := follow order ordered
      obtain rfl := (lone_call idle inside ordered first).unique granted
      cases foremost.chosen.found.symm.trans follows.chosen.found
      exact follows.headroom
    · intro most order ordered
      obtain ⟨id, address, granted, foremost⟩ := lone_foremost idle inside ordered some_
      exact ⟨id, address, granted, foremost.chosen, foremost.dedicated, most id address foremost⟩

/-- A dedicated pool and a shared one, both assigned to tenant 1. -/
def twoPools : Pools where
  purpose pool := if pool = 0 then some .dedicated else some .shared
  assigned _ pool := some (pool == 0)

/-- An uncapped address of the dedicated pool, and two of the shared one with caps of their own. -/
def mixed : Tables :=
  { ips := [{ pool := 0, ip := "192.0.2.1", stage := 99, sentToday := 3 },
      { pool := 1, ip := "192.0.2.2", dailyCap := 5 },
      { pool := 1, ip := "192.0.2.3", dailyCap := 7 }] }

/-- The caps of the shared addresses do not matter while the dedicated one is open. -/
theorem source_choice_mixed : LeastHasMost twoPools mixed.ips 1 ∧
    ∃ id address, Grants twoPools (initial mixed 2) 1 1 [0, 1, 2] id address ∧
      Follows twoPools mixed.ips 1 id address := by
  have first : Open twoPools mixed.ips 1 0 _ := ⟨rfl, rfl, rfl⟩
  have only : ∀ id version, Open twoPools mixed.ips 1 id version →
      version.dedicated twoPools 1 = true → mixed.ips[0]? = some version := by
    rintro (_ | _ | _ | id) version ⟨found, _, _⟩ dedicated
    · exact found
    · cases found
      cases dedicated
    · cases found
      cases dedicated
    · cases found
  have ordered : Ordered twoPools mixed.ips 1 [0, 1, 2] := ⟨by decide, by decide⟩
  refine and_iff_left_of_imp (fun most => ((source_choice twoPools mixed 2 1 1 [0, 1, 2] [] _ rfl).2
    (fun proc member => eq_of_mem_replicate member) (by decide) ordered
    ⟨0, _, first⟩).2.mpr most _ ordered) |>.mpr ?_
  intro id address foremost other version isOpen kind
  have dedicated := foremost.dedicated 0 _ first rfl
  rw [dedicated] at kind
  have same := (only other version isOpen kind).symm.trans
    (only id address foremost.chosen dedicated)
  rw [Option.some.inj same]

/-- An address at the first stage of its warmup and one at the second. -/
def warming : Tables :=
  { ips := [{ pool := 0, ip := "192.0.2.1" },
      { pool := 0, ip := "192.0.2.2", stage := 1, sentToday := 10 }] }

/-- A tenant is refused while its only address, below its cap all the time, is being leased; and
an address with 50 left is preferred to one with 90 left. -/
theorem source_choice_departs :
    ((run (step onePool) (initial oneAddress 2) (leasing 0 ++ leasing 1)).map State.trace =
        some [.noSourceIP 1] ∧
      ∀ n ≤ 6, ∃ state address, run (step onePool) (initial oneAddress 2)
          ((leasing 0 ++ leasing 1).take n) = some state ∧
        Open onePool state.tables.ips 1 0 address) ∧
    (run (step onePool) (initial warming 1) (loneCall 0 1 [0, 1])).map State.trace =
        some [.granted 1 ⟨0, "192.0.2.1", ""⟩] ∧
      ¬ ∃ address, Follows onePool warming.ips 1 0 address := by
  refine ⟨⟨by decide +kernel, ?_⟩, by decide +kernel, ?_⟩
  · have below : ∀ n ≤ 6, (run (step onePool) (initial oneAddress 2)
        ((leasing 0 ++ leasing 1).take n)).map State.tables = some oneAddress := by
      decide +kernel
    intro n early
    obtain ⟨state, reached, same⟩ := Option.map_eq_some_iff.mp (below n early)
    refine ⟨state, { pool := 0, ip := "192.0.2.1", dailyCap := 1 }, reached, ?_, rfl, rfl⟩
    rw [same]
    rfl
  · rintro ⟨address, follows⟩
    cases follows.chosen.found.symm.trans rfl
    have less := follows.headroom 1 _ ⟨rfl, by decide, by decide⟩ rfl
    revert less
    decide

end OctoMail.Deliverability
