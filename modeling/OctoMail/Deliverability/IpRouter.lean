import Mathlib.Data.List.Perm.Basic
import Mathlib.Tactic.Common
import OctoMail.RowLocks
import OctoMail.Transition

/-!
# Source addresses and their daily caps

`mailflow/deliverability/iprouter.go`. `LeaseSourceIP` reads the addresses of a tenant's
pools with FOR UPDATE SKIP LOCKED: they are found and ordered in the snapshot of the
statement, and then locked one by one, where an address that another transaction has
locked is passed over and the others are read and tested again as they are by then. The
first that is not at its cap is counted by a second statement.

`RunDailyMaintenance` claims the day in the marker row, raises the addresses that reached
the cap of their stage and sets all counters to zero, in one transaction of three
statements. A statement that writes finds its rows in a snapshot of its own and waits for
each row that is locked, and then tests it again.

Every step is one row of one statement, so transactions of any number of processes
interleave in every way that the locks allow. A transaction may end without a commit at
any point, and a commit may go unreported. Which of two equal addresses comes first and
the order in which a writing statement visits its rows are left open. Pools and
assignments do not change. The network mask that `ip::text` shows is left out.
-/

namespace OctoMail.Deliverability

open List Transition RowLocks

/-! ### The tables -/

/-- Messages a day, by warmup stage. -/
def warmupCaps : List Int := [50, 100, 500, 1000, 5000, 10000, 20000, 50000, 100000]

/-- A stage below zero counts as zero, and past the table there is no cap, written 0. -/
def warmupCapForStage (stage : Int) : Int := warmupCaps.getD stage.toNat 0

def effectiveCap (explicit warmup : Int) : Int :=
  if explicit = 0 then warmup
  else if warmup = 0 then explicit
  else if explicit < warmup then explicit
  else warmup

inductive Purpose where
  | shared
  | dedicated
  | warmup
  | penalty
deriving DecidableEq, Repr

/-- `ip_pools` and `tenant_ip_assignment`: the purpose of a pool, and whether a pool that is
assigned to a tenant is dedicated. -/
structure Pools where
  purpose : Nat → Option Purpose
  assigned : Nat → Nat → Option Bool

/-- A row of `ip_addresses`; its number is its place. -/
structure Address where
  pool : Nat
  ip : String
  ptr : Option String := none
  stage : Int := 0
  dailyCap : Int := 0
  sentToday : Nat := 0
deriving DecidableEq, Repr

structure LeasedIP where
  id : Nat
  ip : String
  ptr : String
deriving DecidableEq, Repr

namespace Address

def cap (address : Address) : Int :=
  effectiveCap address.dailyCap (warmupCapForStage address.stage)

def atCap (address : Address) : Bool :=
  decide (address.cap ≠ 0) && decide (address.cap ≤ address.sentToday)

/-- `advanceWarmupDue`: the cap of the stage was reached. A stage outside the table has no
cap to reach. -/
def due (address : Address) : Bool :=
  decide (0 ≤ address.stage) &&
    (warmupCaps[address.stage.toNat]?).any (fun cap => decide (cap ≤ (address.sentToday : Int)))

/-- The pool of the address is assigned to the tenant and is no penalty pool. -/
def eligible (pools : Pools) (tenant : Nat) (address : Address) : Bool :=
  (pools.assigned tenant address.pool).isSome &&
    (pools.purpose address.pool).any (fun purpose => decide (purpose ≠ .penalty))

def leased (address : Address) (id : Nat) : LeasedIP := ⟨id, address.ip, address.ptr.getD ""⟩

def charged (address : Address) : Address := { address with sentToday := address.sentToday + 1 }

def raised (address : Address) : Address := { address with stage := address.stage + 1 }

def zeroed (address : Address) : Address := { address with sentToday := 0 }

end Address

structure Tables where
  ips : List Address
  /-- The day in `maintenance_marker`. -/
  lastRun : Option Int := none
deriving DecidableEq, Repr

/-- Row versions that a transaction has written, the latest first. -/
abbrev Writes := List (Nat × Address)

def install (writes : Writes) (ips : List Address) : List Address :=
  ips.mapIdx (fun id address => (writes.lookup id).getD address)

/-- The day is after the day of the marker. -/
def behind (lastRun : Option Int) (day : Int) : Bool :=
  lastRun.all (fun last => decide (last < day))

/-- The addresses that a tenant may be given, by number. -/
def candidates (pools : Pools) (ips : List Address) (tenant : Nat) : List Nat :=
  (List.range ips.length).filter (fun id => ips[id]?.any (·.eligible pools tenant))

/-- ORDER BY dedicated DESC, sent_today ASC. -/
def precedes (pools : Pools) (ips : List Address) (tenant one other : Nat) : Bool :=
  match ips[one]?, ips[other]? with
  | some first, some second =>
      let dedicated := (pools.assigned tenant first.pool).getD false
      let alsoDedicated := (pools.assigned tenant second.pool).getD false
      (dedicated && !alsoDedicated) ||
        (dedicated == alsoDedicated && decide (first.sentToday ≤ second.sentToday))
  | _, _ => false

/-! ### The transactions -/

inductive Key where
  | marker
  | ip (id : Nat)
deriving DecidableEq, Repr

/-- A process between two steps of a transaction. -/
inductive Proc where
  | idle
  /-- The SELECT of a lease: rows to visit, rows locked, and candidates read. -/
  | selecting (tenant : Nat) (todo locked : List Nat) (found : List (Nat × Address))
  | chosen (tenant : Nat) (locked : List Nat) (lease : LeasedIP)
  | charging (tenant : Nat) (locked : List Nat) (lease : LeasedIP) (version : Address)
  /-- A maintenance whose transaction began on a day. -/
  | started (day : Int)
  | declined (day : Int)
  | claimed (day : Int)
  | advancing (day : Int) (todo locked : List Nat) (writes : Writes)
  | resetting (day : Int) (todo locked : List Nat) (writes : Writes) (advanced : Nat)
deriving DecidableEq, Repr

def Proc.locks : Proc → List Key
  | .idle => []
  | .selecting _ _ locked _ => locked.map .ip
  | .chosen _ locked _ => locked.map .ip
  | .charging _ locked _ _ => locked.map .ip
  | .started _ => []
  | .declined _ => [.marker]
  | .claimed _ => [.marker]
  | .advancing _ _ locked _ => .marker :: locked.map .ip
  | .resetting _ _ locked _ _ => .marker :: locked.map .ip

inductive Event where
  | granted (tenant : Nat) (lease : LeasedIP)
  | noSourceIP (tenant : Nat)
  /-- A maintenance took effect. -/
  | maintained (day : Int) (advanced : Nat)
  | alreadyRan (day : Int)
deriving DecidableEq, Repr

structure State where
  tables : Tables
  procs : List Proc
  trace : List Event := []
deriving DecidableEq, Repr

def initial (tables : Tables) (count : Nat) : State :=
  { tables := tables, procs := List.replicate count .idle }

/-- What a process does next. -/
inductive Label where
  | select (tenant : Nat) (order : List Nat)
  | lock
  | choose
  | charge
  | finish (outcome : Outcome)
  | start (day : Int)
  | claim
  | decline
  | advance
  | raise (id : Nat)
  | reset
  | zero (id : Nat)
  | commit (outcome : Outcome)
  | stop
deriving DecidableEq, Repr

/-- What a step of a process leaves. -/
structure Move where
  proc : Proc
  tables : Tables
  events : List Event := []
deriving DecidableEq, Repr

section Step

variable (pools : Pools)

/-- `LeaseSourceIP`. -/
def leaseMove (tables : Tables) (isFree : Key → Bool) : Proc → Label → Option Move
  | .idle, .select tenant order =>
      if order.Perm (candidates pools tables.ips tenant) ∧
          order.Pairwise (fun one other => precedes pools tables.ips tenant one other = true) then
        some ⟨.selecting tenant order [] [], tables, []⟩
      else none
  | .selecting tenant (id :: todo) locked found, .lock =>
      if isFree (.ip id) then
        tables.ips[id]?.map (fun address =>
          ⟨.selecting tenant todo (id :: locked)
            (if address.eligible pools tenant then found ++ [(id, address)] else found),
            tables, []⟩)
      else some ⟨.selecting tenant todo locked found, tables, []⟩
  | .selecting tenant [] locked found, .choose =>
      match found.find? (fun (_, address) => !address.atCap) with
      | none => some ⟨.idle, tables, [.noSourceIP tenant]⟩
      | some (id, address) => some ⟨.chosen tenant locked (address.leased id), tables, []⟩
  | .chosen tenant locked lease, .charge =>
      tables.ips[lease.id]?.map (fun address =>
        ⟨.charging tenant locked lease address.charged, tables, []⟩)
  | .charging tenant _ lease version, .finish outcome =>
      let after := { tables with ips := install [(lease.id, version)] tables.ips }
      match outcome with
      | .committed => some ⟨.idle, after, [.granted tenant lease]⟩
      | .failed => some ⟨.idle, tables, []⟩
      | .unreported => some ⟨.idle, after, []⟩
  | _, _ => none

/-- `RunDailyMaintenance`. -/
def maintenanceMove (tables : Tables) (isFree : Key → Bool) : Proc → Label → Option Move
  | .idle, .start day => some ⟨.started day, tables, []⟩
  | .started day, .claim =>
      if isFree .marker then
        some ⟨if behind tables.lastRun day then .claimed day else .declined day, tables, []⟩
      else none
  | .declined day, .decline => some ⟨.idle, tables, [.alreadyRan day]⟩
  | .claimed day, .advance =>
      let dueIds := (List.range tables.ips.length).filter (fun id => tables.ips[id]?.any (·.due))
      some ⟨.advancing day dueIds [] [], tables, []⟩
  | .advancing day todo locked writes, .raise id =>
      if id ∈ todo ∧ isFree (.ip id) = true then
        tables.ips[id]?.map (fun address =>
          ⟨.advancing day (todo.erase id) (id :: locked)
            (if address.due then (id, address.raised) :: writes else writes), tables, []⟩)
      else none
  | .advancing day [] locked writes, .reset =>
      some ⟨.resetting day (List.range tables.ips.length) locked writes writes.length, tables, []⟩
  | .resetting day todo locked writes advanced, .zero id =>
      if id ∈ todo ∧ isFree (.ip id) = true then
        ((writes.lookup id).or tables.ips[id]?).map (fun version =>
          ⟨.resetting day (todo.erase id) (id :: locked) ((id, version.zeroed) :: writes) advanced,
            tables, []⟩)
      else none
  | .resetting day [] _ writes advanced, .commit outcome =>
      match outcome with
      | .failed => some ⟨.idle, tables, []⟩
      | _ => some ⟨.idle, ⟨install writes tables.ips, some day⟩, [.maintained day advanced]⟩
  | _, _ => none

/-- A process may stop at any point: its transaction is rolled back. -/
def moveOf (tables : Tables) (isFree : Key → Bool) (proc : Proc) (label : Label) : Option Move :=
  if label = .stop then some ⟨.idle, tables, []⟩
  else (leaseMove pools tables isFree proc label).or (maintenanceMove tables isFree proc label)

/-- One step of one process. -/
def step (state : State) (label : Nat × Label) : Option State := do
  let (p, act) := label
  let proc ← state.procs[p]?
  let move ← moveOf pools state.tables (free Proc.locks state.procs p) proc act
  pure ⟨move.tables, state.procs.set p move.proc, state.trace ++ move.events⟩

end Step

/-! ### What a process knows -/

/-- A version that a maintenance has written of an address. -/
structure Maintains (address version : Address) : Prop where
  same : version = { address with stage := version.stage, sentToday := version.sentToday }
  stage : version.stage = address.stage ∨
    version.stage = address.stage + 1 ∧ address.due = true

/-- An address that a tenant may be given, as it is leased. -/
structure Leasable (pools : Pools) (tables : Tables) (tenant : Nat) (lease : LeasedIP)
    (address : Address) : Prop where
  found : tables.ips[lease.id]? = some address
  eligible : address.eligible pools tenant = true
  below : address.atCap = false
  leased : lease = address.leased lease.id

def Written (tables : Tables) (locked : List Nat) (writes : Writes) : Prop :=
  ∀ id version, (id, version) ∈ writes →
    id ∈ locked ∧ ∃ address, tables.ips[id]? = some address ∧ Maintains address version

def Proc.Knows (pools : Pools) (tables : Tables) : Proc → Prop
  | .idle => True
  | .selecting tenant _ locked found => ∀ id address, (id, address) ∈ found →
      id ∈ locked ∧ tables.ips[id]? = some address ∧ address.eligible pools tenant = true
  | .chosen tenant locked lease =>
      lease.id ∈ locked ∧ ∃ address, Leasable pools tables tenant lease address
  | .charging tenant locked lease version =>
      lease.id ∈ locked ∧
        ∃ address, Leasable pools tables tenant lease address ∧ version = address.charged
  | .started _ => True
  | .declined _ => True
  | .claimed day => behind tables.lastRun day = true
  | .advancing day _ locked writes =>
      behind tables.lastRun day = true ∧ Written tables locked writes
  | .resetting day _ locked writes _ =>
      behind tables.lastRun day = true ∧ Written tables locked writes

def Key.Same (before after : Tables) : Key → Prop
  | .marker => after.lastRun = before.lastRun
  | .ip id => after.ips[id]? = before.ips[id]?

variable {after before : Tables} {writes : Writes} {address version : Address} {lease : LeasedIP}
  {pools : Pools} {tenant id : Nat} {events : List Event} {label : Label} {move : Move}
  {next state : State}

theorem written_framed {locked : List Nat} (same : ∀ id ∈ locked, after.ips[id]? = before.ips[id]?)
    (written : Written before locked writes) : Written after locked writes := by
  intro id version wrote
  obtain ⟨held, address, found, maintains⟩ := written id version wrote
  exact ⟨held, address, (same id held).trans found, maintains⟩

theorem Leasable.framed (same : after.ips[lease.id]? = before.ips[lease.id]?)
    (leasable : Leasable pools before tenant lease address) :
    Leasable pools after tenant lease address :=
  ⟨same.trans leasable.found, leasable.eligible, leasable.below, leasable.leased⟩

theorem knows_framed {proc : Proc} (same : ∀ key ∈ proc.locks, key.Same before after)
    (knows : proc.Knows pools before) : proc.Knows pools after := by
  have rows {locked : List Nat} (within : ∀ key ∈ locked.map Key.ip, key ∈ proc.locks) (id : Nat)
      (held : id ∈ locked) : after.ips[id]? = before.ips[id]? :=
    same (.ip id) (within _ (mem_map_of_mem held))
  cases proc with
  | idle => trivial
  | selecting =>
    intro id address read
    obtain ⟨held, current, may⟩ := knows id address read
    exact ⟨held, (rows (fun _ here => here) id held).trans current, may⟩
  | chosen =>
    obtain ⟨held, address, leasable⟩ := knows
    exact ⟨held, address, leasable.framed (rows (fun _ here => here) _ held)⟩
  | charging =>
    obtain ⟨held, address, leasable, rfl⟩ := knows
    exact ⟨held, address, leasable.framed (rows (fun _ here => here) _ held), rfl⟩
  | started | declined => trivial
  | claimed day =>
    have marker : after.lastRun = before.lastRun := same .marker (mem_singleton_self _)
    exact (congrArg (behind · day) marker).trans knows
  | advancing day | resetting day =>
    have marker : after.lastRun = before.lastRun := same .marker mem_cons_self
    exact ⟨(congrArg (behind · day) marker).trans knows.1,
      written_framed (rows fun _ => mem_cons_of_mem _) knows.2⟩

/-- How the transactions keep to the locks. -/
def discipline (pools : Pools) : Discipline Proc Key Tables where
  locks := Proc.locks
  knows tables proc := proc.Knows pools tables
  same before after key := key.Same before after
  framed := knows_framed

/-! ### What a step changes -/

theorem install_get (writes : Writes) (ips : List Address) (id : Nat) :
    (install writes ips)[id]? = ips[id]?.map (fun address => (writes.lookup id).getD address) :=
  getElem?_mapIdx

theorem install_unwritten {ips : List Address}
    (unwritten : writes.lookup id = none) : (install writes ips)[id]? = ips[id]? := by
  rw [install_get, unwritten]
  exact Option.map_id'

theorem mem_of_lookup (found : writes.lookup id = some version) : (id, version) ∈ writes := by
  obtain ⟨earlier, later, rfl, -⟩ := lookup_eq_some_iff.mp found
  exact mem_append_right _ mem_cons_self

/-- An event that tells neither of a lease nor of a maintenance that took effect. -/
def Event.quiet : Event → Bool
  | .granted _ _ => false
  | .maintained _ _ => false
  | _ => true

/-- What a step does to the tables, and what it tells. -/
inductive Change (pools : Pools) (before : Tables) : Tables → List Event → Prop where
  | quiet (events : List Event) (told : ∀ event ∈ events, event.quiet = true) :
      Change pools before before events
  | leased (tenant : Nat) (lease : LeasedIP) (address : Address) (events : List Event)
      (leasable : Leasable pools before tenant lease address)
      (told : events = [] ∨ events = [.granted tenant lease]) :
      Change pools before
        { before with ips := install [(lease.id, address.charged)] before.ips } events
  | maintained (day : Int) (advanced : Nat) (writes : Writes)
      (ahead : behind before.lastRun day = true)
      (written : ∀ id version, writes.lookup id = some version →
        ∃ address, before.ips[id]? = some address ∧ Maintains address version) :
      Change pools before ⟨install writes before.ips, some day⟩ [.maintained day advanced]

/-- A move keeps to the locks, knows only what is true, and changes the tables as said. -/
structure Sound (pools : Pools) (tables : Tables) (isFree : Key → Bool) (proc : Proc)
    (move : Move) : Prop where
  takes : ∀ key ∈ move.proc.locks, key ∈ proc.locks ∨ isFree key = true
  writes : ∀ key, key ∉ proc.locks → key.Same tables move.tables
  knows : move.proc.Knows pools move.tables
  change : Change pools tables move.tables move.events

section Moves

variable {pools : Pools} {tables : Tables} {isFree : Key → Bool} {proc new : Proc}

theorem same_self (key : Key) : key.Same tables tables := by
  cases key <;> rfl

/-- A step that writes nothing. -/
theorem sound_reading (told : ∀ event ∈ events, event.quiet = true)
    (takes : ∀ key ∈ new.locks, key ∈ proc.locks ∨ isFree key = true)
    (knows : new.Knows pools tables) : Sound pools tables isFree proc ⟨new, tables, events⟩ :=
  ⟨takes, fun key _ => same_self key, knows, .quiet events told⟩

/-- A transaction ends without a write. -/
theorem sound_idle (told : ∀ event ∈ events, event.quiet = true) :
    Sound pools tables isFree proc ⟨.idle, tables, events⟩ :=
  sound_reading told (fun _ held => nomatch held) trivial

/-- One more row is locked. -/
theorem takes_row {locked : List Nat} (isFree_ : isFree (.ip id) = true) (key : Key)
    (held : key ∈ (id :: locked).map Key.ip) : key ∈ locked.map Key.ip ∨ isFree key = true := by
  rw [map_cons, mem_cons] at held
  rcases held with rfl | held
  · exact .inr isFree_
  · exact .inl held

theorem takes_none (same : new.locks = proc.locks) (key : Key) (held : key ∈ new.locks) :
    key ∈ proc.locks ∨ isFree key = true :=
  .inl (same ▸ held)

theorem quiet_nil (event : Event) (said : event ∈ []) : event.quiet = true := nomatch said

theorem leaseMove_sound (knows : proc.Knows pools tables)
    (moved : leaseMove pools tables isFree proc label = some move) :
    Sound pools tables isFree proc move := by
  unfold leaseMove at moved
  split at moved
  · split at moved
    · cases moved
      exact sound_reading quiet_nil (fun _ held => nomatch held) (fun _ _ read => nomatch read)
    · cases moved
  · rename_i tenant id todo locked found
    split at moved
    case isTrue isFree_ =>
      obtain ⟨address, current, rfl⟩ := Option.map_eq_some_iff.mp moved
      refine sound_reading quiet_nil (takes_row isFree_) ?_
      intro other version read
      split at read
      case isTrue may =>
        rcases mem_append.mp read with read | read
        · obtain ⟨held, rest⟩ := knows other version read
          exact ⟨mem_cons_of_mem _ held, rest⟩
        · cases mem_singleton.mp read
          exact ⟨mem_cons_self, current, may⟩
      case isFalse =>
        obtain ⟨held, rest⟩ := knows other version read
        exact ⟨mem_cons_of_mem _ held, rest⟩
    case isFalse =>
      cases moved
      exact sound_reading quiet_nil (takes_none rfl) knows
  · rename_i tenant locked found
    split at moved
    · cases moved
      exact sound_idle (forall_mem_singleton.mpr rfl)
    rename_i id address chosen
    cases moved
    obtain ⟨held, current, may⟩ := knows id address (mem_of_find?_eq_some chosen)
    have below := find?_some chosen
    rw [Bool.not_eq_true'] at below
    exact sound_reading quiet_nil (takes_none rfl) ⟨held, address, current, may, below, rfl⟩
  · rename_i tenant locked lease
    obtain ⟨address, current, rfl⟩ := Option.map_eq_some_iff.mp moved
    obtain ⟨held, known, leasable⟩ := knows
    have same : address = known := Option.some.inj (current.symm.trans leasable.found)
    exact sound_reading quiet_nil (takes_none rfl) ⟨held, known, leasable, by rw [same]⟩
  · rename_i tenant locked lease version outcome
    obtain ⟨held, address, leasable, rfl⟩ := knows
    have commits (events : List Event) (told : events = [] ∨ events = [.granted tenant lease]) :
        Sound pools tables isFree (.charging tenant locked lease address.charged)
          ⟨.idle, { tables with ips := install [(lease.id, address.charged)] tables.ips },
            events⟩ := by
      refine ⟨(fun _ held => nomatch held), fun key unheld => ?_, trivial,
        .leased tenant lease address events leasable told⟩
      cases key with
      | marker => rfl
      | ip id =>
        have apart : id ≠ lease.id := by
          rintro rfl
          exact unheld (mem_map_of_mem held)
        refine install_unwritten ?_
        rw [lookup_cons, beq_false_of_ne apart]
        rfl
    cases outcome <;> cases moved
    · exact commits _ (.inr rfl)
    · exact sound_idle quiet_nil
    · exact commits _ (.inl rfl)
  · cases moved

theorem maintains_self (address : Address) : Maintains address address := ⟨rfl, .inl rfl⟩

theorem maintains_raised (due : address.due = true) :
    Maintains address address.raised := ⟨rfl, .inr ⟨rfl, due⟩⟩

theorem maintains_zeroed (maintains : Maintains address version) :
    Maintains address version.zeroed := by
  refine ⟨?_, maintains.stage⟩
  rw [Address.zeroed, maintains.same]

theorem Written.cons {locked : List Nat} (written : Written tables locked writes)
    (current : tables.ips[id]? = some address) (maintains : Maintains address version) :
    Written tables (id :: locked) ((id, version) :: writes) := by
  intro other written_ wrote
  rcases mem_cons.mp wrote with same | wrote
  · cases same
    exact ⟨mem_cons_self, address, current, maintains⟩
  · obtain ⟨held, rest⟩ := written other written_ wrote
    exact ⟨mem_cons_of_mem _ held, rest⟩

theorem Written.locked {locked : List Nat} (id : Nat)
    (written : Written tables locked writes) : Written tables (id :: locked) writes := by
  intro other version wrote
  obtain ⟨held, rest⟩ := written other version wrote
  exact ⟨mem_cons_of_mem _ held, rest⟩

/-- One more row is locked beside the marker. -/
theorem takes_marked {locked : List Nat} (isFree_ : isFree (.ip id) = true) (key : Key)
    (held : key ∈ Key.marker :: (id :: locked).map Key.ip) :
    key ∈ Key.marker :: locked.map Key.ip ∨ isFree key = true := by
  rcases mem_cons.mp held with rfl | held
  · exact .inl mem_cons_self
  · exact (takes_row isFree_ key held).imp_left (mem_cons_of_mem _)

theorem maintenanceMove_sound (knows : proc.Knows pools tables)
    (moved : maintenanceMove tables isFree proc label = some move) :
    Sound pools tables isFree proc move := by
  unfold maintenanceMove at moved
  split at moved
  · cases moved
    exact sound_reading quiet_nil (fun _ held => nomatch held) trivial
  · rename_i day
    split at moved
    case isTrue isFree_ =>
      cases moved
      have takes (key : Key) (held : key ∈ [Key.marker]) :
          key ∈ (Proc.started day).locks ∨ isFree key = true := by
        cases mem_singleton.mp held
        exact .inr isFree_
      cases ahead : behind tables.lastRun day with
      | true => exact sound_reading quiet_nil takes ahead
      | false => exact sound_reading quiet_nil takes trivial
    case isFalse => cases moved
  · cases moved
    exact sound_idle (forall_mem_singleton.mpr rfl)
  · cases moved
    exact sound_reading quiet_nil (takes_none rfl) ⟨knows, fun _ _ wrote => nomatch wrote⟩
  · rename_i day todo locked writes id
    obtain ⟨ahead, written⟩ := knows
    split at moved
    case isTrue allowed =>
      obtain ⟨address, current, rfl⟩ := Option.map_eq_some_iff.mp moved
      refine sound_reading quiet_nil (takes_marked allowed.2) ⟨ahead, ?_⟩
      split
      case isTrue due => exact written.cons current (maintains_raised due)
      case isFalse => exact written.locked id
    case isFalse => cases moved
  · cases moved
    exact sound_reading quiet_nil (takes_none rfl) knows
  · rename_i day todo locked writes advanced id
    obtain ⟨ahead, written⟩ := knows
    split at moved
    case isTrue allowed =>
      obtain ⟨version, own, rfl⟩ := Option.map_eq_some_iff.mp moved
      refine sound_reading quiet_nil (takes_marked allowed.2) ⟨ahead, ?_⟩
      cases wrote : writes.lookup id with
      | none =>
        rw [wrote, Option.none_or] at own
        exact written.cons own (maintains_zeroed (maintains_self version))
      | some earlier =>
        rw [wrote, Option.some_or] at own
        cases own
        obtain ⟨-, address, current, maintains⟩ := written id version (mem_of_lookup wrote)
        exact written.cons current (maintains_zeroed maintains)
    case isFalse => cases moved
  · rename_i day locked writes advanced outcome
    obtain ⟨ahead, written⟩ := knows
    have commits : Sound pools tables isFree (.resetting day [] locked writes advanced)
        ⟨.idle, ⟨install writes tables.ips, some day⟩, [.maintained day advanced]⟩ := by
      refine ⟨(fun _ held => nomatch held), fun key unheld => ?_, trivial,
        .maintained day advanced writes ahead fun id version wrote =>
          (written id version (mem_of_lookup wrote)).2⟩
      cases key with
      | marker => exact absurd mem_cons_self unheld
      | ip id =>
        refine install_unwritten ?_
        cases wrote : writes.lookup id with
        | none => rfl
        | some version =>
          have held := (written id version (mem_of_lookup wrote)).1
          exact absurd (mem_cons_of_mem _ (mem_map_of_mem held)) unheld
    cases outcome <;> cases moved
    · exact commits
    · exact sound_idle quiet_nil
    · exact commits
  · cases moved

end Moves

theorem moveOf_sound {tables : Tables} {isFree : Key → Bool} {proc : Proc}
    (knows : proc.Knows pools tables) (moved : moveOf pools tables isFree proc label = some move) :
    Sound pools tables isFree proc move := by
  unfold moveOf at moved
  split at moved
  · cases moved
    exact sound_idle quiet_nil
  · rcases Option.or_eq_some_iff.mp moved with leases | ⟨-, maintains⟩
    · exact leaseMove_sound knows leases
    · exact maintenanceMove_sound knows maintains

/-- Every step keeps to the locks and changes the tables as said. -/
theorem step_change {label : Nat × Label}
    (protected_ : Protected (discipline pools) state.tables state.procs)
    (moved : step pools state label = some next) :
    Protected (discipline pools) next.tables next.procs ∧
      ∃ events, next.trace = state.trace ++ events ∧
        Change pools state.tables next.tables events := by
  obtain ⟨p, act⟩ := label
  simp only [step, Option.bind_eq_bind, Option.pure_def] at moved
  obtain ⟨proc, mine, moved⟩ := Option.bind_eq_some_iff.mp moved
  obtain ⟨move, made, done⟩ := Option.bind_eq_some_iff.mp moved
  cases done
  have sound := moveOf_sound (protected_.known mine) made
  exact ⟨protected_.move mine sound.takes sound.writes sound.knows, move.events, rfl, sound.change⟩

/-! ### One address -/

/-- How many leases of an address the events tell of. -/
def leasesOf (id : Nat) (events : List Event) : Nat :=
  events.countP fun
    | .granted _ lease => lease.id == id
    | _ => false

def Event.day : Event → Option Int
  | .maintained day _ => some day
  | _ => none

/-- What a step makes of one address. -/
inductive Turned (events : List Event) (id : Nat) (address version : Address) : Prop where
  | kept (same : version = address) (none_ : leasesOf id events = 0)
  | charged (same : version = address.charged) (below : address.atCap = false)
      (one : leasesOf id events ≤ 1) (silent : events.filterMap Event.day = [])
  | maintained (day : Int) (advanced : Nat) (told : events = [.maintained day advanced])
      (maintains : Maintains address version)

theorem leasesOf_quiet (told : ∀ event ∈ events, event.quiet = true)
    (id : Nat) : leasesOf id events = 0 := by
  refine countP_eq_zero.mpr fun event said => ?_
  have quiet := told event said
  cases event <;> simp [Event.quiet] at quiet ⊢

theorem days_quiet (told : ∀ event ∈ events, event.quiet = true) :
    events.filterMap Event.day = [] := by
  refine filterMap_eq_nil_iff.mpr fun event said => ?_
  have quiet := told event said
  cases event <;> simp [Event.quiet, Event.day] at quiet ⊢

theorem change_turned (change : Change pools before after events)
    (found : after.ips[id]? = some version) :
    ∃ address, before.ips[id]? = some address ∧ Turned events id address version := by
  cases change with
  | quiet _ told => exact ⟨version, found, .kept rfl (leasesOf_quiet told id)⟩
  | leased _ lease _ _ leasable told =>
    rw [install_get] at found
    obtain ⟨address, current, rfl⟩ := Option.map_eq_some_iff.mp found
    refine ⟨address, current, ?_⟩
    rw [lookup_cons]
    by_cases mine : id = lease.id
    · subst mine
      cases Option.some.inj (current.symm.trans leasable.found)
      rw [beq_self_eq_true]
      rcases told with rfl | rfl
      · exact .charged rfl leasable.below (Nat.zero_le 1) rfl
      · exact .charged rfl leasable.below countP_le_length rfl
    · rw [beq_false_of_ne mine]
      refine .kept rfl ?_
      rcases told with rfl | rfl
      · rfl
      · simp [leasesOf, Ne.symm mine]
  | maintained day advanced writes _ written =>
    rw [install_get] at found
    obtain ⟨address, current, rfl⟩ := Option.map_eq_some_iff.mp found
    refine ⟨address, current, .maintained day advanced rfl ?_⟩
    cases wrote : writes.lookup id with
    | none => exact maintains_self address
    | some version =>
      obtain ⟨same, current_, maintains⟩ := written id version wrote
      cases Option.some.inj (current.symm.trans current_)
      exact maintains

/-- An address at two moments with no maintenance in between, and the leases given of it in
the meantime. -/
structure Served (leases : Nat) (first last : Address) : Prop where
  same : last = { first with sentToday := last.sentToday }
  counted : first.sentToday + leases ≤ last.sentToday
  capped : 0 < leases → last.cap ≠ 0 → (last.sentToday : Int) ≤ last.cap

theorem served_self (address : Address) : Served 0 address address :=
  ⟨rfl, Nat.le_refl _, fun some_ => absurd some_ (Nat.lt_irrefl 0)⟩

theorem Served.charged {leases more : Nat} {first last : Address}
    (served : Served leases first last) (below : last.atCap = false) (one : more ≤ 1) :
    Served (leases + more) first last.charged := by
  refine ⟨?_, ?_, fun _ limited => ?_⟩
  · rw [Address.charged, served.same]
  · have counted := served.counted
    show first.sentToday + (leases + more) ≤ last.sentToday + 1
    omega
  · have limited_ : last.cap ≠ 0 := limited
    rw [Address.atCap, Bool.and_eq_false_iff, decide_eq_false_iff_not,
      decide_eq_false_iff_not] at below
    have less := below.resolve_left (fun unlimited => unlimited limited_)
    show ((last.sentToday + 1 : Nat) : Int) ≤ last.cap
    omega

/-- The leases are within the cap. -/
theorem Served.within {leases : Nat} {first last : Address} (served : Served leases first last)
    (limited : last.cap ≠ 0) : (leases : Int) ≤ max 0 last.cap := by
  have counted := served.counted
  rcases Nat.eq_zero_or_pos leases with none_ | some_
  · omega
  · have capped := served.capped some_ limited
    omega

/-! ### Runs -/

/-- What holds between a state and a later one. -/
def Between (before after : State) : Prop :=
  ∃ events, after.trace = before.trace ++ events ∧
    (events.filterMap Event.day = [] → ∀ id last, after.tables.ips[id]? = some last →
      ∃ first, before.tables.ips[id]? = some first ∧ Served (leasesOf id events) first last)

theorem between_step {before : State}
    (between : Between before state) (told : next.trace = state.trace ++ events)
    (change : Change pools state.tables next.tables events) : Between before next := by
  obtain ⟨earlier, trace, served⟩ := between
  refine ⟨earlier ++ events, ?_, fun silent id last found => ?_⟩
  · rw [told, trace, append_assoc]
  rw [filterMap_append, append_eq_nil_iff] at silent
  obtain ⟨middle, current, turned⟩ := change_turned change found
  obtain ⟨first, initially, served⟩ := served silent.1 id middle current
  refine ⟨first, initially, ?_⟩
  rw [leasesOf, countP_append]
  cases turned with
  | kept same none_ =>
    subst same
    rw [leasesOf] at none_
    rw [none_]
    exact served
  | charged same below one =>
    subst same
    exact served.charged below one
  | maintained _ _ said =>
    rw [said] at silent
    exact nomatch silent.2

/-- The address is one that the tenant may be given. -/
def Given (pools : Pools) (tables : Tables) (tenant : Nat) (lease : LeasedIP) : Prop :=
  ∃ address, tables.ips[lease.id]? = some address ∧
    address.eligible pools tenant = true ∧ lease = address.leased lease.id

/-- What the trace of a run tells is borne out by the tables. -/
structure Recorded (pools : Pools) (state : State) : Prop where
  days : (state.trace.filterMap Event.day).Pairwise (· < ·)
  marked : ∀ day ∈ state.trace.filterMap Event.day,
    ∃ last, state.tables.lastRun = some last ∧ day ≤ last
  given : ∀ tenant lease, .granted tenant lease ∈ state.trace →
    Given pools state.tables tenant lease

theorem Turned.same (turned : Turned events id address version) :
    version = { address with stage := version.stage, sentToday := version.sentToday } := by
  cases turned with
  | kept same => rw [same]
  | charged same => rw [same, Address.charged]
  | maintained _ _ _ maintains => exact maintains.same

/-- A stage goes up by one at most, and only in a maintenance that found its cap reached. -/
theorem Turned.stage (turned : Turned events id address version) :
    version.stage = address.stage ∨ version.stage = address.stage + 1 ∧ address.due = true ∧
      ∃ day advanced, events = [.maintained day advanced] := by
  cases turned with
  | kept same => exact .inl (congrArg Address.stage same)
  | charged same =>
    subst same
    exact .inl rfl
  | maintained day advanced told maintains =>
    exact maintains.stage.imp_right fun ⟨up, due⟩ => ⟨up, due, day, advanced, told⟩

theorem change_length
    (change : Change pools before after events) : after.ips.length = before.ips.length := by
  cases change with
  | quiet => rfl
  | leased | maintained => exact length_mapIdx

/-- No address is lost. -/
theorem change_forward (change : Change pools before after events)
    (found : before.ips[id]? = some address) :
    ∃ version, after.ips[id]? = some version ∧ Turned events id address version := by
  obtain ⟨inside, -⟩ := List.getElem?_eq_some_iff.mp found
  rw [← change_length change] at inside
  have here := List.getElem?_eq_getElem inside
  obtain ⟨address_, found_, turned⟩ := change_turned change here
  cases Option.some.inj (found.symm.trans found_)
  exact ⟨_, here, turned⟩

theorem Given.step (given : Given pools before tenant lease)
    (change : Change pools before after events) : Given pools after tenant lease := by
  obtain ⟨address, found, may, leased⟩ := given
  obtain ⟨version, current, turned⟩ := change_forward change found
  refine ⟨version, current, ?_, ?_⟩
  · rw [turned.same]
    exact may
  · rw [turned.same]
    exact leased

/-- Leases are given of addresses that the tenant may be given. -/
theorem change_given (change : Change pools before after events)
    (told : .granted tenant lease ∈ events) : Given pools before tenant lease := by
  cases change with
  | quiet _ quiet => exact nomatch quiet _ told
  | leased _ _ address _ leasable said =>
    rcases said with rfl | rfl
    · cases told
    · cases mem_singleton.mp told
      exact ⟨address, leasable.found, leasable.eligible, leasable.leased⟩
  | maintained => cases mem_singleton.mp told

/-- A step takes effect as a maintenance, on a day after the marker's, or leaves the marker. -/
theorem change_marker (change : Change pools before after events) :
    events.filterMap Event.day = [] ∧ after.lastRun = before.lastRun ∨
      ∃ day, events.filterMap Event.day = [day] ∧ after.lastRun = some day ∧
        ∀ last, before.lastRun = some last → last < day := by
  cases change with
  | quiet _ quiet => exact .inl ⟨days_quiet quiet, rfl⟩
  | leased _ _ _ _ _ said => rcases said with rfl | rfl <;> exact .inl ⟨rfl, rfl⟩
  | maintained day _ _ ahead =>
    refine .inr ⟨day, rfl, rfl, fun last is => ?_⟩
    rw [behind, is] at ahead
    exact of_decide_eq_true ahead

theorem recorded_step (recorded : Recorded pools state) (told : next.trace = state.trace ++ events)
    (change : Change pools state.tables next.tables events) : Recorded pools next := by
  obtain ⟨days, marked, given⟩ := recorded
  have given_ (tenant : Nat) (lease : LeasedIP) (said : .granted tenant lease ∈ next.trace) :
      Given pools next.tables tenant lease := by
    rw [told] at said
    rcases mem_append.mp said with earlier | now
    · exact (given tenant lease earlier).step change
    · exact (change_given change now).step change
  have split : next.trace.filterMap Event.day =
      state.trace.filterMap Event.day ++ events.filterMap Event.day := by
    rw [told, filterMap_append]
  rcases change_marker change with ⟨silent, unmarked⟩ | ⟨today, day, marker, ahead⟩
  · rw [silent, append_nil] at split
    refine ⟨split ▸ days, fun day said => ?_, given_⟩
    rw [unmarked]
    exact marked day (split ▸ said)
  · rw [day] at split
    have before (earlier : Int) (said : earlier ∈ state.trace.filterMap Event.day) :
        earlier < today := by
      obtain ⟨last, is, least⟩ := marked earlier said
      exact Int.lt_of_le_of_lt least (ahead last is)
    refine ⟨?_, fun earlier said => ⟨today, marker, ?_⟩, given_⟩
    · rw [split]
      refine pairwise_append.mpr
        ⟨days, pairwise_singleton _ _, fun earlier said _ now => ?_⟩
      cases mem_singleton.mp now
      exact before earlier said
    · rw [split] at said
      rcases mem_append.mp said with said | now
      · exact Int.le_of_lt (before earlier said)
      · exact Int.le_of_eq (mem_singleton.mp now)

theorem run_protected {tables : Tables} {count : Nat} {labels : List (Nat × Label)}
    (reached : run (step pools) (initial tables count) labels = some state) :
    Protected (discipline pools) state.tables state.procs ∧ Recorded pools state := by
  refine always
    (fun state => Protected (discipline pools) state.tables state.procs ∧ Recorded pools state)
    ?_ ⟨protected_replicate _ rfl trivial, ⟨.nil, ?_, ?_⟩⟩ reached
  · rintro before label next ⟨protected_, recorded⟩ moved
    obtain ⟨protected_, events, told, change⟩ := step_change protected_ moved
    exact ⟨protected_, recorded_step recorded told change⟩
  · intro day said
    cases said
  · intro tenant lease said
    cases said

theorem run_between {final : State} {labels : List (Nat × Label)}
    (protected_ : Protected (discipline pools) state.tables state.procs)
    (reached : run (step pools) state labels = some final) : Between state final := by
  refine (always
    (fun later => Protected (discipline pools) later.tables later.procs ∧ Between state later)
    ?_ ⟨protected_, [], (append_nil _).symm, fun _ id last found =>
      ⟨last, found, served_self last⟩⟩ reached).2
  rintro before label next ⟨protected_, between⟩ moved
  obtain ⟨protected_, events, told, change⟩ := step_change protected_ moved
  exact ⟨protected_, between_step between told change⟩

/-- From any reachable state on, for as long as no maintenance takes effect: an address keeps
its stage and its cap, and is leased no more often than its cap allows (a cap below zero allows
nothing). Days of maintenances that took effect increase. A step raises an address by one stage
at most, as a maintenance that takes effect, and if it had reached the cap of its stage. A
tenant is given only addresses of pools that are assigned to it and are no penalty pools. -/
theorem daily_caps_hold (pools : Pools) (tables : Tables) (count : Nat)
    (first second : List (Nat × Label)) (state final : State)
    (reached : run (step pools) (initial tables count) first = some state)
    (onwards : run (step pools) state second = some final) :
    (∃ events, final.trace = state.trace ++ events ∧
      (events.filterMap Event.day = [] →
        ∀ (id : Nat) last, final.tables.ips[id]? = some last →
          (∃ address, state.tables.ips[id]? = some address ∧ address.stage = last.stage ∧
            address.dailyCap = last.dailyCap) ∧
          (last.cap ≠ 0 → (leasesOf id events : Int) ≤ max 0 last.cap))) ∧
    (final.trace.filterMap Event.day).Pairwise (· < ·) ∧
    (∀ label next, step pools final label = some next →
      ∀ (id : Nat) version, next.tables.ips[id]? = some version →
        ∃ address, final.tables.ips[id]? = some address ∧
          (version.stage = address.stage ∨
            version.stage = address.stage + 1 ∧ address.due = true ∧
              ∃ day advanced, next.trace = final.trace ++ [.maintained day advanced])) ∧
    (∀ tenant lease, .granted tenant lease ∈ final.trace →
      Given pools final.tables tenant lease) := by
  have whole : run (step pools) (initial tables count) (first ++ second) = some final := by
    rw [run_append, reached]
    exact onwards
  obtain ⟨protected_, recorded⟩ := run_protected whole
  obtain ⟨events, trace, served⟩ := run_between (run_protected reached).1 onwards
  refine ⟨⟨events, trace, fun silent id last found => ?_⟩, recorded.days, ?_, recorded.given⟩
  · obtain ⟨address, initially, served⟩ := served silent id last found
    refine ⟨⟨address, initially, ?_, ?_⟩, served.within⟩
    · rw [served.same]
    · rw [served.same]
  · intro label next moved id version found
    obtain ⟨_, events, told, change⟩ := step_change protected_ moved
    obtain ⟨address, current, turned⟩ := change_turned change found
    refine ⟨address, current, turned.stage.imp_right fun ⟨up, due, day, advanced, said⟩ => ?_⟩
    exact ⟨up, due, day, advanced, by rw [told, said]⟩

/-- One pool, dedicated to tenant 1. -/
def onePool : Pools where
  purpose pool := if pool = 0 then some .dedicated else none
  assigned tenant pool := if tenant = 1 ∧ pool = 0 then some true else none

def oneAddress : Tables := { ips := [{ pool := 0, ip := "192.0.2.1", dailyCap := 1 }] }

/-- A lease that a process makes alone, up to its second statement. -/
def leasing (p : Nat) : List (Nat × Label) := [(p, .select 1 [0]), (p, .lock), (p, .choose)]

/-- A maintenance that a process makes alone. -/
def maintaining (p : Nat) (day : Int) : List (Nat × Label) :=
  [(p, .start day), (p, .claim), (p, .advance), (p, .reset), (p, .zero 0), (p, .commit .committed)]

/-- After a maintenance, one process is given the address, one that comes in the meantime finds
it locked, and one that comes later finds it at its cap. -/
theorem oneAddress_leased_once :
    ∃ state final,
      run (step onePool) (initial oneAddress 3) (maintaining 0 7) = some state ∧
      run (step onePool) state (leasing 0 ++ leasing 1 ++ [(0, .charge), (0, .finish .committed)] ++
        leasing 2) = some final ∧
      final.trace = state.trace ++ [.noSourceIP 1, .granted 1 ⟨0, "192.0.2.1", ""⟩, .noSourceIP 1] ∧
      (∃ events, final.trace = state.trace ++ events ∧
        (events.filterMap Event.day = [] →
          ∀ (id : Nat) last, final.tables.ips[id]? = some last →
            last.cap ≠ 0 → (leasesOf id events : Int) ≤ max 0 last.cap)) ∧
      Given onePool final.tables 1 ⟨0, "192.0.2.1", ""⟩ := by
  have ended : ((run (step onePool) (initial oneAddress 3) (maintaining 0 7)).bind (fun state =>
      (run (step onePool) state (leasing 0 ++ leasing 1 ++
        [(0, .charge), (0, .finish .committed)] ++ leasing 2)).map (fun final =>
          (state.trace, final.trace)))) =
      some ([.maintained 7 0], [.maintained 7 0, .noSourceIP 1, .granted 1 ⟨0, "192.0.2.1", ""⟩,
        .noSourceIP 1]) := by decide +kernel
  obtain ⟨state, reached, ended⟩ := Option.bind_eq_some_iff.mp ended
  obtain ⟨final, onwards, traces⟩ := Option.map_eq_some_iff.mp ended
  obtain ⟨before, after⟩ := Prod.mk.inj traces
  obtain ⟨⟨events, trace, capped⟩, -, -, given⟩ :=
    daily_caps_hold onePool oneAddress 3 _ _ state final reached onwards
  refine ⟨state, final, reached, onwards, ?_, ⟨events, trace, ?_⟩, ?_⟩
  · rw [after, before]
    rfl
  · exact fun silent id last found => (capped silent id last found).2
  · refine given 1 _ ?_
    rw [after]
    decide

end OctoMail.Deliverability
