import OctoMail.Provisioning.Directory

/-!
# Gateway identities

Over every run: a triple that is bound is bound to one principal, account and address, which
are there together with an Inbox and belong to no other triple, and every call for the triple
that succeeds answers with them.

The unique constraints carry this. A binding is inserted with a principal, an account and an
address that are new, so it shares none with those before it, and an account has the one
address that is no alias for good. The lock on the domain and the second look only save
calls from failing.
-/

namespace OctoMail.Provisioning

open List Transition RowLocks UniqueRows

/-- A triple is bound to what a call for it answers, with all that belongs to it. -/
structure Provisioned (domains : List Domain) (rows : List Row) (triple : Triple)
    (result : Result) : Prop where
  identity : ∃ disabled,
    .identity triple result.tenant result.principal result.account disabled ∈ rows
  principal : .principal result.principal result.tenant result.address ∈ rows
  account : ∃ name disabled, .account result.account result.tenant (some result.principal)
    (some result.principal) name disabled ∈ rows
  inbox : .mailbox result.account inbox ∈ rows
  address : ∃ id domain zone localpart, domains[domain]? = some zone ∧
    result.address = addressText localpart zone.name ∧
    .address id result.tenant domain result.account localpart false ∈ rows ∧
    ∀ id' tenant domain' localpart',
      .address id' tenant domain' result.account localpart' false ∈ rows →
      domain' = domain ∧ localpart' = localpart

/-- A database that keeps its constraints, and in which triples are bound to what is there and to
different principals and accounts. -/
structure WellFormed (domains : List Domain) (rows : List Row) : Prop where
  distinct : Distinct Row.keys rows
  grounded : Grounded Row.keys Row.refs rows []
  provisioned : ∀ triple tenant owner account disabled,
    .identity triple tenant owner account disabled ∈ rows →
    ∃ address, Provisioned domains rows triple ⟨tenant, owner, account, address⟩
  apart : ∀ triple tenant owner account disabled triple' tenant' owner' account' disabled',
    .identity triple tenant owner account disabled ∈ rows →
    .identity triple' tenant' owner' account' disabled' ∈ rows →
    owner = owner' ∨ account = account' → triple = triple'

variable {account tenant : Nat} {domains : List Domain}

section Bound

variable {domains : List Domain} {rows : List Row} {triple other : Triple} {result also : Result}

/-- A triple is bound once. -/
theorem WellFormed.result_eq (formed : WellFormed domains rows)
    (bound : Provisioned domains rows triple result)
    (again : Provisioned domains rows triple also) :
    result = also := by
  obtain ⟨_, identity⟩ := bound.identity
  obtain ⟨_, identity'⟩ := again.identity
  have same := formed.distinct.eq_of_key (.identity triple) identity identity'
    mem_cons_self mem_cons_self
  obtain ⟨tenant, principal, account, address⟩ := result
  obtain ⟨tenant', principal', account', address'⟩ := also
  cases same
  have login := formed.distinct.eq_of_key (.principal principal) bound.principal
    again.principal mem_cons_self mem_cons_self
  cases login
  rfl

/-- Different triples share nothing. -/
theorem WellFormed.results_apart (formed : WellFormed domains rows)
    (bound : Provisioned domains rows triple result) (others : Provisioned domains rows other also)
    (different : triple ≠ other) : result.principal ≠ also.principal ∧
      result.account ≠ also.account ∧ result.address ≠ also.address := by
  obtain ⟨_, identity⟩ := bound.identity
  obtain ⟨_, identity'⟩ := others.identity
  have apart := formed.apart _ _ _ _ _ _ _ _ _ _ identity identity'
  refine ⟨fun same => different (apart (.inl same)), fun same => different (apart (.inr same)),
    fun same => different (apart (.inl ?_))⟩
  have login := formed.distinct.eq_of_key (.login result.address) bound.principal
    others.principal (by simp [Row.keys]) (by simp [Row.keys, same])
  exact (Row.principal.inj login).1

theorem firstPlace_mem {places : List Place} {place : Place}
    (first : firstPlace places = some place) : place ∈ places := by
  induction places generalizing place with
  | nil => cases first
  | cons head rest ih =>
    rw [firstPlace] at first
    split at first
    case h_1 => exact Option.some.inj first ▸ mem_cons_self
    case h_2 later found =>
      split at first
      · exact Option.some.inj first ▸ mem_cons_of_mem _ (ih found)
      · exact Option.some.inj first ▸ mem_cons_self

theorem mem_places {place : Place} (member : place ∈ places rows tenant account) :
    .address place.id tenant place.domain account place.localpart false ∈ rows := by
  obtain ⟨row, here, is⟩ := mem_filterMap.mp member
  split at is <;> try contradiction
  split at is
  case isTrue same =>
    cases is
    obtain ⟨rfl, rfl⟩ := same
    exact here
  case isFalse => cases is

/-- The address that is found is the one of the binding. -/
theorem Provisioned.addressOf_eq (bound : Provisioned domains rows triple result) {address : Text}
    (found : addressOf domains rows result.tenant result.account = some address) :
    address = result.address := by
  obtain ⟨id, domain, zone, localpart, isZone, text, -, only⟩ := bound.address
  simp only [addressOf, Option.bind_eq_bind] at found
  obtain ⟨place, first, found⟩ := Option.bind_eq_some_iff.mp found
  obtain ⟨zone', isZone', found⟩ := Option.bind_eq_some_iff.mp found
  obtain ⟨sameDomain, sameLocalpart⟩ := only _ _ _ _ (mem_places (firstPlace_mem first))
  rw [sameDomain, isZone] at isZone'
  cases isZone'
  split at found
  · cases found
    rw [text, sameLocalpart]
  · cases found

/-- What is found is what the triple is bound to. -/
theorem WellFormed.found_provisioned (formed : WellFormed domains rows)
    (found : gatewayProvisioningIdentity domains rows triple = .found result) :
    Provisioned domains rows triple result := by
  simp only [gatewayProvisioningIdentity] at found
  split at found
  case h_1 => cases found
  case h_2 tenant owner account disabled first =>
    obtain ⟨row, here, is⟩ := exists_of_findSome?_eq_some first
    have identity : .identity triple tenant owner account disabled ∈ rows := by
      split at is <;> try contradiction
      split at is
      case isTrue same =>
        cases is
        exact same ▸ here
      case isFalse => cases is
    obtain ⟨address, bound⟩ := formed.provisioned _ _ _ _ _ identity
    split at found
    case isTrue => cases found
    case isFalse =>
      split at found
      case h_1 => cases found
      case h_2 text isText =>
        split at found
        case isFalse => cases found
        case isTrue =>
          cases found
          rw [bound.addressOf_eq isText]
          exact bound

end Bound

/-! ### What a commit adds -/

section Commit

variable {domains : List Domain} {rows : List Row}

variable {job : Job} {triple : Triple}

/-- An address that is no alias is inserted with its account. -/
theorem Job.address_account {id domain : Nat} {localpart : Text}
    (member : .address id tenant domain account localpart false ∈ job.rows) :
    .account account ∈ keysOf Row.keys job.rows := by
  cases job with
  | ensure | agent =>
    simp only [Job.rows, mem_cons, not_mem_nil, reduceCtorEq, false_or, or_false,
      Row.address.injEq] at member
    obtain ⟨-, -, -, rfl, -⟩ := member
    simp [Job.rows, keysOf, Row.keys]
  | alias_ => simp [Job.rows] at member

/-- Rows that are added leave a binding as it is, if their addresses are of other accounts or are
aliases. -/
theorem Provisioned.append {triple : Triple} {result : Result}
    (bound : Provisioned domains rows triple result) {job : Job}
    (fresh : ∀ key ∈ keysOf Row.keys job.rows, key ∉ keysOf Row.keys rows) :
    Provisioned domains (rows ++ job.rows) triple result := by
  obtain ⟨⟨disabled, identity⟩, principal, ⟨name, disabled', account⟩, inbox, id, domain, zone,
    localpart, isZone, text, address, only⟩ := bound
  refine ⟨⟨disabled, mem_append_left _ identity⟩, mem_append_left _ principal,
    ⟨name, disabled', mem_append_left _ account⟩, mem_append_left _ inbox, id, domain,
    zone, localpart, isZone, text, mem_append_left _ address, ?_⟩
  intro id' tenant domain' localpart' member
  rcases mem_append.mp member with before | now
  · exact only id' tenant domain' localpart' before
  · refine absurd ?_ (fresh _ (Job.address_account now))
    exact mem_keysOf.mpr ⟨_, account, mem_cons_self⟩

/-- The binding that a job inserts. -/
theorem Job.identity_mem {owner : Nat}
    {disabled : Bool} (member : .identity triple tenant owner account disabled ∈ job.rows) :
    ∃ domain zone localpart name ids, job = .ensure triple domain zone localpart name ids ∧
      tenant = zone.tenant ∧ owner = ids.principal ∧ account = ids.account := by
  cases job with
  | ensure _ domain zone localpart name ids =>
    simp only [Job.rows, mem_cons, not_mem_nil, reduceCtorEq, false_or, or_false,
      Row.identity.injEq] at member
    obtain ⟨rfl, rfl, rfl, rfl, -⟩ := member
    exact ⟨domain, zone, localpart, name, ids, rfl, rfl, rfl, rfl⟩
  | agent | alias_ => simp [Job.rows] at member

/-- A new binding is provisioned. -/
theorem provisioned_ensure {domain : Nat} {zone : Domain} {localpart name : Text} {ids : Ids}
    (grounded : Grounded Row.keys Row.refs rows []) (valid : domains[domain]? = some zone)
    (fresh : ∀ key ∈ keysOf Row.keys (Job.ensure triple domain zone localpart name ids).rows,
      key ∉ keysOf Row.keys rows) :
    Provisioned domains (rows ++ (Job.ensure triple domain zone localpart name ids).rows) triple
      ⟨zone.tenant, ids.principal, ids.account, addressText localpart zone.name⟩ := by
  refine ⟨⟨false, ?_⟩, ?_, ⟨name, false, ?_⟩, ?_, ids.address, domain, zone, localpart, valid, rfl,
    ?_, ?_⟩
  · simp [Job.rows]
  · simp [Job.rows]
  · simp [Job.rows]
  · simp [Job.rows]
  · simp [Job.rows]
  · intro id' tenant domain' localpart' member
    rcases mem_append.mp member with before | now
    · -- an address of the account would be there before the account
      have present := (grounded _ before (.account ids.account) mem_cons_self).resolve_left
        (fun none_ => nomatch none_)
      exact absurd present (fresh _ (by simp [Job.rows, keysOf, Row.keys]))
    · simp only [Job.rows, mem_cons, not_mem_nil, reduceCtorEq, false_or, or_false,
        Row.address.injEq] at now
      exact ⟨now.2.2.1, now.2.2.2.2.1⟩

/-- The principal and the account of a binding are there. -/
theorem WellFormed.identity_keys (formed : WellFormed domains rows) {owner : Nat} {disabled : Bool}
    (member : .identity triple tenant owner account disabled ∈ rows) :
    .principal owner ∈ keysOf Row.keys rows ∧ .account account ∈ keysOf Row.keys rows := by
  have grounded := formed.grounded _ member
  refine ⟨(grounded _ ?_).resolve_left (fun none_ => nomatch none_),
    (grounded _ ?_).resolve_left (fun none_ => nomatch none_)⟩
  · simp [Row.refs]
  · simp [Row.refs]

/-- A job that commits leaves the database well-formed. -/
theorem WellFormed.commit (formed : WellFormed domains rows) (valid : job.Valid domains)
    (distinct : Distinct Row.keys job.rows)
    (fresh : ∀ key ∈ keysOf Row.keys job.rows, key ∉ keysOf Row.keys rows)
    (grounded : Grounded Row.keys Row.refs job.rows rows) :
    WellFormed domains (rows ++ job.rows) := by
  -- a binding of the job and one before it
  have apart {triple other : Triple} {tenant owner account tenant' owner' account' : Nat}
      {disabled disabled' : Bool}
      (before : .identity triple tenant owner account disabled ∈ rows)
      (now : .identity other tenant' owner' account' disabled' ∈ job.rows) :
      ¬ (owner = owner' ∨ account = account') := by
    obtain ⟨there, there'⟩ := formed.identity_keys before
    obtain ⟨domain, zone, localpart, name, ids, rfl, -, rfl, rfl⟩ := Job.identity_mem now
    rintro (rfl | rfl)
    · exact fresh _ (by simp [Job.rows, keysOf, Row.keys]) there
    · exact fresh _ (by simp [Job.rows, keysOf, Row.keys]) there'
  refine ⟨formed.distinct.append distinct fresh, formed.grounded.append grounded,
    fun triple tenant owner account disabled member => ?_,
    fun triple tenant owner account disabled other tenant' owner' account' disabled' member also
      shared => ?_⟩
  · rcases mem_append.mp member with before | now
    · obtain ⟨address, bound⟩ := formed.provisioned _ _ _ _ _ before
      exact ⟨address, bound.append fresh⟩
    · obtain ⟨domain, zone, localpart, name, ids, rfl, rfl, rfl, rfl⟩ := Job.identity_mem now
      exact ⟨_, provisioned_ensure formed.grounded valid fresh⟩
  · rcases mem_append.mp member with before | now <;>
      rcases mem_append.mp also with before' | now'
    · exact formed.apart _ _ _ _ _ _ _ _ _ _ before before' shared
    · exact absurd shared (apart before now')
    · exact absurd (shared.imp Eq.symm Eq.symm) (apart before' now)
    · obtain ⟨_, _, _, _, _, isJob, -⟩ := Job.identity_mem now
      obtain ⟨_, _, _, _, _, isJob', -⟩ := Job.identity_mem now'
      rw [isJob] at isJob'
      cases isJob'
      rfl

end Commit

/-! ### Runs -/

structure Good (domains : List Domain) (state : State) : Prop where
  guarded : Protected (discipline domains) state.tables state.procs
  settled : ∀ proc ∈ state.procs, proc.Settled state.tables
  formed : WellFormed domains state.tables.rows
  answers : ∀ answer ∈ state.tables.answers,
    Provisioned domains state.tables.rows answer.1 answer.2

/-- What a change keeps. -/
theorem Change.kept {before after : Tables} {proc : Proc}
    (change : Change domains before proc after) (knows : proc.Knows domains before)
    (settled : proc.Settled before) (formed : WellFormed domains before.rows)
    (answers : ∀ answer ∈ before.answers, Provisioned domains before.rows answer.1 answer.2) :
    WellFormed domains after.rows ∧
      (∀ answer ∈ after.answers, Provisioned domains after.rows answer.1 answer.2) ∧
      ∃ more, after.rows = before.rows ++ more := by
  cases change with
  | none => exact ⟨formed, answers, [], (append_nil _).symm⟩
  | answered _ _ _ found =>
    refine ⟨formed, fun answer member => ?_, [], (append_nil _).symm⟩
    rcases mem_append.mp member with before | now
    · exact answers answer before
    · rw [mem_singleton.mp now]
      exact formed.found_provisioned found
  | committed job reported =>
    obtain ⟨valid, distinct, fresh⟩ := knows
    rw [Proc.Settled, Proc.inserted] at settled
    rw [take_length] at distinct fresh settled
    refine ⟨formed.commit valid distinct fresh settled, fun answer member => ?_, job.rows, rfl⟩
    have old (here : answer ∈ before.answers) :
        Provisioned domains (before.rows ++ job.rows) answer.1 answer.2 :=
      (answers answer here).append fresh
    cases reported with
    | false => exact old member
    | true =>
      rcases mem_append.mp member with here | now
      · exact old here
      · cases job with
        | ensure =>
          rw [mem_singleton.mp now]
          exact provisioned_ensure formed.grounded valid fresh
        | agent | alias_ => cases now

theorem step_good {codec : Codec} {state next : State} {label : Label} (good : Good domains state)
    (moved : step codec domains state label = some next) : Good domains next := by
  simp only [step, Option.bind_eq_bind, Option.pure_def] at moved
  obtain ⟨proc, mine, moved⟩ := Option.bind_eq_some_iff.mp moved
  obtain ⟨move, made, done⟩ := Option.bind_eq_some_iff.mp moved
  cases done
  have knows : proc.Knows domains state.tables := good.guarded.known mine
  have settled := good.settled proc (mem_of_getElem? mine)
  have sound := moveOf_sound knows made
  obtain ⟨formed, answers, more, grown⟩ :=
    sound.change.kept knows settled good.formed good.answers
  refine ⟨good.guarded.move mine sound.takes sound.change.writes sound.knows,
    fun other member => ?_, formed, answers⟩
  have before : other.Settled state.tables := by
    rcases mem_or_eq_of_mem_set member with member | rfl
    · exact good.settled other member
    · exact sound.settles settled
  rw [Proc.Settled, grown]
  exact before.more more

theorem good_initial {rows : List Row} (formed : WellFormed domains rows)
    (count : Nat) : Good domains (initial rows count) := by
  refine ⟨protected_replicate _ rfl trivial, fun proc member => ?_, formed, nofun⟩
  rw [eq_of_mem_replicate member]
  exact settled_nothing rfl

/-- A database without bindings is well-formed if it keeps its constraints. -/
theorem wellFormed_unbound {rows : List Row}
    (distinct : Distinct Row.keys rows) (grounded : Grounded Row.keys Row.refs rows [])
    (unbound : ∀ triple tenant owner account disabled,
      .identity triple tenant owner account disabled ∉ rows) : WellFormed domains rows :=
  ⟨distinct, grounded, fun _ _ _ _ _ member => (unbound _ _ _ _ _ member).elim,
    fun _ _ _ _ _ _ _ _ _ _ member => (unbound _ _ _ _ _ member).elim⟩

/-- In every run that begins in a well-formed database, a triple is bound only when its principal,
account, address and Inbox are there. It is bound to one of each, which no other triple has, and
every call for it that succeeds answers with them. An address, alias or not, is of one account. -/
theorem gateway_identities_injective (codec : Codec) (domains : List Domain) (rows : List Row)
    (formed : WellFormed domains rows) (count : Nat) (labels : List Label) (state : State)
    (reached : run (step codec domains) (initial rows count) labels = some state) :
    (∀ triple tenant owner account disabled,
      .identity triple tenant owner account disabled ∈ state.tables.rows →
      ∃ address, Provisioned domains state.tables.rows triple ⟨tenant, owner, account, address⟩) ∧
    (∀ triple result also, Provisioned domains state.tables.rows triple result →
      Provisioned domains state.tables.rows triple also → result = also) ∧
    (∀ triple other result also, Provisioned domains state.tables.rows triple result →
      Provisioned domains state.tables.rows other also → triple ≠ other →
      result.principal ≠ also.principal ∧ result.account ≠ also.account ∧
        result.address ≠ also.address) ∧
    (∀ id tenant account isAlias id' tenant' account' isAlias' domain localpart,
      .address id tenant domain account localpart isAlias ∈ state.tables.rows →
      .address id' tenant' domain account' localpart isAlias' ∈ state.tables.rows →
      account = account') ∧
    (∀ answer ∈ state.tables.answers,
      Provisioned domains state.tables.rows answer.1 answer.2) ∧
    (∀ triple result also, (triple, result) ∈ state.tables.answers →
      (triple, also) ∈ state.tables.answers → result = also) := by
  have good := always (Good domains) step_good (good_initial formed count) reached
  refine ⟨good.formed.provisioned, fun _ _ _ => good.formed.result_eq,
    fun _ _ _ _ => good.formed.results_apart, ?_, good.answers, fun triple _ _ member also =>
      good.formed.result_eq (good.answers _ member) (good.answers _ also)⟩
  intro id tenant account isAlias id' tenant' account' isAlias' domain localpart member also
  have same := good.formed.distinct.eq_of_key (.localpart domain localpart) member also
    (by simp [Row.keys]) (by simp [Row.keys])
  cases same
  rfl

/-! ### Two owners -/

/-- Texts are taken as they are, and a text is its own digest. -/
def plain : Codec where
  trimSpace text := text
  toLower text := text
  hexDigest text := text

def oneDomain : List Domain := [{ tenant := 1, name := ['d'] }]

def owner (space : Char) : Triple := ⟨['i'], ['s'], [space]⟩

/-- A call for an owner looks, locks the domain and looks again. -/
def beginning (p : Nat) (triple : Triple) : List Label :=
  [⟨p, .ensure ⟨triple, ['b', 'o', 'b'], ['d']⟩⟩, ⟨p, .query ⟨0, 0, 0⟩⟩]

def locking (p : Nat) : List Label := [⟨p, .lock⟩, ⟨p, .query ⟨0, 0, 0⟩⟩]

def inserting (p count : Nat) : List Label :=
  List.replicate count ⟨p, .insert⟩ ++ [⟨p, .commit .committed⟩]

/-- Two calls for one owner and one for another want the same address at the same time. Then an
alias and a mailbox of an agent are created. -/
def crowded : List Label :=
  beginning 0 (owner 'x') ++ beginning 1 (owner 'x') ++ beginning 2 (owner 'y') ++
    locking 0 ++ [⟨0, .query ⟨1, 2, 3⟩⟩] ++ inserting 0 5 ++
    locking 2 ++ [⟨2, .query ⟨4, 5, 6⟩⟩, ⟨2, .query ⟨4, 5, 6⟩⟩] ++ inserting 2 5 ++
    locking 1 ++
    [⟨0, .createAlias 1 2 ['b', 'o', 'b', 'b', 'y']⟩, ⟨0, .query ⟨0, 0, 7⟩⟩] ++ inserting 0 1 ++
    [⟨1, .createAgent ⟨1, 1, 2, ['x'], ['r', 'o', 'b', 'o', 't'], [], 0⟩⟩, ⟨1, .query ⟨0, 0, 0⟩⟩,
      ⟨1, .query ⟨8, 9, 10⟩⟩] ++ inserting 1 5

theorem crowded_answers :
    ∃ state, run (step plain oneDomain) (initial [] 3) crowded = some state ∧
      state.tables.rows.length = 16 ∧
      state.tables.answers.map Prod.fst = [owner 'x', owner 'y', owner 'x'] ∧
      ∀ result also, (owner 'x', result) ∈ state.tables.answers →
        (owner 'x', also) ∈ state.tables.answers → result = also := by
  have ended : ((run (step plain oneDomain) (initial [] 3) crowded).map
      (fun state => (state.tables.rows.length, state.tables.answers.map Prod.fst))) =
      some (16, [owner 'x', owner 'y', owner 'x']) := by decide +kernel
  obtain ⟨state, reached, seen⟩ := Option.map_eq_some_iff.mp ended
  obtain ⟨length, answers⟩ := Prod.mk.inj seen
  have formed : WellFormed oneDomain [] :=
    wellFormed_unbound nodup_nil nofun fun _ _ _ _ _ member => nomatch member
  obtain ⟨-, -, -, -, -, once⟩ :=
    gateway_identities_injective plain oneDomain [] formed 3 crowded state reached
  exact ⟨state, reached, length, answers, once (owner 'x')⟩

end OctoMail.Provisioning
