import OctoMail.Provisioning.Directory
import OctoMail.Store.Mutators

/-!
# The limit on mailboxes of agents

`CreateAgentMailbox` and `DeleteAgentMailbox` of `storage/postgres/directory.go`, on any number of
nodes. An owner has a limited number of enabled mailboxes in a Space, the default mailbox of the
Space apart.

A call that creates counts in one statement and inserts in others. In between, other calls of the
owner wait for the row of the owner, and calls of other owners and deletions do not add to the
count: what was below the limit stays below it up to the commit.

A call that creates runs as in the directory. The Inbox of a new account and the entries of its log
are what the mailbox writer makes of tables in which the account is new; they become visible with
the other rows. The bindings and credentials that a deletion revokes are left out.
-/

namespace OctoMail.Provisioning.Agents

open List Transition RowLocks UniqueRows

/-- The arguments of `DeleteAgentMailbox` and the tenant of its scope. -/
structure DeleteCall where
  tenant : Nat
  owner : Nat
  account : Nat
  space : Text
deriving DecidableEq, Repr

inductive Proc where
  /-- A call that creates, or none. -/
  | creating (proc : Provisioning.Proc)
  | finding (call : DeleteCall)
  /-- `DeleteAgentMailbox` has locked the account, and has disabled it. -/
  | deleting (call : DeleteCall)
  | disabled (call : DeleteCall)
deriving DecidableEq, Repr

def Proc.locks : Proc → List Key
  | .creating proc => proc.locks
  | .finding _ => []
  | .deleting call | .disabled call => [.account call.account]

inductive Act where
  | create (act : Provisioning.Act) (mailboxId : Nat)
  | delete (call : DeleteCall)
  | find
  | disable
  | commit (outcome : Outcome)
  | stop
deriving DecidableEq, Repr

/-- A mailbox that a call has created. -/
structure Made where
  call : AgentCall
  domain : Nat
  zone : Text
  ids : Ids
  mailboxId : Nat
deriving DecidableEq, Repr

def Made.job (made : Made) : Job := .agent made.call made.domain made.zone made.ids

/-- How a call ends. -/
inductive Event where
  | created (made : Made)
  /-- A call whose commit is not reported. -/
  | unreported (made : Made)
  | failed
  | deleted (call : DeleteCall)
  | undeleted
deriving DecidableEq, Repr

structure State where
  tables : Tables
  procs : List Proc
  /-- The tables of the accounts that are new: their Inbox and their log. -/
  books : List Store.Database := []
  trace : List Event := []
deriving DecidableEq, Repr

def initial (rows : List Row) (count : Nat) : State :=
  { tables := { rows }, procs := List.replicate count (.creating .idle) }

structure Move where
  proc : Proc
  tables : Tables
  books : List Store.Database := []
  events : List Event := []

/-- A writer of a new account. -/
def newAccount (account tenant mailboxId : Nat) : Store.Tx where
  db := { accounts := [{ id := account, tenantId := tenant }], nextMailboxId := mailboxId }
  accountId := account
  tenantId := tenant
  seq := 0
  entries := []

/-- The Inbox of a new account, and its log. -/
def provisionInbox (account tenant mailboxId : Nat) : Except Store.Failure Store.Database :=
  match (do let _ ← Store.Tx.ensureMailbox "Inbox" true {}; Store.Tx.flush : Store.Txn Unit)
      (newAccount account tenant mailboxId) with
  | .error failure => .error failure
  | .ok (_, pt) => .ok pt.db

/-- An identity of the owner has the account as its default, in a Space or in any. -/
def isDefault (rows : List Row) (call : DeleteCall) (space : Option Text) : Bool :=
  rows.any fun
    | .identity triple tenant owner account disabled =>
        account == call.account && tenant == call.tenant && owner == call.owner &&
          space.all (· == triple.space) && !disabled
    | _ => false

/-- The account is there, and enabled. -/
def isEnabled (rows : List Row) (call : DeleteCall) : Bool :=
  rows.any fun
    | .account id tenant _ owner _ disabled =>
        id == call.account && tenant == call.tenant && owner == some call.owner && !disabled
    | _ => false

/-- What `DeleteAgentMailbox` finds: whether the mailbox may be deleted. -/
def deletable (rows : List Row) (call : DeleteCall) : Option Bool :=
  if isEnabled rows call &&
      rows.contains (.registration call.account call.tenant call.owner call.space) &&
      !isDefault rows call (some call.space) then
    some (!isDefault rows call none)
  else none

def Row.disable (id : Nat) : Row → Row
  | .account id' tenant principal owner name disabled =>
      .account id' tenant principal owner name (if id' = id then true else disabled)
  | row => row

section Step

variable (codec : Codec) (domains : List Domain)

/-- The acts of `CreateAgentMailbox`. -/
def isCreate : Provisioning.Act → Bool
  | .createAgent _ | .query _ | .insert | .commit _ | .stop => true
  | _ => false

/-- A call that creates: the tables of the new account come with its commit. -/
def createMove (tables : Tables) (isFree : Key → Bool) (proc : Provisioning.Proc)
    (act : Provisioning.Act) (mailboxId : Nat) : Option Move := do
  let move ← Provisioning.moveOf codec domains tables isFree proc act
  let ended : List Event := if move.proc = .idle then [.failed] else []
  match proc, act with
  | .idle, .stop => none
  | .inserting (.agent call domain zone ids) _, .commit outcome =>
      match outcome, provisionInbox ids.account call.tenant mailboxId with
      | .committed, .ok books =>
          some ⟨.creating move.proc, move.tables, [books],
            [.created ⟨call, domain, zone, ids, mailboxId⟩]⟩
      | .unreported, .ok books =>
          some ⟨.creating move.proc, move.tables, [books],
            [.unreported ⟨call, domain, zone, ids, mailboxId⟩]⟩
      | _, _ => some ⟨.creating .idle, tables, [], [.failed]⟩
  | _, _ => some ⟨.creating move.proc, move.tables, [], ended⟩

def moveOf (tables : Tables) (isFree : Key → Bool) : Proc → Act → Option Move
  | .creating proc, .create act mailboxId =>
      if isCreate act then createMove codec domains tables isFree proc act mailboxId else none
  -- DeleteAgentMailbox
  | .creating .idle, .delete call =>
      let call := { call with space := codec.trimSpace call.space }
      if call.space = [] then some ⟨.creating .idle, tables, [], [.undeleted]⟩
      else some ⟨.finding call, tables, [], []⟩
  | .finding call, .find =>
      match deletable tables.rows call with
      | none => some ⟨.creating .idle, tables, [], [.undeleted]⟩
      | some may =>
          -- a row that matches is waited for and is matched again
          if isFree (.account call.account) then
            if may then some ⟨.deleting call, tables, [], []⟩
            else some ⟨.creating .idle, tables, [], [.undeleted]⟩
          else none
  | .deleting call, .disable =>
      if isEnabled tables.rows call then some ⟨.disabled call, tables, [], []⟩
      else some ⟨.creating .idle, tables, [], [.undeleted]⟩
  | .disabled call, .commit outcome =>
      let after := { tables with rows := tables.rows.map (Row.disable call.account) }
      match outcome with
      | .committed => some ⟨.creating .idle, after, [], [.deleted call]⟩
      | .failed => some ⟨.creating .idle, tables, [], [.undeleted]⟩
      | .unreported => some ⟨.creating .idle, after, [], [.undeleted]⟩
  | .finding _, .stop | .deleting _, .stop | .disabled _, .stop =>
      some ⟨.creating .idle, tables, [], [.undeleted]⟩
  | _, _ => none

structure Label where
  proc : Nat
  act : Act
deriving DecidableEq, Repr

def step (state : State) (label : Label) : Option State := do
  let proc ← state.procs[label.proc]?
  let move ← moveOf codec domains state.tables (free Proc.locks state.procs label.proc) proc
    label.act
  pure ⟨move.tables, state.procs.set label.proc move.proc, state.books ++ move.books,
    state.trace ++ move.events⟩

end Step

/-- All calls that create have one limit. -/
def SameLimit (limit : Nat) (_ : State) (label : Label) : Prop :=
  (match label.act with
    | .create (.createAgent call) _ => decide (call.maxPerOwnerSpace = limit)
    | _ => true) = true

instance (limit : Nat) (state : State) (label : Label) : Decidable (SameLimit limit state label) :=
  inferInstanceAs (Decidable (_ = true))

/-! ### The tables of a new account -/

/-- The tables of a new account: its Inbox, and a log that tells of the mailbox and of the
subscription. -/
def firstBooks (account tenant mailboxId : Nat) : Store.Database :=
  let inbox : Store.Mailbox :=
    { id := mailboxId, accountId := account, name := "Inbox", uidValidity := 1, uidNext := 1,
      createSeq := 1, modSeq := 1 }
  { accounts := [{ id := account, tenantId := tenant, changelogSeq := 2, uidvalidityNext := 2 }]
    mailboxes := [{ inbox with subscribed := true }]
    changelog := [⟨account, 1, .addMailbox inbox⟩, ⟨account, 2, .addSubscription "Inbox"⟩]
    nextMailboxId := mailboxId + 1 }

section Inbox

open Store Store.Tx Program

/-- The writer once the Inbox is there and the log is pending. -/
def pendingBooks (account tenant mailboxId : Nat) (log : List LogRow) : Tx where
  db := { firstBooks account tenant mailboxId with
    accounts := [{ id := account, tenantId := tenant, uidvalidityNext := 2 }]
    changelog := log }
  accountId := account
  tenantId := tenant
  seq := 2
  entries := (firstBooks account tenant mailboxId).changelog

theorem ensureMailbox_newAccount (account tenant mailboxId : Nat) :
    ∃ mb, ensureMailbox "Inbox" true {} (newAccount account tenant mailboxId) =
      .ok (mb, pendingBooks account tenant mailboxId []) := by
  have taken : nextUIDValidity (newAccount account tenant mailboxId) = .ok (1,
      (newAccount account tenant mailboxId).withDb
        { accounts := [{ id := account, tenantId := tenant, uidvalidityNext := 2 }],
          nextMailboxId := mailboxId }) := by
    simp only [nextUIDValidity, bind_ok, get_ok, require_ok, modifyDb_ok, pure_ok]
    refine ⟨_, _, ⟨rfl, rfl⟩, { id := account, tenantId := tenant }, _, ⟨?_, rfl⟩, (), _, ?_, rfl,
      rfl⟩
    · simp [newAccount, Database.account]
    · simp [newAccount, Database.setAccounts, Table.update, withDb]
  exact ⟨_, (bind_ok _ _ _ _ _).mpr ⟨none, _, rfl, (bind_ok _ _ _ _ _).mpr ⟨_, _, taken, rfl⟩⟩⟩

theorem flush_pendingBooks (account tenant mailboxId : Nat) :
    ∃ pt, flush (pendingBooks account tenant mailboxId []) = .ok ((), pt) ∧
      pt.db = firstBooks account tenant mailboxId := by
  have second : appendLog ⟨account, 2, .addSubscription "Inbox"⟩
      (pendingBooks account tenant mailboxId
        ((firstBooks account tenant mailboxId).changelog.take 1)) =
      .ok ((), pendingBooks account tenant mailboxId
        (firstBooks account tenant mailboxId).changelog) := by
    refine (bind_ok _ _ _ _ _).mpr ⟨_, _, rfl, (bind_ok _ _ _ _ _).mpr
      ⟨⟨⟩, _, (refuse_ok _ _ _ _ _).mpr ⟨?_, rfl⟩, rfl⟩⟩
    simp [pendingBooks, firstBooks]
  refine ⟨_, (bind_ok _ _ _ _ _).mpr ⟨_, _, rfl, (bind_ok _ _ _ _ _).mpr ⟨⟨⟩, _,
    (bind_ok _ _ _ _ _).mpr ⟨⟨⟩, _, rfl, (bind_ok _ _ _ _ _).mpr ⟨⟨⟩, _, second, rfl⟩⟩, rfl⟩⟩, ?_⟩
  simp [pendingBooks, firstBooks, Database.setAccounts, Table.update]

/-- The Inbox of a new account is made. -/
theorem provisionInbox_ok (account tenant mailboxId : Nat) :
    provisionInbox account tenant mailboxId = .ok (firstBooks account tenant mailboxId) := by
  obtain ⟨mb, ensured⟩ := ensureMailbox_newAccount account tenant mailboxId
  obtain ⟨pt, flushed, same⟩ := flush_pendingBooks account tenant mailboxId
  have ran := (bind_ok _ _ _ (ensureMailbox "Inbox" true {}) (fun _ => flush)).mpr
    ⟨mb, _, ensured, flushed⟩
  rw [provisionInbox, ran]
  exact congrArg _ same

end Inbox

/-! ### The count -/

theorem isMailbox_iff (rows : List Row) (call : AgentCall) (row : Row) :
    isMailbox rows call row = true ↔ ∃ id principal name,
      row = .account id call.tenant principal (some call.owner) name false ∧
        .registration id call.tenant call.owner call.space ∈ rows ∧
          ∀ triple, triple.space = call.space →
            .identity triple call.tenant call.owner id false ∉ rows := by
  cases row with
  | account id tenant principal owner name disabled =>
    simp only [isMailbox, Bool.and_eq_true, beq_iff_eq, Bool.not_eq_true', contains_iff_mem,
      any_eq_false]
    constructor
    · rintro ⟨⟨⟨⟨rfl, rfl⟩, rfl⟩, registered⟩, none_⟩
      refine ⟨id, principal, name, rfl, registered, ?_⟩
      intro triple same member
      have := none_ _ member
      simp [same] at this
    · rintro ⟨id, principal, name, same, registered, none_⟩
      cases same
      refine ⟨⟨⟨⟨rfl, rfl⟩, rfl⟩, registered⟩, ?_⟩
      rintro row member
      split
      · rename_i triple tenant' owner' account disabled'
        simp only [Bool.and_eq_true, beq_iff_eq, Bool.not_eq_true']
        rintro ⟨⟨⟨⟨rfl, rfl⟩, rfl⟩, space⟩, rfl⟩
        exact none_ triple space member
      · exact Bool.false_ne_true
  | _ => simp [isMailbox]

/-- Two calls of one owner for one Space. -/
def Alike (call other : AgentCall) : Prop :=
  call.tenant = other.tenant ∧ call.owner = other.owner ∧ call.space = other.space

theorem registeredCount_alike {call other : AgentCall} (alike : Alike call other)
    (rows : List Row) : registeredCount rows call = registeredCount rows other := by
  obtain ⟨tenant, owner, space⟩ := alike
  refine countP_congr fun row _ => ?_
  cases row <;> simp only [isMailbox, tenant, owner, space]

section Count

variable {rows : List Row} {call : AgentCall} {domain : Nat} {zone : Text} {ids : Ids}
  (fresh : ∀ key ∈ keysOf Row.keys (Job.agent call domain zone ids).rows,
    key ∉ keysOf Row.keys rows)

include fresh

/-- What counted before still does. -/
theorem isMailbox_commit (other : AgentCall) {row : Row} (member : row ∈ rows) :
    isMailbox (rows ++ (Job.agent call domain zone ids).rows) other row =
      isMailbox rows other row := by
  rw [Bool.eq_iff_iff, isMailbox_iff, isMailbox_iff]
  constructor
  · rintro ⟨id, principal, name, rfl, registered, none_⟩
    refine ⟨id, principal, name, rfl, ?_, fun triple same here =>
      none_ triple same (mem_append_left _ here)⟩
    rcases mem_append.mp registered with before | now
    · exact before
    · simp only [Job.rows, mem_cons, not_mem_nil, reduceCtorEq, false_or, or_false,
        Row.registration.injEq] at now
      obtain ⟨rfl, _⟩ := now
      refine absurd ?_ (fresh (.account ids.account) (by simp [Job.rows, keysOf, Row.keys]))
      exact mem_keysOf.mpr ⟨_, member, mem_cons_self⟩
  · rintro ⟨id, principal, name, rfl, registered, none_⟩
    refine ⟨id, principal, name, rfl, mem_append_left _ registered, ?_⟩
    intro triple same here
    rcases mem_append.mp here with before | now
    · exact none_ triple same before
    · simp [Job.rows] at now

/-- The new account counts for its owner and its Space only. -/
theorem isMailbox_new {other : AgentCall} {row : Row}
    (member : row ∈ (Job.agent call domain zone ids).rows)
    (counts : isMailbox (rows ++ (Job.agent call domain zone ids).rows) other row = true) :
    Alike call other ∧ row = .account ids.account call.tenant (some ids.principal)
      (some call.owner) ("agent-mailbox:".toList ++ addressText call.localpart zone) false := by
  obtain ⟨id, principal, name, rfl, registered, _⟩ := (isMailbox_iff _ _ _).mp counts
  simp only [Job.rows, mem_cons, not_mem_nil, reduceCtorEq, false_or, or_false,
    Row.account.injEq] at member
  obtain ⟨rfl, tenant, rfl, owner, rfl, _⟩ := member
  rcases mem_append.mp registered with before | now
  · refine absurd ?_ (fresh (.registration ids.account) (by simp [Job.rows, keysOf, Row.keys]))
    exact mem_keysOf.mpr ⟨_, before, mem_cons_self⟩
  · simp only [Job.rows, mem_cons, not_mem_nil, reduceCtorEq, false_or, or_false,
      Row.registration.injEq] at now
    obtain ⟨_, _, sameOwner, space⟩ := now
    rw [tenant, owner]
    exact ⟨⟨tenant.symm, sameOwner.symm, space.symm⟩, rfl⟩

theorem registeredCount_commit (other : AgentCall) :
    registeredCount (rows ++ (Job.agent call domain zone ids).rows) other ≤
        registeredCount rows other + 1 ∧
      (¬ Alike call other → registeredCount (rows ++ (Job.agent call domain zone ids).rows) other =
        registeredCount rows other) := by
  have old : rows.countP (isMailbox (rows ++ (Job.agent call domain zone ids).rows) other) =
      registeredCount rows other := by
    rw [registeredCount]
    exact countP_congr (fun row member => by rw [isMailbox_commit fresh other member])
  rw [registeredCount, countP_append, old]
  constructor
  · apply Nat.add_le_add_left
    have one : (Job.agent call domain zone ids).rows.countP
        (isMailbox (rows ++ (Job.agent call domain zone ids).rows) other) ≤
        (Job.agent call domain zone ids).rows.countP (fun row =>
          row == .account ids.account call.tenant (some ids.principal) (some call.owner)
            ("agent-mailbox:".toList ++ addressText call.localpart zone) false) := by
      apply countP_mono_left
      intro row member counts
      exact beq_iff_eq.mpr (isMailbox_new fresh member counts).2
    refine Nat.le_trans one ?_
    simp [Job.rows]
  · intro different
    have none_ : (Job.agent call domain zone ids).rows.countP
        (isMailbox (rows ++ (Job.agent call domain zone ids).rows) other) = 0 := by
      apply countP_eq_zero.mpr
      intro row member counts
      exact different (isMailbox_new fresh member counts).1
    rw [none_, Nat.add_zero]

end Count

section Disable

variable (id : Nat)

theorem disable_keys (row : Row) : (Row.disable id row).keys = row.keys := by
  cases row <;> rfl

theorem disable_keysOf (rows : List Row) :
    keysOf Row.keys (rows.map (Row.disable id)) = keysOf Row.keys rows := by
  simp [keysOf, flatMap_map, disable_keys]

theorem registeredCount_disable (rows : List Row) (call : AgentCall) :
    registeredCount (rows.map (Row.disable id)) call ≤ registeredCount rows call := by
  rw [registeredCount, registeredCount, countP_map]
  apply countP_mono_left
  intro row _ counts
  obtain ⟨account, principal, name, same, registered, none_⟩ := (isMailbox_iff _ _ _).mp counts
  apply (isMailbox_iff _ _ _).mpr
  cases row with
  | account id' _ principal' _ name' =>
    simp only [Row.disable, Row.account.injEq] at same
    obtain ⟨rfl, rfl, rfl, rfl, rfl, enabled⟩ := same
    refine ⟨id', principal', name', ?_, ?_, ?_⟩
    · split at enabled
      · cases enabled
      · rw [enabled]
    · obtain ⟨found, member, is⟩ := mem_map.mp registered
      cases found <;> cases is
      exact member
    · intro triple space member
      exact none_ triple space (mem_map.mpr ⟨_, member, rfl⟩)
  | _ => cases same

end Disable

/-! ### What a process knows -/

/-- A call that creates is below the limit when it inserts. -/
def Bounded (limit : Nat) (tables : Tables) : Provisioning.Proc → Prop
  | .idle => True
  | .registering call | .counting call _ _ => call.maxPerOwnerSpace = limit
  | .inserting (.agent call _ _ _) _ => registeredCount tables.rows call < limit
  | _ => False

def Proc.Knows (limit : Nat) (domains : List Domain) (tables : Tables) : Proc → Prop
  | .creating proc => proc.Knows domains tables ∧ Bounded limit tables proc
  | _ => True

/-- A key that is not there is still not there, and what counts for an owner is no more. -/
def Kept (before after : Tables) (key : Key) : Prop :=
  key.Same before after ∧ ∀ call : AgentCall, key = .owner call.owner →
    registeredCount after.rows call ≤ registeredCount before.rows call

variable {proc : Provisioning.Proc} {events : List Event}

theorem bounded_framed {limit : Nat} {before after : Tables}
    (same : ∀ key ∈ proc.locks, Kept before after key) (bounded : Bounded limit before proc) :
    Bounded limit after proc := by
  cases proc with
  | inserting job done =>
    cases job with
    | agent call domain zone ids =>
      have held : Key.owner call.owner ∈
          (Provisioning.Proc.inserting (.agent call domain zone ids) done).locks := by
        simp [Provisioning.Proc.locks, Job.locks]
      exact Nat.lt_of_le_of_lt ((same _ held).2 call rfl) bounded
    | _ => exact bounded
  | _ => exact bounded

theorem Proc.knows_framed {limit : Nat} {domains : List Domain} {before after : Tables}
    {proc : Proc} (same : ∀ key ∈ proc.locks, Kept before after key)
    (knows : proc.Knows limit domains before) : proc.Knows limit domains after := by
  cases proc with
  | creating =>
    exact ⟨Provisioning.Proc.knows_framed (fun key held => (same key held).1) knows.1,
      bounded_framed same knows.2⟩
  | _ => exact knows

/-- How the calls keep to the locks. -/
def discipline (limit : Nat) (domains : List Domain) : Discipline Proc Key Tables where
  locks := Proc.locks
  knows tables proc := proc.Knows limit domains tables
  same := Kept
  framed := Proc.knows_framed

def Event.made : Event → Option Made
  | .created made | .unreported made => some made
  | _ => none

def Made.books (made : Made) : Store.Database :=
  firstBooks made.ids.account made.call.tenant made.mailboxId

/-- What a step does: nothing that others see, all that a call creates, or a deletion. -/
inductive Effect (limit : Nat) (rows : List Row) :
    List Row → List Store.Database → List Event → Prop where
  | quiet (events : List Event) (told : events.filterMap Event.made = []) :
      Effect limit rows rows [] events
  | made (made : Made) (events : List Event) (told : events.filterMap Event.made = [made])
      (below : registeredCount rows made.call < limit)
      (fresh : ∀ key ∈ keysOf Row.keys made.job.rows, key ∉ keysOf Row.keys rows) :
      Effect limit rows (rows ++ made.job.rows) [made.books] events
  | deleted (id : Nat) (events : List Event) (told : events.filterMap Event.made = []) :
      Effect limit rows (rows.map (Row.disable id)) [] events

structure Sound (limit : Nat) (domains : List Domain) (tables : Tables) (isFree : Key → Bool)
    (proc : Proc) (move : Move) : Prop where
  takes : ∀ key ∈ move.proc.locks, key ∈ proc.locks ∨ isFree key = true
  writes : ∀ key, key ∉ proc.locks → Kept tables move.tables key
  knows : move.proc.Knows limit domains move.tables
  effect : Effect limit tables.rows move.tables.rows move.books move.events

section Moves

variable {codec : Codec} {domains : List Domain} {limit : Nat} {tables : Tables}
  {isFree : Key → Bool}

theorem kept_self (key : Key) : Kept tables tables key :=
  ⟨fun absent => absent, fun _ _ => Nat.le_refl _⟩

/-- A step of a call that creates, up to its commit or with it. -/
theorem create_move (positive : 0 < limit) {act : Provisioning.Act}
    {move : Provisioning.Move} (bounded : Bounded limit tables proc) (creates : isCreate act = true)
    (same : ∀ call, act = .createAgent call → call.maxPerOwnerSpace = limit)
    (moved : Provisioning.moveOf codec domains tables isFree proc act = some move) :
    (move.tables = tables ∧ Bounded limit tables move.proc ∧
        ∀ outcome, act = .commit outcome → outcome = .failed) ∨
      ∃ call domain zone ids outcome, proc = .inserting (.agent call domain zone ids)
          (Job.agent call domain zone ids).rows.length ∧ act = .commit outcome ∧
        outcome ≠ .failed ∧ move.proc = .idle ∧
          move.tables.rows = tables.rows ++ (Job.agent call domain zone ids).rows := by
  cases act with
  | stop =>
    cases proc <;> cases moved <;> exact Or.inl ⟨rfl, trivial, by simp⟩
  | createAgent call =>
    cases proc with
    | idle =>
      simp only [Provisioning.moveOf] at moved
      split at moved
      · split at moved
        · split at moved <;> try contradiction
          cases moved
          refine Or.inl ⟨rfl, ?_, by simp⟩
          have given := same call rfl
          simp only [Bounded, AgentCall.trimmed]
          split <;> omega
        · cases moved
          exact Or.inl ⟨rfl, trivial, by simp⟩
      · cases moved
        exact Or.inl ⟨rfl, trivial, by simp⟩
    | _ => cases moved
  | query ids =>
    cases proc with
    | registering =>
      simp only [Provisioning.moveOf] at moved
      split at moved
      · cases moved
        exact Or.inl ⟨rfl, trivial, by simp⟩
      · cases moved
        exact Or.inl ⟨rfl, bounded, by simp⟩
    | counting call domain zone =>
      simp only [Provisioning.moveOf] at moved
      cases moved
      refine Or.inl ⟨rfl, ?_, by simp⟩
      have max : call.maxPerOwnerSpace = limit := bounded
      dsimp only
      split
      · rename_i below
        show registeredCount tables.rows call < limit
        omega
      · trivial
    | idle | inserting => cases moved
    | _ => exact bounded.elim
  | insert =>
    cases proc with
    | inserting job =>
      cases job with
      | agent =>
        simp only [Provisioning.moveOf] at moved
        split at moved
        · cases moved
        split at moved <;> try contradiction
        cases moved
        refine Or.inl ⟨rfl, ?_, by simp⟩
        dsimp only
        split
        · exact bounded
        · trivial
      | _ => exact bounded.elim
    | _ => cases moved
  | commit outcome =>
    cases proc with
    | inserting job done =>
      cases job with
      | agent call domain zone ids =>
        simp only [Provisioning.moveOf] at moved
        split at moved <;> try contradiction
        rename_i all
        subst all
        cases outcome with
        | failed =>
          cases moved
          exact Or.inl ⟨rfl, trivial, fun outcome same => (Provisioning.Act.commit.inj same).symm⟩
        | committed | unreported =>
          cases moved
          exact Or.inr ⟨call, domain, zone, ids, _, rfl, rfl, by decide, rfl, rfl⟩
      | _ => exact bounded.elim
    | _ => cases moved
  | _ => cases creates

theorem createMove_sound (positive : 0 < limit) {act : Provisioning.Act} {mailboxId : Nat}
    {move : Move} (knows : (Proc.creating proc).Knows limit domains tables)
    (creates : isCreate act = true)
    (same : ∀ call, act = .createAgent call → call.maxPerOwnerSpace = limit)
    (moved : createMove codec domains tables isFree proc act mailboxId = some move) :
    Sound limit domains tables isFree (.creating proc) move := by
  obtain ⟨knows, bounded⟩ := knows
  obtain ⟨base, made, moved⟩ := Option.bind_eq_some_iff.mp moved
  have sound := Provisioning.moveOf_sound knows made
  rcases create_move positive bounded creates same made with
    ⟨unchanged, bounded', failed⟩ | ⟨call, domain, zone, ids, outcome, rfl, rfl, done, idle, rows⟩
  · have quiet : ∀ events : List Event, events.filterMap Event.made = [] →
        Sound limit domains tables isFree (.creating proc)
          ⟨.creating base.proc, base.tables, [], events⟩ := by
      intro events told
      refine ⟨sound.takes, fun key _ => ?_, ⟨sound.knows, ?_⟩, ?_⟩
      · rw [unchanged]
        exact kept_self key
      · rw [unchanged]
        exact bounded'
      · rw [unchanged]
        exact .quiet events told
    dsimp only at moved
    split at moved
    · cases moved
    · rename_i call domain zone ids done outcome _
      obtain rfl := failed outcome rfl
      cases moved
      refine ⟨fun _ held => (not_mem_nil held).elim, fun key _ => kept_self key,
        ⟨trivial, trivial⟩, .quiet _ rfl⟩
    · cases moved
      apply quiet
      split <;> rfl
  · obtain ⟨_, _, fresh⟩ := knows
    rw [take_length] at fresh
    have commits : ∀ event : Event, event.made = some ⟨call, domain, zone, ids, mailboxId⟩ →
        Sound limit domains tables isFree
          (.creating (.inserting (.agent call domain zone ids)
            (Job.agent call domain zone ids).rows.length))
          ⟨.creating base.proc, base.tables, [firstBooks ids.account call.tenant mailboxId],
            [event]⟩ := by
      intro event told
      rw [idle]
      refine ⟨fun _ held => (not_mem_nil held).elim, ?_, ⟨trivial, trivial⟩, ?_⟩
      · intro key unheld
        refine ⟨sound.change.writes key unheld, ?_⟩
        rintro other rfl
        rw [rows]
        apply Nat.le_of_eq
        apply (registeredCount_commit fresh other).2
        rintro ⟨_, owner, _⟩
        apply unheld
        simp [Proc.locks, Provisioning.Proc.locks, Job.locks, owner]
      · rw [rows]
        exact .made ⟨call, domain, zone, ids, mailboxId⟩ [event] (by simp [told]) bounded fresh
    simp only [provisionInbox_ok] at moved
    cases outcome with
    | failed => exact absurd rfl done
    | committed | unreported =>
      cases moved
      exact commits _ rfl

/-- A step that changes nothing that others see. -/
theorem sound_quiet {proc new : Proc}
    (takes : ∀ key ∈ new.locks, key ∈ proc.locks ∨ isFree key = true)
    (knows : new.Knows limit domains tables) (told : events.filterMap Event.made = []) :
    Sound limit domains tables isFree proc ⟨new, tables, [], events⟩ :=
  ⟨takes, fun key _ => kept_self key, knows, .quiet events told⟩

theorem sound_idle {proc : Proc} (told : events.filterMap Event.made = []) :
    Sound limit domains tables isFree proc ⟨.creating .idle, tables, [], events⟩ :=
  sound_quiet (fun _ held => (not_mem_nil held).elim) ⟨trivial, trivial⟩ told

/-- An account is disabled. -/
theorem sound_deleted (call : DeleteCall) (told : events.filterMap Event.made = []) :
    Sound limit domains tables isFree (.disabled call)
      ⟨.creating .idle, { tables with rows := tables.rows.map (Row.disable call.account) }, [],
        events⟩ := by
  refine ⟨fun _ held => (not_mem_nil held).elim, ?_, ⟨trivial, trivial⟩,
    .deleted call.account events told⟩
  intro key _
  constructor
  · rw [Key.Same, disable_keysOf]
    exact id
  · intro other _
    exact registeredCount_disable call.account tables.rows other

theorem moveOf_sound (positive : 0 < limit) {proc : Proc} {act : Act} {move : Move}
    (knows : proc.Knows limit domains tables)
    (same : ∀ call mailboxId, act = .create (.createAgent call) mailboxId →
      call.maxPerOwnerSpace = limit)
    (moved : moveOf codec domains tables isFree proc act = some move) :
    Sound limit domains tables isFree proc move := by
  unfold moveOf at moved
  split at moved
  · rename_i base act mailboxId
    split at moved <;> try contradiction
    rename_i creates
    apply createMove_sound positive knows creates ?_ moved
    rintro call rfl
    exact same call mailboxId rfl
  · dsimp only at moved
    split at moved
    · cases moved
      exact sound_idle rfl
    · cases moved
      exact sound_quiet (fun _ held => (not_mem_nil held).elim) trivial rfl
  · rename_i call
    split at moved
    · cases moved
      exact sound_idle rfl
    split at moved <;> try contradiction
    rename_i isFree_
    split at moved
    · cases moved
      refine sound_quiet (fun key held => ?_) trivial rfl
      cases mem_singleton.mp held
      exact Or.inr isFree_
    · cases moved
      exact sound_idle rfl
  · rename_i call
    split at moved
    · cases moved
      exact sound_quiet (fun _ held => Or.inl held) trivial rfl
    · cases moved
      exact sound_idle rfl
  · rename_i call outcome
    cases outcome with
    | committed =>
      cases moved
      exact sound_deleted call rfl
    | failed =>
      cases moved
      exact sound_idle rfl
    | unreported =>
      cases moved
      exact sound_deleted call rfl
  · cases moved
    exact sound_idle rfl
  · cases moved
    exact sound_idle rfl
  · cases moved
    exact sound_idle rfl
  · cases moved

end Moves

/-! ### Runs -/

/-- A row as it was before deletions. -/
def Row.enabled : Row → Row
  | .account id tenant principal owner name _ => .account id tenant principal owner name false
  | row => row

/-- What a call creates: a principal, an account, its primary address, its registration and its
Inbox. -/
def Made.rows (made : Made) : List Row :=
  let address := addressText made.call.localpart made.zone
  [.principal made.ids.principal made.call.tenant address,
    .account made.ids.account made.call.tenant (some made.ids.principal) (some made.call.owner)
      ("agent-mailbox:".toList ++ address) false,
    .address made.ids.address made.call.tenant made.domain made.ids.account made.call.localpart
      false,
    .registration made.ids.account made.call.tenant made.call.owner made.call.space,
    .mailbox made.ids.account inbox]

/-- What the calls that took effect have created. -/
def State.made (state : State) : List Made := state.trace.filterMap Event.made

structure Good (limit : Nat) (domains : List Domain) (start : List Row) (state : State) : Prop where
  guarded : Protected (discipline limit domains) state.tables state.procs
  within : ∀ call, registeredCount state.tables.rows call ≤ limit
  rows : state.tables.rows.map Row.enabled = start.map Row.enabled ++ state.made.flatMap Made.rows
  books : state.books = state.made.map Made.books

section Runs

variable {codec : Codec} {domains : List Domain} {limit : Nat} {start : List Row}

theorem enabled_disable (id : Nat) (row : Row) :
    Row.enabled (Row.disable id row) = Row.enabled row := by
  cases row <;> rfl

theorem effect_within {before after : List Row} {books : List Store.Database}
    (effect : Effect limit before after books events)
    (within : ∀ call, registeredCount before call ≤ limit) (call : AgentCall) :
    registeredCount after call ≤ limit := by
  cases effect with
  | quiet => exact within call
  | made made _ _ below fresh =>
    obtain ⟨one, same⟩ := registeredCount_commit fresh call
    by_cases alike : Alike made.call call
    · rw [registeredCount_alike alike] at below
      exact Nat.le_trans one below
    · exact Nat.le_trans (Nat.le_of_eq (same alike)) (within call)
  | deleted id => exact Nat.le_trans (registeredCount_disable id before call) (within call)

theorem effect_rows {before after : List Row} {books : List Store.Database}
    (effect : Effect limit before after books events) :
    after.map Row.enabled = before.map Row.enabled ++
        (events.filterMap Event.made).flatMap Made.rows ∧
      books = (events.filterMap Event.made).map Made.books := by
  cases effect with
  | quiet _ told => simp [told]
  | made _ _ told =>
    simp only [told, map_append, flatMap_singleton, map_singleton, and_true]
    rfl
  | deleted _ _ told => simp [told, enabled_disable, Function.comp_def]

theorem step_good (positive : 0 < limit) {state next : State} {label : Label}
    (good : Good limit domains start state) (same : SameLimit limit state label)
    (moved : step codec domains state label = some next) : Good limit domains start next := by
  simp only [step, Option.bind_eq_bind, Option.pure_def] at moved
  obtain ⟨proc, mine, moved⟩ := Option.bind_eq_some_iff.mp moved
  obtain ⟨move, made, done⟩ := Option.bind_eq_some_iff.mp moved
  cases done
  have given : ∀ call mailboxId, label.act = .create (.createAgent call) mailboxId →
      call.maxPerOwnerSpace = limit := by
    intro call mailboxId is
    simpa [SameLimit, is] using same
  have sound := moveOf_sound positive (good.guarded.known mine) given made
  obtain ⟨rows, books⟩ := effect_rows sound.effect
  refine ⟨good.guarded.move mine sound.takes sound.writes sound.knows,
    effect_within sound.effect good.within, ?_, ?_⟩
  · rw [State.made, filterMap_append, flatMap_append, ← append_assoc]
    exact rows.trans (congrArg (· ++ _) good.rows)
  · rw [State.made, filterMap_append, map_append]
    exact congrArg₂ _ good.books books

theorem good_initial {rows : List Row} (within : ∀ call, registeredCount rows call ≤ limit)
    (count : Nat) : Good limit domains rows (initial rows count) :=
  ⟨protected_replicate _ rfl ⟨trivial, trivial⟩, within, (append_nil _).symm, rfl⟩

end Runs

/-- In every run of calls that create under one limit and of calls that delete, no owner has more
mailboxes in a Space than the limit allows. There is what was there, apart from what is disabled,
and for each call that committed one principal, account, primary address, registration and Inbox,
with the first entries of the log; other calls leave nothing. -/
theorem agent_limit_holds (codec : Codec) (domains : List Domain) (rows : List Row)
    (count limit : Nat) (positive : 0 < limit) (within : ∀ call, registeredCount rows call ≤ limit)
    (labels : List Label) (state : State)
    (same : Meets (step codec domains) (SameLimit limit) (initial rows count) labels)
    (reached : run (step codec domains) (initial rows count) labels = some state) :
    (∀ call, registeredCount state.tables.rows call ≤ limit) ∧
      state.tables.rows.map Row.enabled = rows.map Row.enabled ++ state.made.flatMap Made.rows ∧
      state.books = state.made.map (fun made =>
        firstBooks made.ids.account made.call.tenant made.mailboxId) := by
  have good := invariant (Good limit domains rows) (step_good positive) (good_initial within count)
    same reached
  exact ⟨good.within, good.rows, good.books⟩

/-- Texts as they are. -/
def plainCodec : Codec := ⟨id, id, id⟩

def zones : List Domain := [{ tenant := 1, name := ['d'] }]

/-- An owner with a mailbox. -/
def oneOwner : List Row :=
  [.principal 1 1 ['o'], .account 2 1 (some 1) (some 1) ['o'] false, .address 3 1 0 2 ['o'] false]

def agentCall (localpart : String) : AgentCall := ⟨1, 1, 2, ['s'], localpart.toList, [], 1⟩

/-- A call that creates, from the lock to the commit. -/
def creation (p : Nat) (ids : Ids) (outcome : Outcome) : List Label :=
  [⟨p, .create (.query ids) 0⟩, ⟨p, .create (.query ids) 0⟩] ++
    List.replicate 5 ⟨p, .create .insert 0⟩ ++ [⟨p, .create (.commit outcome) 7⟩]

/-- With a limit of one: a mailbox is created, a second call is refused, and it succeeds once the
first mailbox is deleted. -/
def oneAfterAnother : List Label :=
  [⟨0, .create (.createAgent (agentCall "robot")) 0⟩] ++ creation 0 ⟨4, 5, 6⟩ .committed ++
    [⟨1, .create (.createAgent (agentCall "agent")) 0⟩, ⟨1, .create (.query ⟨8, 9, 10⟩) 0⟩,
      ⟨1, .create (.query ⟨8, 9, 10⟩) 0⟩,
      ⟨0, .delete ⟨1, 1, 5, ['s']⟩⟩, ⟨0, .find⟩, ⟨0, .disable⟩, ⟨0, .commit .committed⟩,
      ⟨1, .create (.createAgent (agentCall "agent")) 0⟩] ++ creation 1 ⟨8, 9, 10⟩ .committed

theorem oneAfterAnother_within :
    ∃ state, run (step plainCodec zones) (initial oneOwner 2) oneAfterAnother = some state ∧
      state.made.map (fun made => made.ids.account) = [5, 9] ∧
      state.trace.contains .failed = true ∧
      (∀ call, registeredCount state.tables.rows call ≤ 1) ∧ state.books.length = 2 := by
  have ended : (run (step plainCodec zones) (initial oneOwner 2) oneAfterAnother).map
      (fun state => (state.made.map (fun made => made.ids.account),
        state.trace.contains .failed)) = some ([5, 9], true) := by decide +kernel
  obtain ⟨state, reached, seen⟩ := Option.map_eq_some_iff.mp ended
  obtain ⟨made, failed⟩ := Prod.mk.inj seen
  have within : ∀ call, registeredCount oneOwner call ≤ 1 := by
    intro call
    have none_ : registeredCount oneOwner call = 0 := by
      rw [registeredCount]
      apply countP_eq_zero.mpr
      intro row _ counts
      obtain ⟨id, _, _, _, registered, _⟩ := (isMailbox_iff _ _ _).mp counts
      simp [oneOwner] at registered
    omega
  obtain ⟨bound, _, books⟩ := agent_limit_holds plainCodec zones oneOwner 2 1 (by decide) within
    oneAfterAnother state (by decide +kernel) reached
  refine ⟨state, reached, made, failed, bound, ?_⟩
  rw [books, length_map]
  simpa using congrArg List.length made

end OctoMail.Provisioning.Agents
