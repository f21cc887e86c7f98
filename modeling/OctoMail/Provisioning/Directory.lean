import Mathlib
import OctoMail.RowLocks
import OctoMail.Transition
import OctoMail.UniqueRows

/-!
# Mailboxes and their owners

`storage/postgres/gateway_provisioning.go`, and `CreateAgentMailbox` and
`CreateAccountAlias` of `storage/postgres/directory.go`. `EnsureGatewayIdentity` binds an
issuer, a subject and a Space to a principal, an account, an address and an Inbox of their
own, at their first use. The other two add mailboxes of agents and aliases, in the same
tables.

Calls on any number of nodes interleave at their statements. An INSERT waits for a
transaction that has inserted the same key, and fails if the key is there. The ids of new
rows are any that nothing has yet. A transaction may fail or stop anywhere, and may commit
unreported. Locks of foreign keys are left out: they only let calls wait.
-/

namespace OctoMail.Provisioning

open Transition RowLocks UniqueRows

abbrev Text := List Char

/-- The text functions of the Go library, and the SHA-256 digest of a text in hexadecimal. -/
structure Codec where
  trimSpace : Text → Text
  toLower : Text → Text
  hexDigest : Text → Text

structure Triple where
  issuer : Text
  subject : Text
  space : Text
deriving DecidableEq, Repr

/-- A row of `domains`, which stands at its id. -/
structure Domain where
  tenant : Nat
  name : Text
  disabled : Bool := false
deriving DecidableEq, Repr

inductive Row where
  | principal (id tenant : Nat) (login : Text)
  | account (id tenant : Nat) (principal owner : Option Nat) (name : Text) (disabled : Bool)
  | address (id tenant domain account : Nat) (localpart : Text) (isAlias : Bool)
  | mailbox (account : Nat) (name : Text)
  | registration (account tenant owner : Nat) (space : Text)
  | identity (triple : Triple) (tenant owner account : Nat) (disabled : Bool)
deriving DecidableEq, Repr

/-- A row that is locked, or a value that a unique index has. -/
inductive Key where
  | domain (id : Nat)
  | owner (id : Nat)
  | principal (id : Nat)
  | login (login : Text)
  | account (id : Nat)
  | accountName (tenant : Nat) (name : Text)
  | address (id : Nat)
  | localpart (domain : Nat) (localpart : Text)
  | mailbox (account : Nat) (name : Text)
  | registration (account : Nat)
  | identity (triple : Triple)
deriving DecidableEq, Repr

def Row.keys : Row → List Key
  | .principal id _ login => [.principal id, .login login]
  | .account id tenant _ _ name _ => [.account id, .accountName tenant name]
  | .address id _ domain _ localpart _ => [.address id, .localpart domain localpart]
  | .mailbox holder name => [.mailbox holder name]
  | .registration holder _ _ _ => [.registration holder]
  | .identity triple _ _ _ _ => [.identity triple]

/-- The foreign keys. -/
def Row.refs : Row → List Key
  | .principal _ _ _ => []
  | .account _ _ login owner _ _ => (login.toList ++ owner.toList).map .principal
  | .address _ _ _ holder _ _ => [.account holder]
  | .mailbox holder _ => [.account holder]
  | .registration holder _ owner _ => [.account holder, .principal owner]
  | .identity _ _ owner holder _ => [.principal owner, .account holder]

/-! ### Queries -/

/-- An address with its id and the domain it is in. -/
structure Place where
  id : Nat
  domain : Nat
  localpart : Text
deriving DecidableEq, Repr

/-- The addresses of an account that are no aliases. -/
def places (rows : List Row) (tenant account : Nat) : List Place :=
  rows.filterMap fun
    | .address id tenant' domain account' localpart false =>
        if tenant' = tenant ∧ account' = account then some ⟨id, domain, localpart⟩ else none
    | _ => none

/-- The first place in the order of ids. -/
def firstPlace : List Place → Option Place
  | [] => none
  | place :: rest =>
      match firstPlace rest with
      | none => some place
      | some other => if other.id < place.id then some other else some place

def hasAccount (rows : List Row) (tenant id : Nat) : Bool :=
  rows.any fun
    | .account id' tenant' _ _ _ _ => id' == id && tenant' == tenant
    | _ => false

def owns (rows : List Row) (tenant owner id : Nat) : Bool :=
  rows.any fun
    | .account id' tenant' _ owner' _ _ => id' == id && tenant' == tenant && owner' == some owner
    | _ => false

/-- What `gatewayProvisioningIdentity` finds. -/
structure Result where
  tenant : Nat
  principal : Nat
  account : Nat
  address : Text
deriving DecidableEq, Repr

inductive Lookup where
  | absent
  | refused
  | found (result : Result)
deriving DecidableEq, Repr

def addressText (localpart domain : Text) : Text := localpart ++ '@' :: domain

/-- The text of the primary address, if there is one. -/
def addressOf (domains : List Domain) (rows : List Row) (tenant account : Nat) : Option Text := do
  let place ← firstPlace (places rows tenant account)
  let domain ← domains[place.domain]?
  if domain.tenant = tenant then some (addressText place.localpart domain.name) else none

def gatewayProvisioningIdentity (domains : List Domain) (rows : List Row) (triple : Triple) :
    Lookup :=
  let found := rows.findSome? fun
    | .identity triple' tenant owner account disabled =>
        if triple' = triple then some (tenant, owner, account, disabled) else none
    | _ => none
  match found with
  | none => .absent
  | some (tenant, owner, account, disabled) =>
      if disabled then .refused
      else
        -- the account is joined if it is the owner's, and counts as disabled otherwise
        let enabled := rows.any fun
          | .account id tenant' _ owner' _ disabled' =>
              id == account && tenant' == tenant && owner' == some owner && !disabled'
          | _ => false
        match addressOf domains rows tenant account with
        | none => .refused
        | some address =>
            if enabled && address != [] then .found ⟨tenant, owner, account, address⟩
            else .refused

/-- A candidate is taken by an address or by a login. -/
def occupied (rows : List Row) (tenant domain : Nat) (localpart login : Text) : Bool :=
  rows.any fun
    | .address _ tenant' domain' _ localpart' _ =>
        tenant' == tenant && domain' == domain && localpart' == localpart
    | .principal _ _ login' => login' == login
    | _ => false

def isAlnum (c : Char) : Bool := ('a' ≤ c && c ≤ 'z') || ('0' ≤ c && c ≤ '9')

def isSeparator (c : Char) : Bool := c == '.' || c == '_' || c == '-'

/-- `aliasLocalpartPattern`. -/
def matchesAlias : Text → Bool
  | [] => false
  | first :: rest => isAlnum first &&
      match rest.getLast? with
      | none => true
      | some last => isAlnum last && decide (rest.length ≤ 63) &&
          rest.all (fun c => isAlnum c || isSeparator c)

def hasDots : Text → Bool
  | '.' :: '.' :: _ => true
  | _ :: rest => hasDots rest
  | [] => false

def validGatewayLocalpart (localpart : Text) : Bool := matchesAlias localpart && !hasDots localpart

def reservedAgentMailboxLocalparts : List Text :=
  ["abuse", "admin", "administrator", "hostmaster", "mailer-daemon", "noc", "postmaster", "root",
    "security", "webmaster"].map String.toList

def validAgentMailboxLocalpart (localpart : Text) : Bool :=
  decide (5 ≤ localpart.length) && matchesAlias localpart && !hasDots localpart &&
    !reservedAgentMailboxLocalparts.contains localpart

/-- The digest of a triple, in hexadecimal. -/
def Triple.digest (triple : Triple) (codec : Codec) : Text :=
  codec.hexDigest (triple.issuer ++ Char.ofNat 0 :: triple.subject ++ Char.ofNat 0 :: triple.space)

def suffixedGatewayLocalpart (codec : Codec) (preferred : Text) (triple : Triple) : Text :=
  ((preferred.take 52).reverse.dropWhile isSeparator).reverse ++ '-' ::
    (triple.digest codec).take 10

def accountName (codec : Codec) (triple : Triple) : Text :=
  "gateway-owner:".toList ++ (triple.digest codec).take 32

def inbox : Text := "Inbox".toList

/-! ### Calls -/

def byteLength (text : Text) : Nat := (text.map Char.utf8Size).sum

structure Input where
  triple : Triple
  localpart : Text
  domain : Text
deriving DecidableEq, Repr

def Input.trimmed (input : Input) (codec : Codec) : Input :=
  { triple := ⟨codec.trimSpace input.triple.issuer, codec.trimSpace input.triple.subject,
      codec.trimSpace input.triple.space⟩
    localpart := codec.toLower (codec.trimSpace input.localpart)
    domain := codec.toLower (codec.trimSpace input.domain) }

def Triple.valid (triple : Triple) : Bool :=
  triple.issuer != [] && triple.subject != [] && triple.space != [] &&
    decide (byteLength triple.issuer ≤ 200) && decide (byteLength triple.subject ≤ 300) &&
    decide (byteLength triple.space ≤ 300)

/-- The arguments of `CreateAgentMailbox` and the tenant of its scope. -/
structure AgentCall where
  tenant : Nat
  owner : Nat
  source : Nat
  space : Text
  localpart : Text
  configuredDomain : Text
  maxPerOwnerSpace : Int
deriving DecidableEq, Repr

def AgentCall.trimmed (call : AgentCall) (codec : Codec) : AgentCall :=
  { call with
    space := codec.trimSpace call.space
    localpart := codec.toLower (codec.trimSpace call.localpart)
    configuredDomain := codec.toLower (codec.trimSpace call.configuredDomain)
    maxPerOwnerSpace := if call.maxPerOwnerSpace ≤ 0 then 2 else call.maxPerOwnerSpace }

/-- The ids that the sequences give to the rows of a transaction. -/
structure Ids where
  principal : Nat
  account : Nat
  address : Nat
deriving DecidableEq, Repr

/-- What a transaction inserts. -/
inductive Job where
  | ensure (triple : Triple) (domain : Nat) (zone : Domain) (localpart name : Text) (ids : Ids)
  | agent (call : AgentCall) (domain : Nat) (zone : Text) (ids : Ids)
  | alias_ (tenant domain account : Nat) (localpart : Text) (id : Nat)
deriving DecidableEq, Repr

/-- The rows in the order in which they are inserted. -/
def Job.rows : Job → List Row
  | .ensure triple domain zone localpart name ids =>
      [.principal ids.principal zone.tenant (addressText localpart zone.name),
        .account ids.account zone.tenant (some ids.principal) (some ids.principal) name false,
        .address ids.address zone.tenant domain ids.account localpart false,
        .mailbox ids.account inbox,
        .identity triple zone.tenant ids.principal ids.account false]
  | .agent call domain zone ids =>
      let address := addressText call.localpart zone
      [.principal ids.principal call.tenant address,
        .account ids.account call.tenant (some ids.principal) (some call.owner)
          ("agent-mailbox:".toList ++ address) false,
        .address ids.address call.tenant domain ids.account call.localpart false,
        .registration ids.account call.tenant call.owner call.space,
        .mailbox ids.account inbox]
  | .alias_ tenant domain account localpart id =>
      [.address id tenant domain account localpart true]

/-- The row that a transaction locks before it inserts. -/
def Job.locks : Job → List Key
  | .ensure _ domain _ _ _ _ => [.domain domain]
  | .agent call _ _ _ => [.owner call.owner]
  | .alias_ _ _ _ _ _ => []

/-- What a call answers when it has inserted. -/
def Job.answer : Job → Option (Triple × Result)
  | .ensure triple _ zone localpart _ ids =>
      some (triple, ⟨zone.tenant, ids.principal, ids.account, addressText localpart zone.name⟩)
  | _ => none

inductive Proc where
  | idle
  /-- `EnsureGatewayIdentity` is about to look, to lock the domain, to look again, and to choose
  from candidates. -/
  | looking (input : Input)
  | locking (input : Input)
  | locked (input : Input) (domain : Nat) (zone : Domain)
  | choosing (input : Input) (domain : Nat) (zone : Domain) (candidates : List Text)
  /-- `CreateAgentMailbox` has locked the owner, and has found a domain. -/
  | registering (call : AgentCall)
  | counting (call : AgentCall) (domain : Nat) (zone : Text)
  | aliasing (tenant account : Nat) (localpart : Text)
  /-- Rows are inserted; the first ones are. -/
  | inserting (job : Job) (done : Nat)
deriving DecidableEq, Repr

/-- The rows that a transaction has inserted. -/
def Proc.inserted : Proc → List Row
  | .inserting job done => job.rows.take done
  | _ => []

def Proc.locks : Proc → List Key
  | .locked _ domain _ | .choosing _ domain _ _ => [.domain domain]
  | .registering call | .counting call _ _ => [.owner call.owner]
  | .inserting job done => job.locks ++ keysOf Row.keys (job.rows.take done)
  | _ => []

inductive Act where
  | ensure (input : Input)
  | createAgent (call : AgentCall)
  | createAlias (tenant account : Nat) (localpart : Text)
  | lock
  /-- The next query, with ids for the rows that follow. -/
  | query (ids : Ids)
  | insert
  | commit (outcome : Outcome)
  | stop
deriving DecidableEq, Repr

/-- The rows that are committed, and what was answered. -/
structure Tables where
  rows : List Row := []
  answers : List (Triple × Result) := []
deriving DecidableEq, Repr

structure Move where
  proc : Proc
  tables : Tables

/-- The domain with a name, if it is enabled. -/
def domainNamed (domains : List Domain) (name : Text) : Option (Nat × Domain) :=
  (domains.zipIdx.find? (fun (zone, _) => zone.name == name && !zone.disabled)).map
    (fun (zone, id) => (id, zone))

/-- The domain in which `CreateAgentMailbox` creates. -/
def agentDomain (domains : List Domain) (rows : List Row) (call : AgentCall) :
    Option (Nat × Text) := do
  let place ← if owns rows call.tenant call.owner call.source then
      (places rows call.tenant call.source).head? else none
  let zone ← domains[place.domain]?
  if zone.tenant ≠ call.tenant then none
  else if call.configuredDomain = [] then some (place.domain, zone.name)
  else do
    let (id, zone) ← domainNamed domains call.configuredDomain
    if zone.tenant = call.tenant then some (id, zone.name) else none

/-- An account that counts for an owner in a Space: registered there, and the default account
of no gateway identity. -/
def isMailbox (rows : List Row) (call : AgentCall) : Row → Bool
  | .account id tenant _ owner _ disabled =>
      tenant == call.tenant && owner == some call.owner && !disabled &&
        rows.contains (.registration id call.tenant call.owner call.space) &&
        !rows.any fun
          | .identity triple tenant' owner' account disabled' =>
              account == id && tenant' == call.tenant && owner' == call.owner &&
                triple.space == call.space && !disabled'
          | _ => false
  | _ => false

/-- How many mailboxes of agents the owner has in the Space. -/
def registeredCount (rows : List Row) (call : AgentCall) : Nat :=
  rows.countP (isMailbox rows call)

/-- What is committed, with the answer if the caller hears of it. -/
def Tables.commit (tables : Tables) (job : Job) (reported : Bool) : Tables :=
  { rows := tables.rows ++ job.rows
    answers := if reported then tables.answers ++ job.answer.toList else tables.answers }

def Tables.respond (tables : Tables) (triple : Triple) (result : Result) : Tables :=
  { tables with answers := tables.answers ++ [(triple, result)] }

section Step

variable (codec : Codec) (domains : List Domain)

def moveOf (tables : Tables) (isFree : Key → Bool) : Proc → Act → Option Move
  | _, .stop => some ⟨.idle, tables⟩
  -- EnsureGatewayIdentity
  | .idle, .ensure input =>
      let input := input.trimmed codec
      some ⟨if input.triple.valid then .looking input else .idle, tables⟩
  | .looking input, .query _ =>
      match gatewayProvisioningIdentity domains tables.rows input.triple with
      | .found result => some ⟨.idle, tables.respond input.triple result⟩
      | .refused => some ⟨.idle, tables⟩
      | .absent =>
          some ⟨if validGatewayLocalpart input.localpart && input.domain != [] then .locking input
            else .idle, tables⟩
  | .locking input, .lock =>
      match domainNamed domains input.domain with
      | none => some ⟨.idle, tables⟩
      | some (id, zone) =>
          if isFree (.domain id) then some ⟨.locked input id zone, tables⟩ else none
  | .locked input id zone, .query _ =>
      match gatewayProvisioningIdentity domains tables.rows input.triple with
      | .found result => some ⟨.idle, tables.respond input.triple result⟩
      | .refused => some ⟨.idle, tables⟩
      | .absent =>
          some ⟨.choosing input id zone
            [input.localpart, suffixedGatewayLocalpart codec input.localpart input.triple], tables⟩
  | .choosing _ _ _ [], .query _ => some ⟨.idle, tables⟩
  | .choosing input id zone (candidate :: rest), .query ids =>
      if occupied tables.rows zone.tenant id candidate (addressText candidate input.domain) then
        some ⟨.choosing input id zone rest, tables⟩
      else some ⟨.inserting (.ensure input.triple id zone candidate
        (accountName codec input.triple) ids) 0, tables⟩
  -- CreateAgentMailbox
  | .idle, .createAgent call =>
      let call := call.trimmed codec
      if validAgentMailboxLocalpart call.localpart && call.space != [] then
        if tables.rows.any fun
            | .principal id tenant _ => id == call.owner && tenant == call.tenant
            | _ => false then
          if isFree (.owner call.owner) then some ⟨.registering call, tables⟩ else none
        else some ⟨.idle, tables⟩
      else some ⟨.idle, tables⟩
  | .registering call, .query _ =>
      match agentDomain domains tables.rows call with
      | none => some ⟨.idle, tables⟩
      | some (id, zone) => some ⟨.counting call id zone, tables⟩
  | .counting call id zone, .query ids =>
      some ⟨if (registeredCount tables.rows call : Int) < call.maxPerOwnerSpace then
        .inserting (.agent call id zone ids) 0 else .idle, tables⟩
  -- CreateAccountAlias
  | .idle, .createAlias tenant account localpart =>
      let localpart := codec.toLower (codec.trimSpace localpart)
      some ⟨if matchesAlias localpart && !hasDots localpart then
        .aliasing tenant account localpart else .idle, tables⟩
  | .aliasing tenant account localpart, .query ids =>
      match firstPlace (places tables.rows tenant account) with
      | none => some ⟨.idle, tables⟩
      | some place =>
          some ⟨if hasAccount tables.rows tenant account &&
              (domains[place.domain]?.any (fun zone => zone.tenant == tenant)) then
            .inserting (.alias_ tenant place.domain account localpart ids.address) 0
            else .idle, tables⟩
  -- the rows
  | .inserting job done, .insert =>
      match job.rows[done]? with
      | none => none
      | some row =>
          if row.keys.all isFree then
            some ⟨if admits Row.keys Row.refs tables.rows (job.rows.take done) row then
              .inserting job (done + 1) else .idle, tables⟩
          else none
  | .inserting job done, .commit outcome =>
      if done = job.rows.length then
        match outcome with
        | .committed => some ⟨.idle, tables.commit job true⟩
        | .failed => some ⟨.idle, tables⟩
        | .unreported => some ⟨.idle, tables.commit job false⟩
      else none
  | _, _ => none

structure State where
  tables : Tables
  procs : List Proc
deriving DecidableEq, Repr

/-- Calls begin in a database that has rows. -/
def initial (rows : List Row) (count : Nat) : State :=
  { tables := { rows }, procs := List.replicate count .idle }

/-- Which process moves, and how. -/
structure Label where
  proc : Nat
  act : Act
deriving DecidableEq, Repr

def step (state : State) (label : Label) : Option State := do
  let proc ← state.procs[label.proc]?
  let move ← moveOf codec domains state.tables (free Proc.locks state.procs label.proc) proc
    label.act
  pure { tables := move.tables, procs := state.procs.set label.proc move.proc }

end Step

/-! ### What a transaction knows -/

/-- The domain of a binding is there. -/
def Job.Valid (domains : List Domain) : Job → Prop
  | .ensure _ domain zone _ _ _ => domains[domain]? = some zone
  | _ => True

/-- The rows that are inserted are new. -/
def Proc.Knows (domains : List Domain) (tables : Tables) : Proc → Prop
  | .locked _ domain zone | .choosing _ domain zone _ => domains[domain]? = some zone
  | .inserting job done => job.Valid domains ∧ Distinct Row.keys (job.rows.take done) ∧
      ∀ key ∈ keysOf Row.keys (job.rows.take done), key ∉ keysOf Row.keys tables.rows
  | _ => True

/-- The rows that are inserted refer to what is there. -/
def Proc.Settled (tables : Tables) (proc : Proc) : Prop :=
  Grounded Row.keys Row.refs proc.inserted tables.rows

theorem settled_nothing {tables : Tables} {proc : Proc} (nothing : proc.inserted = []) :
    proc.Settled tables := by
  intro row member
  rw [nothing] at member
  cases member

/-- A key that is not there is still not there. -/
def Key.Same (before after : Tables) (key : Key) : Prop :=
  key ∉ keysOf Row.keys before.rows → key ∉ keysOf Row.keys after.rows

variable {after : Tables}

theorem Proc.knows_framed {domains : List Domain} {before : Tables} {proc : Proc}
    (same : ∀ key ∈ proc.locks, key.Same before after) (knows : proc.Knows domains before) :
    proc.Knows domains after := by
  cases proc with
  | inserting =>
    obtain ⟨valid, distinct, fresh⟩ := knows
    exact ⟨valid, distinct, fun key mine =>
      same key (List.mem_append_right _ mine) (fresh key mine)⟩
  | _ => exact knows

def discipline (domains : List Domain) : Discipline Proc Key Tables where
  locks := Proc.locks
  knows tables proc := proc.Knows domains tables
  same before after key := key.Same before after
  framed := Proc.knows_framed

/-- What a step does to the tables: nothing, an answer that was found, or all rows of a job. -/
inductive Change (domains : List Domain) (before : Tables) : Proc → Tables → Prop where
  | none (proc : Proc) : Change domains before proc before
  | answered (proc : Proc) (triple : Triple) (result : Result)
      (found : gatewayProvisioningIdentity domains before.rows triple = .found result) :
      Change domains before proc (before.respond triple result)
  | committed (job : Job) (reported : Bool) :
      Change domains before (.inserting job job.rows.length) (before.commit job reported)

section Sound

variable {codec : Codec} {domains : List Domain} {tables : Tables} {proc : Proc}

theorem Change.writes (change : Change domains tables proc after) (key : Key)
    (unheld : key ∉ proc.locks) : key.Same tables after := by
  cases change with
  | none | answered => exact fun absent => absent
  | committed =>
    intro absent member
    rcases mem_keysOf_append.mp member with before | mine
    · exact absent before
    · refine unheld (List.mem_append_right _ ?_)
      rw [List.take_length]
      exact mine

structure Sound (domains : List Domain) (tables : Tables) (isFree : Key → Bool) (proc : Proc)
    (move : Move) : Prop where
  takes : ∀ key ∈ move.proc.locks, key ∈ proc.locks ∨ isFree key = true
  knows : move.proc.Knows domains move.tables
  settles : proc.Settled tables → move.proc.Settled tables
  change : Change domains tables proc move.tables

variable {isFree : Key → Bool} {new : Proc}

/-- A step that reads and goes on without having inserted. -/
theorem sound_reading (takes : ∀ key ∈ new.locks, key ∈ proc.locks ∨ isFree key = true)
    (knows : new.Knows domains tables) (nothing : new.inserted = []) :
    Sound domains tables isFree proc ⟨new, tables⟩ :=
  ⟨takes, knows, fun _ => settled_nothing nothing, .none proc⟩

theorem sound_idle : Sound domains tables isFree proc ⟨.idle, tables⟩ :=
  sound_reading (fun _ held => nomatch held) trivial rfl

theorem sound_change (change : Change domains tables proc after) :
    Sound domains tables isFree proc ⟨.idle, after⟩ :=
  ⟨(fun _ held => nomatch held), trivial, fun _ => settled_nothing rfl, change⟩

variable {job : Job}

/-- A job begins with the lock it has. -/
theorem sound_begin (valid : job.Valid domains) (locked : ∀ key ∈ job.locks, key ∈ proc.locks) :
    Sound domains tables isFree proc ⟨.inserting job 0, tables⟩ := by
  refine sound_reading (fun key held => .inl (locked key ?_)) ⟨valid, List.nodup_nil, nofun⟩ rfl
  simpa [Proc.locks, keysOf] using held

theorem domainNamed_some {name : Text} {id : Nat} {zone : Domain}
    (found : domainNamed domains name = some (id, zone)) : domains[id]? = some zone := by
  obtain ⟨⟨other, position⟩, here, same⟩ := Option.map_eq_some_iff.mp found
  cases same
  exact List.mk_mem_zipIdx_iff_getElem?.mp (List.mem_of_find?_eq_some here)

theorem take_concat {done : Nat} {row : Row} (next : job.rows[done]? = some row) :
    job.rows.take (done + 1) = job.rows.take done ++ [row] := by
  rw [List.take_add_one, next]
  rfl

/-- A row is inserted. -/
theorem sound_insert {done : Nat} {row : Row} (next : job.rows[done]? = some row)
    (allowed : row.keys.all isFree = true)
    (admitted : admits Row.keys Row.refs tables.rows (job.rows.take done) row = true)
    (knows : (Proc.inserting job done).Knows domains tables) :
    Sound domains tables isFree (.inserting job done) ⟨.inserting job (done + 1), tables⟩ := by
  obtain ⟨valid, distinct, fresh⟩ := knows
  refine ⟨fun key held => ?_, ⟨valid, ?_, ?_⟩, fun settled => ?_, .none _⟩
  · rcases List.mem_append.mp held with held | held
    · exact .inl (List.mem_append_left _ held)
    · rw [take_concat next] at held
      rcases mem_keysOf_append.mp held with before | mine
      · exact .inl (List.mem_append_right _ before)
      · exact .inr (List.all_eq_true.mp allowed key (mem_keysOf_singleton.mp mine))
  · rw [take_concat next]
    exact admits_distinct admitted distinct
  · rw [take_concat next]
    exact admits_fresh admitted fresh
  · have grounded := admits_grounded admitted settled
    rw [← take_concat next] at grounded
    exact grounded

theorem moveOf_sound {act : Act} {move : Move} (knows : proc.Knows domains tables)
    (moved : moveOf codec domains tables isFree proc act = some move) :
    Sound domains tables isFree proc move := by
  unfold moveOf at moved
  split at moved
  · cases moved
    exact sound_idle
  -- EnsureGatewayIdentity
  · cases moved
    split
    · exact sound_reading (fun _ held => nomatch held) trivial rfl
    · exact sound_idle
  · split at moved <;> cases moved
    · rename_i found
      exact sound_change (.answered _ _ _ found)
    · exact sound_idle
    · split
      · exact sound_reading (fun _ held => nomatch held) trivial rfl
      · exact sound_idle
  · split at moved
    · cases moved
      exact sound_idle
    rename_i found
    split at moved
    case isFalse => cases moved
    case isTrue allowed =>
      cases moved
      refine sound_reading (fun key held => .inr ?_) (domainNamed_some found) rfl
      rw [List.mem_singleton.mp held]
      exact allowed
  · split at moved <;> cases moved
    · rename_i found
      exact sound_change (.answered _ _ _ found)
    · exact sound_idle
    · exact sound_reading (fun _ held => .inl held) knows rfl
  · cases moved
    exact sound_idle
  · split at moved <;> cases moved
    · exact sound_reading (fun _ held => .inl held) knows rfl
    · exact sound_begin knows fun _ held => held
  -- CreateAgentMailbox
  · dsimp only at moved
    split at moved
    · split at moved
      · split at moved
        case isFalse => cases moved
        case isTrue allowed =>
          cases moved
          refine sound_reading (fun key held => .inr ?_) trivial rfl
          rw [List.mem_singleton.mp held]
          exact allowed
      · cases moved
        exact sound_idle
    · cases moved
      exact sound_idle
  · split at moved <;> cases moved
    · exact sound_idle
    · exact sound_reading (fun _ held => .inl held) trivial rfl
  · cases moved
    split
    · exact sound_begin trivial fun _ held => held
    · exact sound_idle
  -- CreateAccountAlias
  · cases moved
    split
    · exact sound_reading (fun _ held => nomatch held) trivial rfl
    · exact sound_idle
  · split at moved <;> cases moved
    · exact sound_idle
    · split
      · exact sound_begin trivial fun _ held => nomatch held
      · exact sound_idle
  -- the rows
  · split at moved
    · cases moved
    rename_i row next
    split at moved
    case isFalse => cases moved
    case isTrue allowed =>
      cases moved
      split
      case isTrue admitted => exact sound_insert next allowed admitted knows
      case isFalse => exact sound_idle
  · split at moved
    case isFalse => cases moved
    case isTrue whole =>
      subst whole
      split at moved <;> cases moved
      · exact sound_change (.committed _ true)
      · exact sound_idle
      · exact sound_change (.committed _ false)
  · cases moved

end Sound

end OctoMail.Provisioning
