import OctoMail.Program
import OctoMail.Store.Shapes
import OctoMail.Table

/-!
# The tables and a writer transaction

The tables the store's mutators read and write (`storage/postgres/schema`), and the
state of one writer transaction (`storage/postgres/account.go`): the tables as the
transaction sees them, the account, the log position it has reached and the entries
it has yet to append.

A statement is a change of the tables by its WHERE clause. Identity columns are
counters shared by all accounts, so a bare id names one row. What the schema refuses
(a duplicate key, a second live mailbox of one name, a message in a mailbox of
another account, a NULL keyword array) fails the transaction, and a transaction that
fails leaves nothing. A writer holds its account's lock to the end, so transactions
of one account run one after the other; those of other accounts touch other rows,
the tenant's quota counter apart.
-/

namespace OctoMail.Store

open Program

structure AccountRow where
  id : Nat
  tenantId : Nat
  quotaBytes : Option Nat := none
  changelogSeq : Nat := 0
  uidvalidityNext : Nat := 1
deriving DecidableEq, Repr

structure TenantRow where
  id : Nat
  quotaBytes : Option Nat := none
deriving DecidableEq, Repr

/-- A quota counter belongs to an account or to a tenant. -/
inductive Scope where
  | tenant (id : Nat)
  | account (id : Nat)
deriving DecidableEq, Repr

structure QuotaRow where
  scope : Scope
  bytesUsed : Int
  msgCount : Int
deriving DecidableEq, Repr

structure LogRow where
  accountId : Nat
  seq : Nat
  change : Change
deriving DecidableEq, Repr

structure Database where
  accounts : List AccountRow := []
  tenants : List TenantRow := []
  mailboxes : List Mailbox := []
  messages : List Message := []
  changelog : List LogRow := []
  quotaCounters : List QuotaRow := []
  nextMailboxId : Nat := 1
  nextMessageId : Nat := 1
deriving DecidableEq, Repr

/-- Why a transaction body gives up. -/
inductive Failure where
  | notFound
  | noRows
  | overQuota
  | constraint (name : String)
  | blob
  | noSource
  | no (text : String)
  | status (code : Nat) (name text : String)
deriving DecidableEq, Repr

/-- The order in which Go visits the entries of a map: any order, and another one
each time. A site of the program and the place in its run select the order. -/
structure MapOrder where
  visit : {α : Type} → List Nat → List α → List α
  perm : ∀ {α : Type} (site : List Nat) (entries : List α), (visit site entries).Perm entries

/-- What a request finds around it: the clock, the Unicode case folding of
`strings.EqualFold`, the orders of map iteration, and what reading back the body of
a message and storing it again returns (its reference and length, none on an error). -/
structure Env where
  now : Nat
  equalFold : String → String → Bool
  order : MapOrder
  stored : Message → Option (String × Nat)

/-- A message body as `Blob.Put` meets it: the size it announces, and the reference
and length it is stored under, none where storing it fails. -/
structure Body where
  size : Nat
  put : Option (String × Nat)
deriving DecidableEq, Repr

/-- `pgTx`. The change list the source keeps beside the entries holds the entries' changes. -/
structure Tx where
  db : Database
  accountId : Nat
  tenantId : Nat
  seq : Nat
  entries : List LogRow
deriving DecidableEq, Repr

abbrev Txn (α : Type) := StateT Tx (Except Failure) α

namespace Database

def account (db : Database) (id : Nat) : Option AccountRow :=
  db.accounts.find? (fun a => a.id == id)

def setAccounts (db : Database) (id : Nat) (f : AccountRow → AccountRow) : Database :=
  { db with accounts := Table.update (fun a => a.id == id) f db.accounts }

def setMailboxes (db : Database) (chosen : Mailbox → Bool) (f : Mailbox → Mailbox) : Database :=
  { db with mailboxes := Table.update chosen f db.mailboxes }

def setMessages (db : Database) (chosen : Message → Bool) (f : Message → Message) : Database :=
  { db with messages := Table.update chosen f db.messages }

/-- `INSERT … ON CONFLICT DO UPDATE` of one quota counter. -/
def bumpQuotaScope (db : Database) (scope : Scope) (dCount dSize : Int) : Database :=
  if db.quotaCounters.any (fun row => row.scope == scope) then
    { db with
      quotaCounters := Table.update (fun row => row.scope == scope)
        (fun row =>
          { row with bytesUsed := row.bytesUsed + dSize, msgCount := row.msgCount + dCount })
        db.quotaCounters }
  else { db with quotaCounters := db.quotaCounters ++ [⟨scope, dSize, dCount⟩] }

end Database

namespace Tx

def modifyDb (change : Database → Database) : Txn Unit :=
  modify (fun pt => { pt with db := change pt.db })

/-- Advance and return the account's log position. -/
def nextModSeq : Txn Nat := do
  modify (fun pt => { pt with seq := pt.seq + 1 })
  return (← get).seq

/-- Append a change to the pending log: at the position it carries, or, for a derived
change, at a fresh one. -/
def record (change : Change) : Txn Unit :=
  modify (fun pt =>
    match change.changeModSeq with
    | some seq => { pt with entries := pt.entries ++ [⟨pt.accountId, seq, change⟩] }
    | none => { pt with
        seq := pt.seq + 1
        entries := pt.entries ++ [⟨pt.accountId, pt.seq + 1, change⟩] })

/-- One `INSERT INTO changelog`; the key is the account and the position. -/
def appendLog (entry : LogRow) : Txn Unit := do
  let pt ← get
  refuse (pt.db.changelog.any (fun row =>
    row.accountId == entry.accountId && row.seq == entry.seq)) (.constraint "changelog_pkey")
  modifyDb (fun db => { db with changelog := db.changelog ++ [entry] })

/-- Persist the entries and the advanced head. -/
def flush : Txn Unit := do
  let pt ← get
  pt.entries.forM appendLog
  modifyDb (fun db => db.setAccounts pt.accountId (fun a => { a with changelogSeq := pt.seq }))

end Tx

/-- A writer transaction of one account: read the head, run the body, persist the log. A
body that fails changes nothing. -/
def Database.transact {α : Type} (db : Database) (accountId : Nat) (body : Txn α) :
    Except Failure (α × Database) :=
  match db.account accountId with
  | none => .error .noRows
  | some a =>
      match (do let result ← body; Tx.flush; return result : Txn α)
        ⟨db, a.id, a.tenantId, a.changelogSeq, []⟩ with
      | .error failure => .error failure
      | .ok (result, pt) => .ok (result, pt.db)

end OctoMail.Store
