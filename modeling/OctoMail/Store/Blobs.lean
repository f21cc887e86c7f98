import Mathlib.Logic.Function.Basic
import OctoMail.Transition

/-!
# Message bodies, their rows and the collector

Bodies live in a blob store keyed by tenant and content hash
(`storage/blob/blob.go`), rows in the database. `MessageAdd`
(`storage/postgres/message.go`) puts the body first and inserts the row later in the
same transaction; `CollectGarbage` (`storage/postgres/gc.go`) deletes expunged rows
in a transaction of its own and then, for each reference it freed, checks for
remaining referrers and deletes the blob. No lock spans the two stores, so each
put, insert, commit, check and delete is one step, on any number of accounts and
with any number of collectors.

A body, its hash and the hash function are parameters. Of a row only what the
collector reads is kept. A statement sees committed rows and those of its own
transaction. Puts outside account transactions (uploads and submissions) and the
queue's references are included, since the check reads the queue.
-/

namespace OctoMail.Store.Blobs

universe u v
variable {β : Type u} {ρ : Type v} [DecidableEq ρ]

structure Row (ρ : Type v) where
  id : Nat
  account : Nat
  ref : ρ
  expunged : Bool
deriving DecidableEq, Repr

/-- A transaction of one account: its uncommitted rows, the rows it expunges, and
the body `MessageAdd` has stored and not yet inserted a row for. -/
structure Transaction (ρ : Type v) where
  stored : Option ρ
  inserted : List (Row ρ)
  expunging : List Nat
deriving DecidableEq, Repr

/-- A row as the commit leaves it: expunged if the transaction did so. -/
def Transaction.mark (t : Transaction ρ) (account : Nat) (row : Row ρ) : Row ρ :=
  { row with expunged := row.expunged || row.account == account && t.expunging.contains row.id }

/-- A run of the collector after its row delete: the freed references it still
visits, those it has visited, and the one it found unreferenced. -/
structure Collector (ρ : Type v) where
  freed : List (Nat × ρ)
  seen : List (Nat × ρ)
  deleting : Option (Nat × ρ)
deriving DecidableEq, Repr

structure State (β : Type u) (ρ : Type v) where
  /-- The tenant of each account. -/
  tenant : Nat → Nat
  rows : List (Row ρ)
  nextId : Nat
  queue : List (Nat × ρ)
  blobs : Nat → ρ → Option β
  /-- The transaction that holds the lock of each account. -/
  transactions : Nat → Option (Transaction ρ)
  collectors : Nat → Option (Collector ρ)

inductive Label (β : Type u) (ρ : Type v) where
  /-- A transaction takes the account's lock. -/
  | start (account : Nat)
  | put (account : Nat) (body : β)
  | insert (account : Nat)
  | expunge (account row : Nat)
  | commit (account : Nat)
  /-- A rollback for whatever reason, a crash included. -/
  | rollback (account : Nat)
  /-- A put outside any account transaction. -/
  | upload (tenant : Nat) (body : β)
  | enqueue (tenant : Nat) (ref : ρ)
  | retire (tenant : Nat) (ref : ρ)
  /-- The row delete of a collector commits; `rows` is the batch it locked. An
  unreported commit ends the collector. -/
  | deleteRows (collector limit : Nat) (rows : List Nat) (reported : Bool)
  | check (collector : Nat) (failed : Bool)
  | deleteBlob (collector : Nat) (outcome : Transition.Outcome)
  | stop (collector : Nat)
deriving DecidableEq, Repr

namespace State

def initial (tenant : Nat → Nat) : State β ρ where
  tenant := tenant
  rows := []
  nextId := 1
  queue := []
  blobs := fun _ _ => none
  transactions := fun _ => none
  collectors := fun _ => none

def setTransaction (s : State β ρ) (account : Nat) (t : Option (Transaction ρ)) : State β ρ :=
  { s with transactions := Function.update s.transactions account t }

def setCollector (s : State β ρ) (id : Nat) (c : Option (Collector ρ)) : State β ρ :=
  { s with collectors := Function.update s.collectors id c }

/-- What `Blob.Put` leaves in the store. A body that is already there stays. -/
def stored (s : State β ρ) (tenant : Nat) (ref : ρ) (body : β) : State β ρ :=
  { s with blobs := fun t r =>
      if t = tenant ∧ r = ref then some ((s.blobs t r).getD body) else s.blobs t r }

/-- What `Blob.Delete` leaves in the store. -/
def removed (s : State β ρ) (tenant : Nat) (ref : ρ) : State β ρ :=
  { s with blobs := fun t r => if t = tenant ∧ r = ref then none else s.blobs t r }

def start (s : State β ρ) (account : Nat) : Option (State β ρ) :=
  match s.transactions account with
  | some _ => none
  | none => some (s.setTransaction account (some ⟨none, [], []⟩))

def put (hash : β → ρ) (s : State β ρ) (account : Nat) (body : β) : Option (State β ρ) :=
  match s.transactions account with
  | none => none
  | some t => some ((s.stored (s.tenant account) (hash body) body).setTransaction account
      (some { t with stored := some (hash body) }))

def insert (s : State β ρ) (account : Nat) : Option (State β ρ) :=
  match s.transactions account with
  | none => none
  | some t =>
      match t.stored with
      | none => none
      | some ref => some ({ s with nextId := s.nextId + 1 }.setTransaction account
          (some { t with
            stored := none
            inserted := t.inserted ++ [Row.mk s.nextId account ref false] }))

def expunge (s : State β ρ) (account row : Nat) : Option (State β ρ) :=
  match s.transactions account with
  | none => none
  | some t =>
      some (s.setTransaction account (some { t with expunging := t.expunging ++ [row] }))

def commit (s : State β ρ) (account : Nat) : Option (State β ρ) :=
  match s.transactions account with
  | none => none
  | some t => some ({ s with rows := (s.rows ++ t.inserted).map (t.mark account) }.setTransaction
      account none)

def rollback (s : State β ρ) (account : Nat) : Option (State β ρ) :=
  match s.transactions account with
  | none => none
  | some _ => some (s.setTransaction account none)

/-- The size of a collector's batch. -/
def batchLimit (limit : Nat) : Nat := if limit = 0 then 1000 else limit

/-- The batch consists of expunged rows, as many as the limit allows. -/
def deleteRows (s : State β ρ) (id limit : Nat) (rows : List Nat) (reported : Bool) :
    Option (State β ρ) :=
  match s.collectors id with
  | some _ => none
  | none =>
      let doomed := s.rows.filter (fun row => rows.contains row.id)
      if doomed.all (fun row => row.expunged) && doomed.length ≤ batchLimit limit then
        let next := { s with rows := s.rows.filter (fun row => !rows.contains row.id) }
        some (if reported then
            next.setCollector id
              (some ⟨doomed.map (fun row => (s.tenant row.account, row.ref)), [], none⟩)
          else next)
      else none

/-- The reference check: any message row of the tenant, expunged or not, or any
queue row. -/
def referenced (s : State β ρ) (tenant : Nat) (ref : ρ) : Bool :=
  s.rows.any (fun row => s.tenant row.account == tenant && decide (row.ref = ref)) ||
    s.queue.any (fun entry => entry.1 == tenant && decide (entry.2 = ref))

def check (s : State β ρ) (id : Nat) (failed : Bool) : Option (State β ρ) :=
  match s.collectors id with
  | none => none
  | some c =>
      match c.deleting, c.freed with
      | some _, _ => none
      | none, [] => some (s.setCollector id none)
      | none, (tenant, ref) :: rest =>
          if (tenant, ref) ∈ c.seen then some (s.setCollector id (some { c with freed := rest }))
          else if failed then some (s.setCollector id none)
          else
            let visited := { c with freed := rest, seen := (tenant, ref) :: c.seen }
            if s.referenced tenant ref then some (s.setCollector id (some visited))
            else some (s.setCollector id (some { visited with deleting := some (tenant, ref) }))

/-- A failed delete ends the run, whether or not it took effect. -/
def deleteBlob (s : State β ρ) (id : Nat) (outcome : Transition.Outcome) : Option (State β ρ) :=
  match s.collectors id with
  | none => none
  | some c =>
      match c.deleting with
      | none => none
      | some (tenant, ref) =>
          match outcome with
          | .committed =>
              some ((s.removed tenant ref).setCollector id (some { c with deleting := none }))
          | .failed => some (s.setCollector id none)
          | .unreported => some ((s.removed tenant ref).setCollector id none)

def stop (s : State β ρ) (id : Nat) : Option (State β ρ) :=
  match s.collectors id with
  | none => none
  | some _ => some (s.setCollector id none)

def step (hash : β → ρ) (s : State β ρ) : Label β ρ → Option (State β ρ)
  | .start account => s.start account
  | .put account body => s.put hash account body
  | .insert account => s.insert account
  | .expunge account row => s.expunge account row
  | .commit account => s.commit account
  | .rollback account => s.rollback account
  | .upload tenant body => some (s.stored tenant (hash body) body)
  | .enqueue tenant ref => some { s with queue := s.queue ++ [(tenant, ref)] }
  | .retire tenant ref => some { s with queue := s.queue.erase (tenant, ref) }
  | .deleteRows id limit rows reported => s.deleteRows id limit rows reported
  | .check id failed => s.check id failed
  | .deleteBlob id outcome => s.deleteBlob id outcome
  | .stop id => s.stop id

end State

/-- The collector has freed a row of the body and not looked at the body yet. -/
def Collector.unvisited (c : Collector ρ) (tenant : Nat) (ref : ρ) : Bool :=
  (tenant, ref) ∈ c.freed && (tenant, ref) ∉ c.seen

end OctoMail.Store.Blobs
