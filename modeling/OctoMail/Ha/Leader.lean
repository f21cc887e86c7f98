import Mathlib.Logic.Function.Basic
import OctoMail.Transition

/-!
# The leader lease and its fence

One lock key contended by any number of nodes (`ops/ha/ha.go`). The database side
is the `leader_lease` row, the session advisory lock and the row lock a fenced
transaction takes with FOR UPDATE. The node side is a `Leader`: the leadership
connection and epoch, the position of its single campaign goroutine, and the
`FenceExec` calls its work goroutines have in flight. Nodes are named by their
node id, so distinct nodes have distinct ids by construction.

Every database statement, and every write of a field another goroutine can read,
is one step. Between any two of them other nodes may move, a session may be lost
and a process may restart. Statements that fail are choices of the label.

`tenures` and `commits` record history and influence no step: the lease as each
committed claim left it, oldest first, and for each committed `FenceExec` how many tenures
had begun when it read its epoch and when it committed. `heartbeat_at`, the
backend pid and the recovery gate of `TryAcquire` (a claim not attempted) leave
no trace in this state.
-/

namespace OctoMail.Ha

open Transition (Outcome)

/-- A pooled connection, named by the node whose pool opened it. -/
structure Session where
  node : String
  number : Nat
deriving DecidableEq, Repr

/-- The `leader_lease` row of the key. -/
structure Lease where
  holder : String
  epoch : Nat
deriving DecidableEq, Repr

/-- Where the campaign goroutine stands. It is the only caller of TryAcquire,
IsLeader, Heartbeat and Resign, so these never overlap on one node. -/
inductive Campaign where
  | idle
  | locked (session : Session)
  | claimed (session : Session) (epoch : Nat)
  | releasing
  | clearing
deriving DecidableEq, Repr

/-- A `FenceExec` call in flight: the epoch it read, whether its FOR UPDATE check
has passed, and the number of tenures begun when it read the epoch. -/
structure Call where
  epoch : Nat
  passed : Bool
  began : Nat
deriving DecidableEq, Repr

/-- The in-memory state of one process. Epoch zero means not leader. -/
structure Leader where
  conn : Option Session
  epoch : Nat
  campaign : Campaign
  calls : Nat → Option Call

/-- A committed `FenceExec` body, with the tenures begun when the call read its
epoch and when it committed. -/
structure Commit where
  node : String
  epoch : Nat
  began : Nat
  ended : Nat
deriving DecidableEq, Repr

structure State where
  lease : Option Lease
  /-- Owner of the advisory lock and how often that session has taken it. -/
  lock : Option (Session × Nat)
  dead : Session → Bool
  /-- The `FenceExec` call whose transaction holds the lease row locked. -/
  rowLock : Option (String × Nat)
  leaders : String → Leader
  tenures : List Lease
  commits : List Commit

/-- A process that has just started. -/
def New : Leader := ⟨none, 0, .idle, fun _ => none⟩

def initial : State := ⟨none, none, fun _ => false, none, fun _ => New, [], []⟩

def State.setLeader (s : State) (node : String) (leader : Leader) : State :=
  { s with leaders := Function.update s.leaders node leader }

def Leader.setCall (leader : Leader) (call : Nat) (value : Option Call) : Leader :=
  { leader with calls := Function.update leader.calls call value }

/-- `pg_try_advisory_lock`: granted when free, and again to the session that
already holds it. -/
def tryAdvisoryLock (lock : Option (Session × Nat)) (session : Session) :
    Option (Option (Session × Nat)) :=
  match lock with
  | none => some (some (session, 1))
  | some (owner, taken) => if owner = session then some (some (owner, taken + 1)) else none

/-- `pg_advisory_unlock` on a session: one release of a lock it holds, and
nothing otherwise. -/
def advisoryUnlock (lock : Option (Session × Nat)) (session : Session) :
    Option (Session × Nat) :=
  match lock with
  | none => none
  | some (owner, taken) =>
      if owner = session then (if taken ≤ 1 then none else some (owner, taken - 1))
      else some (owner, taken)

/-- A lost session drops the advisory lock it held. -/
def dropLock (lock : Option (Session × Nat)) (lost : Session → Bool) :
    Option (Session × Nat) :=
  lock.filter (fun held => !lost held.1)

/-- The epoch the claiming upsert writes: 1 on insert, one more than the stored
one on conflict. -/
def nextEpoch : Option Lease → Nat
  | none => 1
  | some lease => lease.epoch + 1

inductive Label where
  /-- TryAcquire up to the advisory lock, on pooled connection `number`. -/
  | tryLock (node : String) (number : Nat)
  /-- The lease upsert of TryAcquire. When it reports an error, the advisory lock is
  given back, best effort. -/
  | claim (node : String) (outcome : Outcome) (unlocked : Bool)
  /-- TryAcquire publishes the connection and the epoch. -/
  | lead (node : String)
  | isLeader (node : String) (transientError : Bool)
  | heartbeat (node : String) (transientError : Bool)
  /-- The lease delete of Resign, which runs or fails. -/
  | resign (node : String) (deleted : Bool)
  /-- The first half of `release`: unlock, best effort, and return the connection. -/
  | release (node : String) (unlocked : Bool)
  /-- The second half of `release`: clear the epoch. -/
  | clear (node : String)
  | fenceRead (node : String) (call : Nat)
  | fenceCheck (node : String) (call : Nat)
  | fenceAbort (node : String) (call : Nat)
  | fenceCommit (node : String) (call : Nat)
  | sessionLoss (session : Session)
  | restart (node : String)
deriving DecidableEq, Repr

def State.tryLock (s : State) (node : String) (number : Nat) : Option State :=
  let leader := s.leaders node
  match leader.campaign, leader.conn with
  | .idle, some _ => some s -- already leader
  | .idle, none =>
      let session : Session := ⟨node, number⟩
      if s.dead session then some s else
        match tryAdvisoryLock s.lock session with
        | none => some s
        | some lock => some
            ({ s with lock := lock }.setLeader node { leader with campaign := .locked session })
  | _, _ => none

/-- The upsert needs a live session and waits for a locked lease row. -/
def State.claim (s : State) (node : String) (outcome : Outcome) (unlocked : Bool) :
    Option State :=
  let leader := s.leaders node
  match leader.campaign with
  | .locked session =>
      let lease : Lease := ⟨node, nextEpoch s.lease⟩
      let lock := if unlocked then advisoryUnlock s.lock session else s.lock
      match outcome with
      | .committed =>
          if s.dead session = false ∧ s.rowLock = none then
            some ({ s with lease := some lease, tenures := s.tenures ++ [lease] }.setLeader node
              { leader with campaign := .claimed session lease.epoch })
          else none
      | .unreported =>
          if s.dead session = false ∧ s.rowLock = none then
            some ({ s with
                lock := lock
                lease := some lease
                tenures := s.tenures ++ [lease] }.setLeader node
              { leader with campaign := .idle })
          else none
      | .failed => some ({ s with lock := lock }.setLeader node { leader with campaign := .idle })
  | _ => none

def State.lead (s : State) (node : String) : Option State :=
  let leader := s.leaders node
  match leader.campaign with
  | .claimed session epoch => some (s.setLeader node
      { leader with conn := some session, epoch := epoch, campaign := .idle })
  | _ => none

def Leader.holdsLock (s : State) (session : Session) : Bool :=
  match s.lock with
  | some (owner, _) => owner = session
  | none => false

/-- IsLeader keeps leadership on an error that leaves the connection open and steps
down when the connection is closed or its backend no longer holds the lock. -/
def State.isLeader (s : State) (node : String) (transientError : Bool) : Option State :=
  let leader := s.leaders node
  match leader.campaign, leader.conn with
  | .idle, none => some s
  | .idle, some session =>
      if transientError then some s
      else if s.dead session then some (s.setLeader node { leader with campaign := .releasing })
      else if Leader.holdsLock s session then some s
      else some (s.setLeader node { leader with campaign := .releasing })
  | _, _ => none

/-- Heartbeat renews the row of exactly this holder and epoch, and steps down when
there is none. -/
def State.heartbeat (s : State) (node : String) (transientError : Bool) : Option State :=
  let leader := s.leaders node
  match leader.campaign, leader.conn with
  | .idle, none => some s
  | .idle, some session =>
      if transientError then some s
      else if s.dead session then some (s.setLeader node { leader with campaign := .releasing })
      else if s.lease = some ⟨node, leader.epoch⟩ then
        if s.rowLock = none then some s else none
      else some (s.setLeader node { leader with campaign := .releasing })
  | _, _ => none

/-- Resign deletes the row of exactly this holder and epoch, never a successor's,
and goes on to `release` whether or not the delete ran. -/
def State.resign (s : State) (node : String) (deleted : Bool) : Option State :=
  let leader := s.leaders node
  match leader.campaign, leader.conn with
  | .idle, none => some s
  | .idle, some session =>
      if deleted ∧ s.dead session = false ∧ s.lease = some ⟨node, leader.epoch⟩ then
        if s.rowLock = none then
          some ({ s with lease := none }.setLeader node { leader with campaign := .releasing })
        else none
      else some (s.setLeader node { leader with campaign := .releasing })
  | _, _ => none

def State.release (s : State) (node : String) (unlocked : Bool) : Option State :=
  let leader := s.leaders node
  match leader.campaign, leader.conn with
  | .releasing, some session =>
      let lock := if unlocked then advisoryUnlock s.lock session else s.lock
      some ({ s with lock := lock }.setLeader node
        { leader with conn := none, campaign := .clearing })
  | _, _ => none

def State.clear (s : State) (node : String) : Option State :=
  let leader := s.leaders node
  match leader.campaign with
  | .clearing => some (s.setLeader node { leader with epoch := 0, campaign := .idle })
  | _ => none

/-- FenceExec reads the epoch under the mutex and refuses when it is zero. -/
def State.fenceRead (s : State) (node : String) (call : Nat) : Option State :=
  let leader := s.leaders node
  match leader.calls call with
  | some _ => none
  | none =>
      if leader.epoch = 0 then some s else
        some (s.setLeader node
          (leader.setCall call (some ⟨leader.epoch, false, s.tenures.length⟩)))

/-- The FOR UPDATE select waits for another holder of the row lock, then either
locks the row of this holder and epoch or ends the call with ErrFenced. -/
def State.fenceCheck (s : State) (node : String) (call : Nat) : Option State :=
  let leader := s.leaders node
  match leader.calls call with
  | some ⟨epoch, false, began⟩ =>
      if s.rowLock = none then
        if s.lease = some ⟨node, epoch⟩ then
          some ({ s with rowLock := some (node, call) }.setLeader node
            (leader.setCall call (some ⟨epoch, true, began⟩)))
        else some (s.setLeader node (leader.setCall call none))
      else none
  | _ => none

/-- Any error of the call, its transaction or its body rolls the call back. -/
def State.fenceAbort (s : State) (node : String) (call : Nat) : Option State :=
  let leader := s.leaders node
  match leader.calls call with
  | some _ =>
      let rowLock := if s.rowLock = some (node, call) then none else s.rowLock
      some ({ s with rowLock := rowLock }.setLeader node (leader.setCall call none))
  | none => none

def State.fenceCommit (s : State) (node : String) (call : Nat) : Option State :=
  let leader := s.leaders node
  match leader.calls call with
  | some ⟨epoch, true, began⟩ =>
      some ({ s with
          rowLock := none
          commits := s.commits ++ [Commit.mk node epoch began s.tenures.length] }.setLeader node
        (leader.setCall call none))
  | _ => none

def State.sessionLoss (s : State) (session : Session) : State :=
  { s with
    lock := dropLock s.lock (fun owner => owner = session)
    dead := fun other => other = session || s.dead other }

/-- A restarted process has lost its memory, its sessions and the transactions of
its calls. -/
def State.restart (s : State) (node : String) : State :=
  { s with
    lock := dropLock s.lock (fun owner => owner.node = node)
    rowLock := s.rowLock.filter (fun owner => owner.1 ≠ node) }.setLeader node New

def step (s : State) : Label → Option State
  | .tryLock node number => s.tryLock node number
  | .claim node outcome unlocked => s.claim node outcome unlocked
  | .lead node => s.lead node
  | .isLeader node transientError => s.isLeader node transientError
  | .heartbeat node transientError => s.heartbeat node transientError
  | .resign node deleted => s.resign node deleted
  | .release node unlocked => s.release node unlocked
  | .clear node => s.clear node
  | .fenceRead node call => s.fenceRead node call
  | .fenceCheck node call => s.fenceCheck node call
  | .fenceAbort node call => s.fenceAbort node call
  | .fenceCommit node call => s.fenceCommit node call
  | .sessionLoss session => some (s.sessionLoss session)
  | .restart node => some (s.restart node)

end OctoMail.Ha
