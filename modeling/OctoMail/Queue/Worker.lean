import OctoMail.Queue.Rows
import OctoMail.Transition

/-!
# Workers and administrators over the shared queue

Any number of workers, one per node id, each in its RunOnce loop, and any number
of administrator calls, over one set of tables. A step is one transaction, one
return of Deliver or one start of a hook. Between any two steps other parties
move, a worker may crash and time passes. Every `now` of a label is the `now()` of
its transaction and may be any reading, so no theorem rests on the clock.

A transaction commits, fails, or commits while its caller is told it failed. The
rows a statement locks are part of the label: `claim` takes any due rows up to its
batch (others are skipped as locked), and an administrator's statement any rows
that satisfy its condition.

`inserted`, `delivers` and `started` record history and influence no step: each
row as it was enqueued, each call of Deliver, and each start of an OnFailed hook.
The call of Deliver follows the renewal in one step, since nothing shared is
touched between them; a crash in between is the renewal reported as failed.
-/

namespace OctoMail.Queue

open Function
open Transition (Outcome)

/-- The settings of a worker, as configured; zero selects the default. -/
structure Worker where
  Lease : Int
  Batch : Nat
  Backoff : Int
  MaxBackoff : Int
  MaxLifetime : Int
  RetiredKeep : Int
  DelayThreshold : Nat
  /-- Whether the hooks are set. -/
  OnFailed : Bool
  OnDelayed : Bool
deriving DecidableEq, Repr

def Worker.lease (w : Worker) : Int := if w.Lease = 0 then 30 * second else w.Lease

def Worker.batch (w : Worker) : Nat := if w.Batch = 0 then 10 else w.Batch

def Worker.backoff (w : Worker) : Int := if w.Backoff = 0 then 5 * second else w.Backoff

def defaultMaxBackoff : Int := 4 * 3600 * second

def defaultMaxLifetime : Int := 5 * 24 * 3600 * second

def defaultRetiredKeep : Int := 7 * 24 * 3600 * second

def Worker.maxBackoff (w : Worker) : Int :=
  if w.MaxBackoff ≤ 0 then defaultMaxBackoff else w.MaxBackoff

def Worker.maxLifetime (w : Worker) : Int :=
  if w.MaxLifetime ≤ 0 then defaultMaxLifetime else w.MaxLifetime

def Worker.retiredKeep (w : Worker) : Int :=
  if 0 < w.RetiredKeep then w.RetiredKeep else defaultRetiredKeep

/-- The doubling loop of backoffFor, with the iterations that remain. -/
def doubled (base maxCap : Int) : Nat → Int → Int
  | 0, d => d
  | remaining + 1, d =>
      if d < 512 * base then
        if 0 < maxCap ∧ maxCap ≤ d * 2 then maxCap else doubled base maxCap remaining (d * 2)
      else d

/-- backoffFor before its jitter. -/
def backoffFor (base : Int) (attempts : Nat) (maxCap : Int) : Int :=
  let d := doubled base maxCap (attempts - 1) base
  if 0 < maxCap ∧ maxCap < d then maxCap else d

/-- A delay within a tenth of the backoff, up to the rounding to nanoseconds. -/
def jittered (backoff delay : Int) : Bool :=
  9 * backoff - 10 ≤ 10 * delay && 10 * delay ≤ 11 * backoff

/-- Where a worker stands in RunOnce; `rest` is the unprocessed part of its batch.
An empty batch is a worker between two runs. -/
inductive Position where
  | batch (rest : List Msg)
  | delivering (m : Msg) (rest : List Msg)
  | returned (m : Msg) (a : Attempt) (rest : List Msg)
  | recorded (m : Msg) (a : Attempt) (rest : List Msg)
  /-- Retired as failed by this worker; OnFailed is called next. -/
  | bouncing (m : Msg) (rest : List Msg)
  | warning (m : Msg) (rest : List Msg)
deriving DecidableEq, Repr

/-- Where an administrator's Fail call stands in its loop. -/
inductive FailCall where
  | loop (rest : List Msg)
  /-- Removed by this call; onFailed is called next. -/
  | bouncing (m : Msg) (rest : List Msg)
deriving DecidableEq, Repr

structure State where
  db : Db
  workers : String → Position
  calls : Nat → FailCall
  inserted : Nat → Option Row
  delivers : List (String × Nat)
  started : List Nat

def initial : State where
  db := ⟨fun _ => none, [], fun _ _ => none⟩
  workers := fun _ => .batch []
  calls := fun _ => .loop []
  inserted := fun _ => none
  delivers := []
  started := []

def State.setWorker (s : State) (node : String) (position : Position) : State :=
  { s with workers := update s.workers node position }

def State.setCall (s : State) (call : Nat) (position : FailCall) : State :=
  { s with calls := update s.calls call position }

inductive Label where
  | enqueue (id : Nat) (m : Msg) (hold : Bool) (maxAttempts : Nat) (now : Int)
  | claim (node : String) (ids : List Nat) (outcome : Outcome) (now : Int)
  | renewLease (node : String) (outcome : Outcome) (now : Int)
  | deliver (node : String) (a : Attempt)
  | recordResult (node : String) (outcome : Outcome) (now : Int)
  | retire (node : String) (outcome : Outcome) (clock now : Int)
  | reschedule (node : String) (outcome : Outcome) (clock now delay : Int)
  | onFailed (node : String)
  | onDelayed (node : String)
  | crash (node : String)
  | admin (op : AdminOp) (f : Filter) (ids : List Nat) (clock now : Int)
  | failSelect (call : Nat) (f : Filter) (ids : List Nat)
  | failDelete (call : Nat) (outcome : Outcome) (clock now : Int)
  | failHook (call : Nat)
  | failCrash (call : Nat)
deriving DecidableEq, Repr

/-- The tables after a transaction that would leave `after`. -/
def settled (outcome : Outcome) (before after : Db) : Db :=
  match outcome with
  | .failed => before
  | .committed | .unreported => after

/-- The identity column never hands out an id twice. -/
def State.enqueue (s : State) (id : Nat) (m : Msg) (hold : Bool) (maxAttempts : Nat)
    (now : Int) : Option State :=
  match s.inserted id with
  | some _ => none
  | none =>
      let db := s.db.enqueueTx id m hold maxAttempts now
      some { s with db := db, inserted := update s.inserted id (db.queue id) }

def State.dueRows (s : State) (ids : List Nat) (now : Int) : Bool :=
  ids.all (fun id => (s.db.queue id).any (fun row => row.due now))

def State.claim (w : Worker) (s : State) (node : String) (ids : List Nat) (outcome : Outcome)
    (now : Int) : Option State :=
  match s.workers node with
  | .batch [] =>
      if ids.Nodup ∧ ids.length ≤ w.batch ∧ s.dueRows ids now then
        let next := { s with db := settled outcome s.db (s.db.claimTx node ids w.lease now) }
        -- a claim reported as failed ends RunOnce with its rows leased
        some (next.setWorker node
          (.batch (if outcome = Outcome.committed then s.db.returning ids else [])))
      else none
  | _ => none

def State.renewLease (w : Worker) (s : State) (node : String) (outcome : Outcome) (now : Int) :
    Option State :=
  match s.workers node with
  | .batch (m :: rest) =>
      match s.db.renewLeaseTx node m w.lease now with
      | none => some (s.setWorker node (.batch rest))
      | some (attempts, db) =>
          let next := { s with db := settled outcome s.db db }
          if outcome = Outcome.committed then
            some ({ next with delivers := s.delivers ++ [(node, m.id)] }.setWorker node
              (.delivering { m with attempts := attempts } rest))
          else some (next.setWorker node (.batch rest))
  | _ => none

def State.deliver (s : State) (node : String) (a : Attempt) : Option State :=
  match s.workers node with
  | .delivering m rest => some (s.setWorker node (.returned m a rest))
  | _ => none

/-- A failed recording does not stop the outcome from being settled. -/
def State.recordResult (s : State) (node : String) (outcome : Outcome) (now : Int) :
    Option State :=
  match s.workers node with
  | .returned m a rest =>
      some ({ s with db := settled outcome s.db (s.db.recordResultTx m a now) }.setWorker node
        (.recorded m a rest))
  | _ => none

/-- The branch of RunOnce after a nil error. -/
def State.retire (w : Worker) (s : State) (node : String) (outcome : Outcome) (clock now : Int) :
    Option State :=
  match s.workers node with
  | .recorded m ⟨_, _, none⟩ rest =>
      match s.db.retireTx node m true "" (clock + w.retiredKeep) now with
      | none => some (s.setWorker node (.batch rest))
      | some db => some ({ s with db := settled outcome s.db db }.setWorker node (.batch rest))
  | _ => none

/-- The give-up test of `reschedule`. -/
def givesUp (w : Worker) (m : Msg) (err : DeliveryError) (clock : Int) : Bool :=
  err.permanent.getD false || m.createdAt.any (fun created => w.maxLifetime ≤ clock - created) ||
    m.maxAttempts ≤ m.attempts

/-- The branch of RunOnce after an error: give up and bounce, or back off. -/
def State.reschedule (w : Worker) (s : State) (node : String) (outcome : Outcome)
    (clock now delay : Int) : Option State :=
  match s.workers node with
  | .recorded m ⟨_, _, some err⟩ rest =>
      if givesUp w m err clock then
        let reason := if err.permanent.getD false then "" else "delivery_timed_out"
        match s.db.retireTx node m false reason (clock + w.retiredKeep) now with
        | none => some (s.setWorker node (.batch rest))
        | some db => some ({ s with db := settled outcome s.db db }.setWorker node
            (if outcome = Outcome.committed ∧ w.OnFailed then .bouncing m rest else .batch rest))
      else if jittered (backoffFor w.backoff m.attempts w.maxBackoff) delay then
        let wantDelay := w.OnDelayed && 0 < w.DelayThreshold && w.DelayThreshold ≤ m.attempts
        match s.db.rescheduleTx node m delay err.text wantDelay now with
        | none => some (s.setWorker node (.batch rest))
        | some (fired, db) => some ({ s with db := settled outcome s.db db }.setWorker node
            (if outcome = Outcome.committed ∧ fired then .warning m rest else .batch rest))
      else none
  | _ => none

def State.onFailed (s : State) (node : String) : Option State :=
  match s.workers node with
  | .bouncing m rest =>
      some ({ s with started := s.started ++ [m.id] }.setWorker node (.batch rest))
  | _ => none

def State.onDelayed (s : State) (node : String) : Option State :=
  match s.workers node with
  | .warning _ rest => some (s.setWorker node (.batch rest))
  | _ => none

/-- The rows satisfy the condition of an administrator's statement. -/
def State.selected (s : State) (f : Filter) (op : Row → Bool) (ids : List Nat) : Bool :=
  ids.all (fun id => (s.db.queue id).any (fun row => f.matches id row && op row))

def State.admin (s : State) (op : AdminOp) (f : Filter) (ids : List Nat) (clock now : Int) :
    Option State :=
  if ids.Nodup ∧ s.selected f op.selects ids then
    let keep := if op = .drop then some (clock + defaultRetiredKeep) else none
    some { s with db := s.db.mutateLog op ids keep now }
  else none

/-- Fail reads its messages first and removes them one by one. -/
def State.failSelect (s : State) (call : Nat) (f : Filter) (ids : List Nat) : Option State :=
  match s.calls call with
  | .loop [] =>
      if ids.Nodup ∧ s.selected f (fun _ => true) ids then
        some (s.setCall call (.loop (s.db.returning ids)))
      else none
  | _ => none

def State.failDelete (s : State) (call : Nat) (outcome : Outcome) (clock now : Int) :
    Option State :=
  match s.calls call with
  | .loop (m :: rest) =>
      match s.db.failTx m (clock + defaultRetiredKeep) now with
      | none => some (s.setCall call (.loop rest))
      | some db => some ({ s with db := settled outcome s.db db }.setCall call
          (if outcome = Outcome.committed then .bouncing m rest else .loop rest))
  | _ => none

def State.failHook (s : State) (call : Nat) : Option State :=
  match s.calls call with
  | .bouncing m rest =>
      some ({ s with started := s.started ++ [m.id] }.setCall call (.loop rest))
  | _ => none

/-- The settings of each node are fixed for the run. -/
def step (settings : String → Worker) (s : State) : Label → Option State
  | .enqueue id m hold maxAttempts now => s.enqueue id m hold maxAttempts now
  | .claim node ids outcome now => s.claim (settings node) node ids outcome now
  | .renewLease node outcome now => s.renewLease (settings node) node outcome now
  | .deliver node a => s.deliver node a
  | .recordResult node outcome now => s.recordResult node outcome now
  | .retire node outcome clock now => s.retire (settings node) node outcome clock now
  | .reschedule node outcome clock now delay =>
      s.reschedule (settings node) node outcome clock now delay
  | .onFailed node => s.onFailed node
  | .onDelayed node => s.onDelayed node
  | .crash node => some (s.setWorker node (.batch []))
  | .admin op f ids clock now => s.admin op f ids clock now
  | .failSelect call f ids => s.failSelect call f ids
  | .failDelete call outcome clock now => s.failDelete call outcome clock now
  | .failHook call => s.failHook call
  | .failCrash call => some (s.setCall call (.loop []))

end OctoMail.Queue
