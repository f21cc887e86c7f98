import Mathlib.Logic.Function.Basic

/-!
# The tables of the outbound queue

The three tables a queued message lives in (`schema/04_queue.sql`,
`schema/21_outbound_deliveries.sql`) and the transactions of
`mailflow/queue/queue.go` and `admin.go` on them. A transaction is a function of
the tables; whether it commits, and at what `now()`, is the caller's business.

The queue table is the projection of `queue_log`, and `outbound_deliveries` holds
the result shown to the sender of a linked message. Both are maps from their
primary key. Times and durations are nanoseconds. Columns that no statement here
reads or writes (TLS and DSN parameters of the envelope, `created_at` of the log)
are left out; `require_tls` is kept because an administrator sets it.
-/

namespace OctoMail.Queue

open Function

def second : Int := 1000000000

/-- A queued message as a worker or an administrator carries it. `messageId` zero
is an unlinked submission; `createdAt` is absent where it was not loaded. -/
structure Msg where
  id : Nat
  tenantId : Nat
  accountId : Nat
  messageId : Nat
  mailFrom : String
  rcptTo : String
  blobRef : String
  size : Nat
  attempts : Nat
  maxAttempts : Nat
  notBefore : Option Int
  createdAt : Option Int
deriving DecidableEq, Repr

/-- A row of the queue table without its id. -/
structure Row where
  tenantId : Nat
  accountId : Nat
  messageId : Nat
  mailFrom : String
  rcptTo : String
  blobRef : String
  size : Nat
  attempts : Nat
  maxAttempts : Nat
  nextAttempt : Int
  leasedBy : Option String
  leaseUntil : Option Int
  hold : Bool
  lastAttempt : Option Int
  lastError : Option String
  delayedDsn : Bool
  requireTls : Option Bool
  createdAt : Int
deriving DecidableEq, Repr

/-- The columns that `claim` returns. -/
def Row.msg (row : Row) (id : Nat) : Msg where
  id := id
  tenantId := row.tenantId
  accountId := row.accountId
  messageId := row.messageId
  mailFrom := row.mailFrom
  rcptTo := row.rcptTo
  blobRef := row.blobRef
  size := row.size
  attempts := row.attempts
  maxAttempts := row.maxAttempts
  notBefore := none
  createdAt := some row.createdAt

/-- What an administrator's scheduling call did. -/
inductive ScheduleOp where
  | kick
  | schedule (delta : Int)
  | scheduleAt (time : Int)
deriving DecidableEq, Repr

/-- The kind of a log entry together with its payload. -/
inductive Fact where
  | enqueued (hold : Bool) (size : Nat)
  | attempt (n : Nat) (start duration : Int) (success : Bool) (code : Int) (secode error : String)
  | delivered (attempts : Nat)
  | failed (attempts : Nat) (admin : Bool)
  | dropped
  | rescheduled (attempt : Nat) (nextIn : Int) (error : String)
  | delayed (attempt : Nat)
  | held
  | unheld
  | scheduled (op : ScheduleOp)
  | requireTls (value : Option Bool)
deriving DecidableEq, Repr

def Fact.isFailed : Fact → Bool
  | .failed _ _ => true
  | _ => false

/-- The kinds that end a message's life. -/
def Fact.terminal : Fact → Bool
  | .delivered _ => true
  | .failed _ _ => true
  | .dropped => true
  | _ => false

structure LogEntry where
  queueId : Nat
  tenantId : Nat
  accountId : Nat
  messageId : Nat
  rcptTo : String
  fact : Fact
  keepUntil : Option Int
deriving DecidableEq, Repr

inductive Status where
  | queued
  | delivering
  | retrying
  | delivered
  | failed
deriving DecidableEq, Repr

def Status.terminal : Status → Bool
  | .delivered => true
  | .failed => true
  | _ => false

/-- A row of `outbound_deliveries` without its key. -/
structure Outbound where
  messageId : Nat
  recipient : String
  status : Status
  attemptCount : Nat
  smtpCode : Int
  smtpSecode : String
  reasonCode : String
  technicalDetail : String
  lastAttemptAt : Option Int
  deliveredAt : Option Int
  failedAt : Option Int
  updatedAt : Int
deriving DecidableEq, Repr

def Outbound.deliver (attempts : Nat) (now : Int) (o : Outbound) : Outbound :=
  { o with
    status := .delivering, attemptCount := attempts, lastAttemptAt := some now, updatedAt := now }

def Outbound.retry (attempts : Nat) (now : Int) (o : Outbound) : Outbound :=
  { o with status := .retrying, attemptCount := attempts, updatedAt := now }

def Outbound.succeed (now : Int) (o : Outbound) : Outbound :=
  { o with status := .delivered, deliveredAt := some now, updatedAt := now }

/-- The outbound row of a failed message. A reason given by the caller wins over
the stored one, and an empty one becomes the default. -/
def Outbound.fail (reason : String) (now : Int) (o : Outbound) : Outbound :=
  { o with
    status := .failed
    failedAt := some now
    reasonCode := if reason ≠ "" then reason
      else if o.reasonCode = "" then "delivery_failed" else o.reasonCode
    updatedAt := now }

structure Db where
  queue : Nat → Option Row
  log : List LogEntry
  /-- Keyed by account and queue id. -/
  outbound : Nat → Nat → Option Outbound

/-- The messages a statement returns for the rows it met. -/
def Db.returning (db : Db) (ids : List Nat) : List Msg :=
  ids.filterMap (fun id => (db.queue id).map (fun row => row.msg id))

def Db.setRow (db : Db) (id : Nat) (row : Option Row) : Db :=
  { db with queue := update db.queue id row }

/-- One fact about a message, appended to the log. -/
def Db.appendLog (db : Db) (m : Msg) (fact : Fact) (keep : Option Int) : Db :=
  { db with log := db.log ++
      [LogEntry.mk m.id m.tenantId m.accountId m.messageId m.rcptTo fact keep] }

/-- UPDATE outbound_deliveries … WHERE account_id AND queue_id: nothing where the
row is missing. -/
def Db.updateOutbound (db : Db) (m : Msg) (change : Outbound → Outbound) : Db :=
  { db with
    outbound := update db.outbound m.accountId
      (update (db.outbound m.accountId) m.id
        ((db.outbound m.accountId m.id).map change)) }

/-- The updates of linked messages only. -/
def Db.updateLinked (db : Db) (m : Msg) (change : Outbound → Outbound) : Db :=
  if m.messageId = 0 then db else db.updateOutbound m change

/-- EnqueueTx with the id the identity column hands out. `hold` is the answer of
the hold rules and `maxAttempts` the column's default. -/
def Db.enqueueTx (db : Db) (id : Nat) (m : Msg) (hold : Bool) (maxAttempts : Nat) (now : Int) :
    Db :=
  let row : Row :=
    { tenantId := m.tenantId, accountId := m.accountId, messageId := m.messageId,
      mailFrom := m.mailFrom, rcptTo := m.rcptTo, blobRef := m.blobRef, size := m.size,
      attempts := 0, maxAttempts := maxAttempts, nextAttempt := m.notBefore.getD now,
      leasedBy := none, leaseUntil := none, hold := hold, lastAttempt := none, lastError := none,
      delayedDsn := false, requireTls := none, createdAt := now }
  let linked : Outbound :=
    { messageId := m.messageId, recipient := m.rcptTo, status := .queued, attemptCount := 0,
      smtpCode := 0, smtpSecode := "", reasonCode := "", technicalDetail := "",
      lastAttemptAt := none, deliveredAt := none, failedAt := none, updatedAt := now }
  let inserted := db.setRow id (some row)
  let shown := if m.messageId = 0 then inserted else
    { inserted with
      outbound := update inserted.outbound m.accountId
        (update (inserted.outbound m.accountId) id (some linked)) }
  shown.appendLog { m with id := id } (.enqueued hold m.size) none

/-- A message is due when its time has come, it is not on hold, and it is unleased
or its lease has expired. -/
def Row.due (row : Row) (now : Int) : Bool :=
  row.nextAttempt ≤ now && !row.hold &&
    match row.leaseUntil with
    | none => true
    | some until_ => until_ < now

/-- The row after a claim, a renewal and a release. -/
def Row.claimed (row : Row) (node : String) (lease now : Int) : Row :=
  { row with leasedBy := some node, leaseUntil := some (now + lease), lastAttempt := some now }

def Row.renewed (row : Row) (lease now : Int) : Row :=
  { row with
    leaseUntil := some (now + lease), attempts := row.attempts + 1, lastAttempt := some now }

def Row.released (row : Row) (delay : Int) (error : String) (wantDelay : Bool) (now : Int) : Row :=
  { row with
    leasedBy := none, leaseUntil := none, nextAttempt := now + delay, lastError := some error,
    delayedDsn := row.delayedDsn || wantDelay }

/-- The UPDATE of `claim` on the rows its due-scan locked. -/
def Db.claimTx (db : Db) (node : String) (ids : List Nat) (lease now : Int) : Db :=
  { db with queue := fun id =>
      if id ∈ ids then (db.queue id).map (fun row => row.claimed node lease now)
      else db.queue id }

/-- The row is leased to the node, expired or not. -/
def Db.leases (db : Db) (node : String) (id : Nat) : Bool :=
  match db.queue id with
  | some row => row.leasedBy = some node
  | none => false

/-- renewLease: the new attempt number where the lease is still held. -/
def Db.renewLeaseTx (db : Db) (node : String) (m : Msg) (lease now : Int) : Option (Nat × Db) :=
  match db.queue m.id with
  | none => none
  | some row =>
      if row.leasedBy = some node ∧ row.leaseUntil.any (fun until_ => now < until_) then
        let attempts := row.attempts + 1
        let renewed := db.setRow m.id (some (row.renewed lease now))
        some (attempts, renewed.updateLinked m (Outbound.deliver attempts now))
      else none

/-- A Deliverer's error: its text, and what it answers where it implements
ResultError, PermanentError and DeliveryReasonError. -/
structure DeliveryError where
  text : String
  smtpResult : Option (Int × String)
  permanent : Option Bool
  reason : Option String
deriving DecidableEq, Repr

def deliveryReasonCode (err : Option DeliveryError) (smtpCode : Int) : String :=
  match err with
  | none => ""
  | some e =>
      if e.reason.getD "" ≠ "" then e.reason.getD ""
      else if 500 ≤ smtpCode ∧ smtpCode < 600 then "recipient_server_rejected"
      else "delivery_failed"

/-- One call of Deliver, as the worker's clock saw it. -/
structure Attempt where
  start : Int
  duration : Int
  error : Option DeliveryError
deriving DecidableEq, Repr

def Attempt.smtp (a : Attempt) : Int × String :=
  (a.error.bind DeliveryError.smtpResult).getD (0, "")

def Attempt.text (a : Attempt) : String := (a.error.map DeliveryError.text).getD ""

/-- The log entry of an attempt. -/
def Attempt.fact (a : Attempt) (m : Msg) : Fact :=
  .attempt m.attempts a.start a.duration a.error.isNone a.smtp.1 a.smtp.2 a.text

/-- The result columns of the outbound row; the status is not among them. -/
def Outbound.record (m : Msg) (a : Attempt) (now : Int) (o : Outbound) : Outbound :=
  { o with
    attemptCount := m.attempts, smtpCode := a.smtp.1, smtpSecode := a.smtp.2,
    reasonCode := deliveryReasonCode a.error a.smtp.1, technicalDetail := a.text,
    lastAttemptAt := some a.start, updatedAt := now }

/-- recordResult. Neither statement looks at the queue row. -/
def Db.recordResultTx (db : Db) (m : Msg) (a : Attempt) (now : Int) : Db :=
  (db.appendLog m (a.fact m) none).updateLinked m (Outbound.record m a now)

/-- retire: nothing unless the row is leased to this node. -/
def Db.retireTx (db : Db) (node : String) (m : Msg) (success : Bool) (reason : String)
    (keep now : Int) : Option Db :=
  if db.leases node m.id then
    let fact : Fact := if success then .delivered m.attempts else .failed m.attempts false
    some (((db.setRow m.id none).appendLog m fact (some keep)).updateLinked m
      (if success then Outbound.succeed now else Outbound.fail reason now))
  else none

/-- The retry transaction of `reschedule`: whether the delayed warning fires, where
the row is leased to this node. -/
def Db.rescheduleTx (db : Db) (node : String) (m : Msg) (delay : Int) (error : String)
    (wantDelay : Bool) (now : Int) : Option (Bool × Db) :=
  match db.queue m.id with
  | none => none
  | some row =>
      if row.leasedBy = some node then
        let fired := wantDelay && !row.delayedDsn
        let released := db.setRow m.id (some (row.released delay error wantDelay now))
        let shown := released.updateLinked m (Outbound.retry m.attempts now)
        let logged := shown.appendLog m (.rescheduled m.attempts delay error) none
        some (fired, if fired then logged.appendLog m (.delayed m.attempts) none else logged)
      else none

/-- Which messages an administrator's call applies to. Zero and empty fields match
everything. -/
structure Filter where
  ids : List Nat
  tenantId : Nat
  accountId : Nat
  recipient : String
deriving DecidableEq, Repr

def Filter.matches (f : Filter) (id : Nat) (row : Row) : Bool :=
  (f.ids.isEmpty || id ∈ f.ids) && (f.tenantId = 0 || row.tenantId = f.tenantId) &&
    (f.accountId = 0 || row.accountId = f.accountId) &&
      (f.recipient = "" || row.rcptTo = f.recipient)

/-- The single-statement calls of an administrator. -/
inductive AdminOp where
  | kick
  | schedule (delta : Int)
  | scheduleAt (time : Int)
  | requireTlsSet (value : Option Bool)
  | holdSet (hold : Bool)
  | drop
deriving DecidableEq, Repr

/-- Kick and the two Schedule calls leave leased rows alone. -/
def AdminOp.selects (op : AdminOp) (row : Row) : Bool :=
  match op with
  | .kick | .schedule _ | .scheduleAt _ => row.leasedBy.isNone
  | .requireTlsSet _ | .holdSet _ | .drop => true

/-- The statement on one row; `drop` deletes it. -/
def AdminOp.change (op : AdminOp) (now : Int) (row : Row) : Option Row :=
  match op with
  | .kick => some { row with nextAttempt := now, hold := false }
  | .schedule delta => some { row with nextAttempt := row.nextAttempt + delta }
  | .scheduleAt time => some { row with nextAttempt := time }
  | .requireTlsSet value => some { row with requireTls := value }
  | .holdSet hold => some { row with hold := hold }
  | .drop => none

def AdminOp.fact : AdminOp → Fact
  | .kick => .scheduled .kick
  | .schedule delta => .scheduled (.schedule delta)
  | .scheduleAt time => .scheduled (.scheduleAt time)
  | .requireTlsSet value => .requireTls value
  | .holdSet hold => if hold then .held else .unheld
  | .drop => .dropped

/-- The loop of mutateLog over one returned row. -/
def Db.mutateOne (fact : Fact) (keep : Option Int) (now : Int) (db : Db) (m : Msg) : Db :=
  let logged := db.appendLog m fact keep
  if fact.terminal then logged.updateLinked m (Outbound.fail "" now) else logged

/-- The statement of an administrator's call on the rows it met. -/
def Db.execute (db : Db) (op : AdminOp) (ids : List Nat) (now : Int) : Db :=
  { db with queue := fun id =>
      if id ∈ ids then (db.queue id).bind (op.change now) else db.queue id }

/-- mutateLog: the statement, then one entry for each row it returned. -/
def Db.mutateLog (db : Db) (op : AdminOp) (ids : List Nat) (keep : Option Int) (now : Int) : Db :=
  (db.returning ids).foldl (Db.mutateOne op.fact keep now) (db.execute op ids now)

/-- The transaction of Fail on one message of its snapshot: nothing where the row
is gone. -/
def Db.failTx (db : Db) (m : Msg) (keep now : Int) : Option Db :=
  match db.queue m.id with
  | none => none
  | some _ => some (((db.setRow m.id none).appendLog m (.failed m.attempts true)
      (some keep)).updateLinked m (Outbound.fail "" now))

end OctoMail.Queue
