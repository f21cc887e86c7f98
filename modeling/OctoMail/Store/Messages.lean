import OctoMail.Store.Mailboxes

/-!
# Message operations

The message methods of `storage/postgres/message.go` and `Tx.Update` of
`storage/postgres/tx.go`, each inside the caller's transaction. The mailbox and quota
counters are adjusted by differences: `MessageAdd` and `MessageRemove` compute them
from the values their caller passes, `Update` from the stored row and the value passed.
-/

namespace OctoMail.Store

open Program Tx

def boolInt (b : Bool) : Int := if b then 1 else 0

namespace Tx

/-- The five counters of a mailbox after the deltas; unseen and unread move together. -/
def bumped (counts : MailboxCounts) (dTotal dSize dUnseen dDeleted : Int) : MailboxCounts where
  total := counts.total + dTotal
  size := counts.size + dSize
  unseen := counts.unseen + dUnseen
  unread := counts.unread + dUnseen
  deleted := counts.deleted + dDeleted

def bumpCounts (mailboxId : Nat) (dTotal dSize dUnseen dDeleted : Int) : Txn Unit :=
  modifyDb (fun db => db.setMailboxes (fun row => row.id == mailboxId)
    (fun row => { row with counts := bumped row.counts dTotal dSize dUnseen dDeleted }))

/-- The same, failing where there is no such mailbox. -/
def bumpCountsReturning (mailboxId : Nat) (dTotal dSize dUnseen dDeleted : Int) :
    Txn MailboxCounts := do
  bumpCounts mailboxId dTotal dSize dUnseen dDeleted
  let pt ← get
  let row ← require (pt.db.mailboxes.find? (fun row => row.id == mailboxId)) .noRows
  return row.counts

/-- The account's counter and the tenant's. -/
def bumpQuota (dCount dSize : Int) : Txn Unit :=
  modify (fun pt => { pt with
    db := (pt.db.bumpQuotaScope (.account pt.accountId) dCount dSize).bumpQuotaScope
      (.tenant pt.tenantId) dCount dSize })

/-- Whether one scope admits the size; no limit and limit zero admit everything. -/
def admits (db : Database) (limit : Option Nat) (scope : Scope) (size : Nat) : Bool :=
  match limit with
  | none => true
  | some limit =>
      limit == 0 ||
        decide (((db.quotaCounters.find? (fun row => row.scope == scope)).elim 0
          QuotaRow.bytesUsed) + size ≤ limit)

/-- The account's limit and then the tenant's. -/
def canAddMessageSize (size : Nat) : Txn Bool := do
  let pt ← get
  let account ← require (pt.db.account pt.accountId) .noRows
  if admits pt.db account.quotaBytes (.account pt.accountId) size then
    do
      let tenant ← require (pt.db.tenants.find? (fun row => row.id == pt.tenantId)) .noRows
      return admits pt.db tenant.quotaBytes (.tenant pt.tenantId) size
  else return false

/-- Take the mailbox's next UID. -/
def takeUid (mailboxId : Nat) : Txn Nat := do
  let pt ← get
  let row ← require (pt.db.mailboxes.find? (fun row => row.id == mailboxId)) .noRows
  modifyDb (fun db => db.setMailboxes (fun row => row.id == mailboxId)
    (fun row => { row with uidNext := row.uidNext + 1 }))
  return row.uidNext

/-- `INSERT INTO messages`: the mailbox is one of the account, and its UIDs are unique. -/
def insertMessage (m : Message) : Txn Nat := do
  let pt ← get
  refuse (!pt.db.mailboxes.any (fun mb => mb.accountId == m.accountId && mb.id == m.mailboxId))
    (.constraint "messages_account_id_mailbox_id_fkey")
  refuse (pt.db.messages.any (fun row => row.accountId == m.accountId &&
    row.mailboxId == m.mailboxId && row.uid == m.uid))
    (.constraint "messages_account_id_mailbox_id_uid_key")
  modifyDb (fun db => { db with
    messages := db.messages ++ [{ m with id := db.nextMessageId }]
    nextMessageId := db.nextMessageId + 1 })
  return pt.db.nextMessageId

end Tx

/-- Add a message to a mailbox. The value returned is the row as stored, its UID cut
to 32 bits as in the type of a UID. -/
def messageAdd (env : Env) (mb : Mailbox) (m : Message) (body : Body) (emailId : Nat) :
    Txn Message := do
  let admitted ← canAddMessageSize (body.size + m.msgPrefix.length)
  refuse (!admitted) .overQuota
  let (ref, size) ← require body.put .blob
  let uid ← takeUid mb.id
  let seq ← nextModSeq
  let pt ← get
  let row : Message := { m with
    blobRef := ref
    size := size + m.msgPrefix.length
    uid := uid
    modSeq := seq
    createSeq := seq
    mailboxId := mb.id
    accountId := pt.accountId
    expunged := false
    keywords := some (m.keywords.getD [])
    emailId := emailId
    received := if m.received = 0 then env.now else m.received
    saveDate := env.now }
  let id ← insertMessage row
  let added : Message := { row with id := id, uid := uid % 2 ^ 32 }
  bumpCounts mb.id 1 added.size (boolInt (!added.flags.seen)) (boolInt added.flags.deleted)
  bumpQuota 1 added.size
  record (.addUid mb.id added.uid id added.effectiveEmailId (emailId != 0) seq added.flags
    added.keywords)
  return added

/-- The body of a stored message, read back. -/
def messageReader (env : Env) (m : Message) : Body := ⟨m.size, env.stored m⟩

/-- Put an existing message into another mailbox as a row of the same Email. -/
def addSibling (env : Env) (src : Message) (mb : Mailbox) : Txn Message :=
  messageAdd env mb { flags := src.flags, keywords := src.keywords, threadId := src.threadId }
    (messageReader env src) src.effectiveEmailId

/-- The unseen and deleted counters follow a flag change, if there is one to follow. -/
def bumpChanged (mailboxId : Nat) (dUnseen dDeleted : Int) : Txn Unit :=
  if dUnseen ≠ 0 ∨ dDeleted ≠ 0 then bumpCounts mailboxId 0 0 dUnseen dDeleted else pure ()

/-- Store the flags and keywords of a message. The prior flags are read from the row;
a nil keyword slice is NULL, which the column refuses. -/
def update (x : Message) : Txn Unit := do
  let seq ← nextModSeq
  let pt ← get
  let old ← require (pt.db.messages.find? (fun row =>
    row.id == x.id && row.accountId == pt.accountId)) .notFound
  let keywords ← require x.keywords (.constraint "messages_keywords_not_null")
  modifyDb (fun db => db.setMessages (fun row => row.id == x.id && row.accountId == pt.accountId)
    (fun row => { row with flags := x.flags, keywords := some keywords, modSeq := seq }))
  bumpChanged x.mailboxId (boolInt (!x.flags.seen) - boolInt (!old.flags.seen))
    (boolInt x.flags.deleted - boolInt old.flags.deleted)
  record (.flags x.mailboxId x.uid x.id x.effectiveEmailId seq x.flags x.flags x.keywords)

/-- Mark rows expunged at a log position. -/
def expungeRow (modSeq : Nat) (m : Message) : Txn Unit :=
  modifyDb (fun db => db.setMessages (fun row => row.id == m.id)
    (fun row => { row with expunged := true, modSeq := modSeq }))

/-- Expunge messages of one mailbox. The deltas are sums over the values passed. -/
def messageRemove (mb : Mailbox) (msgs : List Message) : Txn Unit := do
  let modSeq ← nextModSeq
  msgs.forM (expungeRow modSeq)
  let totalSize : Int := (msgs.map (fun m => (m.size : Int))).sum
  let unseen : Int := (msgs.map (fun m => boolInt (!m.flags.seen))).sum
  let deleted : Int := (msgs.map (fun m => boolInt m.flags.deleted)).sum
  let _ ← bumpCountsReturning mb.id (-msgs.length) (-totalSize) (-unseen) (-deleted)
  bumpQuota (-msgs.length) (-totalSize)
  record (.removeUids mb.id (msgs.map Message.uid) modSeq (msgs.map Message.id)
    (msgs.map Message.effectiveEmailId))

/-- The live rows of an Email, by mailbox. A row without a group has no `email_id`. -/
def messagesByEmailId (emailId : Int) : Txn (List Message) := do
  let pt ← get
  return (pt.db.messages.filter (fun m => m.accountId == pt.accountId && !m.expunged &&
    (decide ((m.id : Int) = emailId) ||
      (m.emailId != 0 && decide ((m.emailId : Int) = emailId))))).insertionSort
        (fun first second => first.mailboxId ≤ second.mailboxId)

/-- `QueryMessage().FilterMailbox(id).SortUID().List()`. -/
def mailboxMessages (mailboxId : Nat) : Txn (List Message) := do
  let pt ← get
  return (pt.db.messages.filter (fun m =>
    !m.expunged && m.accountId == pt.accountId && m.mailboxId == mailboxId)).insertionSort
      (fun first second => first.uid ≤ second.uid)

/-- Find the mailbox of a name or create and subscribe it, and add the message. -/
def deliverMailbox (env : Env) (mailbox : String) (m : Message) (body : Body) : Txn Message := do
  let mb ← match ← mailboxFind mailbox with
    | some mb => pure mb
    | none => mailboxEnsure mailbox true {}
  messageAdd env mb m body 0

end OctoMail.Store
