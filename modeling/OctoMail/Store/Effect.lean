import OctoMail.Store.Messages

/-!
# What the mutators do

Every transaction body of the protocol handlers is made of a few mutators. `Effect`
says once what each of them does to the tables and the pending log, with what its
caller guarantees about the rows it passes: they are live rows of the account, read
in the same transaction. Everything proved about whole runs is proved about `Effect`
and carried along `Steps`.

Three guarantees are not made by every caller and are named in `Rules`: that the flags
of a row passed to `MessageRemove` are the stored ones, that a mailbox is deleted only
when it holds no live message, and that no row joins the Email of another.
-/

namespace OctoMail.Store

/-! ### The tables after one statement -/

namespace Database

def bumpedCounts (db : Database) (mailboxId : Nat) (dTotal dSize dUnseen dDeleted : Int) :
    Database :=
  db.setMailboxes (fun row => row.id == mailboxId)
    (fun row => { row with counts := Tx.bumped row.counts dTotal dSize dUnseen dDeleted })

def bumpedQuota (db : Database) (accountId tenantId : Nat) (dCount dSize : Int) : Database :=
  (db.bumpQuotaScope (.account accountId) dCount dSize).bumpQuotaScope (.tenant tenantId)
    dCount dSize

def tookUid (db : Database) (mailboxId : Nat) : Database :=
  db.setMailboxes (fun row => row.id == mailboxId)
    (fun row => { row with uidNext := row.uidNext + 1 })

def insertedMessage (db : Database) (row : Message) : Database :=
  { db with messages := db.messages ++ [row], nextMessageId := db.nextMessageId + 1 }

def insertedMailbox (db : Database) (row : Mailbox) : Database :=
  { db with mailboxes := db.mailboxes ++ [row], nextMailboxId := db.nextMailboxId + 1 }

def tookUidValidity (db : Database) (accountId : Nat) : Database :=
  db.setAccounts accountId (fun a => { a with uidvalidityNext := a.uidvalidityNext + 1 })

def deletedMailbox (db : Database) (accountId mailboxId seq : Nat) : Database :=
  db.setMailboxes (fun row => row.id == mailboxId && row.accountId == accountId)
    (fun row => { row with expunged := true, modSeq := seq })

def updatedMessage (db : Database) (accountId : Nat) (x : Message) (keywords : List String)
    (seq : Nat) : Database :=
  db.setMessages (fun row => row.id == x.id && row.accountId == accountId)
    (fun row => { row with flags := x.flags, keywords := some keywords, modSeq := seq })

def expungedMessages (db : Database) (seq : Nat) (ids : List Nat) : Database :=
  db.setMessages (fun row => ids.contains row.id)
    (fun row => { row with expunged := true, modSeq := seq })

/-- What the identity columns and the foreign key of messages keep true. -/
structure Wf (db : Database) : Prop where
  mailboxIds : (db.mailboxes.map Mailbox.id).Nodup
  mailboxBelow : ∀ mb ∈ db.mailboxes, mb.id < db.nextMailboxId
  messageIds : (db.messages.map Message.id).Nodup
  messageBelow : ∀ m ∈ db.messages, m.id < db.nextMessageId
  owned : ∀ m ∈ db.messages, ∃ mb ∈ db.mailboxes,
    mb.id = m.mailboxId ∧ mb.accountId = m.accountId

end Database

variable {pt : Tx} {m : Message}

namespace Tx

def withDb (pt : Tx) (db : Database) : Tx := { pt with db := db }

/-- One more log position, with its entry. -/
def logged (pt : Tx) (change : Change) : Tx :=
  { pt with
    seq := pt.seq + 1
    entries := pt.entries ++ [⟨pt.accountId, pt.seq + 1, change⟩] }

/-- A live row of the transaction's account. -/
structure Stored (pt : Tx) (row : Message) : Prop where
  mem : row ∈ pt.db.messages
  live : row.expunged = false
  mine : row.accountId = pt.accountId

/-- A mailbox that is not deleted. -/
def Open (pt : Tx) (mailboxId : Nat) : Prop :=
  ∃ mb ∈ pt.db.mailboxes, mb.id = mailboxId ∧ mb.expunged = false

/-- An open mailbox stays open under a statement that does not mark mailboxes. -/
theorem Open.update {final : Tx} {mailboxId : Nat} (opened : pt.Open mailboxId)
    (chosen : Mailbox → Bool) (f : Mailbox → Mailbox)
    (mailboxes : final.db.mailboxes = Table.update chosen f pt.db.mailboxes)
    (id : ∀ row, (f row).id = row.id) (expunged : ∀ row, (f row).expunged = row.expunged) :
    final.Open mailboxId := by
  obtain ⟨mb, member, same, live⟩ := opened
  refine ⟨_, mailboxes ▸ Table.mem_update.mpr ⟨mb, member, rfl⟩, ?_, ?_⟩
  · split
    · exact (id mb).trans same
    · exact same
  · split
    · exact (expunged mb).trans live
    · exact live

end Tx

/-- The two values are one row, up to the columns an update may change. -/
structure Message.SameRow (row m : Message) : Prop where
  id : row.id = m.id
  mailboxId : row.mailboxId = m.mailboxId
  uid : row.uid = m.uid
  size : row.size = m.size
  emailId : row.emailId = m.emailId

/-- The flags that the counters count agree. -/
def Message.SameCounted (row m : Message) : Prop :=
  row.flags.seen = m.flags.seen ∧ row.flags.deleted = m.flags.deleted

theorem Message.SameRow.refl (m : Message) : m.SameRow m := ⟨rfl, rfl, rfl, rfl, rfl⟩

theorem Message.SameRow.trans {first second third : Message} (one : first.SameRow second)
    (two : second.SameRow third) : first.SameRow third :=
  ⟨one.id.trans two.id, one.mailboxId.trans two.mailboxId, one.uid.trans two.uid,
    one.size.trans two.size, one.emailId.trans two.emailId⟩

theorem Message.SameRow.effectiveEmailId {row : Message} (same : row.SameRow m) :
    row.effectiveEmailId = m.effectiveEmailId := by
  simp only [Message.effectiveEmailId, same.id, same.emailId]

namespace Tx

/-- The value stands for a live row, and under `exact_` counts as it does. -/
def Known (pt : Tx) (exact_ : Prop) (m : Message) : Prop :=
  ∃ row, pt.Stored row ∧ row.SameRow m ∧ (exact_ → row.SameCounted m)

theorem Stored.known (stored : pt.Stored m) (exact_ : Prop) : pt.Known exact_ m :=
  ⟨m, stored, .refl m, fun _ => ⟨rfl, rfl⟩⟩

theorem Known.weaken {exact_ less : Prop} (known : pt.Known exact_ m)
    (implied : less → exact_) : pt.Known less m := by
  obtain ⟨row, stored, same, counted⟩ := known
  exact ⟨row, stored, same, fun holds => counted (implied holds)⟩

end Tx

/-- A change that concerns no message. -/
def Change.quiet : Change → Bool
  | .addUid .. => false
  | .removeUids .. => false
  | .flags .. => false
  | _ => true

/-- What a statement on mailbox rows leaves alone. -/
structure Mailbox.Keeps (row after : Mailbox) : Prop where
  id : after.id = row.id
  accountId : after.accountId = row.accountId
  uidValidity : after.uidValidity = row.uidValidity
  uidNext : after.uidNext = row.uidNext
  createSeq : after.createSeq = row.createSeq
  counts : after.counts = row.counts
  expunged : after.expunged = row.expunged

/-- The mailbox whose own row a change is about. -/
def Change.mailboxChanged : Change → Option Nat
  | .addMailbox mailbox => some mailbox.id
  | .removeMailbox mailboxId .. => some mailboxId
  | .renameMailbox mailboxId .. => some mailboxId
  | .mailboxSpecialUse mailboxId .. => some mailboxId
  | _ => none

/-- The positions that a statement on mailbox rows leaves: the live row its change is about
gets the position of the change, and no row another one. -/
structure Change.Stamps (change : Change) (chosen : Mailbox → Bool) (f : Mailbox → Mailbox)
    (accountId position : Nat) : Prop where
  kept : ∀ row, chosen row = true → (f row).modSeq = row.modSeq ∨
    row.accountId = accountId ∧ (f row).modSeq = position
  named : ∀ row, change.mailboxChanged = some row.id → row.accountId = accountId →
    row.expunged = false → chosen row = true ∧ (f row).modSeq = position

/-- A change that is about no mailbox row, with a statement that gives none a position. -/
theorem Change.Stamps.unnamed {change : Change} {chosen : Mailbox → Bool} {f : Mailbox → Mailbox}
    {accountId position : Nat} (kept : ∀ row, (f row).modSeq = row.modSeq)
    (unnamed : change.mailboxChanged = none) : change.Stamps chosen f accountId position := by
  refine ⟨fun row _ => .inl (kept row), fun row named => ?_⟩
  rw [unnamed] at named
  cases named

/-- A position that the change carries is this one. -/
def Change.Carries (change : Change) (position : Nat) : Prop :=
  ∀ carried, change.changeModSeq = some carried → carried = position

/-- What the callers of a transaction's mutators guarantee beyond what they always do. -/
structure Rules where
  fresh : Prop
  empty : Prop
  lone : Prop

/-- The state that adding a row leaves. -/
abbrev Tx.added (pt : Tx) (row : Message) : Tx :=
  (pt.withDb ((((pt.db.tookUid row.mailboxId).insertedMessage row).bumpedCounts row.mailboxId 1
    row.size (boolInt (!row.flags.seen)) (boolInt row.flags.deleted)).bumpedQuota pt.accountId
    pt.tenantId 1 row.size)).logged
      (.addUid row.mailboxId (row.uid % 2 ^ 32) row.id row.effectiveEmailId (row.emailId != 0)
        (pt.seq + 1) row.flags row.keywords)

/-- The state that updating a row leaves. -/
abbrev Tx.updated (pt : Tx) (x old : Message) (keywords : List String) : Tx :=
  (pt.withDb ((pt.db.updatedMessage pt.accountId x keywords (pt.seq + 1)).bumpedCounts
    x.mailboxId 0 0 (boolInt (!x.flags.seen) - boolInt (!old.flags.seen))
    (boolInt x.flags.deleted - boolInt old.flags.deleted))).logged
      (.flags x.mailboxId x.uid x.id x.effectiveEmailId (pt.seq + 1) x.flags x.flags
        (some keywords))

/-- The state that removing messages leaves. -/
abbrev Tx.removed (pt : Tx) (mb : Mailbox) (msgs : List Message) : Tx :=
  (pt.withDb (((pt.db.expungedMessages (pt.seq + 1) (msgs.map Message.id)).bumpedCounts
    mb.id (-msgs.length) (-(msgs.map (fun m => (m.size : Int))).sum)
    (-(msgs.map (fun m => boolInt (!m.flags.seen))).sum)
    (-(msgs.map (fun m => boolInt m.flags.deleted)).sum)).bumpedQuota pt.accountId
    pt.tenantId (-msgs.length) (-(msgs.map (fun m => (m.size : Int))).sum))).logged
      (.removeUids mb.id (msgs.map Message.uid) (pt.seq + 1) (msgs.map Message.id)
        (msgs.map Message.effectiveEmailId))

/-- One mutator call. The number counts the mailboxes it creates. -/
inductive Effect (rules : Rules) (pt : Tx) : Nat → Tx → Prop
  /-- Rename, subscription, special use, annotation. -/
  | mailboxes (chosen : Mailbox → Bool) (f : Mailbox → Mailbox) (change : Change)
      (keeps : ∀ row : Mailbox, row.Keeps (f row)) (quiet : change.quiet = true)
      (stamps : change.Stamps chosen f pt.accountId (pt.seq + 1))
      (carries : change.Carries (pt.seq + 1)) :
      Effect rules pt 0 ((pt.withDb (pt.db.setMailboxes chosen f)).logged change)
  | createMailbox (account : AccountRow) (row logged : Mailbox)
      (found : pt.db.account pt.accountId = some account)
      (id : row.id = pt.db.nextMailboxId) (mine : row.accountId = pt.accountId)
      (uidValidity : row.uidValidity = account.uidvalidityNext % 2 ^ 32)
      (uidNext : row.uidNext = 1) (live : row.expunged = false) (counts : row.counts = {})
      (modSeq : row.modSeq = pt.seq + 1) (named : logged.id = row.id)
      (carries : logged.modSeq = pt.seq + 1) :
      Effect rules pt 1
        ((pt.withDb ((pt.db.tookUidValidity pt.accountId).insertedMailbox row)).logged
          (.addMailbox logged))
  | deleteMailbox (mb : Mailbox)
      (empty : rules.empty → ∀ m, pt.Stored m → m.mailboxId ≠ mb.id) :
      Effect rules pt 0
        ((pt.withDb (pt.db.deletedMailbox pt.accountId mb.id (pt.seq + 1))).logged
          (.removeMailbox mb.id mb.name (pt.seq + 1)))
  | addMessage (mb : Mailbox) (row : Message) (member : mb ∈ pt.db.mailboxes)
      (owner : mb.accountId = pt.accountId) (opened : mb.expunged = false)
      (id : row.id = pt.db.nextMessageId) (mine : row.accountId = pt.accountId)
      (mailboxId : row.mailboxId = mb.id) (uid : row.uid = mb.uidNext)
      (createSeq : row.createSeq = pt.seq + 1) (modSeq : row.modSeq = pt.seq + 1)
      (live : row.expunged = false)
      (sibling : row.emailId ≠ 0 →
        ∃ src, pt.Stored src ∧ src.effectiveEmailId = row.emailId)
      (lone : rules.lone → row.emailId = 0) (keywords : row.keywords.isSome = true) :
      Effect rules pt 0 (pt.added row)
  | update (x old : Message) (keywords : List String) (stored : pt.Stored old)
      (same : old.SameRow x) :
      Effect rules pt 0 (pt.updated x old keywords)
  | remove (mb : Mailbox) (msgs : List Message) (distinct : (msgs.map Message.id).Nodup)
      (there : ∀ m ∈ msgs, m.mailboxId = mb.id)
      (known : ∀ m ∈ msgs, pt.Known rules.fresh m) :
      Effect rules pt 0 (pt.removed mb msgs)

/-- A sequence of mutator calls and the mailboxes it creates. -/
inductive Steps (rules : Rules) : Nat → Tx → Tx → Prop
  | refl (pt : Tx) : Steps rules 0 pt pt
  | tail {created more : Nat} {first middle last : Tx} (before : Steps rules created first middle)
      (effect : Effect rules middle more last) : Steps rules (created + more) first last

/-! ### What every effect keeps -/

namespace Database

/-- Only the table a statement names changes. -/
theorem bumpedQuota_tables (db : Database) (accountId tenantId : Nat) (dCount dSize : Int) :
    db.bumpedQuota accountId tenantId dCount dSize =
      { db with quotaCounters := (db.bumpedQuota accountId tenantId dCount dSize).quotaCounters } := by
  simp only [bumpedQuota, bumpQuotaScope]
  split <;> split <;> rfl

/-- Marking rows is marking the first and then the others. -/
theorem expungedMessages_cons (db : Database) (seq id : Nat) (ids : List Nat) :
    db.expungedMessages seq (id :: ids) =
      (db.setMessages (fun row => row.id == id)
        (fun row => { row with expunged := true, modSeq := seq })).expungedMessages seq ids := by
  simp only [expungedMessages, setMessages]
  rw [Table.update_update]
  · simp only [List.contains_cons]
  · exact fun _ => rfl
  · exact fun _ => rfl

theorem expungedMessages_nil (db : Database) (seq : Nat) : db.expungedMessages seq [] = db := by
  rw [expungedMessages, setMessages, Table.update_of_same]
  intro row picked
  cases picked

@[simp] theorem bumpedQuota_mailboxes (db : Database) (accountId tenantId : Nat)
    (dCount dSize : Int) :
    (db.bumpedQuota accountId tenantId dCount dSize).mailboxes = db.mailboxes := by
  rw [bumpedQuota_tables]

@[simp] theorem bumpedQuota_messages (db : Database) (accountId tenantId : Nat)
    (dCount dSize : Int) :
    (db.bumpedQuota accountId tenantId dCount dSize).messages = db.messages := by
  rw [bumpedQuota_tables]

variable {db : Database}

theorem Wf.setMailboxes (wf : db.Wf) (chosen : Mailbox → Bool) (f : Mailbox → Mailbox)
    (id : ∀ row, (f row).id = row.id) (accountId : ∀ row, (f row).accountId = row.accountId) :
    (db.setMailboxes chosen f).Wf := by
  have keeps : ∀ row : Mailbox, (if chosen row then f row else row).id = row.id ∧
      (if chosen row then f row else row).accountId = row.accountId := by
    intro row
    split
    · exact ⟨id row, accountId row⟩
    · exact ⟨rfl, rfl⟩
  refine ⟨?_, ?_, wf.messageIds, wf.messageBelow, ?_⟩
  · rw [Database.setMailboxes, Table.map_update _ id]
    exact wf.mailboxIds
  · intro row member
    obtain ⟨old, there, rfl⟩ := Table.mem_update.mp member
    rw [(keeps old).1]
    exact wf.mailboxBelow old there
  · intro m member
    obtain ⟨mb, there, same, mine⟩ := wf.owned m member
    exact ⟨_, Table.mem_update.mpr ⟨mb, there, rfl⟩, (keeps mb).1.trans same,
      (keeps mb).2.trans mine⟩

theorem Wf.setMessages (wf : db.Wf) (chosen : Message → Bool) (f : Message → Message)
    (id : ∀ row, (f row).id = row.id) (accountId : ∀ row, (f row).accountId = row.accountId)
    (mailboxId : ∀ row, (f row).mailboxId = row.mailboxId) : (db.setMessages chosen f).Wf := by
  refine ⟨wf.mailboxIds, wf.mailboxBelow, ?_, ?_, ?_⟩
  · rw [Database.setMessages, Table.map_update _ id]
    exact wf.messageIds
  · intro row member
    obtain ⟨old, there, rfl⟩ := Table.mem_update.mp member
    split
    · rw [id old]
      exact wf.messageBelow old there
    · exact wf.messageBelow old there
  · intro row member
    obtain ⟨old, there, rfl⟩ := Table.mem_update.mp member
    split
    · rw [mailboxId old, accountId old]
      exact wf.owned old there
    · exact wf.owned old there

theorem Wf.insertedMailbox (wf : db.Wf) (row : Mailbox) (id : row.id = db.nextMailboxId) :
    (db.insertedMailbox row).Wf := by
  refine ⟨?_, ?_, wf.messageIds, wf.messageBelow, ?_⟩
  · refine Table.nodup_insert wf.mailboxIds row fun old member same => ?_
    exact absurd (wf.mailboxBelow old member) (by omega)
  · intro mb member
    show mb.id < db.nextMailboxId + 1
    rcases List.mem_append.mp member with old | new
    · exact Nat.lt_succ_of_lt (wf.mailboxBelow mb old)
    · rw [List.mem_singleton.mp new, id]
      exact Nat.lt_succ_self _
  · intro m member
    obtain ⟨mb, there, same⟩ := wf.owned m member
    exact ⟨mb, List.mem_append_left _ there, same⟩

theorem Wf.insertedMessage (wf : db.Wf) (row : Message) (id : row.id = db.nextMessageId)
    (owned : ∃ mb ∈ db.mailboxes, mb.id = row.mailboxId ∧ mb.accountId = row.accountId) :
    (db.insertedMessage row).Wf := by
  refine ⟨wf.mailboxIds, wf.mailboxBelow, ?_, ?_, ?_⟩
  · refine Table.nodup_insert wf.messageIds row fun old member same => ?_
    exact absurd (wf.messageBelow old member) (by omega)
  · intro m member
    show m.id < db.nextMessageId + 1
    rcases List.mem_append.mp member with old | new
    · exact Nat.lt_succ_of_lt (wf.messageBelow m old)
    · rw [List.mem_singleton.mp new, id]
      exact Nat.lt_succ_self _
  · intro m member
    rcases List.mem_append.mp member with old | new
    · exact wf.owned m old
    · rw [List.mem_singleton.mp new]
      exact owned

theorem Wf.bumpedQuota (wf : db.Wf) (accountId tenantId : Nat) (dCount dSize : Int) :
    (db.bumpedQuota accountId tenantId dCount dSize).Wf := by
  rw [bumpedQuota_tables]
  exact ⟨wf.mailboxIds, wf.mailboxBelow, wf.messageIds, wf.messageBelow, wf.owned⟩

theorem Wf.bumpedCounts (wf : db.Wf) (mailboxId : Nat) (dTotal dSize dUnseen dDeleted : Int) :
    (db.bumpedCounts mailboxId dTotal dSize dUnseen dDeleted).Wf :=
  wf.setMailboxes _ _ (fun _ => rfl) (fun _ => rfl)

end Database

namespace Effect

variable {rules : Rules} {pt final : Tx} {created : Nat}

theorem accountId (effect : Effect rules pt created final) : final.accountId = pt.accountId := by
  cases effect <;> rfl

theorem wf (effect : Effect rules pt created final) (wf : pt.db.Wf) : final.db.Wf := by
  cases effect with
  | mailboxes chosen f _ keeps =>
    exact wf.setMailboxes chosen f (fun row => (keeps row).id) (fun row => (keeps row).accountId)
  | createMailbox _ row _ _ id =>
    have taken : (pt.db.tookUidValidity pt.accountId).Wf :=
      ⟨wf.mailboxIds, wf.mailboxBelow, wf.messageIds, wf.messageBelow, wf.owned⟩
    exact taken.insertedMailbox row id
  | deleteMailbox => exact wf.setMailboxes _ _ (fun _ => rfl) (fun _ => rfl)
  | addMessage mb row member owner _ id mine mailboxId =>
    have taken : (pt.db.tookUid row.mailboxId).Wf := wf.setMailboxes _ _ (fun _ => rfl) (fun _ => rfl)
    refine ((taken.insertedMessage row id ?_).bumpedCounts _ _ _ _ _).bumpedQuota _ _ _ _
    exact ⟨_, Table.mem_update.mpr ⟨mb, member, rfl⟩, by split <;> exact mailboxId.symm,
      by split <;> exact owner.trans mine.symm⟩
  | update x _ keywords =>
    have changed : (pt.db.updatedMessage pt.accountId x keywords (pt.seq + 1)).Wf :=
      wf.setMessages _ _ (fun _ => rfl) (fun _ => rfl) (fun _ => rfl)
    exact changed.bumpedCounts _ _ _ _ _
  | remove _ msgs =>
    have changed : (pt.db.expungedMessages (pt.seq + 1) (msgs.map Message.id)).Wf :=
      wf.setMessages _ _ (fun _ => rfl) (fun _ => rfl) (fun _ => rfl)
    exact (changed.bumpedCounts _ _ _ _ _).bumpedQuota _ _ _ _

end Effect

namespace Steps

variable {rules : Rules} {created : Nat} {first last : Tx}

/-- What every mutator call keeps, a transaction body keeps. -/
theorem invariant (holds : Tx → Prop)
    (kept : ∀ pt more final, holds pt → Effect rules pt more final → holds final)
    (steps : Steps rules created first last) (initially : holds first) : holds last := by
  induction steps with
  | refl => exact initially
  | tail _ effect ih =>
    exact kept _ _ _ (ih initially) effect

theorem wf (steps : Steps rules created first last) (wf : first.db.Wf) : last.db.Wf :=
  steps.invariant (fun pt => pt.db.Wf) (fun _ _ _ holds effect => effect.wf holds) wf

theorem accountId (steps : Steps rules created first last) : last.accountId = first.accountId :=
  steps.invariant (fun pt => pt.accountId = first.accountId)
    (fun _ _ _ holds effect => effect.accountId.trans holds) rfl

end Steps

end OctoMail.Store
