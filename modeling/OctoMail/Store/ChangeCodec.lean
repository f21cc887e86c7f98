import OctoMail.Json
import OctoMail.Store.Database

/-!
# Log entries as stored

`storage/postgres/changelog.go` and `storage/postgres/replay.go`: the code of a change's
kind, its document, and the entries of an account read back in order. A document has the
members that `json.Marshal` writes for the change, those included that the store leaves at their
zero values; the members of an embedded record stand among those of the outer one.
-/

namespace OctoMail.Store

/-- The kinds of entries, in the order of their codes. -/
inductive Kind where
  | addUid
  | removeUids
  | flags
  | thread
  | addMailbox
  | removeMailbox
  | renameMailbox
  | addSubscription
  | removeSubscription
  | mailboxCounts
  | mailboxSpecialUse
  | mailboxKeywords
  | annotation
deriving DecidableEq, Repr

namespace Kind

/-- The stored codes count from one. -/
def code (kind : Kind) : Nat := kind.ctorIdx + 1

def all : List Kind :=
  [addUid, removeUids, flags, thread, addMailbox, removeMailbox, renameMailbox, addSubscription,
    removeSubscription, mailboxCounts, mailboxSpecialUse, mailboxKeywords, annotation]

def ofCode (code : Nat) : Option Kind := all.find? (fun kind => kind.code == code)

theorem ofCode_code (kind : Kind) : ofCode kind.code = some kind := by
  cases kind <;> rfl

end Kind

/-! ### The records -/

open Fields Codec

/-- A number that the store leaves at zero. -/
def unset (name : String) : Fields Unit := fixed name (.number 0)

/-- A slice that the store leaves nil. -/
def unfilled (name : String) : Fields Unit := fixed name .null

def flag (name : String) : Fields Bool := one name bool false

def count (name : String) : Fields Int := one name int 0

def number (name : String) : Fields Nat := one name nat 0

def text (name : String) : Fields String := one name string ""

def strings (name : String) : Fields (Option (List String)) := one name string.slice none

def numbers (name : String) : Fields (List Nat) := one name nat.appended []

def flagsFields : Fields Flags :=
  (pair (flag "Seen") <| pair (flag "Answered") <| pair (flag "Flagged") <|
    pair (flag "Forwarded") <| pair (flag "Junk") <| pair (flag "Notjunk") <|
    pair (flag "Deleted") <| pair (flag "Draft") <| pair (flag "Phishing") (flag "MDNSent")).of
    (fun f => (f.seen, f.answered, f.flagged, f.forwarded, f.junk, f.notjunk, f.deleted, f.draft,
      f.phishing, f.mdnSent))
    (fun (seen, answered, flagged, forwarded, junk, notjunk, deleted, draft, phishing, mdnSent) =>
      ⟨seen, answered, flagged, forwarded, junk, notjunk, deleted, draft, phishing, mdnSent⟩)
    (fun _ => rfl)

def flagsMember (name : String) : Fields Flags := one name (flagsFields.object (by decide)) {}

def specialUseFields : Fields SpecialUse :=
  (pair (flag "Archive") <| pair (flag "Draft") <| pair (flag "Junk") <|
    pair (flag "Sent") (flag "Trash")).of
    (fun su => (su.archive, su.draft, su.junk, su.sent, su.trash))
    (fun (archive, draft, junk, sent, trash) => ⟨archive, draft, junk, sent, trash⟩)
    (fun _ => rfl)

def mailboxCountsFields : Fields MailboxCounts :=
  (pair (count "Total") <| pair (count "Deleted") <| pair (count "Unread") <|
    pair (count "Unseen") (count "Size")).of
    (fun counts => (counts.total, counts.deleted, counts.unread, counts.unseen, counts.size))
    (fun (total, deleted, unread, unseen, size) => ⟨total, deleted, unread, unseen, size⟩)
    (fun _ => rfl)

/-- The embedded records add their members to the mailbox's own. -/
def mailboxFields : Fields Mailbox :=
  (pair (number "ID") <| pair (number "AccountID") <| pair (unset "ParentID") <|
    pair (text "Name") <| pair (number "UIDValidity") <| pair (number "UIDNext") <|
    pair (number "CreateSeq") <| pair (number "ModSeq") <| pair (flag "Expunged") <|
    pair specialUseFields <| pair (flag "Subscribed") <| pair (unfilled "Keywords")
      mailboxCountsFields).of
    (fun mb => (mb.id, mb.accountId, (), mb.name, mb.uidValidity, mb.uidNext, mb.createSeq,
      mb.modSeq, mb.expunged, mb.specialUse, mb.subscribed, (), mb.counts))
    (fun (id, accountId, _, name, uidValidity, uidNext, createSeq, modSeq, expunged, specialUse,
        subscribed, _, counts) =>
      ⟨id, accountId, name, uidValidity, uidNext, createSeq, modSeq, expunged, specialUse,
        subscribed, counts⟩)
    (fun _ => rfl)

/-! ### The documents of the kinds -/

def addUidCodec : Codec (Nat × Nat × Nat × Nat × Bool × Nat × Flags × Option (List String) ×
    Unit × Unit) :=
  (pair (number "MailboxID") <| pair (number "UID") <| pair (number "MsgID") <|
    pair (number "EmailID") <| pair (flag "EmailExistedBefore") <| pair (number "ModSeq") <|
    pair (flagsMember "Flags") <| pair (strings "Keywords") <| pair (unset "MessageCountIMAP")
      (unset "Unseen")).object (by decide)

def removeUidsCodec : Codec (Nat × List Nat × Nat × List Nat × List Nat × Unit × Unit × Unit) :=
  (pair (number "MailboxID") <| pair (numbers "UIDs") <| pair (number "ModSeq") <|
    pair (numbers "MsgIDs") <| pair (numbers "EmailIDs") <| pair (unset "UIDNext") <|
    pair (unset "MessageCountIMAP") (unset "Unseen")).object (by decide)

def flagsCodec : Codec (Nat × Nat × Nat × Nat × Nat × Flags × Flags × Option (List String) ×
    Unit × Unit) :=
  (pair (number "MailboxID") <| pair (number "UID") <| pair (number "MsgID") <|
    pair (number "EmailID") <| pair (number "ModSeq") <| pair (flagsMember "Mask") <|
    pair (flagsMember "Flags") <| pair (strings "Keywords") <| pair (unset "UIDValidity")
      (unset "Unseen")).object (by decide)

def addMailboxCodec : Codec (Mailbox × Unit) :=
  (pair mailboxFields (unfilled "Flags")).object (by decide)

def removeMailboxCodec : Codec (Nat × String × Nat) :=
  (pair (number "MailboxID") <| pair (text "Name") (number "ModSeq")).object (by decide)

def renameMailboxCodec : Codec (Nat × String × String × Unit × Nat) :=
  (pair (number "MailboxID") <| pair (text "OldName") <| pair (text "NewName") <|
    pair (unfilled "Flags") (number "ModSeq")).object (by decide)

/-- Both of the subscription changes. -/
def subscriptionCodec : Codec (String × Unit) :=
  (pair (text "MailboxName") (unfilled "ListFlags")).object (by decide)

def mailboxSpecialUseCodec : Codec (Nat × String × SpecialUse × Nat) :=
  (pair (number "MailboxID") <| pair (text "MailboxName") <|
    pair (one "SpecialUse" (specialUseFields.object (by decide)) {}) (number "ModSeq")).object
    (by decide)

def annotationCodec : Codec (Nat × String × String × Nat) :=
  (pair (number "MailboxID") <| pair (text "MailboxName") <| pair (text "Key")
    (number "ModSeq")).object (by decide)

/-- The kind, the mailbox for the index (zero for none) and the document. -/
def encodeChange : Change → Kind × Nat × Json
  | .addUid mailboxId uid msgId emailId emailExistedBefore modSeq flags keywords =>
      (.addUid, mailboxId, addUidCodec.encode
        (mailboxId, uid, msgId, emailId, emailExistedBefore, modSeq, flags, keywords, (), ()))
  | .removeUids mailboxId uids modSeq msgIds emailIds =>
      (.removeUids, mailboxId, removeUidsCodec.encode
        (mailboxId, uids, modSeq, msgIds, emailIds, (), (), ()))
  | .flags mailboxId uid msgId emailId modSeq mask flags keywords =>
      (.flags, mailboxId, flagsCodec.encode
        (mailboxId, uid, msgId, emailId, modSeq, mask, flags, keywords, (), ()))
  | .addMailbox mailbox => (.addMailbox, mailbox.id, addMailboxCodec.encode (mailbox, ()))
  | .removeMailbox mailboxId name modSeq =>
      (.removeMailbox, mailboxId, removeMailboxCodec.encode (mailboxId, name, modSeq))
  | .renameMailbox mailboxId oldName newName modSeq =>
      (.renameMailbox, mailboxId,
        renameMailboxCodec.encode (mailboxId, oldName, newName, (), modSeq))
  | .addSubscription mailboxName =>
      (.addSubscription, 0, subscriptionCodec.encode (mailboxName, ()))
  | .removeSubscription mailboxName =>
      (.removeSubscription, 0, subscriptionCodec.encode (mailboxName, ()))
  | .mailboxSpecialUse mailboxId mailboxName specialUse modSeq =>
      (.mailboxSpecialUse, mailboxId,
        mailboxSpecialUseCodec.encode (mailboxId, mailboxName, specialUse, modSeq))
  | .annotationChange mailboxId mailboxName key modSeq =>
      ( Kind.annotation, mailboxId, annotationCodec.encode (mailboxId, mailboxName, key, modSeq))

/-- The change that a stored kind and document stand for. The kinds that the store never
records have no change here. -/
def decodeChange (code : Nat) (payload : Json) : Option Change :=
  match Kind.ofCode code with
  | some .addUid => (addUidCodec.decode payload).map
      fun (mailboxId, uid, msgId, emailId, emailExistedBefore, modSeq, flags, keywords, _, _) =>
        .addUid mailboxId uid msgId emailId emailExistedBefore modSeq flags keywords
  | some .removeUids => (removeUidsCodec.decode payload).map
      fun (mailboxId, uids, modSeq, msgIds, emailIds, _, _, _) =>
        .removeUids mailboxId uids modSeq msgIds emailIds
  | some .flags => (flagsCodec.decode payload).map
      fun (mailboxId, uid, msgId, emailId, modSeq, mask, flags, keywords, _, _) =>
        .flags mailboxId uid msgId emailId modSeq mask flags keywords
  | some .addMailbox => (addMailboxCodec.decode payload).map fun (mailbox, _) => .addMailbox mailbox
  | some .removeMailbox => (removeMailboxCodec.decode payload).map
      fun (mailboxId, name, modSeq) => .removeMailbox mailboxId name modSeq
  | some .renameMailbox => (renameMailboxCodec.decode payload).map
      fun (mailboxId, oldName, newName, _, modSeq) =>
        .renameMailbox mailboxId oldName newName modSeq
  | some .addSubscription =>
      (subscriptionCodec.decode payload).map fun (mailboxName, _) => .addSubscription mailboxName
  | some .removeSubscription =>
      (subscriptionCodec.decode payload).map fun (mailboxName, _) => .removeSubscription mailboxName
  | some .mailboxSpecialUse => (mailboxSpecialUseCodec.decode payload).map
      fun (mailboxId, mailboxName, specialUse, modSeq) =>
        .mailboxSpecialUse mailboxId mailboxName specialUse modSeq
  | some Kind.annotation => (annotationCodec.decode payload).map
      fun (mailboxId, mailboxName, key, modSeq) =>
        .annotationChange mailboxId mailboxName key modSeq
  | some .thread | some .mailboxCounts | some .mailboxKeywords | none => none

/-- Every change is read back from what is stored for it. -/
theorem decodeChange_encodeChange (change : Change) :
    decodeChange (encodeChange change).1.code (encodeChange change).2.2.stored = some change := by
  cases change <;>
    simp only [encodeChange, decodeChange, Kind.ofCode_code, Codec.decode_encode, Option.map_some]

/-! ### The log table -/

/-- A row of the log table. -/
structure StoredRow where
  accountId : Nat
  seq : Nat
  kind : Nat
  mailboxId : Option Nat
  payload : Json

/-- What `INSERT INTO changelog` stores for an entry. -/
def LogRow.stored (entry : LogRow) : StoredRow :=
  let (kind, mailboxId, payload) := encodeChange entry.change
  { accountId := entry.accountId
    seq := entry.seq
    kind := kind.code
    mailboxId := if mailboxId = 0 then none else some mailboxId
    payload := payload.stored }

/-- Append one row to what was read; an entry that cannot be decoded fails the replay. -/
def replayRow (read : List Nat × List Change × Nat) (row : StoredRow) :
    Option (List Nat × List Change × Nat) :=
  (decodeChange row.kind row.payload).map fun change =>
    (read.1 ++ [row.seq], read.2.1 ++ [change], max read.2.2 row.seq)

/-- The positions and the changes of the account's entries after a position, and the last
position. -/
def replayWithSeqs (changelog : List StoredRow) (accountId since : Nat) :
    Option (List Nat × List Change × Nat) :=
  ((changelog.filter (fun row => row.accountId == accountId && decide (since < row.seq))).mergeSort
    (fun first second => decide (first.seq ≤ second.seq))).foldlM replayRow ([], [], since)

theorem replayRow_stored (read : List Nat × List Change × Nat) (entry : LogRow) :
    replayRow read entry.stored =
      some (read.1 ++ [entry.seq], read.2.1 ++ [entry.change], max read.2.2 entry.seq) := by
  have decoded : decodeChange entry.stored.kind entry.stored.payload = some entry.change :=
    decodeChange_encodeChange entry.change
  rw [replayRow, decoded]
  rfl

theorem foldlM_replayRow (entries : List LogRow) (read : List Nat × List Change × Nat) :
    (entries.map LogRow.stored).foldlM replayRow read =
      some (read.1 ++ entries.map LogRow.seq, read.2.1 ++ entries.map LogRow.change,
        (entries.map LogRow.seq).foldl max read.2.2) := by
  induction entries generalizing read with
  | nil => simp
  | cons entry rest ih =>
    rw [List.map_cons, List.foldlM_cons, replayRow_stored, Option.bind_eq_bind, Option.bind_some,
      ih]
    simp

end OctoMail.Store
