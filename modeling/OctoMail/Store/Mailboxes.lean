import Mathlib.Data.List.Sort
import OctoMail.Store.Database

/-!
# Mailbox operations

The mailbox methods of `storage/postgres/mailbox.go`, each inside the caller's
transaction. A mailbox is deleted by marking its row; the messages in it are left
as they are. No operation here reads or changes a message.
-/

namespace OctoMail.Store

open Program

namespace Tx

/-- The live mailbox of this name, if there is one. -/
def findMailbox (name : String) : Txn (Option Mailbox) := do
  let pt ← get
  return pt.db.mailboxes.find? (fun mb =>
    mb.accountId == pt.accountId && mb.name == name && !mb.expunged)

/-- Take the account's next UIDVALIDITY. The column is a bigint; the value handed out
has 32 bits. -/
def nextUIDValidity : Txn Nat := do
  let pt ← get
  let account ← require (pt.db.account pt.accountId) .noRows
  modifyDb (fun db => db.setAccounts pt.accountId
    (fun a => { a with uidvalidityNext := a.uidvalidityNext + 1 }))
  return account.uidvalidityNext % 2 ^ 32

/-- `INSERT INTO mailboxes`. At most one live mailbox of an account has a name. -/
def insertMailbox (name : String) (uidValidity seq : Nat) (su : SpecialUse) (subscribe : Bool) :
    Txn Nat := do
  let pt ← get
  refuse (pt.db.mailboxes.any (fun mb => mb.accountId == pt.accountId && mb.name == name &&
    !mb.expunged)) (.constraint "mailboxes_name_idx")
  modifyDb (fun db => { db with
    mailboxes := db.mailboxes ++ [
      { id := db.nextMailboxId, accountId := pt.accountId, name := name,
        uidValidity := uidValidity, uidNext := 1, createSeq := seq, modSeq := seq,
        specialUse := su, subscribed := subscribe }]
    nextMailboxId := db.nextMailboxId + 1 })
  return pt.db.nextMailboxId

/-- A new mailbox is subscribed where the caller asks for it. -/
def recordSubscription (subscribe : Bool) (name : String) : Txn Unit :=
  if subscribe then record (.addSubscription name) else pure ()

/-- Create a mailbox that does not exist. -/
def createMailbox (name : String) (subscribe : Bool) (su : SpecialUse) : Txn Mailbox := do
  let uidValidity ← nextUIDValidity
  let seq ← nextModSeq
  let id ← insertMailbox name uidValidity seq su subscribe
  let pt ← get
  let mb : Mailbox :=
    { id := id, accountId := pt.accountId, name := name, uidValidity := uidValidity,
      uidNext := 1, createSeq := seq, modSeq := seq, specialUse := su }
  record (.addMailbox mb)
  recordSubscription subscribe name
  return mb

/-- Find or create a mailbox. -/
def ensureMailbox (name : String) (subscribe : Bool) (su : SpecialUse) : Txn Mailbox := do
  match ← findMailbox name with
  | some mb => return mb
  | none => createMailbox name subscribe su

end Tx

open Tx

def mailboxFind (name : String) : Txn (Option Mailbox) := findMailbox name

def mailboxEnsure (name : String) (subscribe : Bool) (su : SpecialUse) : Txn Mailbox :=
  ensureMailbox name subscribe su

/-- The mailbox created, or none where one of this name exists. -/
def mailboxCreate (name : String) (su : SpecialUse) : Txn (Option Mailbox) := do
  match ← findMailbox name with
  | some _ => return none
  | none => return some (← ensureMailbox name false su)

def mailboxSetSpecialUse (mb : Mailbox) (su : SpecialUse) : Txn Unit := do
  let seq ← nextModSeq
  let pt ← get
  let chosen := fun row : Mailbox =>
    row.accountId == pt.accountId && row.id == mb.id && !row.expunged
  modifyDb (fun db => db.setMailboxes chosen
    (fun row => { row with specialUse := su, modSeq := seq }))
  refuse (!pt.db.mailboxes.any chosen) .noRows
  record (.mailboxSpecialUse mb.id mb.name su seq)

/-- Rename; false where the source is gone. A live mailbox of the new name makes the
statement fail. -/
def mailboxRename (src : Mailbox) (dst : String) : Txn Bool := do
  let seq ← nextModSeq
  let pt ← get
  let chosen := fun row : Mailbox =>
    row.id == src.id && row.accountId == pt.accountId && !row.expunged
  refuse (pt.db.mailboxes.any chosen && pt.db.mailboxes.any (fun row =>
    row.accountId == pt.accountId && row.name == dst && !row.expunged && row.id != src.id))
    (.constraint "mailboxes_name_idx")
  modifyDb (fun db => db.setMailboxes chosen (fun row => { row with name := dst, modSeq := seq }))
  if pt.db.mailboxes.any chosen then
    do
      record (.renameMailbox src.id src.name dst seq)
      return true
  else return false

/-- Mark the mailbox deleted. Its messages stay, and it never reports children. -/
def mailboxDelete (mb : Mailbox) : Txn Bool := do
  let seq ← nextModSeq
  let pt ← get
  modifyDb (fun db => db.setMailboxes (fun row => row.id == mb.id && row.accountId == pt.accountId)
    (fun row => { row with expunged := true, modSeq := seq }))
  record (.removeMailbox mb.id mb.name seq)
  return false

/-- Set or clear the subscription of the live mailbox of this name. -/
def setSubscribed (name : String) (value : Bool) (change : String → Change) : Txn Unit := do
  let pt ← get
  modifyDb (fun db => db.setMailboxes
    (fun row => row.accountId == pt.accountId && row.name == name && !row.expunged)
    (fun row => { row with subscribed := value }))
  record (change name)

def subscriptionEnsure (name : String) : Txn Unit := setSubscribed name true .addSubscription

def subscriptionRemove (name : String) : Txn Unit := setSubscribed name false .removeSubscription

/-- `QueryMailbox().List()`: the live mailboxes of the account by name. -/
def listMailboxes : Txn (List Mailbox) := do
  let pt ← get
  return (pt.db.mailboxes.filter (fun mb =>
    mb.accountId == pt.accountId && !mb.expunged)).insertionSort
      (fun first second => first.name ≤ second.name)

/-- `findMailboxByID` and `mailboxByID`: a live mailbox by its id. -/
def findMailboxById (id : Nat) : Txn (Option Mailbox) := do
  return (← listMailboxes).find? (fun mb => mb.id == id)

/-- `AnnotationSet` as far as the log is concerned; the annotations table is not modelled. -/
def annotationSet (mailboxId : Nat) (key : String) : Txn Unit := do
  let modSeq ← nextModSeq
  let pt ← get
  let name := (pt.db.mailboxes.find? (fun mb =>
    mb.accountId == pt.accountId && mb.id == mailboxId)).elim "" Mailbox.name
  record (.annotationChange mailboxId (if mailboxId = 0 then "" else name) key modSeq)

end OctoMail.Store
