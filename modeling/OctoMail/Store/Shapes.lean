/-!
# The shapes of the store

Mailboxes, messages, flags and log entries as the kernel defines them
(`core/store/shapes.go`, `core/store/change.go`). A value of these types is a table
row as a query returns it, or the value a handler fills in before it stores it.

Identifiers and log positions are natural numbers, with zero for "none" as in the
source; counters are integers, since nothing in the code keeps them from going
below zero. A time is a number with zero for the zero time. `Keywords` is a Go slice
and may be nil, which the database refuses to store.

Left out are the columns that only the search and threading projections write
(subject, addresses, preview), the mailbox's parent and keyword set, which no
modelled function reads, and the fields of log entries that the store never sets.
-/

namespace OctoMail.Store

/-- The system flags of a message. -/
structure Flags where
  seen : Bool := false
  answered : Bool := false
  flagged : Bool := false
  forwarded : Bool := false
  junk : Bool := false
  notjunk : Bool := false
  deleted : Bool := false
  draft : Bool := false
  phishing : Bool := false
  mdnSent : Bool := false
deriving DecidableEq, Repr

structure SpecialUse where
  archive : Bool := false
  draft : Bool := false
  junk : Bool := false
  sent : Bool := false
  trash : Bool := false
deriving DecidableEq, Repr

structure MailboxCounts where
  total : Int := 0
  deleted : Int := 0
  unread : Int := 0
  unseen : Int := 0
  size : Int := 0
deriving DecidableEq, Repr

structure Mailbox where
  id : Nat
  accountId : Nat
  name : String
  uidValidity : Nat
  uidNext : Nat
  createSeq : Nat
  modSeq : Nat
  expunged : Bool := false
  specialUse : SpecialUse := {}
  subscribed : Bool := false
  counts : MailboxCounts := {}
deriving DecidableEq, Repr

structure Message where
  id : Nat := 0
  accountId : Nat := 0
  mailboxId : Nat := 0
  uid : Nat := 0
  createSeq : Nat := 0
  modSeq : Nat := 0
  expunged : Bool := false
  flags : Flags := {}
  /-- A nil slice is `none`. -/
  keywords : Option (List String) := none
  blobRef : String := ""
  size : Nat := 0
  threadId : Nat := 0
  emailId : Nat := 0
  received : Nat := 0
  saveDate : Nat := 0
  msgPrefix : List UInt8 := []
deriving DecidableEq, Repr

/-- The Email identity of a row: its group, or the row itself. -/
def Message.effectiveEmailId (m : Message) : Nat := if m.emailId ≠ 0 then m.emailId else m.id

/-- One log entry. `MsgID` and `EmailID` are what replay needs after the row is gone. -/
inductive Change where
  | addUid (mailboxId uid msgId emailId : Nat) (emailExistedBefore : Bool) (modSeq : Nat)
      (flags : Flags) (keywords : Option (List String))
  | removeUids (mailboxId : Nat) (uids : List Nat) (modSeq : Nat) (msgIds emailIds : List Nat)
  | flags (mailboxId uid msgId emailId modSeq : Nat) (mask flags : Flags)
      (keywords : Option (List String))
  | addMailbox (mailbox : Mailbox)
  | removeMailbox (mailboxId : Nat) (name : String) (modSeq : Nat)
  | renameMailbox (mailboxId : Nat) (oldName newName : String) (modSeq : Nat)
  | addSubscription (mailboxName : String)
  | removeSubscription (mailboxName : String)
  | mailboxSpecialUse (mailboxId : Nat) (mailboxName : String) (specialUse : SpecialUse)
      (modSeq : Nat)
  | annotationChange (mailboxId : Nat) (mailboxName key : String) (modSeq : Nat)
deriving DecidableEq, Repr

/-- The position a change carries; a derived change carries none. -/
def Change.changeModSeq : Change → Option Nat
  | .addUid _ _ _ _ _ modSeq _ _ => some modSeq
  | .removeUids _ _ modSeq _ _ => some modSeq
  | .flags _ _ _ _ modSeq _ _ _ => some modSeq
  | .addMailbox mailbox => some mailbox.modSeq
  | .removeMailbox _ _ modSeq => some modSeq
  | .renameMailbox _ _ _ modSeq => some modSeq
  | .addSubscription _ => none
  | .removeSubscription _ => none
  | .mailboxSpecialUse _ _ _ modSeq => some modSeq
  | .annotationChange _ _ _ modSeq => some modSeq

/-! ### Flags by name -/

/-- One row of the flag registry: how to set the flag, its IMAP and its JMAP name. -/
structure FlagSpec where
  set : Flags → Bool → Flags
  imap : String
  jmap : String

def flagRegistry : List FlagSpec :=
  [⟨fun f v => { f with seen := v }, "\\Seen", "$seen"⟩,
    ⟨fun f v => { f with answered := v }, "\\Answered", "$answered"⟩,
    ⟨fun f v => { f with flagged := v }, "\\Flagged", "$flagged"⟩,
    ⟨fun f v => { f with deleted := v }, "\\Deleted", "$deleted"⟩,
    ⟨fun f v => { f with draft := v }, "\\Draft", "$draft"⟩,
    ⟨fun f v => { f with forwarded := v }, "$Forwarded", "$forwarded"⟩,
    ⟨fun f v => { f with junk := v }, "$Junk", "$junk"⟩,
    ⟨fun f v => { f with notjunk := v }, "$NotJunk", "$notjunk"⟩,
    ⟨fun f v => { f with phishing := v }, "$Phishing", "$phishing"⟩,
    ⟨fun f v => { f with mdnSent := v }, "$MDNSent", "$mdnsent"⟩]

/-- ASCII letters to lower case, the rest as it is. -/
def lowerAscii (name : List Char) : List Char :=
  name.map (fun c => if 'A' ≤ c ∧ c ≤ 'Z' then Char.ofNat (c.toNat + 32) else c)

/-- Lower case, without leading backslashes and dollar signs. -/
def normalizeFlagName (name : String) : List Char :=
  (lowerAscii name.toList).dropWhile (fun c => c == '\\' || c == '$')

/-- Set the flag a name stands for; none where the name is no system flag. -/
def Flags.setByName (flags : Flags) (name : String) (value : Bool) : Option Flags :=
  (flagRegistry.find? (fun spec => normalizeFlagName spec.imap == normalizeFlagName name ||
    normalizeFlagName spec.jmap == normalizeFlagName name)).map (fun spec => spec.set flags value)

example : ({} : Flags).setByName "$SEEN" true = some { seen := true } := by decide

/-- Whether the flag is set: setting it then changes nothing. -/
def FlagSpec.get (spec : FlagSpec) (flags : Flags) : Bool := decide (spec.set flags true = flags)

/-- The names in the JMAP keyword map of a message, each once. -/
def Flags.jmapKeywords (flags : Flags) (keywords : List String) : List String :=
  ((flagRegistry.filter (fun spec => spec.get flags)).map FlagSpec.jmap ++ keywords).eraseDups

end OctoMail.Store
