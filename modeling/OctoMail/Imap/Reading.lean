import Mathlib.Data.List.Dedup
import OctoMail.Imap.Commands

/-!
# The IMAP commands that read

What SELECT, STATUS and FETCH answer (`protocol/imapd/commands.go`, `status.go`,
`fetch.go`), from the tables as the command's transaction sees them. The command line has
been read, so mailbox names are normalised and the items of a STATUS are known words; of
the attributes of a FETCH only the message they are taken from is kept.

SELECT reads the log for what vanished after its transaction, so it may see more there.
-/

namespace OctoMail.Imap

open List Store

/-- `QueryMessage().FilterMailbox(id).SortUID().List()` on a snapshot. -/
def listing (db : Database) (accountId mailboxId : Nat) : List Message :=
  (db.messages.filter (fun m =>
    !m.expunged && m.accountId == accountId && m.mailboxId == mailboxId)).insertionSort
      (fun first second => first.uid ≤ second.uid)

theorem mailboxMessages_eq (mailboxId : Nat) (pt : Tx) :
    mailboxMessages mailboxId pt = .ok (listing pt.db pt.accountId mailboxId, pt) := rfl

theorem mem_listing {db : Database} {accountId mailboxId : Nat} {m : Message} :
    m ∈ listing db accountId mailboxId ↔ m ∈ db.messages ∧ m.expunged = false ∧
      m.accountId = accountId ∧ m.mailboxId = mailboxId := by
  simp [listing, and_assoc]

/-- `MailboxFind` on a snapshot. -/
def named (db : Database) (accountId : Nat) (name : String) : Option Mailbox :=
  db.mailboxes.find? (fun mb => mb.accountId == accountId && mb.name == name && !mb.expunged)

theorem mailboxFind_eq (name : String) (pt : Tx) :
    mailboxFind name pt = .ok (named pt.db pt.accountId name, pt) := rfl

/-- Rows with the sequence numbers of their positions. -/
def withNumbers (msgs : List Message) : List (Nat × Message) :=
  msgs.zipIdx.map (fun entry => ((entry.2 + 1) % 2 ^ 32, entry.1))

/-- The rows that a set selects, by UID or by sequence number, with their numbers. -/
def selecting (set : String) (byUID : Bool) (msgs : List Message) : List (Nat × Message) :=
  let maxUID := (msgs.getLast?.elim 0 Message.uid) % 2 ^ 32
  let count := msgs.length % 2 ^ 32
  (withNumbers msgs).filter (fun entry =>
    if byUID then parseUIDSet set maxUID (entry.2.uid % 2 ^ 32) else parseUIDSet set count entry.1)

/-- The commands that write choose the same rows. -/
theorem chosen_eq (set : String) (byUID : Bool) (msgs : List Message) :
    chosen set byUID msgs = (selecting set byUID msgs).map Prod.snd := by
  simp only [chosen, selecting, withNumbers, filter_map, map_map]
  rfl

/-- The rows FETCH reads: all of the mailbox, or those changed since a position. -/
def fetchRows (db : Database) (accountId mailboxId : Nat) (changedSince : Int) : List Message :=
  if 0 ≤ changedSince then
    (listing db accountId mailboxId).filter (fun m => decide (changedSince < m.modSeq))
  else listing db accountId mailboxId

/-- The messages a FETCH answers with, each under its number. -/
def cmdFetch (db : Database) (accountId mailboxId : Nat) (set : String) (byUID : Bool)
    (changedSince : Int) : List (Nat × Message) :=
  selecting set byUID (fetchRows db accountId mailboxId changedSince)

theorem parseUIDSet_star (max number : Nat) : parseUIDSet "*" max number = true ↔ number = max := by
  have split : "*".toList.splitOn ',' = [['*']] := by decide
  have trimmed : trimSpace ['*'] = ['*'] := by decide
  have low : ['*'].takeWhile (· != ':') = ['*'] := by decide
  have high : ['*'].dropWhile (· != ':') = [] := by decide
  have ranges : parseRanges "*" max = [(max, max)] := by
    rw [parseRanges, split, map_cons, map_nil, trimmed]
    simp only [low, high, if_true, Nat.lt_irrefl, if_false]
  rw [parseUIDSet, ranges, any_cons, any_nil, Bool.or_false, Bool.and_eq_true,
    decide_eq_true_eq, decide_eq_true_eq]
  omega

theorem mem_selecting_star (msgs : List Message) {entry : Nat × Message} :
    entry ∈ selecting "*" false msgs ↔
      entry ∈ withNumbers msgs ∧ entry.1 = msgs.length % 2 ^ 32 := by
  rw [selecting, mem_filter, if_neg (by decide), parseUIDSet_star]

/-- The last of some rows has their count for its number. -/
theorem mem_withNumbers_last {msgs : List Message} (some_ : msgs ≠ []) :
    (msgs.length % 2 ^ 32, msgs.getLast some_) ∈ withNumbers msgs := by
  have positive := length_pos_iff.mpr some_
  refine mem_map.mpr ⟨(msgs.getLast some_, msgs.length - 1), ?_, ?_⟩
  · rw [mem_zipIdx_iff_getElem?, ← getLast?_eq_getElem?, getLast?_eq_some_getLast]
  · show ((msgs.length - 1 + 1) % 2 ^ 32, _) = _
    rw [Nat.sub_add_cancel positive]

theorem mem_of_mem_withNumbers {msgs : List Message} {entry : Nat × Message}
    (member : entry ∈ withNumbers msgs) : entry.2 ∈ msgs := by
  obtain ⟨pair, among, rfl⟩ := mem_map.mp member
  exact fst_mem_of_mem_zipIdx among

theorem fetchRows_since (db : Database) (accountId mailboxId n : Nat) :
    fetchRows db accountId mailboxId n =
      (listing db accountId mailboxId).filter (fun m => decide (n < m.modSeq)) := by
  rw [fetchRows, if_pos (Int.natCast_nonneg n)]
  simp only [Nat.cast_lt]

theorem fetchRows_all (db : Database) (accountId mailboxId : Nat) :
    fetchRows db accountId mailboxId (-1) = listing db accountId mailboxId :=
  if_neg (by decide)

/-- A FETCH with CHANGEDSINCE reports what the FETCH without it reports of the changed messages,
under the same numbers, where the mailbox has changed as a whole or not at all. Otherwise the
set `*` tells them apart, for the rows are numbered and the largest number is taken among the
changed ones only. -/
theorem changedSince_restricts (db : Database) (accountId mailboxId n : Nat) :
    ((∀ m ∈ listing db accountId mailboxId, n < m.modSeq) ∨
      (∀ m ∈ listing db accountId mailboxId, ¬ n < m.modSeq) →
      ∀ set byUID, cmdFetch db accountId mailboxId set byUID n =
        (cmdFetch db accountId mailboxId set byUID (-1)).filter
          (fun entry => decide (n < entry.2.modSeq))) ∧
    ((listing db accountId mailboxId).length < 2 ^ 32 →
      (∀ set byUID, cmdFetch db accountId mailboxId set byUID n =
        (cmdFetch db accountId mailboxId set byUID (-1)).filter
          (fun entry => decide (n < entry.2.modSeq))) →
      (∀ m ∈ listing db accountId mailboxId, n < m.modSeq) ∨
        (∀ m ∈ listing db accountId mailboxId, ¬ n < m.modSeq)) := by
  simp only [cmdFetch, fetchRows_since, fetchRows_all]
  generalize listing db accountId mailboxId = rows
  have inside {set : String} {byUID : Bool} {entry : Nat × Message}
      (member : entry ∈ selecting set byUID rows) : entry.2 ∈ rows :=
    mem_of_mem_withNumbers (mem_filter.mp member).1
  refine ⟨fun whole set byUID => ?_, fun small restricts => ?_⟩
  · rcases whole with changed | unchanged
    · have kept : rows.filter (fun m => decide (n < m.modSeq)) = rows := by
        simpa using changed
      have reported : (selecting set byUID rows).filter
          (fun entry => decide (n < entry.2.modSeq)) = selecting set byUID rows :=
        filter_eq_self.mpr fun entry member => decide_eq_true (changed _ (inside member))
      rw [kept, reported]
    · have none : rows.filter (fun m => decide (n < m.modSeq)) = [] := by
        simpa using unchanged
      have reported : (selecting set byUID rows).filter
          (fun entry => decide (n < entry.2.modSeq)) = [] :=
        filter_eq_nil_iff.mpr fun entry member => by
          simpa using unchanged _ (inside member)
      rw [none, reported]
      rfl
  · by_cases some_ : rows.filter (fun m => decide (n < m.modSeq)) = []
    · right
      simpa using some_
    left
    -- The last changed row is reported under the count of the changed ones.
    have last := (mem_selecting_star _).mpr
      ⟨mem_withNumbers_last some_, rfl⟩
    rw [restricts "*" false] at last
    have number := ((mem_selecting_star rows).mp (mem_filter.mp last).1).2
    have fewer := length_filter_le (fun m => decide (n < m.modSeq)) rows
    have same : (rows.filter (fun m => decide (n < m.modSeq))).length = rows.length := by
      simp only at number
      omega
    simpa using length_filter_eq_length_iff.mp same

/-- Two messages of a mailbox, the second changed later. -/
def laterSecond : Database where
  messages := [{ id := 1, accountId := 7, mailboxId := 1, uid := 1, modSeq := 3 },
    { id := 2, accountId := 7, mailboxId := 1, uid := 2, modSeq := 9 }]

/-- The second message is reported as the first, and under its own number not at all. -/
theorem laterSecond_renumbered :
    (cmdFetch laterSecond 7 1 "1:*" false (-1)).map (fun entry => (entry.1, entry.2.uid)) =
        [(1, 1), (2, 2)] ∧
      (cmdFetch laterSecond 7 1 "1:*" false 5).map (fun entry => (entry.1, entry.2.uid)) =
        [(1, 2)] ∧
      (cmdFetch laterSecond 7 1 "2" false 5).map (fun entry => (entry.1, entry.2.uid)) = [] ∧
      (cmdFetch laterSecond 7 1 "1:*" true 5).map (fun entry => (entry.1, entry.2.uid)) =
        [(1, 2)] := by
  decide +kernel

/-- Where both messages changed, the numbers are those of the mailbox. -/
theorem laterSecond_restricts :
    (∀ m ∈ listing laterSecond 7 1, 2 < m.modSeq) ∧
      ∀ set byUID, cmdFetch laterSecond 7 1 set byUID (2 : Nat) =
        (cmdFetch laterSecond 7 1 set byUID (-1)).filter
          (fun entry => decide (2 < entry.2.modSeq)) := by
  have changed : ∀ m ∈ listing laterSecond 7 1, 2 < m.modSeq := by decide +kernel
  exact ⟨changed, (changedSince_restricts laterSecond 7 1 2).1 (.inl changed)⟩

/-! ### SELECT -/

/-- `qresyncParams`. -/
structure QResync where
  uidValidity : Nat
  modSeq : Int
  knownUIDs : String := ""
deriving DecidableEq, Repr

/-- The UIDs that entries past a position record as removed from a mailbox. -/
def expungedUIDsSince (log : List LogRow) (accountId mailboxId : Nat) (since : Int) : List Nat :=
  ((log.filter (fun row => row.accountId == accountId && decide (since < row.seq))).flatMap
    (fun row =>
      match row.change with
      | .removeUids id uids .. => if id = mailboxId then uids else []
      | _ => [])).dedup.insertionSort (fun first second => first ≤ second)

structure SelectAnswer where
  mailboxId : Nat
  exists_ : Nat
  uidValidity : Nat
  uidNext : Nat
  highestModSeq : Nat
  /-- `VANISHED (EARLIER)`. -/
  vanished : List Nat
  fetched : List (Nat × Message)
deriving DecidableEq, Repr

/-- What a returning client is told. -/
def qresyncReport (log : List LogRow) (accountId : Nat) (mb : Mailbox) (msgs : List Message)
    (qr : QResync) : List Nat × List (Nat × Message) :=
  let vanished := expungedUIDsSince log accountId mb.id qr.modSeq
  ((if qr.knownUIDs = "" then vanished
    else vanished.filter (fun uid =>
      parseUIDSet qr.knownUIDs (mb.uidNext % 2 ^ 32) (uid % 2 ^ 32))).map (fun uid => uid % 2 ^ 32),
    (withNumbers msgs).filter (fun entry => decide (qr.modSeq < entry.2.modSeq)))

/-- SELECT and EXAMINE; none where there is no such mailbox. The log is the one that the
report reads. -/
def cmdSelect (db : Database) (log : List LogRow) (accountId : Nat) (name : String)
    (qr : Option QResync) : Option SelectAnswer :=
  (named db accountId name).map (fun mb =>
    let msgs := listing db accountId mb.id
    let report := match qr with
      | some qr =>
          if qr.uidValidity = mb.uidValidity ∧ 0 ≤ qr.modSeq then
            qresyncReport log accountId mb msgs qr
          else ([], [])
      | none => ([], [])
    ⟨mb.id, msgs.length, mb.uidValidity, mb.uidNext, mb.modSeq, report.1, report.2⟩)

/-! ### STATUS -/

inductive StatusItem where
  | messages
  | uidNext
  | uidValidity
  | unseen
  | highestModSeq
  | size
  | deleted
  | mailboxId
  | recent
deriving DecidableEq, Repr

def statusValue (mb : Mailbox) (totalSize : Nat) : StatusItem → Int
  | .messages => mb.counts.total
  | .uidNext => mb.uidNext
  | .uidValidity => mb.uidValidity
  | .unseen => mb.counts.unseen
  | .highestModSeq => mb.modSeq
  | .size => totalSize
  | .deleted => mb.counts.deleted
  | .mailboxId => mb.id
  | .recent => 0

/-- STATUS, with a scan of the sizes where they are asked for. -/
def cmdStatus (db : Database) (accountId : Nat) (name : String) (items : List StatusItem) :
    Option (Mailbox × List (StatusItem × Int)) :=
  (named db accountId name).map (fun mb =>
    let totalSize := if items.contains .size then
        ((listing db accountId mb.id).map Message.size).sum else 0
    (mb, items.map (fun item => (item, statusValue mb totalSize item))))

end OctoMail.Imap
