import OctoMail.Account.FlagChanges
import OctoMail.Account.Positions
import OctoMail.Imap.Sets
import Mathlib.Order.Interval.Finset.Nat

/-!
# STORE with UNCHANGEDSINCE

A conditional STORE compares the position of every message it selects with the one the client
gives, and writes the messages that are not newer, each at a position of its own past the head
of the log. The rows are read and written in one transaction of the account, and positions
only grow, so of several such commands with one position at most one changes a message.

The messages that are newer are named in a MODIFIED code. The code lists their UIDs in both forms
of the command, so that after a STORE by sequence number a client reads another set back.
-/

namespace OctoMail.Account

open List Store Store.Tx Program Function
open Transition (run)

/-! ### What the updates write -/

/-- The row is written as computed, at a new position. -/
structure Written (f : Message → Message) (position : Nat) (m row : Message) : Prop where
  columns : row = { f m with modSeq := row.modSeq }
  newer : position < row.modSeq

/-- A row after the update of one row at a position. -/
def updatedRow (accountId position : Nat) (x : Message) (keywords : List String) (row : Message) :
    Message :=
  if row.id == x.id && row.accountId == accountId then
    { row with flags := x.flags, keywords := some keywords, modSeq := position }
  else row

theorem updatedRow_id (accountId position : Nat) (x : Message) (keywords : List String)
    (row : Message) : (updatedRow accountId position x keywords row).id = row.id := by
  rw [updatedRow]
  split <;> rfl

/-- The row of the update is as computed, but for its position. -/
theorem updatedRow_written {m row x : Message} {keywords : List String} (position : Nat)
    (repainted : Repainted m x) (same : bare row = bare m) (given_ : x.keywords = some keywords) :
    updatedRow m.accountId position x keywords row = { x with modSeq := position } := by
  have columns : row = { m with modSeq := row.modSeq } := by
    cases row
    cases m
    simp_all [bare]
  have picked : (row.id == x.id && row.accountId == m.accountId) = true := by
    rw [columns, show x = _ from repainted]
    simp
  rw [updatedRow, if_pos picked, ← given_, columns]
  exact congrArg (fun x : Message => { x with modSeq := position }) repainted.symm

/-- The updates of some rows replace those and no others. -/
theorem updates_rows (f : Message → Message) (repaints : Repaints f) (rows : List Message)
    (pt final : Tx) (wf : (pt.db.messages.map Message.id).Nodup) (there : There pt rows)
    (ran : rows.forM (fun m => update (f m)) pt = .ok ((), final)) :
    ∃ g : Message → Message, final.db.messages = pt.db.messages.map g ∧
      ∀ row ∈ pt.db.messages, (row.id ∉ rows.map Message.id → g row = row) ∧
        ∀ m ∈ rows, m.id = row.id → Written f pt.seq m (g row) := by
  -- A row that is done is not among those to come.
  induction rows generalizing pt with
  | nil =>
    obtain ⟨_, rfl⟩ := (pure_ok _ _ _ _).mp ran
    exact ⟨id, by simp, fun row _ => ⟨fun _ => rfl, fun m none => absurd none not_mem_nil⟩⟩
  | cons m rest ih =>
    obtain ⟨⟨⟩, middle, first, others⟩ := (bind_ok _ _ _ _ _).mp ran
    have later := there.tail (repaints.id m) first
    obtain ⟨old, keywords, given_, _, rfl⟩ := update_ok first
    obtain ⟨apart, _⟩ := nodup_cons.mp there.distinct
    obtain ⟨stored, mine⟩ := there.stored m mem_cons_self
    have changed : (pt.db.updatedMessage pt.accountId (f m) keywords (pt.seq + 1)).messages =
        pt.db.messages.map (updatedRow pt.accountId (pt.seq + 1) (f m) keywords) := rfl
    obtain ⟨g, replaced, kept⟩ := ih _ (by
      refine Eq.mpr ?_ wf
      show (((pt.db.updatedMessage _ _ _ _).messages.map Message.id).Nodup) = _
      rw [changed, map_map]
      exact congrArg _ (map_congr_left fun row _ => updatedRow_id ..)) later others
    refine ⟨fun row => g (updatedRow pt.accountId (pt.seq + 1) (f m) keywords row), ?_,
      fun row member => ?_⟩
    · rw [replaced]
      exact map_map
    · obtain ⟨stays, writes⟩ := kept (updatedRow pt.accountId (pt.seq + 1) (f m) keywords row)
        (mem_map_of_mem member)
      rw [updatedRow_id] at stays writes
      by_cases here : row.id = m.id
      · -- The row is the one just written, and none of the others.
        obtain ⟨same, inside, equal⟩ := mem_map.mp stored
        have id : same.id = m.id := (congrArg Message.id equal : (bare same).id = (bare m).id)
        obtain rfl := Table.eq_of_key wf inside member (id.trans here.symm)
        have settled := stays (by rwa [here])
        rw [← mine, updatedRow_written (pt.seq + 1) (repaints m) equal given_] at settled
        refine ⟨fun absent => absurd mem_cons_self (here ▸ absent), fun other among named => ?_⟩
        rcases mem_cons.mp among with rfl | among
        · dsimp only
          rw [← mine, updatedRow_written (pt.seq + 1) (repaints other) equal given_, settled]
          exact ⟨rfl, Nat.lt_succ_self _⟩
        · exact absurd (mem_map.mpr ⟨other, among, named.trans here⟩) apart
      · have passed : ¬ (row.id == (f m).id && row.accountId == pt.accountId) = true := by
          rw [repaints.id m]
          simp [here]
        simp only [updatedRow, if_neg passed] at stays writes ⊢
        constructor
        · intro absent
          exact stays (mt (mem_cons_of_mem _) absent)
        · intro other among same
          rcases mem_cons.mp among with rfl | among
          · exact absurd same.symm here
          · obtain ⟨columns, newer⟩ := writes other among same
            exact ⟨columns, Nat.lt_of_succ_lt newer⟩

/-! ### The command -/

variable {accountId : Nat} {after db : Database} {entry other : Nat × Message}

/-- STORE and UID STORE with UNCHANGEDSINCE, on the mailbox a session has selected. -/
structure StoreCommand where
  env : Env
  selected : Mailbox
  set : String
  byUID : Bool
  unchangedSince : Nat
  op : Imap.StoreOp
  flags : List String

namespace StoreCommand

def request (command : StoreCommand) : Request :=
  .store command.selected command.set command.byUID (some command.unchangedSince) command.op
    command.flags

def label (command : StoreCommand) (accountId : Nat) : Label :=
  .request accountId command.env command.request

def answered (command : StoreCommand) (db : Database) (accountId : Nat) : Bool :=
  command.request.succeeds command.env db accountId

/-- The messages selected, each with its number. -/
def selects (command : StoreCommand) (db : Database) (accountId : Nat) : List (Nat × Message) :=
  Imap.selecting command.set command.byUID (Imap.listing db accountId command.selected.id)

/-- The message is newer than the position given. -/
def newer (command : StoreCommand) (m : Message) : Bool := command.unchangedSince < m.modSeq

def applied (command : StoreCommand) (m : Message) : Message :=
  Imap.applyFlags command.env.equalFold m command.op command.flags

theorem committed (command : StoreCommand) (moved : step db (command.label accountId) = some after)
    (ok : command.answered db accountId = true) :
    ∃ account pt, db.account accountId = some account ∧
      command.request.body command.env (begin_ db account) = .ok ((), pt) ∧ after = flushed pt :=
  request_committed moved ok

/-- What an answer OK leaves: the rows of the messages selected that are not newer are written,
the others stay. -/
theorem stored (command : StoreCommand) (sound : Sound db)
    (moved : step db (command.label accountId) = some after)
    (ok : command.answered db accountId = true) :
    ∃ g : Message → Message, after.messages = db.messages.map g ∧
      ∀ row ∈ db.messages,
        ((∀ entry ∈ command.selects db accountId, entry.2.id = row.id →
          command.newer entry.2 = true) → g row = row) ∧
        ∀ entry ∈ command.selects db accountId, entry.2.id = row.id →
          command.newer entry.2 = false →
          Written command.applied (logHead db accountId) entry.2 (g row) := by
  obtain ⟨account, pt, found, ran, rfl⟩ := command.committed moved ok
  obtain rfl : account.id = accountId := by simpa using find?_some found
  let change : FlagChange := .store command.selected command.set command.byUID
    (some command.unchangedSince) command.op command.flags
  have picked : ∀ m, m ∈ change.rows db account.id ↔
      ∃ entry ∈ command.selects db account.id, command.newer entry.2 = false ∧ entry.2 = m := by
    intro m
    simp only [change, FlagChange.rows, Imap.chosen_eq, mem_filter, mem_map, selects, newer]
    constructor
    · rintro ⟨⟨entry, among, rfl⟩, older⟩
      exact ⟨entry, among, by simpa using older, rfl⟩
    · rintro ⟨entry, among, older, rfl⟩
      exact ⟨⟨entry, among, rfl⟩, by simpa using older⟩
  have loop : (change.rows db account.id).forM (fun m => update (change.computed command.env m))
      (begin_ db account) = .ok ((), pt) := by
    have body : command.request.body command.env = Imap.cmdStore command.env command.selected
      command.set command.byUID (some command.unchangedSince) command.op command.flags := rfl
    rw [body, FlagChange.cmdStore_eq] at ran
    exact ran
  obtain ⟨g, messages, rows⟩ := updates_rows (change.computed command.env)
    (change.computed_repaints command.env) (change.rows db account.id) (begin_ db account) pt
    sound.wf.messageIds (.of_rows (change.rows_read (begin_ db account) sound.wf)) loop
  refine ⟨g, messages, fun row member => ⟨fun all => (rows row member).1 fun listed => ?_, ?_⟩⟩
  · obtain ⟨m, among, same⟩ := mem_map.mp listed
    obtain ⟨entry, selected, older, rfl⟩ := (picked m).mp among
    rw [all entry selected same] at older
    cases older
  · intro entry selected same older
    rw [sound.kept.head found]
    exact (rows row member).2 entry.2 ((picked _).mpr ⟨entry, selected, older, rfl⟩) same

theorem refused (command : StoreCommand) (moved : step db (command.label accountId) = some after)
    (no : command.answered db accountId = false) : after = db :=
  request_refused moved no

theorem mem_of_selects {command : StoreCommand} (selected : entry ∈ command.selects db accountId) :
    entry.2 ∈ db.messages ∧ entry.2.accountId = accountId ∧
      entry.2.mailboxId = command.selected.id := by
  have listed := Imap.mem_of_mem_withNumbers (mem_filter.mp selected).1
  obtain ⟨member, _, mine, inside⟩ := Imap.mem_listing.mp listed
  exact ⟨member, mine, inside⟩

/-- Two messages selected with one id are one. -/
theorem selects_unique {command : StoreCommand} (sound : Sound db)
    (first : entry ∈ command.selects db accountId)
    (second : other ∈ command.selects db accountId) (same : other.2.id = entry.2.id) :
    other.2 = entry.2 :=
  Table.eq_of_key sound.wf.messageIds (mem_of_selects second).1 (mem_of_selects first).1 same

/-- A newer message stays as it is. -/
theorem keeps_newer (command : StoreCommand)
    (sound : Sound db) (moved : step db (command.label accountId) = some after)
    (selected : entry ∈ command.selects db accountId)
    (newer : command.newer entry.2 = true) : entry.2 ∈ after.messages := by
  cases ok : command.answered db accountId with
  | false =>
    rw [command.refused moved ok]
    exact (mem_of_selects selected).1
  | true =>
    obtain ⟨g, messages, rows⟩ := command.stored sound moved ok
    have stays := (rows entry.2 (mem_of_selects selected).1).1 fun other among same => by
      rwa [selects_unique sound selected among same]
    rw [messages, ← stays]
    exact mem_map_of_mem (mem_of_selects selected).1

/-- A message that is not newer is written past every position there is. -/
theorem writes_older (command : StoreCommand)
    (positioned : Positioned db) (moved : step db (command.label accountId) = some after)
    (ok : command.answered db accountId = true)
    (selected : entry ∈ command.selects db accountId) (older : command.newer entry.2 = false) :
    ∃ row ∈ after.messages, Written command.applied (logHead db accountId) entry.2 row := by
  obtain ⟨g, messages, rows⟩ := command.stored positioned.sound moved ok
  have member := (mem_of_selects selected).1
  refine ⟨g entry.2, ?_, (rows entry.2 member).2 entry selected rfl older⟩
  rw [messages]
  exact mem_map_of_mem member

end StoreCommand

/-- The positions of an account's log are up to its head. -/
theorem Sound.seq_le (sound : Sound db) {account : AccountRow}
    (found : db.account accountId = some account) {entry : LogRow} (logged : entry ∈ db.changelog)
    (mine : entry.accountId = accountId) : entry.seq ≤ logHead db accountId := by
  obtain rfl : account.id = accountId := by simpa using find?_some found
  rw [sound.kept.head found]
  exact ((sound.kept account (mem_of_find?_eq_some found)).bound entry logged mine).2

/-- A row keeps its position or gets a later one. -/
theorem modSeq_grows {now : Database} {between : List Label} (positioned : Positioned after)
    (went : run step after between = some now) {row m : Message}
    (there : row ∈ after.messages) (later : m ∈ now.messages) (mine : m.accountId = row.accountId)
    (inside : m.mailboxId = row.mailboxId) (same : m.id = row.id) : row.modSeq ≤ m.modSeq := by
  obtain ⟨more, log⟩ := run_appends positioned.sound went
  obtain ⟨entry, logged, owner, seq, touched⟩ := positioned.messages.entry row there
  have placed := run_positioned positioned went
  rw [← seq]
  refine placed.messages.latest m later entry ?_ (owner.trans mine.symm) (by rwa [inside, same])
  rw [log]
  exact mem_append_left _ logged

/-- A conditional STORE is a compare-and-set of every message it selects, and of two with one
position at most one changes a message. -/
theorem conditional_store (start db after : Database) (labels : List Label)
    (initial : Initial start) (reached : run step start labels = some db) (accountId : Nat)
    (command : StoreCommand) (moved : step db (command.label accountId) = some after) :
    (command.answered db accountId = false → after = db) ∧
    (command.answered db accountId = true → ∀ entry ∈ command.selects db accountId,
      (command.newer entry.2 = true → entry.2 ∈ after.messages) ∧
      (command.newer entry.2 = false → ∃ row ∈ after.messages,
        row = { command.applied entry.2 with modSeq := row.modSeq } ∧
        logHead db accountId < row.modSeq ∧
        (∀ m ∈ db.messages, m.accountId = accountId → m.modSeq < row.modSeq) ∧
        ∀ mb ∈ db.mailboxes, mb.accountId = accountId → mb.modSeq < row.modSeq)) ∧
    (command.unchangedSince ≤ logHead db accountId →
      ∀ (between : List Label) (now final : Database) (second : StoreCommand),
        run step after between = some now →
        step now (second.label accountId) = some final →
        second.unchangedSince = command.unchangedSince →
        second.selected.id = command.selected.id →
        ∀ entry ∈ command.selects db accountId, ∀ other ∈ second.selects now accountId,
          other.2.id = entry.2.id → entry.2 ∈ after.messages ∨ other.2 ∈ final.messages) := by
  have positioned := run_positioned initial.positioned reached
  refine ⟨command.refused moved, fun ok entry selected => ⟨?_, fun older => ?_⟩, ?_⟩
  · exact command.keeps_newer positioned.sound moved selected
  · obtain ⟨row, member, columns, newer⟩ := command.writes_older positioned moved ok selected older
    obtain ⟨account, _, found, _⟩ := command.committed moved ok
    refine ⟨row, member, columns, newer, fun m there mine => ?_, fun mb there mine => ?_⟩
    · obtain ⟨logged, inside, owner, seq, _⟩ := positioned.messages.entry m there
      rw [← seq]
      exact Nat.lt_of_le_of_lt (positioned.sound.seq_le found inside (owner.trans mine)) newer
    · obtain ⟨logged, inside, owner, seq⟩ := positioned.mailboxes.entry mb there
      rw [← seq]
      exact Nat.lt_of_le_of_lt (positioned.sound.seq_le found inside (owner.trans mine)) newer
  · intro head between now final second went last since mailbox entry selected other among same
    have placed := step_positioned positioned moved
    have later := run_positioned placed went
    obtain ⟨member, mine, inside⟩ := StoreCommand.mem_of_selects selected
    obtain ⟨there, owner, within⟩ := StoreCommand.mem_of_selects among
    cases ok : command.answered db accountId with
    | false =>
      rw [command.refused moved ok]
      exact .inl member
    | true =>
      cases older : command.newer entry.2 with
      | true => exact .inl (command.keeps_newer positioned.sound moved selected older)
      | false =>
        -- The row written is past the position given, and no later row of it is before.
        obtain ⟨row, written, columns, newer⟩ :=
          command.writes_older positioned moved ok selected older
        have repainted := FlagChange.applyFlags_repainted command.env.equalFold entry.2 command.op
          command.flags
        have grown := modSeq_grows placed went written there
          (by rw [owner, columns, StoreCommand.applied, repainted, mine])
          (by rw [within, columns, StoreCommand.applied, repainted, inside, mailbox])
          (by rw [same, columns, StoreCommand.applied, repainted])
        refine .inr (second.keeps_newer later.sound last among (decide_eq_true ?_))
        omega

/-- `STORE 1 (UNCHANGEDSINCE 2) +FLAGS (\Seen)` on a mailbox with one message. -/
def addSeen : StoreCommand := ⟨plainEnv, mailboxA, "1", false, 2, .add, ["\\Seen"]⟩

/-- The message gets the flag, past the head of the log. -/
theorem conditional_store_addSeen :
    ∃ db after, run step oneAccount oneMail = some db ∧
      step db (addSeen.label 7) = some after ∧ addSeen.answered db 7 = true ∧
      ∃ entry ∈ addSeen.selects db 7, ∃ row ∈ after.messages,
        row = { addSeen.applied entry.2 with modSeq := row.modSeq } ∧ logHead db 7 < row.modSeq := by
  have ended : (run step oneAccount oneMail).map (fun db =>
      ((addSeen.selects db 7).map (fun entry => addSeen.newer entry.2), addSeen.answered db 7,
        (step db (addSeen.label 7)).isSome)) = some ([false], true, true) := by decide +kernel
  obtain ⟨db, reached, facts⟩ := Option.map_eq_some_iff.mp ended
  simp only [Prod.mk.injEq] at facts
  obtain ⟨one, ok, some_⟩ := facts
  obtain ⟨after, moved⟩ := Option.isSome_iff_exists.mp some_
  obtain ⟨entry, rest, shape, older, _⟩ := map_eq_cons_iff.mp one
  have selected : entry ∈ addSeen.selects db 7 := by rw [shape]; exact mem_cons_self
  obtain ⟨row, member, columns, newer, _⟩ := ((conditional_store oneAccount db after oneMail
    oneAccount_initial reached 7 addSeen moved).2.1 ok entry selected).2 older
  exact ⟨db, after, reached, moved, ok, entry, selected, row, member, columns, newer⟩

/-! ### The MODIFIED answer -/

namespace StoreCommand

/-- The messages that the command refuses. -/
def refuses (command : StoreCommand) (db : Database) (accountId : Nat) : List (Nat × Message) :=
  (command.selects db accountId).filter (fun entry => command.newer entry.2)

/-- The set in the MODIFIED code of the answer, if there is one. -/
def modified (command : StoreCommand) (db : Database) (accountId : Nat) : Option String :=
  let ids := (command.refuses db accountId).map (fun entry =>
    Nat.toDigits 10 (entry.2.uid % 2 ^ 32))
  if ids.isEmpty then none else some (String.ofList ([','].intercalate ids))

end StoreCommand

/-- The UIDs of a mailbox: they are 32-bit numbers, not zero, and grow. -/
structure Numbered (msgs : List Message) : Prop where
  growing : msgs.Pairwise (fun first second => first.uid < second.uid)
  positive : ∀ m ∈ msgs, 0 < m.uid
  small : ∀ m ∈ msgs, m.uid < 2 ^ 32

section Numbers

variable {msgs : List Message} (numbered : Numbered msgs)
include numbered

theorem Numbered.length_lt : msgs.length < 2 ^ 32 := by
  have distinct : (msgs.map Message.uid).Nodup :=
    pairwise_map.mpr (numbered.growing.imp fun less => Nat.ne_of_lt less)
  have inside : (msgs.map Message.uid).toFinset ⊆ Finset.Ioo 0 (2 ^ 32) := by
    intro uid member
    obtain ⟨m, among, rfl⟩ := mem_map.mp (mem_toFinset.mp member)
    exact Finset.mem_Ioo.mpr ⟨numbered.positive m among, numbered.small m among⟩
  have count := Finset.card_le_card inside
  rw [toFinset_card_of_nodup distinct, length_map, Nat.card_Ioo] at count
  omega

/-- The sequence numbers grow, and the UIDs with them. -/
theorem Numbered.entries : (Imap.withNumbers msgs).Pairwise
    (fun first second => first.1 < second.1 ∧ first.2.uid < second.2.uid) := by
  have short := numbered.length_lt
  refine pairwise_iff_getElem.mpr fun i j hi hj less => ?_
  simp only [Imap.withNumbers, length_map, length_zipIdx] at hi hj
  have uids := pairwise_iff_getElem.mp numbered.growing i j hi hj less
  simp only [Imap.withNumbers, getElem_map, getElem_zipIdx, Nat.zero_add]
  exact ⟨by omega, uids⟩

theorem Numbered.eq_of_number (first : entry ∈ Imap.withNumbers msgs)
    (second : other ∈ Imap.withNumbers msgs) (same : entry.1 = other.1) : entry = other := by
  have distinct : ((Imap.withNumbers msgs).map Prod.fst).Nodup :=
    pairwise_map.mpr (numbered.entries.imp fun less => Nat.ne_of_lt less.1)
  exact inj_on_of_nodup_map distinct first second same

theorem Numbered.eq_of_uid
    (first : entry ∈ Imap.withNumbers msgs) (second : other ∈ Imap.withNumbers msgs)
    (same : entry.2.uid = other.2.uid) : entry = other := by
  have distinct : ((Imap.withNumbers msgs).map (fun entry => entry.2.uid)).Nodup :=
    pairwise_map.mpr (numbered.entries.imp fun less => Nat.ne_of_lt less.2)
  exact inj_on_of_nodup_map distinct first second same

end Numbers

/-- A set of single numbers. -/
theorem parseUIDSet_numbers {numbers : List Nat} (some_ : numbers ≠ [])
    (positive : ∀ n ∈ numbers, 0 < n) (small : ∀ n ∈ numbers, n < 2 ^ 32) (max v : Nat) :
    Imap.parseUIDSet (String.ofList ([','].intercalate (numbers.map (Nat.toDigits 10)))) max v = true ↔
      v ∈ numbers := by
  obtain ⟨first, rest, rfl⟩ := exists_cons_of_ne_nil some_
  obtain ⟨positive, positives⟩ := forall_mem_cons.mp positive
  obtain ⟨small, smalls⟩ := forall_mem_cons.mp small
  let part : {n // n ∈ rest} → Imap.Sets.Part := fun n =>
    .single (.number n.1 (positives n.1 n.2) (smalls n.1 n.2))
  let set : Imap.Sets.SeqSet := ⟨.single (.number first positive small), rest.attach.map part⟩
  have text : [','].intercalate ((first :: rest).map (Nat.toDigits 10)) = set.render := by
    rw [Imap.Sets.render_eq, Imap.Sets.SeqSet.parts, map_cons, map_cons, map_map]
    have others : rest.map (Nat.toDigits 10) = rest.attach.map (Imap.Sets.Part.render ∘ part) := by
      conv_lhs => rw [← attach_map_subtype_val rest, map_map]
      rfl
    rw [others]
    rfl
  have equal : ∀ {n : Nat}, min n n ≤ v → v ≤ Max.max n n → v = n := by
    intro n low high
    rw [Nat.min_self] at low
    rw [Nat.max_self] at high
    exact Nat.le_antisymm high low
  rw [text, Imap.Sets.parseUIDSet_render]
  constructor
  · rintro ⟨_, among, low, high⟩
    rcases mem_cons.mp among with rfl | among
    · exact mem_cons.mpr (.inl (equal low high))
    · obtain ⟨n, _, rfl⟩ := mem_map.mp among
      rw [equal low high]
      exact mem_cons_of_mem _ n.2
  · intro member
    rcases mem_cons.mp member with rfl | member
    · exact ⟨_, mem_cons_self, Nat.min_le_left .., Nat.le_max_left ..⟩
    · exact ⟨part ⟨v, member⟩, mem_cons_of_mem _ (mem_map_of_mem (mem_attach ..)),
        Nat.min_le_left .., Nat.le_max_left ..⟩

/-! ### Reading the set back -/

/-- What the numbering of a mailbox reads of a row. -/
structure SamePlace (row other : Message) : Prop where
  uid : other.uid = row.uid
  accountId : other.accountId = row.accountId
  mailboxId : other.mailboxId = row.mailboxId
  expunged : other.expunged = row.expunged

theorem listing_map {g : Message → Message} (rows : after.messages = db.messages.map g)
    (places : ∀ row ∈ db.messages, SamePlace row (g row)) (accountId mailboxId : Nat) :
    Imap.listing after accountId mailboxId = (Imap.listing db accountId mailboxId).map g := by
  rw [Imap.listing, Imap.listing, rows, filter_map]
  refine Eq.trans ?_ (map_insertionSort (fun first second : Message => first.uid ≤ second.uid)
    (fun first second : Message => first.uid ≤ second.uid) g _ fun first among second within => ?_).symm
  · congr 2
    refine filter_congr fun row member => ?_
    have place := places row member
    simp only [comp_apply, place.expunged, place.accountId, place.mailboxId]
  · rw [(places first (mem_filter.mp among).1).uid,
      (places second (mem_filter.mp within).1).uid]

theorem selecting_map {set : String} {byUID : Bool} {msgs : List Message} {g : Message → Message}
    (uids : ∀ m ∈ msgs, (g m).uid = m.uid) :
    (Imap.selecting set byUID (msgs.map g)).map (·.2.uid) =
      (Imap.selecting set byUID msgs).map (·.2.uid) := by
  have numbers : Imap.withNumbers (msgs.map g) =
      (Imap.withNumbers msgs).map (fun entry => (entry.1, g entry.2)) := by
    simp only [Imap.withNumbers, zipIdx_map, map_map]
    rfl
  have last : (msgs.map g).getLast?.elim 0 Message.uid = msgs.getLast?.elim 0 Message.uid := by
    rw [getLast?_map]
    cases found : msgs.getLast? with
    | none => rfl
    | some m => exact uids m (mem_of_getLast? found)
  have each : ∀ entry ∈ Imap.withNumbers msgs, (g entry.2).uid = entry.2.uid :=
    fun entry member => uids entry.2 (Imap.mem_of_mem_withNumbers member)
  simp only [Imap.selecting, numbers, last, length_map, filter_map, map_map]
  refine (map_congr_left fun entry member => each entry (mem_filter.mp member).1).trans ?_
  congr 1
  refine filter_congr fun entry member => ?_
  simp only [comp_apply, each entry member]

/-- A STORE does not move a message. -/
theorem StoreCommand.stored_place (command : StoreCommand)
    (sound : Sound db) (moved : step db (command.label accountId) = some after)
    (ok : command.answered db accountId = true) :
    ∃ g : Message → Message, after.messages = db.messages.map g ∧
      ∀ row ∈ db.messages, SamePlace row (g row) := by
  obtain ⟨g, rows, each⟩ := command.stored sound moved ok
  refine ⟨g, rows, fun row member => ?_⟩
  obtain ⟨stays, written⟩ := each row member
  by_cases all : ∀ entry ∈ command.selects db accountId, entry.2.id = row.id →
      command.newer entry.2 = true
  · rw [stays all]
    exact ⟨rfl, rfl, rfl, rfl⟩
  push Not at all
  obtain ⟨entry, selected, same, older⟩ := all
  obtain ⟨columns, _⟩ := written entry selected same (by simpa using older)
  obtain rfl := Table.eq_of_key sound.wf.messageIds (mem_of_selects selected).1 member same
  have repainted := FlagChange.applyFlags_repainted command.env.equalFold entry.2 command.op
    command.flags
  rw [columns, StoreCommand.applied, repainted]
  exact ⟨rfl, rfl, rfl, rfl⟩

/-- A selection of a mailbox read back from the list of its UIDs: as UIDs it is the selection, as
sequence numbers only where the two numberings agree. -/
theorem selecting_uids {msgs : List Message} (numbered : Numbered msgs) (byUID : Bool)
    {q : Nat × Message → Bool} (some_ : (Imap.withNumbers msgs).filter q ≠ []) :
    let picked := (Imap.withNumbers msgs).filter q
    (Imap.selecting (String.ofList ([','].intercalate (picked.map (fun entry =>
        Nat.toDigits 10 (entry.2.uid % 2 ^ 32))))) byUID msgs).map (·.2.uid) =
        picked.map (·.2.uid) ↔
      byUID = true ∨ ∀ entry ∈ picked, entry.2.uid = entry.1 := by
  intro picked
  have inside : ∀ entry ∈ picked, entry ∈ Imap.withNumbers msgs :=
    fun entry among => (mem_filter.mp among).1
  have small : ∀ entry ∈ Imap.withNumbers msgs, entry.2.uid % 2 ^ 32 = entry.2.uid :=
    fun entry among => Nat.mod_eq_of_lt (numbered.small _ (Imap.mem_of_mem_withNumbers among))
  have text : picked.map (fun entry => Nat.toDigits 10 (entry.2.uid % 2 ^ 32)) =
      (picked.map (·.2.uid)).map (Nat.toDigits 10) := by
    rw [map_map]
    exact map_congr_left fun entry among => by
      simp only [comp_apply, small entry (inside entry among)]
  have reads : ∀ max v, Imap.parseUIDSet (String.ofList ([','].intercalate
      ((picked.map (·.2.uid)).map (Nat.toDigits 10)))) max v = true ↔ v ∈ picked.map (·.2.uid) := by
    refine parseUIDSet_numbers (mt map_eq_nil_iff.mp some_) ?_ ?_
    · simp only [forall_mem_map]
      exact fun entry among => numbered.positive _ (Imap.mem_of_mem_withNumbers
        (inside entry among))
    · simp only [forall_mem_map]
      exact fun entry among => numbered.small _ (Imap.mem_of_mem_withNumbers (inside entry among))
  have among : ∀ entry ∈ Imap.withNumbers msgs,
      (entry.2.uid ∈ picked.map (·.2.uid) ↔ entry ∈ picked) := by
    intro entry member
    constructor
    · intro named
      obtain ⟨other, chosen, same⟩ := mem_map.mp named
      rwa [← numbered.eq_of_uid (inside other chosen) member same]
    · exact fun chosen => mem_map_of_mem chosen
  rw [text]
  cases byUID with
  | true =>
    simp only [Imap.selecting, if_true, true_or, iff_true]
    congr 1
    refine filter_congr fun entry member => Bool.eq_iff_iff.mpr ?_
    rw [reads, small entry member, among entry member, mem_filter]
    exact and_iff_right member
  | false =>
    simp only [Imap.selecting, Bool.false_eq_true, if_false, false_or]
    constructor
    · intro equal
      -- Both lists of numbers grow, and the first is contained in the second.
      have contained : picked.map Prod.fst ⊆ picked.map (·.2.uid) := by
        simp only [subset_def, forall_mem_map]
        intro entry chosen
        have named : entry.2.uid ∈ picked.map (·.2.uid) := mem_map_of_mem chosen
        rw [← equal] at named
        obtain ⟨other, found, same⟩ := mem_map.mp named
        obtain ⟨member, numbers⟩ := mem_filter.mp found
        rw [← numbered.eq_of_uid member (inside entry chosen) same]
        exact (reads _ _).mp numbers
      have grows := numbered.entries.sublist (filter_sublist (p := q))
      have first : (picked.map Prod.fst).Pairwise (· < ·) :=
        pairwise_map.mpr (grows.imp And.left)
      have second : (picked.map (·.2.uid)).Pairwise (· < ·) :=
        pairwise_map.mpr (grows.imp And.right)
      have permuted := (subperm_of_subset (first.imp Nat.ne_of_lt) contained).perm_of_length_le
        (by simp)
      have same := permuted.eq_of_pairwise' first second
      exact fun entry chosen => (map_inj_left.mp same entry chosen).symm
    · intro agree
      congr 1
      refine filter_congr fun entry member => Bool.eq_iff_iff.mpr ?_
      rw [reads]
      constructor
      · intro named
        obtain ⟨other, chosen, same⟩ := mem_map.mp named
        rw [agree other chosen] at same
        rw [← numbered.eq_of_number (inside other chosen) member same]
        exact (mem_filter.mp chosen).2
      · intro chosen
        have there := mem_filter.mpr ⟨member, chosen⟩
        exact mem_map.mpr ⟨entry, there, agree entry there⟩

/-- The set of the MODIFIED code, given back to the FETCH of the same form, selects the messages
refused exactly when the form is that of UIDs or their sequence numbers are their UIDs. -/
theorem modified_refetched (db after : Database) (accountId : Nat) (command : StoreCommand)
    (sound : Sound db) (moved : step db (command.label accountId) = some after)
    (ok : command.answered db accountId = true)
    (numbered : Numbered (Imap.listing db accountId command.selected.id)) :
    (command.modified db accountId = none ↔ command.refuses db accountId = []) ∧
    ∀ text, command.modified db accountId = some text →
      ((Imap.cmdFetch after accountId command.selected.id text command.byUID (-1)).map (·.2.uid) =
          (command.refuses db accountId).map (·.2.uid) ↔
        command.byUID = true ∨ ∀ entry ∈ command.refuses db accountId, entry.2.uid = entry.1) := by
  have empty : command.modified db accountId = none ↔ command.refuses db accountId = [] := by
    simp [StoreCommand.modified]
  refine ⟨empty, fun text given => ?_⟩
  have some_ : command.refuses db accountId ≠ [] := by
    intro none
    rw [empty.mpr none] at given
    cases given
  obtain rfl : String.ofList ([','].intercalate ((command.refuses db accountId).map
      (fun entry => Nat.toDigits 10 (entry.2.uid % 2 ^ 32)))) = text := by
    simpa [StoreCommand.modified, some_] using given
  obtain ⟨g, rows, places⟩ := command.stored_place sound moved ok
  have fetched : Imap.fetchRows after accountId command.selected.id (-1) =
      (Imap.listing db accountId command.selected.id).map g := by
    rw [← listing_map rows places]
    rfl
  rw [Imap.cmdFetch, fetched, selecting_map fun m member =>
    (places m (Imap.mem_listing.mp member).1).uid]
  have filtered : command.refuses db accountId =
      (Imap.withNumbers (Imap.listing db accountId command.selected.id)).filter _ :=
    filter_filter
  rw [filtered] at some_ ⊢
  exact selecting_uids numbered command.byUID some_

/-- Three messages, of which the first is removed again. -/
def firstRemoved : List Label :=
  [.request 7 plainEnv (.append "A" (List.replicate 3 ⟨[], 0, ⟨10, some ("body", 10)⟩⟩)),
    .request 7 plainEnv (.store mailboxA "1" false none .add ["\\Deleted"]),
    .request 7 plainEnv (.expunge mailboxA none)]

/-- `STORE 1 (UNCHANGEDSINCE 0) +FLAGS (\Seen)`, by sequence number or by UID. -/
def seenSince (byUID : Bool) (set : String) : StoreCommand :=
  ⟨plainEnv, mailboxA, set, byUID, 0, .add, ["\\Seen"]⟩

/-- The first message is refused under its UID, which is the sequence number of the second. -/
theorem uid_read_as_number :
    ∃ db after, run step oneAccount firstRemoved = some db ∧
      step db ((seenSince false "1").label 7) = some after ∧
      (seenSince false "1").answered db 7 = true ∧
      ((seenSince false "1").refuses db 7).map (·.2.uid) = [2] ∧
      (seenSince false "1").modified db 7 = some "2" ∧
      (Imap.cmdFetch after 7 1 "2" false (-1)).map (·.2.uid) = [3] := by
  have ended : ((run step oneAccount firstRemoved).bind fun db =>
      (step db ((seenSince false "1").label 7)).map fun after =>
        ((seenSince false "1").answered db 7,
        ((seenSince false "1").refuses db 7).map (·.2.uid), (seenSince false "1").modified db 7,
        (Imap.cmdFetch after 7 1 "2" false (-1)).map (·.2.uid))) =
      some (true, [2], some "2", [3]) := by decide +kernel
  obtain ⟨db, reached, rest⟩ := Option.bind_eq_some_iff.mp ended
  obtain ⟨after, moved, facts⟩ := Option.map_eq_some_iff.mp rest
  simp only [Prod.mk.injEq] at facts
  exact ⟨db, after, reached, moved, facts⟩

/-- By UID the same set is read as it was meant. -/
theorem modified_refetched_uid :
    ∃ db after, run step oneAccount firstRemoved = some db ∧
      step db ((seenSince true "2").label 7) = some after ∧
      (seenSince true "2").modified db 7 = some "2" ∧
      (Imap.cmdFetch after 7 1 "2" true (-1)).map (·.2.uid) =
        ((seenSince true "2").refuses db 7).map (·.2.uid) := by
  have ended : ((run step oneAccount firstRemoved).bind fun db =>
      (step db ((seenSince true "2").label 7)).map fun after => ((seenSince true "2").answered db 7,
        (seenSince true "2").modified db 7, (Imap.listing db 7 1).map Message.uid)) =
      some (true, some "2", [2, 3]) := by decide +kernel
  obtain ⟨db, reached, rest⟩ := Option.bind_eq_some_iff.mp ended
  obtain ⟨after, moved, facts⟩ := Option.map_eq_some_iff.mp rest
  simp only [Prod.mk.injEq] at facts
  obtain ⟨ok, text, uids⟩ := facts
  have all : ∀ m ∈ Imap.listing db 7 1, 0 < m.uid ∧ m.uid < 2 ^ 32 := by
    rw [← forall_mem_map (P := fun uid => 0 < uid ∧ uid < 2 ^ 32), uids]
    decide
  have numbered : Numbered (Imap.listing db 7 1) := by
    refine ⟨pairwise_map.mp ?_, fun m member => (all m member).1, fun m member => (all m member).2⟩
    rw [uids]
    decide
  have sound := run_sound oneAccount db firstRemoved oneAccount_initial.sound reached
  exact ⟨db, after, reached, moved, text,
    ((modified_refetched db after 7 (seenSince true "2") sound moved ok numbered).2 "2" text).mpr
      (.inl rfl)⟩

end OctoMail.Account
