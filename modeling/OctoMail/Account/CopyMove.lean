import OctoMail.Account.ConditionalStore

/-!
# COPY and MOVE

COPY and MOVE read the bodies of the messages selected and add them to the destination as new
messages, in one transaction in which MOVE then removes the sources (`cmdCopyMove`). A copy has the
bytes, the flags and the keywords of its source. The date of arrival is not passed on: a copy
arrives when it is made.
-/

namespace OctoMail.Account

open List Store Store.Tx Program
open Transition (run)

/-- What is read of a message, from a store with these contents. -/
def messageBytes (content : String → List UInt8) (m : Message) : List UInt8 :=
  m.msgPrefix ++ content m.blobRef

/-- A new message of the mailbox with what was read of another. -/
structure CopyOf (env : Env) (accountId mailboxId : Nat) (src row : Message) : Prop where
  mine : row.accountId = accountId
  inside : row.mailboxId = mailboxId
  live : row.expunged = false
  flags : row.flags = src.flags
  keywords : row.keywords.getD [] = src.keywords.getD []
  unprefixed : row.msgPrefix = []
  stored : env.stored src = some (row.blobRef, row.size)
  received : row.received = env.now

/-- A mailbox of this id and name is there. -/
def Destination (pt : Tx) (mailboxId : Nat) (name : String) : Prop :=
  ∃ box ∈ pt.db.mailboxes, box.id = mailboxId ∧ box.expunged = false ∧
    box.accountId = pt.accountId ∧ box.name = name

/-- The copies of some messages were added, in the order of their UIDs. -/
structure Copied (env : Env) (start : Tx) (mailboxId : Nat) (name : String)
    (sources news : List Message) (pt : Tx) : Prop where
  wf : pt.db.Wf
  mine : pt.accountId = start.accountId
  named : Destination pt mailboxId name
  rows : pt.db.messages = start.db.messages ++ news
  copies : List.Forall₂ (CopyOf env start.accountId mailboxId) sources news
  order : news.Pairwise (fun first second => first.uid < second.uid)
  below : ∀ box ∈ pt.db.mailboxes, box.id = mailboxId → ∀ row ∈ news, row.uid < box.uidNext

/-- The mailbox of a new row gives out a UID and counts the row. -/
theorem added_mailboxes (pt : Tx) (row : Message) :
    ∃ counts : Mailbox → MailboxCounts, (pt.added row).db.mailboxes = pt.db.mailboxes.map (fun box =>
      if box.id = row.mailboxId then { box with uidNext := box.uidNext + 1, counts := counts box }
      else box) := by
  refine ⟨fun box => Tx.bumped box.counts 1 row.size (boolInt (!row.flags.seen))
    (boolInt row.flags.deleted), ?_⟩
  refine (Database.bumpedQuota_mailboxes _ _ _ _ _).trans ?_
  refine (map_map (l := pt.db.mailboxes)).trans (map_congr_left fun box _ => ?_)
  by_cases here : box.id = row.mailboxId <;> simp [here]

variable {mailboxId : Nat} {name : String} {pt final : Tx} {env : Env} {mb : Mailbox}
  {news sources : List Message}

theorem Destination.added (named : Destination pt mailboxId name) (row : Message) :
    Destination (pt.added row) mailboxId name := by
  obtain ⟨box, member, known⟩ := named
  obtain ⟨counts, mailboxes⟩ := added_mailboxes pt row
  refine ⟨_, mailboxes ▸ mem_map_of_mem member, ?_⟩
  split <;> exact known

theorem Destination.removed (named : Destination pt mailboxId name) (mb : Mailbox)
    (msgs : List Message) : Destination (pt.removed mb msgs) mailboxId name := by
  obtain ⟨box, member, known⟩ := named
  have mailboxes : (pt.removed mb msgs).db.mailboxes = Table.update _ _ pt.db.mailboxes :=
    Database.bumpedQuota_mailboxes _ _ _ _ _
  refine ⟨_, mailboxes ▸ Table.mem_update.mpr ⟨box, member, rfl⟩, ?_⟩
  split <;> exact known

/-- The mailbox has given out the UID of the row. -/
theorem added_uidNext {row : Message} {after : Mailbox}
    (member : after ∈ (pt.added row).db.mailboxes) (here : after.id = row.mailboxId) :
    ∃ box ∈ pt.db.mailboxes, box.id = row.mailboxId ∧ after.uidNext = box.uidNext + 1 := by
  obtain ⟨counts, mailboxes⟩ := added_mailboxes pt row
  rw [mailboxes] at member
  obtain ⟨box, there, rfl⟩ := mem_map.mp member
  split at here
  · rename_i id
    exact ⟨box, there, id, by rw [if_pos id]⟩
  · rename_i other
    exact absurd here other

/-- One message is copied. -/
theorem Copied.step {start : Tx} {added : Message}
    (copied : Copied env start mb.id name sources news pt) (src : Message)
    (ran : messageAdd env mb { flags := src.flags, keywords := src.keywords }
      (messageReader env src) 0 pt = .ok (added, final)) :
    ∃ row, Copied env start mb.id name (sources ++ [src]) (news ++ [row]) final := by
  obtain ⟨box, ref, size, member, named, owned, put, rfl⟩ := messageAdd_ok ran
  obtain ⟨there, among, same, open_, _⟩ := copied.named
  have kept := (messageAdd_ran ⟨True, True, True⟩ copied.wf ⟨there, among, same, open_⟩
    (fun sibling => absurd rfl sibling) (fun _ => rfl) ran).1
  refine ⟨pt.messageRow env mb.id { flags := src.flags, keywords := src.keywords } ref size
    box.uidNext 0, kept.wf copied.wf, copied.mine, copied.named.added _, ?_, ?_, ?_, ?_⟩
  · refine (Database.bumpedQuota_messages _ _ _ _ _).trans ?_
    rw [← append_assoc, ← copied.rows]
    rfl
  · refine rel_append copied.copies (.cons ?_ .nil)
    exact ⟨copied.mine, rfl, rfl, rfl, rfl, rfl, put, rfl⟩
  · refine pairwise_append.mpr ⟨copied.order, pairwise_singleton .., ?_⟩
    intro row earlier last is
    obtain rfl := mem_singleton.mp is
    exact copied.below box member named row earlier
  · intro after inside here row old
    obtain ⟨before, was, id, next⟩ := added_uidNext inside here
    obtain rfl := Table.eq_of_key copied.wf.mailboxIds was member (id.trans named.symm)
    rcases mem_append.mp old with old | new
    · have := copied.below before was id row old
      omega
    · obtain rfl := mem_singleton.mp new
      exact next ▸ Nat.lt_succ_self _

/-- All messages selected are copied. -/
theorem Copied.all {start : Tx} (chosen : List Message)
    (copied : Copied env start mb.id name sources news pt) (ran : (chosen.forM (fun m => do
      let _ ← messageAdd env mb { flags := m.flags, keywords := m.keywords }
        (messageReader env m) 0) : Txn Unit) pt = .ok ((), final)) :
    ∃ more, Copied env start mb.id name (sources ++ chosen) (news ++ more) final := by
  induction chosen generalizing sources news pt with
  | nil =>
    obtain ⟨_, rfl⟩ := (pure_ok _ _ _ _).mp ran
    exact ⟨[], by simpa using copied⟩
  | cons src rest ih =>
    obtain ⟨_, middle, first, others⟩ := (bind_ok _ _ _ _ _).mp ran
    obtain ⟨added, _, ran, ended⟩ := (bind_ok _ _ _ _ _).mp first
    obtain ⟨_, rfl⟩ := (pure_ok _ _ _ _).mp ended
    obtain ⟨row, next⟩ := copied.step src ran
    obtain ⟨more, done⟩ := ih next others
    exact ⟨row :: more, by simpa using done⟩

/-- The mailbox that mail goes to: the one of the name, or a new one. -/
theorem targetMailbox_ok (ran : Imap.targetMailbox name pt = .ok (mb, final)) :
    final.accountId = pt.accountId ∧ (pt.db.Wf → final.db.Wf) ∧
      final.db.messages = pt.db.messages ∧
      (Imap.named pt.db pt.accountId name = some mb ∧ final = pt ∨
        ∃ row : Mailbox, row.id = mb.id ∧ row.expunged = false ∧ row.accountId = pt.accountId ∧
          row.name = name ∧ final.db.mailboxes = pt.db.mailboxes ++ [row]) := by
  obtain ⟨found, _, read, continued⟩ := (bind_ok _ _ _ _ _).mp ran
  rw [Imap.mailboxFind_eq] at read
  obtain ⟨rfl, rfl⟩ := Prod.mk.inj (Except.ok.inj read)
  cases lookup : Imap.named pt.db pt.accountId name with
  | some found =>
    rw [lookup] at continued
    obtain ⟨rfl, rfl⟩ := (pure_ok _ _ _ _).mp continued
    exact ⟨rfl, id, rfl, .inl ⟨rfl, rfl⟩⟩
  | none =>
    have missing : findMailbox name pt = .ok (none, pt) := by
      rw [← lookup]
      exact Imap.mailboxFind_eq name pt
    simp only [lookup, mailboxCreate, ensureMailbox, bind_ok, require_ok, missing] at continued
    obtain ⟨_, _, ⟨_, _, first, ensured⟩, rfl, rfl⟩ := continued
    obtain ⟨rfl, rfl⟩ := Prod.mk.inj (Except.ok.inj first)
    simp only [bind_ok, missing, pure_ok] at ensured
    obtain ⟨_, ended, ⟨_, _, second, creating⟩, made, rfl⟩ := ensured
    obtain ⟨rfl, rfl⟩ := Prod.mk.inj (Except.ok.inj second)
    cases made
    obtain ⟨middle, created, recorded, messages, row⟩ :=
      createMailbox_ran ⟨True, True, True⟩ creating
    rcases recorded with rfl | recorded
    · exact ⟨created.accountId, created.wf, messages, .inr row⟩
    · exact ⟨recorded.accountId.trans created.accountId, fun wf => recorded.wf (created.wf wf),
        messages, .inr row⟩

/-- The transaction of the command: the copies, and with MOVE the sources removed. -/
theorem cmdCopyMove_copies {selected : Mailbox} {set : String} {byUID move : Bool} {dst : String}
    (wf : pt.db.Wf) (ran : Imap.cmdCopyMove env selected set byUID move dst pt = .ok ((), final)) :
    let chosen := Imap.chosen set byUID (Imap.listing pt.db pt.accountId selected.id)
    final.accountId = pt.accountId ∧ ∃ mailboxId news, Destination final mailboxId dst ∧
      List.Forall₂ (CopyOf env pt.accountId mailboxId) chosen news ∧
      news.Pairwise (fun first second => first.uid < second.uid) ∧
      ∃ seq, final.db.messages = (if move then Table.update
        (fun row => (chosen.map Message.id).contains row.id)
        (fun row => { row with expunged := true, modSeq := seq }) pt.db.messages
        else pt.db.messages) ++ news := by
  intro chosen
  simp only [Imap.cmdCopyMove, bind_ok] at ran
  obtain ⟨_, _, read, mb, middle, target, _, copies, copying, last⟩ := ran
  rw [Imap.mailboxMessages_eq] at read
  obtain ⟨rfl, rfl⟩ := Prod.mk.inj (Except.ok.inj read)
  obtain ⟨mine, sound, messages, there⟩ := targetMailbox_ok target
  have named : Destination middle mb.id dst := by
    rcases there with ⟨lookup, rfl⟩ | ⟨row, same, live, owner, title, mailboxes⟩
    · have fields := find?_some lookup
      simp only [Bool.and_eq_true, beq_iff_eq, Bool.not_eq_true'] at fields
      exact ⟨mb, mem_of_find?_eq_some lookup, rfl, fields.2, fields.1⟩
    · exact ⟨row, mailboxes ▸ mem_append_right _ mem_cons_self, same, live,
        owner.trans mine.symm, title⟩
  have start : Copied env pt mb.id dst [] [] middle :=
    ⟨sound wf, mine, named, by simp [messages], .nil, .nil, fun _ _ _ _ none =>
      absurd none not_mem_nil⟩
  obtain ⟨news, copied⟩ := start.all chosen copying
  rw [nil_append, nil_append] at copied
  -- A copy is not one of the messages selected, which were there before.
  have fresh : ∀ row ∈ news, (chosen.map Message.id).contains row.id = false := by
    intro row new
    have distinct := copied.wf.messageIds
    rw [copied.rows, map_append, nodup_append] at distinct
    refine Bool.eq_false_iff.mpr fun taken => ?_
    obtain ⟨src, selected, same⟩ := mem_map.mp (contains_iff_mem.mp taken)
    have old := (Imap.mem_listing.mp ((chosen_sublist ..).subset selected)).1
    exact distinct.2.2 src.id (mem_map_of_mem old) row.id (mem_map_of_mem new) same
  cases move with
  | false =>
    obtain ⟨_, rfl⟩ := (pure_ok _ _ _ _).mp last
    exact ⟨copied.mine, mb.id, news, copied.named, copied.copies, copied.order, 0, copied.rows⟩
  | true =>
    have kept : ∀ f, Table.update (fun row =>
      (chosen.map Message.id).contains row.id) f news = news :=
      fun f => (map_congr_left fun row new => if_neg (Bool.eq_false_iff.mp (fresh row new))).trans
        (map_id' _)
    by_cases none : chosen.isEmpty = true
    · rw [if_neg (by simp [show (Imap.chosen set byUID _).isEmpty = true from none])] at last
      obtain ⟨_, rfl⟩ := (pure_ok _ _ _ _).mp last
      refine ⟨copied.mine, mb.id, news, copied.named, copied.copies, copied.order, 0, ?_⟩
      rw [if_pos rfl, Table.update_of_same _ _ _ fun row taken => ?_]
      · exact copied.rows
      · rw [isEmpty_iff.mp none] at taken
        cases taken
    · rw [if_pos (by simpa using none)] at last
      obtain rfl := messageRemove_ok last
      refine ⟨copied.mine, mb.id, news, copied.named.removed _ _, copied.copies, copied.order,
        copies.seq + 1, ?_⟩
      rw [Tx.removed_messages, copied.rows, if_pos rfl]
      refine map_append.trans ?_
      exact congrArg _ (kept _)

/-- A copy has the date of its source if that is the moment at which it is made. -/
theorem received_iff {accountId : Nat}
    (copies : List.Forall₂ (CopyOf env accountId mailboxId) sources news) :
    List.Forall₂ (fun src row => row.received = src.received) sources news ↔
      ∀ src ∈ sources, src.received = env.now := by
  induction copies with
  | nil => simp
  | cons copy _ ih =>
    rw [forall₂_cons, ih, forall_mem_cons, copy.received, eq_comm]

/-- COPY and MOVE: refused, they change nothing; done, they add one message for every message
selected, in the order of the sources, with the bytes, flags and keywords of its source, and MOVE
removes the messages selected and nothing else. A copy has the date of its source exactly if that
is the moment at which it is made. What is stored for a source is what `Put` answers for the octets
read of it, and the reference it answers has the octets it was given. -/
theorem copyMove_copies (db after : Database) (accountId : Nat) (env : Env) (selected : Mailbox)
    (set : String) (byUID move : Bool) (dst : String) (sound : Sound db)
    (moved : step db (.request accountId env (.copyMove selected set byUID move dst)) = some after)
    (content : String → List UInt8) (put : Message → List UInt8 → Option (String × Nat))
    (reads : ∀ src ∈ Imap.chosen set byUID (Imap.listing db accountId selected.id),
      env.stored src = put src (messageBytes content src))
    (puts : ∀ src octets ref size, put src octets = some (ref, size) → content ref = octets) :
    let chosen := Imap.chosen set byUID (Imap.listing db accountId selected.id)
    ((Request.copyMove selected set byUID move dst).succeeds env db accountId = false →
      after = db) ∧
    ((Request.copyMove selected set byUID move dst).succeeds env db accountId = true →
      ∃ mailboxId news seq,
        (∃ box ∈ after.mailboxes, box.id = mailboxId ∧ box.expunged = false ∧
          box.accountId = accountId ∧ box.name = dst) ∧
        after.messages = (if move then Table.update
          (fun row => (chosen.map Message.id).contains row.id)
          (fun row => { row with expunged := true, modSeq := seq }) db.messages
          else db.messages) ++ news ∧
        chosen.Pairwise (fun first second => first.uid ≤ second.uid) ∧
        news.Pairwise (fun first second => first.uid < second.uid) ∧
        List.Forall₂ (fun src row => row.accountId = accountId ∧ row.mailboxId = mailboxId ∧
          row.expunged = false ∧ row.flags = src.flags ∧
          row.keywords.getD [] = src.keywords.getD [] ∧
          messageBytes content row = messageBytes content src) chosen news ∧
        (List.Forall₂ (fun src row => row.received = src.received) chosen news ↔
          ∀ src ∈ chosen, src.received = env.now)) := by
  intro chosen
  refine ⟨fun no => request_refused moved no, fun ok => ?_⟩
  obtain ⟨account, pt, found, ran, rfl⟩ := request_committed moved ok
  obtain rfl : account.id = accountId := by simpa using find?_some found
  obtain ⟨mine, mailboxId, news, named, copies, order, seq, messages⟩ :=
    cmdCopyMove_copies sound.wf ran
  have sorted : (Imap.listing db account.id selected.id).Pairwise
      (fun first second => first.uid ≤ second.uid) := pairwise_insertionSort _ _
  refine ⟨mailboxId, news, seq, ?_, messages, sorted.sublist (chosen_sublist ..), order, ?_,
    received_iff copies⟩
  · obtain ⟨box, member, id, live, owner, title⟩ := named
    exact ⟨box, member, id, live, owner.trans mine, title⟩
  · refine ((forall₂_and_left _ _).mpr ⟨reads, copies⟩).imp ?_
    rintro src row ⟨read, copy⟩
    refine ⟨copy.mine, copy.inside, copy.live, copy.flags, copy.keywords, ?_⟩
    rw [messageBytes, copy.unprefixed, nil_append]
    exact puts src _ _ _ (read.symm.trans copy.stored)

/-- `COPY 1 B` of a message that arrived before. -/
def copyFirst : Request := .copyMove mailboxA "1" false false "B"

def datedMail : List Label :=
  [.request 7 plainEnv (.append "A" [⟨[], 5, ⟨10, some ("body", 10)⟩⟩])]

/-- The copy has the date of the COPY. -/
theorem copy_received_now :
    ∃ db after, run step oneAccount datedMail = some db ∧
      step db (.request 7 plainEnv copyFirst) = some after ∧
      copyFirst.succeeds plainEnv db 7 = true ∧
      after.messages.map (fun m => (m.mailboxId, m.received)) = [(1, 5), (2, 100)] := by
  have ended : ((run step oneAccount datedMail).bind fun db =>
      (step db (.request 7 plainEnv copyFirst)).map fun after => (copyFirst.succeeds plainEnv db 7,
        after.messages.map (fun m => (m.mailboxId, m.received)))) =
      some (true, [(1, 5), (2, 100)]) := by decide +kernel
  obtain ⟨db, reached, rest⟩ := Option.bind_eq_some_iff.mp ended
  obtain ⟨after, moved, facts⟩ := Option.map_eq_some_iff.mp rest
  simp only [Prod.mk.injEq] at facts
  exact ⟨db, after, reached, moved, facts⟩

/-- A body is stored under its own name, and the name has it. -/
def namingEnv : Env := { plainEnv with stored := fun m => some (m.blobRef, m.size) }

def refOctets (ref : String) : List UInt8 := ref.toList.map (fun c => UInt8.ofNat c.toNat)

def twoMails : List Label :=
  [.request 7 plainEnv (.append "A" [⟨["\\Seen", "Work"], 5, ⟨3, some ("one", 3)⟩⟩,
    ⟨["\\Flagged"], 6, ⟨3, some ("two", 3)⟩⟩])]

/-- Two messages are added, with the flags, the keywords and the bytes of the two that stay. -/
theorem copyMove_copies_two :
    ∃ db after, run step oneAccount twoMails = some db ∧
      step db (.request 7 namingEnv (.copyMove mailboxA "1:2" false false "B")) = some after ∧
      ∃ news, after.messages = db.messages ++ news ∧
        news.map (fun m => (m.flags, m.keywords.getD [], messageBytes refOctets m)) =
          [({ seen := true }, ["Work"], refOctets "one"), ({ flagged := true }, [], refOctets "two")] := by
  have ended : ((run step oneAccount twoMails).bind fun db =>
      (step db (.request 7 namingEnv (.copyMove mailboxA "1:2" false false "B"))).map fun _ =>
        ((Request.copyMove mailboxA "1:2" false false "B").succeeds namingEnv db 7,
          (Imap.chosen "1:2" false (Imap.listing db 7 1)).map Message.msgPrefix,
          decide ((Imap.chosen "1:2" false (Imap.listing db 7 1)).map
            (fun m => (m.flags, m.keywords.getD [], messageBytes refOctets m)) =
              [({ seen := true }, ["Work"], refOctets "one"),
                ({ flagged := true }, [], refOctets "two")]))) = some (true, [[], []], true) := by
    decide +kernel
  obtain ⟨db, reached, rest⟩ := Option.bind_eq_some_iff.mp ended
  obtain ⟨after, moved, facts⟩ := Option.map_eq_some_iff.mp rest
  simp only [Prod.mk.injEq] at facts
  obtain ⟨ok, unprefixed, shown⟩ := facts
  have sound := run_sound oneAccount db twoMails oneAccount_initial.sound reached
  obtain ⟨_, news, _, _, rows, _, _, copies, _⟩ := (copyMove_copies db after 7 namingEnv mailboxA
    "1:2" false false "B" sound moved refOctets
    (fun src octets => if octets = refOctets src.blobRef then some (src.blobRef, src.size) else none)
    (fun src among => by
      have empty : src.msgPrefix ∈ [[], []] := unprefixed ▸ mem_map_of_mem among
      have none_ : src.msgPrefix = [] := by simpa using empty
      rw [messageBytes, none_, nil_append, if_pos rfl]
      rfl)
    (fun src octets ref size put => by
      split at put
      · rename_i same
        cases put
        exact same.symm
      · cases put)).2 ok
  refine ⟨db, after, reached, moved, news, rows, of_decide_eq_true shown ▸ ?_⟩
  rw [eq_comm, ← forall₂_eq_eq_eq, forall₂_map_left_iff, forall₂_map_right_iff]
  exact copies.imp fun src row facts => by
    obtain ⟨_, _, _, flags, keywords, bytes⟩ := facts
    rw [flags, keywords, bytes]

end OctoMail.Account
