import OctoMail.Store.Mutators

/-!
# The rows of other accounts

Some statements of the mutators choose rows by their id alone. They reach rows of the
transaction's account only, since every id they are given was read from a row of that
account, and ids are unique over all accounts. `Kept` says what this rests on, relative
to the tables before: an id that a row of the account has, or names as its mailbox, is no
foreign row's. The rules below carry it through the statements and mutators that
Email/set is made of.
-/

namespace OctoMail.Store

open List Program Tx

namespace Database

/-- Everything that belongs to another account is the same: messages, mailboxes with
their counters and UIDs, the account row, its quota counter and its log. -/
structure Untouched (accountId : Nat) (before after : Database) : Prop where
  messages : ∀ other, other ≠ accountId →
    after.messages.filter (fun m => m.accountId == other) =
      before.messages.filter (fun m => m.accountId == other)
  mailboxes : ∀ other, other ≠ accountId →
    after.mailboxes.filter (fun mb => mb.accountId == other) =
      before.mailboxes.filter (fun mb => mb.accountId == other)
  accounts : ∀ other, other ≠ accountId →
    after.accounts.filter (fun a => a.id == other) =
      before.accounts.filter (fun a => a.id == other)
  quotaCounters : ∀ other, other ≠ accountId →
    after.quotaCounters.filter (fun row => row.scope == .account other) =
      before.quotaCounters.filter (fun row => row.scope == .account other)
  changelog : ∀ other, other ≠ accountId →
    after.changelog.filter (fun row => row.accountId == other) =
      before.changelog.filter (fun row => row.accountId == other)

/-- No message of another account has the id. -/
def OwnMessage (db : Database) (accountId id : Nat) : Prop :=
  ∀ row ∈ db.messages, row.id = id → row.accountId = accountId

def OwnMailbox (db : Database) (accountId id : Nat) : Prop :=
  ∀ row ∈ db.mailboxes, row.id = id → row.accountId = accountId

/-- Other accounts' rows are those of `before`, and the ids in the account's rows are
foreign to none of them. -/
structure Kept (before : Database) (accountId : Nat) (db : Database) : Prop where
  untouched : before.Untouched accountId db
  messages : ∀ m ∈ db.messages, m.accountId = accountId →
    before.OwnMessage accountId m.id ∧ before.OwnMailbox accountId m.mailboxId
  mailboxes : ∀ mb ∈ db.mailboxes, mb.accountId = accountId → before.OwnMailbox accountId mb.id
  below : ∀ m ∈ before.messages, m.id < db.nextMessageId

theorem Wf.kept {db : Database} (wf : db.Wf) (accountId : Nat) : db.Kept accountId db := by
  have own : ∀ mb ∈ db.mailboxes, mb.accountId = accountId → db.OwnMailbox accountId mb.id := by
    intro mb member mine row there same
    rw [Table.eq_of_key wf.mailboxIds there member same, mine]
  refine ⟨⟨fun _ _ => rfl, fun _ _ => rfl, fun _ _ => rfl, fun _ _ => rfl, fun _ _ => rfl⟩, ?_, own,
    wf.messageBelow⟩
  intro m member mine
  constructor
  · intro row there same
    rw [Table.eq_of_key wf.messageIds there member same, mine]
  · obtain ⟨mb, there, same, owner⟩ := wf.owned m member
    rw [← same]
    exact own mb there (owner.trans mine)

section Statements

variable {before db : Database} {accountId : Nat}

/-- A row of another account is one of `before`. -/
theorem Kept.foreign_message (kept : before.Kept accountId db) (m : Message)
    (member : m ∈ db.messages) (foreign : m.accountId ≠ accountId) : m ∈ before.messages := by
  have inside : m ∈ db.messages.filter (fun row => row.accountId == m.accountId) :=
    mem_filter.mpr ⟨member, by simp⟩
  rw [kept.untouched.messages m.accountId foreign] at inside
  exact (mem_filter.mp inside).1

theorem Kept.foreign_mailbox (kept : before.Kept accountId db) (mb : Mailbox)
    (member : mb ∈ db.mailboxes) (foreign : mb.accountId ≠ accountId) : mb ∈ before.mailboxes := by
  have inside : mb ∈ db.mailboxes.filter (fun row => row.accountId == mb.accountId) :=
    mem_filter.mpr ⟨member, by simp⟩
  rw [kept.untouched.mailboxes mb.accountId foreign] at inside
  exact (mem_filter.mp inside).1

/-- A statement on rows whose ids are not foreign. -/
theorem Kept.setMessages (kept : before.Kept accountId db) (chosen : Message → Bool)
    (f : Message → Message) (own : ∀ row, chosen row = true → before.OwnMessage accountId row.id)
    (same : ∀ row, (f row).id = row.id ∧ (f row).accountId = row.accountId ∧
      (f row).mailboxId = row.mailboxId) : before.Kept accountId (db.setMessages chosen f) := by
  obtain ⟨untouched, messages, mailboxes, below⟩ := kept
  refine ⟨⟨?_, untouched.mailboxes, untouched.accounts, untouched.quotaCounters,
    untouched.changelog⟩, ?_, mailboxes, below⟩
  · intro other apart
    rw [← untouched.messages other apart]
    refine Table.filter_update chosen f db.messages fun row member picked => ?_
    have mine : row.accountId = accountId := by
      by_contra foreign
      have early := Kept.foreign_message ⟨untouched, messages, mailboxes, below⟩ row member foreign
      exact foreign (own row picked row early rfl)
    rw [(same row).2.1, mine]
    have differs : (accountId == other) = false := beq_false_of_ne apart.symm
    exact ⟨differs, differs⟩
  · intro m member mine
    obtain ⟨old, there, rfl⟩ := Table.mem_update.mp member
    by_cases picked : chosen old = true
    · rw [if_pos picked, (same old).2.1] at mine
      rw [if_pos picked, (same old).1, (same old).2.2]
      exact messages old there mine
    · rw [if_neg picked] at mine ⊢
      exact messages old there mine

theorem Kept.setMailboxes (kept : before.Kept accountId db) (chosen : Mailbox → Bool)
    (f : Mailbox → Mailbox) (own : ∀ row, chosen row = true → before.OwnMailbox accountId row.id)
    (same : ∀ row, (f row).id = row.id ∧ (f row).accountId = row.accountId) :
    before.Kept accountId (db.setMailboxes chosen f) := by
  obtain ⟨untouched, messages, mailboxes, below⟩ := kept
  refine ⟨⟨untouched.messages, ?_, untouched.accounts, untouched.quotaCounters,
    untouched.changelog⟩, messages, ?_, below⟩
  · intro other apart
    rw [← untouched.mailboxes other apart]
    refine Table.filter_update chosen f db.mailboxes fun row member picked => ?_
    have mine : row.accountId = accountId := by
      by_contra foreign
      have early := Kept.foreign_mailbox ⟨untouched, messages, mailboxes, below⟩ row member foreign
      exact foreign (own row picked row early rfl)
    rw [(same row).2, mine]
    have differs : (accountId == other) = false := beq_false_of_ne apart.symm
    exact ⟨differs, differs⟩
  · intro mb member mine
    obtain ⟨old, there, rfl⟩ := Table.mem_update.mp member
    by_cases picked : chosen old = true
    · rw [if_pos picked, (same old).2] at mine
      rw [if_pos picked, (same old).1]
      exact mailboxes old there mine
    · rw [if_neg picked] at mine ⊢
      exact mailboxes old there mine

/-- A new message of the account, in one of its mailboxes. -/
theorem Kept.insertedMessage (kept : before.Kept accountId db) (row : Message)
    (id : row.id = db.nextMessageId) (mine : row.accountId = accountId)
    (own : before.OwnMailbox accountId row.mailboxId) :
    before.Kept accountId (db.insertedMessage row) := by
  obtain ⟨untouched, messages, mailboxes, below⟩ := kept
  refine ⟨⟨?_, untouched.mailboxes, untouched.accounts, untouched.quotaCounters,
    untouched.changelog⟩, ?_, mailboxes, fun m member => Nat.lt_succ_of_lt (below m member)⟩
  · intro other apart
    have differs : (row.accountId == other) = false := by
      rw [mine]
      exact beq_false_of_ne apart.symm
    simp only [Database.insertedMessage, filter_append, filter_cons, differs]
    simpa using untouched.messages other apart
  · intro m member owner
    rcases mem_append.mp member with old | new
    · exact messages m old owner
    · rw [mem_singleton.mp new]
      refine ⟨fun early there same => ?_, own⟩
      have smaller := below early there
      omega

theorem Kept.bumpQuotaScope (kept : before.Kept accountId db) (scope : Scope)
    (dCount dSize : Int) (own : ∀ other, other ≠ accountId → scope ≠ .account other) :
    before.Kept accountId (db.bumpQuotaScope scope dCount dSize) := by
  have differs : ∀ other, other ≠ accountId → (scope == Scope.account other) = false :=
    fun other apart => beq_false_of_ne (own other apart)
  obtain ⟨untouched, messages, mailboxes, below⟩ := kept
  unfold Database.bumpQuotaScope
  split
  · refine ⟨⟨untouched.messages, untouched.mailboxes, untouched.accounts, ?_,
      untouched.changelog⟩, messages, mailboxes, below⟩
    intro other apart
    rw [← untouched.quotaCounters other apart]
    refine Table.filter_update _ _ db.quotaCounters fun row _ picked => ?_
    have same : row.scope = scope := by simpa using picked
    simp only [same, differs other apart, and_self]
  · refine ⟨⟨untouched.messages, untouched.mailboxes, untouched.accounts, ?_,
      untouched.changelog⟩, messages, mailboxes, below⟩
    intro other apart
    simp only [filter_append, filter_cons, differs other apart]
    simpa using untouched.quotaCounters other apart

theorem Kept.tookUid (kept : before.Kept accountId db) (mailboxId : Nat)
    (own : before.OwnMailbox accountId mailboxId) :
    before.Kept accountId (db.tookUid mailboxId) := by
  refine kept.setMailboxes _ _ (fun row picked => ?_) (fun _ => ⟨rfl, rfl⟩)
  rwa [show row.id = mailboxId by simpa using picked]

theorem Kept.bumpedCounts (kept : before.Kept accountId db) (mailboxId : Nat)
    (dTotal dSize dUnseen dDeleted : Int) (own : before.OwnMailbox accountId mailboxId) :
    before.Kept accountId (db.bumpedCounts mailboxId dTotal dSize dUnseen dDeleted) := by
  refine kept.setMailboxes _ _ (fun row picked => ?_) (fun _ => ⟨rfl, rfl⟩)
  rwa [show row.id = mailboxId by simpa using picked]

theorem Kept.bumpedQuota (kept : before.Kept accountId db) (tenantId : Nat) (dCount dSize : Int) :
    before.Kept accountId (db.bumpedQuota accountId tenantId dCount dSize) := by
  refine (kept.bumpQuotaScope _ dCount dSize ?_).bumpQuotaScope _ dCount dSize ?_
  · rintro other different same
    cases same
    exact different rfl
  · intro other _ same
    cases same

end Statements

end Database

/-- A transaction of the account that has left the other accounts alone. -/
structure Apart (before : Database) (accountId : Nat) (pt : Tx) : Prop where
  account : pt.accountId = accountId
  kept : before.Kept accountId pt.db
  entries : ∀ entry ∈ pt.entries, entry.accountId = accountId

section Mutators

variable {before : Database} {accountId : Nat}

/-- One logged change of the tables. -/
theorem Apart.logged {pt : Tx} (apart : Apart before accountId pt) (db : Database) (change : Change)
    (kept : before.Kept accountId db) : Apart before accountId ((pt.withDb db).logged change) := by
  refine ⟨apart.account, kept, fun entry member => ?_⟩
  rcases mem_append.mp member with old | new
  · exact apart.entries entry old
  · rw [mem_singleton.mp new]
    exact apart.account

theorem messageAdd_apart (env : Env) (mb : Mailbox) {m : Message} {body : Body} {emailId : Nat}
    (own : before.OwnMailbox accountId mb.id) :
    Triple (Apart before accountId) (messageAdd env mb m body emailId)
      (fun _ => Apart before accountId) := by
  intro pt added final apart ran
  obtain ⟨box, ref, size, _, _, _, _, rfl⟩ := messageAdd_ok ran
  refine apart.logged _ _ ?_
  rw [apart.account]
  refine (Database.Kept.bumpedCounts ?_ mb.id _ _ _ _ own).bumpedQuota _ _ _
  exact (apart.kept.tookUid mb.id own).insertedMessage _ rfl apart.account own

theorem addSibling_apart (env : Env) (src : Message) (mb : Mailbox)
    (own : before.OwnMailbox accountId mb.id) :
    Triple (Apart before accountId) (addSibling env src mb) (fun _ => Apart before accountId) :=
  messageAdd_apart env mb own

theorem update_apart {x : Message} (own : before.OwnMessage accountId x.id)
    (there : before.OwnMailbox accountId x.mailboxId) :
    Triple (Apart before accountId) (update x) (fun _ => Apart before accountId) := by
  intro pt done final apart ran
  obtain ⟨old, keywords, _, _, rfl⟩ := update_ok ran
  refine apart.logged _ _ (Database.Kept.bumpedCounts ?_ x.mailboxId _ _ _ _ there)
  refine apart.kept.setMessages _ _ (fun row picked => ?_) (fun _ => ⟨rfl, rfl, rfl⟩)
  simp only [Bool.and_eq_true, beq_iff_eq] at picked
  rwa [picked.1]

theorem messageRemove_apart (mb : Mailbox) (msgs : List Message)
    (own : ∀ m ∈ msgs, before.OwnMessage accountId m.id)
    (there : before.OwnMailbox accountId mb.id) :
    Triple (Apart before accountId) (messageRemove mb msgs) (fun _ => Apart before accountId) := by
  intro pt done final apart ran
  obtain rfl := messageRemove_ok ran
  refine apart.logged _ _ ?_
  rw [apart.account]
  refine (Database.Kept.bumpedCounts ?_ mb.id _ _ _ _ there).bumpedQuota _ _ _
  refine apart.kept.setMessages _ _ (fun row picked => ?_) (fun _ => ⟨rfl, rfl, rfl⟩)
  obtain ⟨m, member, same⟩ := mem_map.mp (by simpa using picked)
  exact same ▸ own m member

/-! ### Queries -/

/-- Rows read through the account are not foreign, nor are their mailboxes. -/
theorem messagesByEmailId_apart {emailId : Int} :
    Triple (Apart before accountId) (messagesByEmailId emailId) (fun msgs pt =>
      Apart before accountId pt ∧ ∀ m ∈ msgs, before.OwnMessage accountId m.id ∧
        before.OwnMailbox accountId m.mailboxId) := by
  intro pt msgs final apart ran
  simp only [messagesByEmailId, bind_ok, get_ok, pure_ok] at ran
  obtain ⟨_, _, ⟨rfl, rfl⟩, rfl, rfl⟩ := ran
  refine ⟨apart, fun m member => ?_⟩
  obtain ⟨inside, picked⟩ := mem_filter.mp ((mem_insertionSort _).mp member)
  simp only [Bool.and_eq_true, beq_iff_eq] at picked
  exact apart.kept.messages m inside (picked.1.1.trans apart.account)

theorem findMailboxById_apart {id : Nat} :
    Triple (Apart before accountId) (findMailboxById id) (fun found pt =>
      Apart before accountId pt ∧ ∀ mb, found = some mb → before.OwnMailbox accountId mb.id) := by
  intro pt found final apart ran
  simp only [findMailboxById, listMailboxes, bind_ok, get_ok, pure_ok] at ran
  obtain ⟨_, _, ⟨_, _, ⟨rfl, rfl⟩, rfl, rfl⟩, rfl, rfl⟩ := ran
  refine ⟨apart, fun mb located => ?_⟩
  have member := (mem_insertionSort _).mp (mem_of_find?_eq_some located)
  simp only [mem_filter, Bool.and_eq_true, beq_iff_eq] at member
  exact apart.kept.mailboxes mb member.1 (member.2.1.trans apart.account)

end Mutators

end OctoMail.Store
