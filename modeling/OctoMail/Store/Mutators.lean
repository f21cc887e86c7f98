import OctoMail.Store.Effect

/-!
# Each mutator has its effect

A mutator that succeeds has done one `Effect`: its body is run statement by statement
and the state it ends in is the one the effect describes.
-/

namespace OctoMail.Store

open Program

variable {final pt : Tx} {su : SpecialUse} {done : Unit} {mb : Mailbox} {mailboxId : Nat}
  {m : Message}

namespace Tx

theorem nextModSeq_ok (pt final : Tx) (seq : Nat) :
    nextModSeq pt = .ok (seq, final) ↔
      pt.seq + 1 = seq ∧ { pt with seq := pt.seq + 1 } = final := by
  simp only [nextModSeq, bind_ok, modify_ok, get_ok, pure_ok]
  constructor
  · rintro ⟨_, _, rfl, _, _, ⟨rfl, rfl⟩, rfl, rfl⟩
    exact ⟨rfl, rfl⟩
  · rintro ⟨rfl, rfl⟩
    exact ⟨⟨⟩, _, rfl, _, _, ⟨rfl, rfl⟩, rfl, rfl⟩

theorem modifyDb_ok (change : Database → Database) (pt final : Tx) (done : Unit) :
    modifyDb change pt = .ok (done, final) ↔ pt.withDb (change pt.db) = final :=
  modify_ok pt final _ done

variable {change : Change} {name : String} {subscribe : Bool}

theorem record_ok {pt final : Tx} {done : Unit} {seq : Nat}
    (carries : change.changeModSeq = some seq) :
    record change pt = .ok (done, final) ↔
      { pt with entries := pt.entries ++ [⟨pt.accountId, seq, change⟩] } = final := by
  simp only [record, modify_ok, carries]

theorem record_derived_ok (change : Change) (pt final : Tx) (done : Unit)
    (derived : change.changeModSeq = none) :
    record change pt = .ok (done, final) ↔ pt.logged change = final := by
  simp only [record, modify_ok, derived]
  rfl

theorem carries_own {position : Nat}
    (own : change.changeModSeq = some position) : change.Carries position :=
  fun _ carried => Option.some.inj (carried.symm.trans own)

theorem carries_none {position : Nat} (derived : change.changeModSeq = none) :
    change.Carries position :=
  fun _ carried => absurd (carried.symm.trans derived) (Option.some_ne_none _)

/-- A change recorded with no statement. -/
theorem logged_effect (rules : Rules) (pt : Tx) (change : Change) (quiet : change.quiet = true)
    (unnamed : change.mailboxChanged = none) (carries : change.Carries (pt.seq + 1)) :
    Effect rules pt 0 (pt.logged change) := by
  have unchanged : pt.withDb (pt.db.setMailboxes (fun _ => false) id) = pt := by
    simp [withDb, Database.setMailboxes, Table.update]
  have effect : Effect rules pt 0
      ((pt.withDb (pt.db.setMailboxes (fun _ => false) id)).logged change) :=
    .mailboxes (fun _ => false) id change (fun _ => ⟨rfl, rfl, rfl, rfl, rfl, rfl, rfl⟩) quiet
      (.unnamed (fun _ => rfl) unnamed) carries
  rwa [unchanged] at effect

theorem nextUIDValidity_ok {value : Nat} (ran : nextUIDValidity pt = .ok (value, final)) :
    ∃ account, pt.db.account pt.accountId = some account ∧
      account.uidvalidityNext % 2 ^ 32 = value ∧
      pt.withDb (pt.db.tookUidValidity pt.accountId) = final := by
  simp only [nextUIDValidity, bind_ok, get_ok, require_ok, modifyDb_ok, pure_ok] at ran
  obtain ⟨_, _, ⟨rfl, rfl⟩, account, _, ⟨found, rfl⟩, _, _, rfl, rfl, rfl⟩ := ran
  exact ⟨account, found, rfl, rfl⟩

/-- The row `INSERT INTO mailboxes` stores. -/
def mailboxRow (pt : Tx) (name : String) (uidValidity seq : Nat) (su : SpecialUse)
    (subscribe : Bool) : Mailbox :=
  { id := pt.db.nextMailboxId, accountId := pt.accountId, name := name, uidValidity := uidValidity,
    uidNext := 1, createSeq := seq, modSeq := seq, specialUse := su, subscribed := subscribe }

theorem insertMailbox_ok {uidValidity seq : Nat} {id : Nat}
    (ran : insertMailbox name uidValidity seq su subscribe pt = .ok (id, final)) :
    pt.db.nextMailboxId = id ∧
      pt.withDb (pt.db.insertedMailbox (pt.mailboxRow name uidValidity seq su subscribe)) =
        final := by
  simp only [insertMailbox, bind_ok, get_ok, refuse_ok, modifyDb_ok, pure_ok] at ran
  obtain ⟨_, _, ⟨rfl, rfl⟩, _, _, ⟨_, rfl⟩, _, _, rfl, rfl, rfl⟩ := ran
  exact ⟨rfl, rfl⟩

theorem recordSubscription_ran (rules : Rules)
    (ran : recordSubscription subscribe name pt = .ok (done, final)) :
    (pt = final ∨ Effect rules pt 0 final) ∧ final.db = pt.db := by
  cases subscribe with
  | false =>
    obtain ⟨_, rfl⟩ := (pure_ok _ _ _ _).mp ran
    exact ⟨.inl rfl, rfl⟩
  | true =>
    obtain rfl := (record_derived_ok (.addSubscription name) pt final done rfl).mp ran
    exact ⟨.inr (logged_effect rules pt (.addSubscription name) rfl rfl (carries_none rfl)), rfl⟩

/-- Creating a mailbox, and recording its subscription where asked. -/
theorem createMailbox_ran (rules : Rules) (ran : createMailbox name subscribe su pt = .ok (mb, final)) :
    ∃ middle, Effect rules pt 1 middle ∧ (middle = final ∨ Effect rules middle 0 final) ∧
      final.db.messages = pt.db.messages ∧
      ∃ row, row.id = mb.id ∧ row.expunged = false ∧ row.accountId = pt.accountId ∧
        row.name = name ∧ final.db.mailboxes = pt.db.mailboxes ++ [row] := by
  simp only [createMailbox, bind_ok, get_ok, pure_ok, nextModSeq_ok] at ran
  obtain ⟨uidValidity, _, taken, _, _, ⟨rfl, rfl⟩, _, _, inserted, _, _, ⟨rfl, rfl⟩, _, _, logged,
    _, _, subscribed, rfl, rfl⟩ := ran
  obtain ⟨account, found, value, rfl⟩ := nextUIDValidity_ok taken
  obtain ⟨rfl, rfl⟩ := insertMailbox_ok inserted
  rw [record_ok rfl] at logged
  subst logged
  obtain ⟨recorded, same⟩ := recordSubscription_ran rules subscribed
  refine ⟨_, .createMailbox account (pt.mailboxRow name uidValidity (pt.seq + 1) su subscribe)
    (pt.mailboxRow name uidValidity (pt.seq + 1) su false) found rfl rfl value.symm rfl rfl rfl rfl
    rfl rfl, recorded, by rw [same]; rfl, _, ?_, ?_, ?_, ?_, by rw [same]; rfl⟩
  · rfl
  · rfl
  · rfl
  · rfl

theorem setSubscribed_ran (rules : Rules) {value : Bool}
    {change : String → Change} (derived : (change name).changeModSeq = none)
    (quiet : (change name).quiet = true) (unnamed : (change name).mailboxChanged = none)
    (ran : setSubscribed name value change pt = .ok (done, final)) :
    Effect rules pt 0 final ∧ final.db.messages = pt.db.messages := by
  simp only [setSubscribed, bind_ok, get_ok, modifyDb_ok] at ran
  obtain ⟨_, _, ⟨rfl, rfl⟩, _, _, rfl, recorded⟩ := ran
  obtain rfl := (record_derived_ok _ _ _ _ derived).mp recorded
  exact ⟨.mailboxes _ _ _ (fun _ => ⟨rfl, rfl, rfl, rfl, rfl, rfl, rfl⟩) quiet
    (.unnamed (fun _ => rfl) unnamed) (carries_none derived), rfl⟩

end Tx

open Tx

theorem mailboxSetSpecialUse_ran (rules : Rules)
    (ran : mailboxSetSpecialUse mb su pt = .ok (done, final)) :
    Effect rules pt 0 final ∧ final.db.messages = pt.db.messages ∧
      ∀ id, pt.Open id → final.Open id := by
  simp only [mailboxSetSpecialUse, bind_ok, get_ok, modifyDb_ok, refuse_ok, nextModSeq_ok] at ran
  obtain ⟨_, _, ⟨rfl, rfl⟩, _, _, ⟨rfl, rfl⟩, _, _, rfl, _, _, ⟨_, rfl⟩, recorded⟩ := ran
  rw [record_ok rfl] at recorded
  subst recorded
  exact ⟨.mailboxes _ _ _ (fun _ => ⟨rfl, rfl, rfl, rfl, rfl, rfl, rfl⟩) rfl
      ⟨fun row picked => .inr ⟨by simp_all, rfl⟩, fun row named mine live =>
        ⟨by simp [mine, live, Option.some.inj named], rfl⟩⟩ (carries_own rfl), rfl,
    fun id opened => opened.update _ _ rfl (fun _ => rfl) (fun _ => rfl)⟩

/-- A rename that reports success. -/
theorem mailboxRename_ran (rules : Rules) {src : Mailbox} {dst : String}
    (ran : mailboxRename src dst pt = .ok (true, final)) :
    Effect rules pt 0 final ∧ final.db.messages = pt.db.messages := by
  simp only [mailboxRename, bind_ok, get_ok, modifyDb_ok, refuse_ok, nextModSeq_ok, ite_run] at ran
  obtain ⟨_, _, ⟨rfl, rfl⟩, _, _, ⟨rfl, rfl⟩, _, _, ⟨_, rfl⟩, _, _, rfl, branch⟩ := ran
  split at branch
  · simp only [bind_ok, pure_ok] at branch
    obtain ⟨_, _, recorded, _, rfl⟩ := branch
    rw [record_ok rfl] at recorded
    subst recorded
    exact ⟨.mailboxes _ _ _ (fun _ => ⟨rfl, rfl, rfl, rfl, rfl, rfl, rfl⟩) rfl
      ⟨fun row picked => .inr ⟨by simp_all, rfl⟩, fun row named mine live =>
        ⟨by simp [mine, live, Option.some.inj named], rfl⟩⟩ (carries_own rfl), rfl⟩
  · simp only [pure_ok] at branch
    exact absurd branch.1 (by simp)

theorem mailboxDelete_ran (rules : Rules) {children : Bool}
    (empty : rules.empty → ∀ m, pt.Stored m → m.mailboxId ≠ mb.id)
    (ran : mailboxDelete mb pt = .ok (children, final)) :
    Effect rules pt 0 final ∧ children = false ∧ final.db.messages = pt.db.messages := by
  simp only [mailboxDelete, bind_ok, get_ok, modifyDb_ok, pure_ok, nextModSeq_ok] at ran
  obtain ⟨_, _, ⟨rfl, rfl⟩, _, _, ⟨rfl, rfl⟩, _, _, rfl, _, _, recorded, rfl, rfl⟩ := ran
  rw [record_ok rfl] at recorded
  subst recorded
  exact ⟨.deleteMailbox mb empty, rfl, rfl⟩

theorem annotationSet_ran (rules : Rules) {key : String}
    (ran : annotationSet mailboxId key pt = .ok (done, final)) :
    Effect rules pt 0 final := by
  simp only [annotationSet, bind_ok, get_ok, nextModSeq_ok] at ran
  obtain ⟨_, _, ⟨rfl, rfl⟩, _, _, ⟨rfl, rfl⟩, recorded⟩ := ran
  rw [record_ok rfl] at recorded
  subst recorded
  exact logged_effect rules pt _ rfl rfl (carries_own rfl)

namespace Tx

theorem canAddMessageSize_ok {size : Nat} {admitted : Bool}
    (ran : canAddMessageSize size pt = .ok (admitted, final)) : pt = final := by
  simp only [canAddMessageSize, bind_ok, get_ok, require_ok, ite_run] at ran
  obtain ⟨_, _, ⟨rfl, rfl⟩, _, _, ⟨_, rfl⟩, branch⟩ := ran
  split at branch
  · simp only [bind_ok, require_ok, pure_ok] at branch
    obtain ⟨_, _, ⟨_, rfl⟩, _, rfl⟩ := branch
    rfl
  · exact ((pure_ok _ _ _ _).mp branch).2

theorem takeUid_ok {uid : Nat} (ran : takeUid mailboxId pt = .ok (uid, final)) :
    ∃ row ∈ pt.db.mailboxes, row.id = mailboxId ∧
      row.uidNext = uid ∧ pt.withDb (pt.db.tookUid mailboxId) = final := by
  simp only [takeUid, bind_ok, get_ok, require_ok, modifyDb_ok, pure_ok] at ran
  obtain ⟨_, _, ⟨rfl, rfl⟩, row, _, ⟨found, rfl⟩, _, _, rfl, rfl, rfl⟩ := ran
  exact ⟨row, List.mem_of_find?_eq_some found, by simpa using List.find?_some found, rfl, rfl⟩

theorem insertMessage_ok {id : Nat} (ran : insertMessage m pt = .ok (id, final)) :
    pt.db.nextMessageId = id ∧
      (∃ b ∈ pt.db.mailboxes, b.id = m.mailboxId ∧ b.accountId = m.accountId) ∧
      pt.withDb (pt.db.insertedMessage { m with id := id }) = final := by
  simp only [insertMessage, bind_ok, get_ok, refuse_ok, modifyDb_ok, pure_ok] at ran
  obtain ⟨_, _, ⟨rfl, rfl⟩, _, _, ⟨owned, rfl⟩, _, _, ⟨_, rfl⟩, _, _, rfl, rfl, rfl⟩ := ran
  refine ⟨rfl, ?_, rfl⟩
  simp only [Bool.not_eq_false', List.any_eq_true, Bool.and_eq_true, beq_iff_eq] at owned
  obtain ⟨b, member, mine, same⟩ := owned
  exact ⟨b, member, same, mine⟩

theorem bumpCounts_ok (mailboxId : Nat) (dTotal dSize dUnseen dDeleted : Int) (pt final : Tx)
    (done : Unit) :
    bumpCounts mailboxId dTotal dSize dUnseen dDeleted pt = .ok (done, final) ↔
      pt.withDb (pt.db.bumpedCounts mailboxId dTotal dSize dUnseen dDeleted) = final :=
  modifyDb_ok _ pt final done

theorem bumpQuota_ok (dCount dSize : Int) (pt final : Tx) (done : Unit) :
    bumpQuota dCount dSize pt = .ok (done, final) ↔
      pt.withDb (pt.db.bumpedQuota pt.accountId pt.tenantId dCount dSize) = final :=
  modify_ok pt final _ done

/-- The row `INSERT INTO messages` stores for `MessageAdd`. -/
def messageRow (pt : Tx) (env : Env) (mailboxId : Nat) (m : Message) (ref : String)
    (size uid emailId : Nat) : Message :=
  { m with
    id := pt.db.nextMessageId
    blobRef := ref
    size := size + m.msgPrefix.length
    uid := uid
    modSeq := pt.seq + 1
    createSeq := pt.seq + 1
    mailboxId := mailboxId
    accountId := pt.accountId
    expunged := false
    keywords := some (m.keywords.getD [])
    emailId := emailId
    received := if m.received = 0 then env.now else m.received
    saveDate := env.now }

end Tx

/-- Adding a message stores its row under the next UID of the mailbox. -/
theorem messageAdd_ok {env : Env} {body : Body} {emailId : Nat} {added : Message}
    (ran : messageAdd env mb m body emailId pt = .ok (added, final)) :
    ∃ box ref size, box ∈ pt.db.mailboxes ∧ box.id = mb.id ∧
      (∃ b ∈ (pt.db.tookUid mb.id).mailboxes, b.id = mb.id ∧ b.accountId = pt.accountId) ∧
      body.put = some (ref, size) ∧
      final = pt.added (pt.messageRow env mb.id m ref size box.uidNext emailId) := by
  simp only [messageAdd, bind_ok, get_ok, pure_ok, require_ok, refuse_ok, nextModSeq_ok,
    bumpCounts_ok, bumpQuota_ok] at ran
  obtain ⟨_, _, admitted, _, _, ⟨_, rfl⟩, put, _, ⟨stored, rfl⟩, _, _, taken, _, _, ⟨rfl, rfl⟩, _, _,
    ⟨rfl, rfl⟩, _, _, inserted, _, _, rfl, _, _, rfl, _, _, recorded, _, rfl⟩ := ran
  obtain rfl := canAddMessageSize_ok admitted
  obtain ⟨box, member, named, rfl, rfl⟩ := takeUid_ok taken
  obtain ⟨rfl, owned, rfl⟩ := insertMessage_ok inserted
  rw [record_ok rfl] at recorded
  subst recorded
  exact ⟨box, put.1, put.2, member, named, owned, stored, rfl⟩

/-- Adding a message to an open mailbox. -/
theorem messageAdd_ran (rules : Rules) {env : Env} {body : Body}
    {emailId : Nat} {added : Message} (wf : pt.db.Wf) (opened : pt.Open mb.id)
    (sibling : emailId ≠ 0 → ∃ src, pt.Stored src ∧ src.effectiveEmailId = emailId)
    (lone : rules.lone → emailId = 0)
    (ran : messageAdd env mb m body emailId pt = .ok (added, final)) :
    Effect rules pt 0 final ∧ (∃ row, final.db.messages = pt.db.messages ++ [row]) ∧
      ∀ id, pt.Open id → final.Open id := by
  obtain ⟨box, ref, size, member, named, owned, _, rfl⟩ :=
    messageAdd_ok ran
  have owner : box.accountId = pt.accountId := by
    obtain ⟨b, there, same, mine⟩ := owned
    obtain ⟨old, was, rfl⟩ := Table.mem_update.mp there
    have one : old = box := Table.eq_of_key wf.mailboxIds was member
      (Eq.trans (by split <;> rfl) (same.trans named.symm))
    rw [← one]
    exact Eq.trans (by split <;> rfl) mine
  have live : box.expunged = false := by
    obtain ⟨b, there, same, open_⟩ := opened
    exact Table.eq_of_key wf.mailboxIds member there (named.trans same.symm) ▸ open_
  have effect : Effect rules pt 0 _ :=
    .addMessage box (pt.messageRow env mb.id m ref size box.uidNext emailId) member owner live
      rfl rfl named.symm rfl rfl rfl rfl sibling lone rfl
  refine ⟨effect, ⟨_, Database.bumpedQuota_messages _ _ _ _ _⟩, fun id opened => ?_⟩
  have taken : (pt.withDb (pt.db.tookUid mb.id)).Open id :=
    opened.update _ _ rfl (fun _ => rfl) (fun _ => rfl)
  exact taken.update _ _ (Database.bumpedQuota_mailboxes _ _ _ _ _) (fun _ => rfl) (fun _ => rfl)

/-- Bumping by nothing changes nothing. -/
theorem Database.bumpedCounts_zero (db : Database) (mailboxId : Nat) :
    db.bumpedCounts mailboxId 0 0 0 0 = db := by
  rw [bumpedCounts, setMailboxes, Table.update_of_same]
  intro row _
  simp [bumped]

theorem bumpChanged_ok {dUnseen dDeleted : Int}
    (ran : bumpChanged mailboxId dUnseen dDeleted pt = .ok (done, final)) :
    pt.withDb (pt.db.bumpedCounts mailboxId 0 0 dUnseen dDeleted) = final := by
  simp only [bumpChanged, ite_run] at ran
  split at ran
  · exact (bumpCounts_ok _ _ _ _ _ _ _ _).mp ran
  · obtain ⟨rfl, rfl⟩ : dUnseen = 0 ∧ dDeleted = 0 := by omega
    rw [Database.bumpedCounts_zero]
    exact ((pure_ok _ _ _ _).mp ran).2

/-- Updating a message replaces the flags of its row. -/
theorem update_ok {x : Message} (ran : update x pt = .ok (done, final)) :
    ∃ old keywords, x.keywords = some keywords ∧ pt.db.messages.find? (fun row =>
        row.id == x.id && row.accountId == pt.accountId) = some old ∧
      final = pt.updated x old keywords := by
  simp only [update, bind_ok, get_ok, require_ok, nextModSeq_ok, modifyDb_ok] at ran
  obtain ⟨_, _, ⟨rfl, rfl⟩, _, _, ⟨rfl, rfl⟩, old, _, ⟨found, rfl⟩, keywords, _, ⟨given_, rfl⟩, _, _,
    rfl, _, _, bumped, recorded⟩ := ran
  obtain rfl := bumpChanged_ok bumped
  rw [record_ok rfl] at recorded
  subst recorded
  rw [given_]
  exact ⟨old, keywords, rfl, found, rfl⟩

/-- Updating the flags of a row that is known to be there. -/
theorem update_ran (rules : Rules) {x : Message} (wf : pt.db.Wf)
    (known : pt.Known False x) (ran : update x pt = .ok (done, final)) :
    Effect rules pt 0 final ∧ (∀ id, pt.Open id → final.Open id) ∧
      ∃ keywords, final.db.messages =
        Table.update (fun row => row.id == x.id && row.accountId == pt.accountId)
          (fun row => { row with flags := x.flags, keywords := keywords, modSeq := pt.seq + 1 })
          pt.db.messages := by
  obtain ⟨old, keywords, _, found, rfl⟩ := update_ok ran
  obtain ⟨row, stored, same, _⟩ := known
  have one : old = row := by
    have named := List.find?_some found
    simp only [Bool.and_eq_true, beq_iff_eq] at named
    exact Table.eq_of_key wf.messageIds (List.mem_of_find?_eq_some found) stored.mem
      (named.1.trans same.id.symm)
  subst one
  exact ⟨.update x old keywords stored same,
    fun id opened => opened.update _ _ rfl (fun _ => rfl) (fun _ => rfl), some keywords, rfl⟩

/-- Marking rows one after the other marks them all. -/
theorem expungeRows_ok (seq : Nat) (msgs : List Message) (pt final : Tx) (done : Unit)
    (ran : msgs.forM (expungeRow seq) pt = .ok (done, final)) :
    pt.withDb (pt.db.expungedMessages seq (msgs.map Message.id)) = final := by
  induction msgs generalizing pt with
  | nil =>
    obtain ⟨_, rfl⟩ := (pure_ok _ _ _ _).mp ran
    rw [List.map_nil, Database.expungedMessages_nil]
    rfl
  | cons m rest ih =>
    obtain ⟨_, middle, first, others⟩ := (bind_ok _ _ _ _ _).mp ran
    obtain rfl := (modifyDb_ok _ _ _ _).mp first
    rw [← ih _ others, List.map_cons, Database.expungedMessages_cons]
    rfl

theorem bumpCountsReturning_ok {dTotal dSize dUnseen dDeleted : Int} {counts : MailboxCounts}
    (ran : bumpCountsReturning mailboxId dTotal dSize dUnseen dDeleted pt = .ok (counts, final)) :
    pt.withDb (pt.db.bumpedCounts mailboxId dTotal dSize dUnseen dDeleted) = final := by
  simp only [bumpCountsReturning, bind_ok, get_ok, require_ok, pure_ok, bumpCounts_ok] at ran
  obtain ⟨_, _, rfl, _, _, ⟨rfl, rfl⟩, _, _, ⟨_, rfl⟩, _, rfl⟩ := ran
  rfl

theorem messageRemove_ok {msgs : List Message}
    (ran : messageRemove mb msgs pt = .ok (done, final)) : final = pt.removed mb msgs := by
  simp only [messageRemove, bind_ok, nextModSeq_ok, bumpQuota_ok] at ran
  obtain ⟨_, _, ⟨rfl, rfl⟩, _, _, marked, _, _, returned, _, _, rfl, recorded⟩ := ran
  obtain rfl := expungeRows_ok _ _ _ _ _ marked
  obtain rfl := bumpCountsReturning_ok returned
  rw [record_ok rfl] at recorded
  exact recorded.symm

theorem Tx.removed_messages (pt : Tx) (mb : Mailbox) (msgs : List Message) :
    (pt.removed mb msgs).db.messages =
      Table.update (fun row => (msgs.map Message.id).contains row.id)
        (fun row => { row with expunged := true, modSeq := pt.seq + 1 }) pt.db.messages :=
  Database.bumpedQuota_messages _ _ _ _ _

/-- Expunging rows of one mailbox that are known to be there. -/
theorem messageRemove_ran (rules : Rules) {msgs : List Message}
    (distinct : (msgs.map Message.id).Nodup)
    (there : ∀ m ∈ msgs, m.mailboxId = mb.id) (known : ∀ m ∈ msgs, pt.Known rules.fresh m)
    (ran : messageRemove mb msgs pt = .ok (done, final)) :
    Effect rules pt 0 final ∧ (∀ id, pt.Open id → final.Open id) ∧
      final.db.messages = Table.update (fun row => (msgs.map Message.id).contains row.id)
        (fun row => { row with expunged := true, modSeq := pt.seq + 1 }) pt.db.messages := by
  obtain rfl := messageRemove_ok ran
  refine ⟨.remove mb msgs distinct there known, fun id opened => ?_, pt.removed_messages mb msgs⟩
  exact opened.update _ _ (Database.bumpedQuota_mailboxes _ _ _ _ _) (fun _ => rfl) (fun _ => rfl)

end OctoMail.Store
