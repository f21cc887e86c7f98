import OctoMail.Account.Log

/-!
# The positions that rows carry

A message row carries the position of the last entry about it, whatever the entry says:
that the message came, that its flags changed, or that it went. A live mailbox row carries
the position of an entry that is not before the last one about the mailbox itself; entries
about its messages do not count there.
-/

namespace OctoMail.Account

open List Store Store.Tx
open Transition (always relation run)

/-- The change is about this message of the mailbox. -/
def touches : Change → Nat → Nat → Bool
  | .addUid mailboxId _ msgId .., mailbox, id => mailboxId == mailbox && msgId == id
  | .removeUids mailboxId _ _ msgIds _, mailbox, id => mailboxId == mailbox && msgIds.contains id
  | .flags mailboxId _ msgId .., mailbox, id => mailboxId == mailbox && msgId == id
  | _, _, _ => false

theorem touches_quiet {change : Change} (quiet : change.quiet = true) {mailbox id : Nat} :
    touches change mailbox id = false := by
  cases change <;> first | rfl | cases quiet

structure Dated (messages : List Message) (log : List LogRow) : Prop where
  entry : ∀ m ∈ messages, ∃ entry ∈ log, entry.accountId = m.accountId ∧ entry.seq = m.modSeq ∧
    touches entry.change m.mailboxId m.id = true
  latest : ∀ m ∈ messages, ∀ entry ∈ log, entry.accountId = m.accountId →
    touches entry.change m.mailboxId m.id = true → entry.seq ≤ m.modSeq

/-- A mailbox carries the position of an entry, and while it lives none of those about itself is
later. -/
structure MailboxDated (mailboxes : List Mailbox) (log : List LogRow) : Prop where
  entry : ∀ mb ∈ mailboxes, ∃ entry ∈ log, entry.accountId = mb.accountId ∧ entry.seq = mb.modSeq
  latest : ∀ mb ∈ mailboxes, mb.expunged = false → ∀ entry ∈ log, entry.accountId = mb.accountId →
    entry.change.mailboxChanged = some mb.id → entry.seq ≤ mb.modSeq

variable {messages : List Message} {log : List LogRow} {entry : LogRow}

/-- An entry that is about no message. -/
theorem Dated.quiet (dated : Dated messages log) (silent : ∀ m ∈ messages,
    entry.accountId = m.accountId → touches entry.change m.mailboxId m.id = false) :
    Dated messages (log ++ [entry]) := by
  constructor
  · intro m member
    obtain ⟨old, there, facts⟩ := dated.entry m member
    exact ⟨old, mem_append_left _ there, facts⟩
  · intro m member other there mine about
    rcases mem_append.mp there with old | new
    · exact dated.latest m member other old mine about
    · rw [mem_singleton.mp new] at mine about
      rw [silent m member mine] at about
      cases about

/-- A new message, with the entry about it and about no other. -/
theorem Dated.insert (dated : Dated messages log) (row : Message)
    (mine : entry.accountId = row.accountId) (seq : entry.seq = row.modSeq)
    (about : touches entry.change row.mailboxId row.id = true)
    (silent : ∀ m ∈ messages, entry.accountId = m.accountId →
      touches entry.change m.mailboxId m.id = false)
    (last : ∀ old ∈ log, old.accountId = entry.accountId → old.seq ≤ entry.seq) :
    Dated (messages ++ [row]) (log ++ [entry]) := by
  have before := dated.quiet silent
  constructor
  · intro m member
    rcases mem_append.mp member with old | new
    · exact before.entry m old
    · rw [mem_singleton.mp new]
      exact ⟨entry, by simp, mine, seq, about⟩
  · intro m member other there own named
    rcases mem_append.mp member with old | new
    · exact before.latest m old other there own named
    · rw [mem_singleton.mp new] at own ⊢
      rw [← seq]
      rcases mem_append.mp there with earlier | itself
      · exact last other earlier (own.trans mine.symm)
      · rw [mem_singleton.mp itself]

/-- Rows that are changed, with the entry about exactly these. -/
theorem Dated.update (dated : Dated messages log) (chosen : Message → Bool) (f : Message → Message)
    (id : ∀ m, (f m).id = m.id) (mailboxId : ∀ m, (f m).mailboxId = m.mailboxId)
    (accountId : ∀ m, (f m).accountId = m.accountId) (modSeq : ∀ m, (f m).modSeq = entry.seq)
    (exactly : ∀ m ∈ messages, chosen m = true ↔
      entry.accountId = m.accountId ∧ touches entry.change m.mailboxId m.id = true)
    (last : ∀ old ∈ log, old.accountId = entry.accountId → old.seq ≤ entry.seq) :
    Dated (Table.update chosen f messages) (log ++ [entry]) := by
  constructor
  · intro m member
    obtain ⟨old, there, rfl⟩ := Table.mem_update.mp member
    split
    · rename_i picked
      obtain ⟨mine, about⟩ := (exactly old there).mp picked
      refine ⟨entry, by simp, mine.trans (accountId old).symm, (modSeq old).symm, ?_⟩
      rw [id, mailboxId]
      exact about
    · obtain ⟨first, listed, facts⟩ := dated.entry old there
      exact ⟨first, mem_append_left _ listed, facts⟩
  · intro m member other there mine about
    obtain ⟨old, stored, rfl⟩ := Table.mem_update.mp member
    by_cases picked : chosen old = true
    · rw [if_pos picked] at mine about ⊢
      rw [modSeq]
      rcases mem_append.mp there with earlier | itself
      · have owner := ((exactly old stored).mp picked).1
        exact last other earlier (mine.trans ((accountId old).trans owner.symm))
      · rw [mem_singleton.mp itself]
    · rw [if_neg picked] at mine about ⊢
      rcases mem_append.mp there with earlier | itself
      · exact dated.latest old stored other earlier mine about
      · rw [mem_singleton.mp itself] at mine about
        exact absurd ((exactly old stored).mpr ⟨mine, about⟩) picked

theorem Dated.filter (dated : Dated messages log) (kept : Message → Bool) :
    Dated (messages.filter kept) log :=
  ⟨fun m member => dated.entry m (mem_filter.mp member).1,
    fun m member => dated.latest m (mem_filter.mp member).1⟩

variable {mailboxes after : List Mailbox}

/-- The rows are what they were, or rows of the account that carry the position of a new
entry; a row that the entry is about carries it. -/
theorem MailboxDated.step (dated : MailboxDated mailboxes log)
    (rows : ∀ mb ∈ after, mb.accountId = entry.accountId ∧ mb.modSeq = entry.seq ∨
      ∃ old ∈ mailboxes, old.id = mb.id ∧ old.accountId = mb.accountId ∧
        old.modSeq = mb.modSeq ∧ (mb.expunged = false → old.expunged = false ∧
        (entry.accountId = mb.accountId → entry.change.mailboxChanged ≠ some mb.id)))
    (last : ∀ old ∈ log, old.accountId = entry.accountId → old.seq ≤ entry.seq) :
    MailboxDated after (log ++ [entry]) := by
  constructor
  · intro mb member
    rcases rows mb member with ⟨own, stamped⟩ | ⟨old, stored, _, owner, modSeq, _⟩
    · exact ⟨entry, by simp, own.symm, stamped.symm⟩
    · obtain ⟨first, listed, mine, seq⟩ := dated.entry old stored
      exact ⟨first, mem_append_left _ listed, mine.trans owner, seq.trans modSeq⟩
  intro mb member live other there mine about
  rcases rows mb member with ⟨own, stamped⟩ | ⟨old, stored, id, owner, modSeq, still⟩
  · rw [stamped]
    rcases mem_append.mp there with earlier | itself
    · exact last other earlier (mine.trans own)
    · rw [mem_singleton.mp itself]
  · obtain ⟨open_, silent⟩ := still live
    rcases mem_append.mp there with earlier | itself
    · rw [← modSeq]
      exact dated.latest old stored open_ other earlier (mine.trans owner.symm) (id ▸ about)
    · rw [mem_singleton.mp itself] at mine about
      exact absurd about (silent mine)

/-! ### Every mutator call keeps the positions -/

variable {rules : Rules} {created : Nat} {start pt final : Tx}

theorem Logged.last (logged : Logged start pt) :
    ∀ old ∈ pending pt, old.accountId = pt.accountId → old.seq ≤ pt.seq + 1 := by
  intro old member mine
  exact Nat.le_succ_of_le (logged.numbered.bound old member mine).2

/-- What a transaction sees of its account carries its positions. -/
structure Placed (pt : Tx) : Prop where
  messages : Dated pt.db.messages (pending pt)
  mailboxes : MailboxDated pt.db.mailboxes (pending pt)

/-- The rows of mailboxes as far as positions are concerned. -/
def placeOf (mb : Mailbox) : Nat × Nat × Bool × Nat := (mb.id, mb.accountId, mb.expunged, mb.modSeq)

/-- A call that is about messages leaves the mailboxes where they are. -/
theorem MailboxDated.same (dated : MailboxDated mailboxes log)
    (same : after.map placeOf = mailboxes.map placeOf)
    (unnamed : entry.change.mailboxChanged = none)
    (last : ∀ old ∈ log, old.accountId = entry.accountId → old.seq ≤ entry.seq) :
    MailboxDated after (log ++ [entry]) := by
  refine dated.step (fun mb member => .inr ?_) last
  have listed : placeOf mb ∈ mailboxes.map placeOf := same ▸ mem_map_of_mem member
  obtain ⟨old, stored, equal⟩ := mem_map.mp listed
  simp only [placeOf, Prod.mk.injEq] at equal
  obtain ⟨id, owner, open_, modSeq⟩ := equal
  exact ⟨old, stored, id, owner, modSeq, fun live => ⟨open_.trans live, fun _ about => by
    rw [unnamed] at about
    cases about⟩⟩

theorem placeOf_bumpedCounts (db : Database) (mailboxId : Nat)
    (dTotal dSize dUnseen dDeleted : Int) :
    (db.bumpedCounts mailboxId dTotal dSize dUnseen dDeleted).mailboxes.map placeOf =
      db.mailboxes.map placeOf :=
  Table.map_update placeOf (fun _ => rfl)

variable {db : Database}

theorem placed_logged {change : Change} (changelog : db.changelog = pt.db.changelog)
    (messages : Dated db.messages (pending pt ++ [⟨pt.accountId, pt.seq + 1, change⟩]))
    (mailboxes : MailboxDated db.mailboxes (pending pt ++ [⟨pt.accountId, pt.seq + 1, change⟩])) :
    Placed ((pt.withDb db).logged change) := by
  rw [← pending_logged change changelog] at messages mailboxes
  exact ⟨messages, mailboxes⟩

theorem effect_placed (wf : pt.db.Wf) (logged : Logged start pt) (placed : Placed pt)
    (effect : Effect rules pt created final) : Placed final := by
  have last := logged.last
  cases effect with
  | mailboxes chosen f change keeps quiet stamps =>
    refine placed_logged rfl
      (placed.messages.quiet fun m _ _ => touches_quiet quiet)
      (placed.mailboxes.step (fun mb member => ?_) last)
    obtain ⟨old, stored, rfl⟩ := Table.mem_update.mp member
    by_cases picked : chosen old = true
    · rw [if_pos picked]
      have same := keeps old
      rcases stamps.kept old picked with unmoved | ⟨mine, moved⟩
      · by_cases named : (f old).expunged = false ∧ pt.accountId = (f old).accountId ∧
          change.mailboxChanged = some (f old).id
        · rw [same.id, same.accountId, same.expunged] at named
          have stamped := (stamps.named old named.2.2 named.2.1.symm named.1).2
          exact .inl ⟨same.accountId.trans named.2.1.symm, stamped⟩
        · exact .inr ⟨old, stored, same.id.symm, same.accountId.symm, unmoved.symm, fun live =>
            ⟨same.expunged ▸ live, fun mine about => named ⟨live, mine, about⟩⟩⟩
      · exact .inl ⟨same.accountId.trans mine, moved⟩
    · rw [if_neg picked]
      exact .inr ⟨old, stored, rfl, rfl, rfl, fun live => ⟨live, fun mine about =>
        picked (stamps.named old about mine.symm live).1⟩⟩
  | createMailbox _ _ mb _ id mine _ _ _ _ modSeq =>
    refine placed_logged rfl (placed.messages.quiet fun m _ _ => rfl)
      (placed.mailboxes.step (fun box member => ?_) last)
    rcases mem_append.mp member with old | new
    · have below := wf.mailboxBelow box old
      refine .inr ⟨box, old, rfl, rfl, rfl, fun open_ => ⟨open_, fun _ about => ?_⟩⟩
      have same : mb.id = box.id := Option.some.inj about
      omega
    · rw [mem_singleton.mp new]
      exact .inl ⟨mine, modSeq⟩
  | deleteMailbox mb =>
    refine placed_logged rfl (placed.messages.quiet fun m _ _ => rfl)
      (placed.mailboxes.step (fun box member => ?_) last)
    obtain ⟨old, stored, rfl⟩ := Table.mem_update.mp member
    by_cases picked : (old.id == mb.id && old.accountId == pt.accountId) = true
    · rw [if_pos picked]
      exact .inl ⟨(by simpa using picked : _ ∧ _).2, rfl⟩
    · rw [if_neg picked]
      refine .inr ⟨old, stored, rfl, rfl, rfl, fun open_ => ⟨open_, fun mine about => picked ?_⟩⟩
      simp [← Option.some.inj about, ← mine]
  | addMessage _ row _ _ _ id mine mailboxId _ _ modSeq =>
    refine placed_logged (by rw [Database.bumpedQuota_tables]; rfl) ?_ ?_
    · rw [Database.bumpedQuota_messages]
      refine placed.messages.insert row mine.symm modSeq.symm ?_ (fun m there _ => ?_) last
      · simp [touches, mailboxId]
      · have apart : row.id ≠ m.id := by
          have below := wf.messageBelow m there
          omega
        simp [touches, apart]
    · rw [Database.bumpedQuota_mailboxes]
      refine placed.mailboxes.same ?_ rfl last
      rw [placeOf_bumpedCounts]
      exact Table.map_update placeOf (fun _ => rfl)
  | update _ _ _ stored same =>
    refine placed_logged rfl ?_ ?_
    · refine placed.messages.update _ _ (fun _ => rfl) (fun _ => rfl) (fun _ => rfl) (fun _ => rfl)
        (fun m there => ?_) last
      simp only [touches, Bool.and_eq_true, beq_iff_eq]
      constructor
      · rintro ⟨sameId, mine⟩
        obtain rfl := Table.eq_of_key wf.messageIds there stored.mem (sameId.trans same.id.symm)
        exact ⟨mine.symm, same.mailboxId.symm, sameId.symm⟩
      · rintro ⟨mine, _, sameId⟩
        exact ⟨sameId.symm, mine.symm⟩
    · exact placed.mailboxes.same (placeOf_bumpedCounts _ _ _ _ _ _) rfl last
  | remove _ _ _ there known =>
    refine placed_logged (by rw [Database.bumpedQuota_tables]; rfl) ?_ ?_
    · rw [Database.bumpedQuota_messages]
      refine placed.messages.update _ _ (fun _ => rfl) (fun _ => rfl) (fun _ => rfl) (fun _ => rfl)
        (fun m stored => ?_) last
      simp only [touches, Bool.and_eq_true, beq_iff_eq, contains_iff_mem]
      constructor
      · intro listed
        obtain ⟨value, passed, sameId⟩ := mem_map.mp listed
        obtain ⟨row, live, same, _⟩ := known value passed
        obtain rfl := Table.eq_of_key wf.messageIds stored live.mem (sameId.symm.trans same.id.symm)
        exact ⟨live.mine.symm, (there value passed).symm.trans same.mailboxId.symm, listed⟩
      · exact fun facts => facts.2.2
    · rw [Database.bumpedQuota_mailboxes]
      exact placed.mailboxes.same (placeOf_bumpedCounts _ _ _ _ _ _) rfl last

theorem steps_placed (wf : start.db.Wf) (initially : Logged start start) (placed : Placed start)
    (steps : Steps rules created start final) : Placed final := by
  induction steps with
  | refl => exact placed
  | tail before effect ih =>
    exact effect_placed (before.wf wf) (steps_logged initially before)
      (ih wf initially placed) effect

/-! ### Runs -/

/-- The rows of the tables carry their positions. -/
structure Positioned (db : Database) : Prop where
  sound : Sound db
  messages : Dated db.messages db.changelog
  mailboxes : MailboxDated db.mailboxes db.changelog

theorem Initial.positioned (initial : Initial db) : Positioned db := by
  refine ⟨initial.sound, ?_, ?_⟩
  · rw [initial.messages]
    exact ⟨fun m member => absurd member not_mem_nil, fun m member => absurd member
      not_mem_nil⟩
  · rw [initial.mailboxes]
    exact ⟨fun mb member => absurd member not_mem_nil, fun mb member => absurd member
      not_mem_nil⟩

theorem step_positioned {after : Database} {label : Label} (positioned : Positioned db)
    (moved : step db label = some after) : Positioned after := by
  have sound := step_sound db after label positioned.sound moved
  cases label with
  | request =>
    rcases step_request positioned.sound.wf moved with rfl | changed
    · exact positioned
    · obtain ⟨account, pt, created, found, _, steps, rfl⟩ := changed
      have began : Placed (begin_ db account) := by
        constructor
        · simpa [begin_, pending] using positioned.messages
        · simpa [begin_, pending] using positioned.mailboxes
      have placed := steps_placed positioned.sound.wf
        (positioned.sound.kept.begin found) began steps
      exact ⟨sound, placed.messages, placed.mailboxes⟩
  | collect =>
    cases moved
    exact ⟨sound, positioned.messages.filter _, positioned.mailboxes⟩

theorem run_positioned {final : Database} {labels : List Label} (positioned : Positioned db)
    (reached : run step db labels = some final) : Positioned final :=
  always Positioned step_positioned positioned reached

/-! ### What comes after a position -/

theorem step_appends {after : Database} {label : Label} (sound : Sound db)
    (moved : step db label = some after) : ∃ more, after.changelog = db.changelog ++ more := by
  cases label with
  | request =>
    rcases step_request sound.wf moved with rfl | changed
    · exact ⟨[], (append_nil _).symm⟩
    · obtain ⟨account, pt, created, found, _, steps, rfl⟩ := changed
      have logged := steps_logged (sound.kept.begin found) steps
      refine ⟨pt.entries, ?_⟩
      show pt.db.changelog ++ pt.entries = _
      rw [logged.changelog]
      rfl
  | collect =>
    cases moved
    exact ⟨[], (append_nil _).symm⟩

/-- Entries that are appended lie past the positions there were. -/
theorem NumberedTo.later {log more : List LogRow} {accountId position last : Nat}
    (numbered : NumberedTo log accountId position)
    (longer : NumberedTo (log ++ more) accountId last) (entry : LogRow) (member : entry ∈ more)
    (mine : entry.accountId = accountId) : position < entry.seq := by
  have length : position ≤ last := by
    rw [← numbered.length, ← longer.length, ownLog_append, length_append]
    exact Nat.le_add_right _ _
  have rest : (ownLog more accountId).map LogRow.seq = List.range' (1 + position)
    (last - position) := by
    have whole := longer
    rw [NumberedTo, ownLog_append, map_append, numbered,
      show last = position + (last - position) by omega, ← List.range'_append_1] at whole
    exact append_cancel_left whole
  have listed : entry.seq ∈ (ownLog more accountId).map LogRow.seq :=
    mem_map_of_mem (mem_filter.mpr ⟨member, by simp [mine]⟩)
  rw [rest, mem_range'] at listed
  omega

/-- The log of a run goes on where it began. -/
theorem run_appends {final : Database} {labels : List Label} (sound : Sound db)
    (reached : run step db labels = some final) :
    ∃ more, final.changelog = db.changelog ++ more :=
  relation Sound
    (fun before after => ∃ more, after.changelog = before.changelog ++ more)
    (fun db => ⟨[], (append_nil _).symm⟩)
    (fun ⟨first, one⟩ ⟨second, two⟩ => ⟨first ++ second, by rw [two, one, append_assoc]⟩)
    (step_sound _ _ _) step_appends sound reached

end OctoMail.Account
