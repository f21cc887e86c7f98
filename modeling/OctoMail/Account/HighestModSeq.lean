import OctoMail.Account.Positions
import OctoMail.Imap.Reading

/-!
# The position a mailbox reports

SELECT and STATUS report the position of the mailbox row as `HIGHESTMODSEQ`. Nothing that
happens to the messages of the mailbox moves it, so it bounds their positions only where
the mailbox itself was created, renamed or given a special use after the last change of a
message in it. Then a client that keeps the reported position and asks for the changes
since gets exactly those made after its command.
-/

namespace OctoMail.Account

open List Store Imap
open Transition (run run_append)

/-- The change is about some message of the mailbox. -/
def aboutMessages : Change → Nat → Bool
  | .addUid mailboxId .., mailbox => mailboxId == mailbox
  | .removeUids mailboxId .., mailbox => mailboxId == mailbox
  | .flags mailboxId .., mailbox => mailboxId == mailbox
  | _, _ => false

theorem aboutMessages_of_touches {change : Change} {mailbox id : Nat}
    (touched : touches change mailbox id = true) : aboutMessages change mailbox = true := by
  cases change <;> simp_all [touches, aboutMessages]

/-- The last entry about the mailbox itself is not before any entry about its messages. -/
def Settled (log : List LogRow) (accountId mailboxId : Nat) : Prop :=
  ∃ entry ∈ log, entry.accountId = accountId ∧ entry.change.mailboxChanged = some mailboxId ∧
    ∀ other ∈ log, other.accountId = accountId → aboutMessages other.change mailboxId = true →
      other.seq ≤ entry.seq

instance (log : List LogRow) (accountId mailboxId : Nat) :
    Decidable (Settled log accountId mailboxId) :=
  inferInstanceAs (Decidable (∃ entry ∈ log, entry.accountId = accountId ∧
    entry.change.mailboxChanged = some mailboxId ∧ ∀ other ∈ log, other.accountId = accountId →
      aboutMessages other.change mailboxId = true → other.seq ≤ entry.seq))

/-- The position that a SELECT or a STATUS of a name reports, with the mailbox it is about. -/
inductive Reported (db : Database) (accountId : Nat) (name : String) : Nat → Nat → Prop
  | select (log : List LogRow) (qr : Option QResync) (answer : SelectAnswer)
      (ran : cmdSelect db log accountId name qr = some answer) :
      Reported db accountId name answer.mailboxId answer.highestModSeq
  | status (items : List StatusItem) (mb : Mailbox) (answer : List (StatusItem × Int)) (h : Nat)
      (ran : cmdStatus db accountId name items = some (mb, answer))
      (listed : (StatusItem.highestModSeq, (h : Int)) ∈ answer) :
      Reported db accountId name mb.id h

variable {db : Database} {name : String}

/-- Both report the position of the live mailbox of the name. -/
theorem Reported.mailbox {accountId : Nat} {mailboxId h : Nat}
    (reported : Reported db accountId name mailboxId h) : ∃ mb ∈ db.mailboxes,
      mb.accountId = accountId ∧ mb.expunged = false ∧ mb.id = mailboxId ∧ mb.modSeq = h := by
  have found : ∃ mb, named db accountId name = some mb ∧ mb.id = mailboxId ∧ mb.modSeq = h := by
    cases reported with
    | select _ _ _ ran =>
      obtain ⟨mb, found, rfl⟩ := Option.map_eq_some_iff.mp ran
      exact ⟨mb, found, rfl, rfl⟩
    | status _ _ _ _ ran listed =>
      obtain ⟨row, found, same⟩ := Option.map_eq_some_iff.mp ran
      obtain ⟨rfl, rfl⟩ := Prod.mk.inj same
      obtain ⟨item, _, equal⟩ := mem_map.mp listed
      obtain ⟨rfl, value⟩ := Prod.mk.inj equal
      exact ⟨row, found, rfl, Int.ofNat.inj value⟩
  obtain ⟨mb, found, id, modSeq⟩ := found
  have facts := find?_some found
  simp only [Bool.and_eq_true, beq_iff_eq, Bool.not_eq_true'] at facts
  exact ⟨mb, mem_of_find?_eq_some found, facts.1.1, facts.2, id, modSeq⟩

/-- Entries about the messages of a settled mailbox are not past the reported position. -/
theorem Settled.bound {accountId mailboxId h : Nat}
    (positioned : Positioned db) (reported : Reported db accountId name mailboxId h)
    (settled : Settled db.changelog accountId mailboxId) (entry : LogRow)
    (member : entry ∈ db.changelog) (mine : entry.accountId = accountId)
    (about : aboutMessages entry.change mailboxId = true) : entry.seq ≤ h := by
  obtain ⟨mb, stored, owner, live, rfl, rfl⟩ := reported.mailbox
  obtain ⟨last, there, own, changed, latest⟩ := settled
  exact Nat.le_trans (latest entry member mine about)
    (positioned.mailboxes.latest mb stored live last there (own.trans owner.symm) changed)

/-- The reported position is one of the log. -/
theorem Reported.le_head {accountId mailboxId h : Nat} {account : AccountRow}
    (positioned : Positioned db) (found : db.account accountId = some account)
    (reported : Reported db accountId name mailboxId h) : h ≤ account.changelogSeq := by
  obtain ⟨mb, stored, owner, live, rfl, rfl⟩ := reported.mailbox
  obtain ⟨entry, listed, mine, seq⟩ := positioned.mailboxes.entry mb stored
  have id : account.id = accountId := by simpa using find?_some found
  have numbered := positioned.sound.kept account (mem_of_find?_eq_some found)
  rw [← seq]
  exact (numbered.bound entry listed (mine.trans (owner.trans id.symm))).2

/-- An entry past a position is about this message of the mailbox. -/
def ChangedAfter (log : List LogRow) (accountId position mailboxId id : Nat) : Prop :=
  ∃ entry ∈ log, entry.accountId = accountId ∧ position < entry.seq ∧
    touches entry.change mailboxId id = true

/-- An entry past a position records the removal of this UID from the mailbox. -/
def VanishedAfter (log : List LogRow) (accountId position mailboxId uid : Nat) : Prop :=
  ∃ entry ∈ log, entry.accountId = accountId ∧ position < entry.seq ∧
    ∃ uids modSeq msgIds emailIds,
      entry.change = .removeUids mailboxId uids modSeq msgIds emailIds ∧ uid ∈ uids

theorem mem_expungedUIDsSince {log : List LogRow} {accountId mailboxId uid : Nat} {since : Nat} :
    uid ∈ expungedUIDsSince log accountId mailboxId since ↔
      VanishedAfter log accountId since mailboxId uid := by
  simp only [expungedUIDsSince, mem_insertionSort, mem_dedup, mem_flatMap,
    mem_filter, Bool.and_eq_true, beq_iff_eq, decide_eq_true_eq, Nat.cast_lt, VanishedAfter]
  constructor
  · rintro ⟨entry, ⟨listed, mine, past⟩, member⟩
    split at member <;> try contradiction
    rename_i id uids modSeq msgIds emailIds change
    split at member <;> try contradiction
    rename_i same
    subst same
    exact ⟨entry, listed, mine, past, uids, modSeq, msgIds, emailIds, change, member⟩
  · rintro ⟨entry, listed, mine, past, uids, modSeq, msgIds, emailIds, change, member⟩
    exact ⟨entry, ⟨listed, mine, past⟩, by simpa [change] using member⟩

/-- A later state of the account, as far as a client with a reported position can tell. -/
structure Resumes (log : List LogRow) (accountId mailboxId h head : Nat) : Prop where
  /-- Entries about messages of the mailbox up to the head are up to the position. -/
  early : ∀ entry ∈ log, entry.accountId = accountId →
    aboutMessages entry.change mailboxId = true → entry.seq ≤ head → entry.seq ≤ h
  below : h ≤ head

theorem run_resumes {snapshot later : Database} {labels : List Label} {accountId mailboxId h : Nat}
    {account : AccountRow} (positioned : Positioned snapshot)
    (found : snapshot.account accountId = some account)
    (reported : Reported snapshot accountId name mailboxId h)
    (settled : Settled snapshot.changelog accountId mailboxId)
    (continued : run step snapshot labels = some later) :
    Resumes later.changelog accountId mailboxId h account.changelogSeq := by
  refine ⟨fun entry listed mine about upTo => ?_, reported.le_head positioned found⟩
  obtain ⟨more, appended⟩ := run_appends positioned.sound continued
  have id : account.id = accountId := by simpa using find?_some found
  have numbered := positioned.sound.kept account (mem_of_find?_eq_some found)
  rw [id] at numbered
  obtain ⟨last, whole⟩ : ∃ last, NumberedTo later.changelog accountId last := by
    obtain ⟨row, there⟩ := Option.isSome_iff_exists.mp (run_account
      positioned.sound (Option.isSome_iff_exists.mpr ⟨account, found⟩) continued)
    have kept := (run_sound snapshot later labels positioned.sound continued).kept row
      (mem_of_find?_eq_some there)
    rw [show row.id = accountId by simpa using find?_some there] at kept
    exact ⟨_, kept⟩
  rw [appended] at listed whole
  rcases mem_append.mp listed with old | new
  · exact settled.bound positioned reported entry old mine about
  · exact absurd upTo (Nat.not_le.mpr (numbered.later whole entry new mine))

variable {log : List LogRow} {accountId mailboxId h head : Nat}

/-- The rows past the reported position are those changed after the command. -/
theorem Resumes.changed_iff (resumes : Resumes log accountId mailboxId h head)
    {messages : List Message} (dated : Dated messages log) {m : Message} (member : m ∈ messages)
    (mine : m.accountId = accountId) (here : m.mailboxId = mailboxId) :
    h < m.modSeq ↔ ChangedAfter log accountId head mailboxId m.id := by
  constructor
  · intro past
    obtain ⟨entry, listed, own, seq, touched⟩ := dated.entry m member
    rw [here] at touched
    refine ⟨entry, listed, own.trans mine, ?_, touched⟩
    by_contra upTo
    have bound := resumes.early entry listed (own.trans mine) (aboutMessages_of_touches touched)
      (Nat.le_of_not_lt upTo)
    omega
  · rintro ⟨entry, listed, own, past, touched⟩
    have latest := dated.latest m member entry listed (own.trans mine.symm) (here ▸ touched)
    have below := resumes.below
    omega

theorem Resumes.vanished_iff (resumes : Resumes log accountId mailboxId h head) (uid : Nat) :
    VanishedAfter log accountId h mailboxId uid ↔ VanishedAfter log accountId head mailboxId uid := by
  constructor
  · rintro ⟨entry, listed, mine, past, uids, modSeq, msgIds, emailIds, change, member⟩
    refine ⟨entry, listed, mine, ?_, uids, modSeq, msgIds, emailIds, change, member⟩
    by_contra upTo
    have bound := resumes.early entry listed mine (by simp [change, aboutMessages])
      (Nat.le_of_not_lt upTo)
    omega
  · rintro ⟨entry, listed, mine, past, rest⟩
    exact ⟨entry, listed, mine, Nat.lt_of_le_of_lt resumes.below past, rest⟩

theorem Resumes.mem_fetchRows (resumes : Resumes db.changelog accountId mailboxId h head)
    (dated : Dated db.messages db.changelog) (m : Message) :
    m ∈ fetchRows db accountId mailboxId h ↔ m ∈ listing db accountId mailboxId ∧
      ChangedAfter db.changelog accountId head mailboxId m.id := by
  rw [fetchRows, if_pos (Int.natCast_nonneg h), mem_filter, decide_eq_true_eq, Nat.cast_lt]
  refine and_congr_right fun listed => ?_
  obtain ⟨member, _, mine, here⟩ := mem_listing.mp listed
  exact resumes.changed_iff dated member mine here

theorem mem_withNumbers (msgs : List Message) (test : Message → Bool) (m : Message) :
    m ∈ ((withNumbers msgs).filter (fun entry => test entry.2)).map Prod.snd ↔
      m ∈ msgs ∧ test m = true := by
  have plain : (withNumbers msgs).map Prod.snd = msgs := by
    rw [withNumbers, map_map]
    exact zipIdx_map_fst 0 msgs
  rw [show (fun entry : Nat × Message => test entry.2) = test ∘ Prod.snd from rfl,
    ← filter_map, plain, mem_filter]

theorem Resumes.mem_vanished (mb : Mailbox) (msgs : List Message) (uidValidity : Nat)
    (known : String) (resumes : Resumes log accountId mb.id h head) (uid : Nat) :
    uid ∈ (qresyncReport log accountId mb msgs ⟨uidValidity, h, known⟩).1 ↔
      ∃ removed, VanishedAfter log accountId head mb.id removed ∧
        (known = "" ∨ parseUIDSet known (mb.uidNext % 2 ^ 32) (removed % 2 ^ 32) = true) ∧
        removed % 2 ^ 32 = uid := by
  simp only [qresyncReport, mem_map]
  refine exists_congr fun removed => ?_
  rw [← and_assoc]
  refine and_congr_left fun _ => ?_
  split
  · rename_i all
    rw [mem_expungedUIDsSince, resumes.vanished_iff]
    simp [all]
  · rename_i some_
    rw [mem_filter, mem_expungedUIDsSince, resumes.vanished_iff]
    simp [some_]

theorem Resumes.mem_fetched (mb : Mailbox) (resumes : Resumes db.changelog accountId mb.id h head)
    (dated : Dated db.messages db.changelog) (report : List LogRow) (uidValidity : Nat)
    (known : String) (m : Message) :
    m ∈ (qresyncReport report accountId mb (listing db accountId mb.id)
        ⟨uidValidity, h, known⟩).2.map Prod.snd ↔
      m ∈ listing db accountId mb.id ∧ ChangedAfter db.changelog accountId head mb.id m.id := by
  have kept := mem_withNumbers (listing db accountId mb.id)
    (fun m => decide ((h : Int) < m.modSeq)) m
  rw [decide_eq_true_eq, Nat.cast_lt] at kept
  refine Iff.trans kept ?_
  refine and_congr_right fun listed => ?_
  obtain ⟨member, _, mine, here⟩ := mem_listing.mp listed
  exact resumes.changed_iff dated member mine here

/-- Where the mailbox was itself changed after its messages, the position that SELECT and
STATUS report bounds the positions of its rows, and a client that comes back with it is told
exactly what changed after the command. -/
theorem highest_modseq_resumes (start snapshot later seen : Database)
    (history future meanwhile : List Label) (initial : Initial start)
    (reached : run step start history = some snapshot) (accountId : Nat)
    (account : AccountRow) (found : snapshot.account accountId = some account) (name : String)
    (mailboxId h : Nat) (reported : Reported snapshot accountId name mailboxId h)
    (settled : Settled snapshot.changelog accountId mailboxId)
    (continued : run step snapshot future = some later)
    (afterwards : run step later meanwhile = some seen) :
    (∀ m ∈ snapshot.messages, m.accountId = accountId → m.mailboxId = mailboxId → m.modSeq ≤ h) ∧
    (∀ m, m ∈ fetchRows later accountId mailboxId h ↔ m ∈ listing later accountId mailboxId ∧
      ChangedAfter later.changelog accountId account.changelogSeq mailboxId m.id) ∧
    (∀ set byUID, (cmdFetch later accountId mailboxId set byUID h).map Prod.snd =
      chosen set byUID (fetchRows later accountId mailboxId h)) ∧
    ∀ again uidValidity known answer,
      cmdSelect later seen.changelog accountId again (some ⟨uidValidity, h, known⟩) = some answer →
      answer.mailboxId = mailboxId → answer.uidValidity = uidValidity →
        (∀ uid, uid ∈ answer.vanished ↔ ∃ removed,
          VanishedAfter seen.changelog accountId account.changelogSeq mailboxId removed ∧
          (known = "" ∨ parseUIDSet known (answer.uidNext % 2 ^ 32) (removed % 2 ^ 32) = true) ∧
          removed % 2 ^ 32 = uid) ∧
        ∀ m, m ∈ answer.fetched.map Prod.snd ↔ m ∈ listing later accountId mailboxId ∧
          ChangedAfter later.changelog accountId account.changelogSeq mailboxId m.id := by
  have positioned := run_positioned initial.positioned reached
  have atLater := run_positioned positioned continued
  have resumes := run_resumes positioned
    found reported settled continued
  have together : run step snapshot (future ++ meanwhile) = some seen := by
    rw [run_append, continued]
    exact afterwards
  have resumesSeen := run_resumes positioned found reported settled together
  refine ⟨?_, resumes.mem_fetchRows atLater.messages, fun set byUID => (chosen_eq _ _ _).symm, ?_⟩
  · intro m member mine here
    obtain ⟨entry, listed, own, seq, touched⟩ := positioned.messages.entry m member
    rw [here] at touched
    rw [← seq]
    exact settled.bound positioned reported entry listed (own.trans mine)
      (aboutMessages_of_touches touched)
  · intro again uidValidity known answer ran same valid
    obtain ⟨mb, _, rfl⟩ := Option.map_eq_some_iff.mp ran
    have whole : (⟨uidValidity, h, known⟩ : QResync).uidValidity = mb.uidValidity ∧
        (0 : Int) ≤ (⟨uidValidity, h, known⟩ : QResync).modSeq :=
      ⟨valid.symm, Int.natCast_nonneg h⟩
    dsimp only at same ⊢
    subst same
    rw [if_pos whole]
    exact ⟨resumesSeen.mem_vanished mb _ uidValidity known,
      resumes.mem_fetched mb atLater.messages _ uidValidity known⟩

/-- The mailbox is renamed after a message was delivered to it. -/
def renamedLast : List Label :=
  [.request 7 plainEnv (.deliver "Work" {} ⟨10, some ("body", 10)⟩),
    .request 7 plainEnv (.rename "Work" "Done")]

/-- Another message is delivered, and the first is deleted. -/
def thenChanged : List Label :=
  [.request 7 plainEnv (.deliver "Done" {} ⟨10, some ("body", 10)⟩),
    .request 7 plainEnv (.deleteMessage "E1")]

theorem renamedLast_resumes : ∃ snapshot later answer,
    run step oneAccount renamedLast = some snapshot ∧
    run step snapshot thenChanged = some later ∧
    cmdSelect later later.changelog 7 "Done" (some ⟨1, 4, ""⟩) = some answer ∧
    answer.vanished = [1] ∧
    (∀ m ∈ snapshot.messages, m.accountId = 7 → m.mailboxId = 1 → m.modSeq ≤ 4) ∧
    ∀ m, m ∈ answer.fetched.map Prod.snd ↔
      m ∈ listing later 7 1 ∧ ChangedAfter later.changelog 7 4 1 m.id := by
  have first : (run step oneAccount renamedLast).map (fun snapshot =>
      ((snapshot.account 7).map AccountRow.changelogSeq, decide (Settled snapshot.changelog 7 1),
        (cmdSelect snapshot snapshot.changelog 7 "Done" none).map (fun answer =>
          (answer.mailboxId, answer.highestModSeq)))) = some (some 4, true, some (1, 4)) := by
    decide +kernel
  obtain ⟨snapshot, reached, observed⟩ := Option.map_eq_some_iff.mp first
  simp only [Prod.mk.injEq, decide_eq_true_eq] at observed
  obtain ⟨head, settled, reports⟩ := observed
  obtain ⟨account, found, four⟩ := Option.map_eq_some_iff.mp head
  obtain ⟨shown, ran, same⟩ := Option.map_eq_some_iff.mp reports
  obtain ⟨one, position⟩ := Prod.mk.inj same
  have reported := Reported.select snapshot.changelog none shown ran
  rw [one, position] at reported
  have second : (run step oneAccount renamedLast).bind (fun snapshot =>
      (run step snapshot thenChanged).bind (fun later =>
        (cmdSelect later later.changelog 7 "Done" (some ⟨1, 4, ""⟩)).map (fun answer =>
          (answer.mailboxId, answer.uidValidity, answer.vanished)))) = some (1, 1, [1]) := by
    decide +kernel
  rw [reached, Option.bind_some] at second
  obtain ⟨later, continued, asked⟩ := Option.bind_eq_some_iff.mp second
  obtain ⟨answer, answered, facts⟩ := Option.map_eq_some_iff.mp asked
  simp only [Prod.mk.injEq] at facts
  obtain ⟨mailbox, valid, vanished⟩ := facts
  obtain ⟨bounded, _, _, told⟩ := highest_modseq_resumes oneAccount snapshot later later renamedLast
    thenChanged [] oneAccount_initial reached 7 account found "Done" 1 4 reported settled continued rfl
  rw [four] at told
  exact ⟨snapshot, later, answer, reached, continued, answered, vanished, bounded,
    (told "Done" 1 "" answer answered mailbox valid).2⟩

/-- A message is delivered to a new mailbox. -/
def deliveredLast : List Label :=
  [.request 7 plainEnv (.deliver "Work" {} ⟨10, some ("body", 10)⟩)]

/-- The mailbox reports the position of its creation, below that of the message, and a
client that asks for what changed since is told of a message it had seen. -/
theorem deliveredLast_not_bounded : Initial oneAccount ∧ ∃ snapshot answer m,
    run step oneAccount deliveredLast = some snapshot ∧
    cmdSelect snapshot snapshot.changelog 7 "Work" none = some answer ∧
    (cmdStatus snapshot 7 "Work" [.highestModSeq]).map Prod.snd = some [(.highestModSeq, 1)] ∧
    answer.highestModSeq = 1 ∧ snapshot.messages = [m] ∧ m.accountId = 7 ∧
    m.mailboxId = answer.mailboxId ∧ m.modSeq = 3 ∧
    fetchRows snapshot 7 answer.mailboxId answer.highestModSeq = [m] := by
  have ended : (run step oneAccount deliveredLast).bind (fun snapshot =>
      (cmdSelect snapshot snapshot.changelog 7 "Work" none).bind (fun answer =>
        (snapshot.messages.head?).map (fun m => decide (
          (cmdStatus snapshot 7 "Work" [.highestModSeq]).map Prod.snd = some [(.highestModSeq, 1)] ∧
            answer.highestModSeq = 1 ∧ snapshot.messages = [m] ∧ m.accountId = 7 ∧
            m.mailboxId = answer.mailboxId ∧ m.modSeq = 3 ∧
            fetchRows snapshot 7 answer.mailboxId answer.highestModSeq = [m])))) =
      some true := by decide +kernel
  obtain ⟨snapshot, reached, asked⟩ := Option.bind_eq_some_iff.mp ended
  obtain ⟨answer, answered, first⟩ := Option.bind_eq_some_iff.mp asked
  obtain ⟨m, _, facts⟩ := Option.map_eq_some_iff.mp first
  exact ⟨oneAccount_initial, snapshot, answer, m, reached, answered, of_decide_eq_true facts⟩

end OctoMail.Account
