import OctoMail.Queue.Rows

/-!
# The life of one queued message

What the tables hold about one queue id, and the moves that life admits: it begins
once, is noted and changed while its row lives, may still be noted afterwards, and
ends once. Nothing here knows of workers, leases or administrators. The claims
about final outcomes are facts about these moves; that every transaction of the
queue is one of them, for every id, is proved where the system is.
-/

namespace OctoMail.Queue

/-- The row, the facts of the log in order, and the outbound row of each account. -/
structure Life where
  row : Option Row
  facts : List Fact
  outbound : Nat → Option Outbound

def Db.life (db : Db) (id : Nat) : Life where
  row := db.queue id
  facts := (db.log.filter (fun entry => entry.queueId = id)).map LogEntry.fact
  outbound := fun account => db.outbound account id

namespace Life

def unborn : Life := ⟨none, [], fun _ => none⟩

/-- Each outbound row is left alone or changed by `change`. -/
def Shown (change : Outbound → Outbound) (before after : Nat → Option Outbound) : Prop :=
  ∀ account, after account = before account ∨ after account = (before account).map change

/-- The moves of one message; `begins` says that its id is handed out. -/
inductive Step (begins : Prop) (life next : Life) : Prop
  | stay (same : next = life)
  | insert (new : begins) (row : Row) (fact : Fact) (vacant : life = unborn)
      (live : next.row = some row) (facts : next.facts = [fact]) (open_ : fact.terminal = false)
      (queued : ∀ account o, next.outbound account = some o → o.status.terminal = false)
  /-- A live row is replaced; no status becomes final. -/
  | change (before after : Row) (more : List Fact) (f : Outbound → Outbound)
      (was : life.row = some before) (live : next.row = some after)
      (facts : next.facts = life.facts ++ more) (open_ : ∀ fact ∈ more, fact.terminal = false)
      (unsettled : ∀ o, (f o).status.terminal = false)
      (shows : Shown f life.outbound next.outbound)
  /-- A fact is noted whether or not the row lives; no status changes. -/
  | note (fact : Fact) (f : Outbound → Outbound) (known : life.facts ≠ [])
      (row : next.row = life.row) (facts : next.facts = life.facts ++ [fact])
      (open_ : fact.terminal = false) (kept : ∀ o, (f o).status = o.status)
      (shows : Shown f life.outbound next.outbound)
  | remove (row : Row) (fact : Fact) (f : Outbound → Outbound) (was : life.row = some row)
      (gone : next.row = none) (facts : next.facts = life.facts ++ [fact])
      (final : fact.terminal = true) (shows : Shown f life.outbound next.outbound)

/-- The terminal facts, in order. -/
def ends (life : Life) : List Fact := life.facts.filter Fact.terminal

/-- A message without facts has no row. Otherwise it has a row and no terminal
fact, or no row and exactly one. A status is final only after the row is gone. -/
structure Sound (life : Life) : Prop where
  unborn : life.facts = [] → life = Life.unborn
  alive : life.row ≠ none → life.facts ≠ [] ∧ life.ends = []
  gone : life.row = none → life.facts ≠ [] → ∃ fact, life.ends = [fact]
  final : ∀ account o, life.outbound account = some o → o.status.terminal = true → life.row = none

theorem unborn_sound : Life.unborn.Sound := by
  refine ⟨fun _ => rfl, fun alive => absurd rfl alive, fun _ known => absurd rfl known, ?_⟩
  intro account o found
  cases found

/-- An outbound row after a move comes from one before it. -/
theorem shown_some {f : Outbound → Outbound} {before after : Nat → Option Outbound}
    (shows : Shown f before after) {account : Nat} {o : Outbound} (found : after account = some o) :
    before account = some o ∨ ∃ old, before account = some old ∧ o = f old := by
  rcases shows account with same | changed
  · exact .inl (same ▸ found)
  · rw [changed] at found
    obtain ⟨old, known, new⟩ := Option.map_eq_some_iff.mp found
    exact .inr ⟨old, known, new.symm⟩

/-- Facts that end nothing leave the terminal facts as they are. -/
theorem ends_append {life next : Life} {more : List Fact} (facts : next.facts = life.facts ++ more)
    (open_ : ∀ fact ∈ more, fact.terminal = false) : next.ends = life.ends := by
  have none_ : more.filter Fact.terminal = [] := by
    simpa [List.filter_eq_nil_iff] using open_
  simp [ends, facts, List.filter_append, none_]

/-- Every move keeps the shape of a life. -/
theorem step_sound (begins : Prop) (life next : Life) (moved : Step begins life next)
    (sound : life.Sound) : next.Sound := by
  cases moved with
  | stay same => exact same ▸ sound
  | insert _ _ _ _ live facts open_ queued =>
    refine ⟨by simp [facts], fun _ => ⟨by simp [facts], by simp [ends, facts, open_]⟩,
      by simp [live], ?_⟩
    intro account o found final
    simp [queued account o found] at final
  | change _ _ _ _ was live facts open_ unsettled shows =>
    obtain ⟨known, none_⟩ := sound.alive (by simp [was])
    refine ⟨by simp [facts, known], fun _ => ⟨by simp [facts, known], ?_⟩, by simp [live], ?_⟩
    · rw [ends_append facts open_]
      exact none_
    · intro account o found final
      rcases shown_some shows found with same | ⟨old, _, rfl⟩
      · have dead := sound.final account o same final
        simp [was] at dead
      · simp [unsettled old] at final
  | note _ _ known row facts open_ kept shows =>
    have same := ends_append facts (by simpa using open_)
    refine ⟨by simp [facts], ?_, ?_, ?_⟩
    · intro live
      exact ⟨by simp [facts], same ▸ (sound.alive (row ▸ live)).2⟩
    · intro dead _
      exact same ▸ sound.gone (row ▸ dead) known
    · intro account o found final
      rw [row]
      rcases shown_some shows found with same | ⟨old, stored, rfl⟩
      · exact sound.final account o same final
      · exact sound.final account old stored (kept old ▸ final)
  | remove _ fact _ was gone facts final =>
    obtain ⟨known, none_⟩ := sound.alive (by simp [was])
    refine ⟨by simp [facts], by simp [gone], fun _ _ => ⟨fact, ?_⟩, fun _ _ _ _ => gone⟩
    have before : life.facts.filter Fact.terminal = [] := none_
    simp [ends, facts, List.filter_append, before, final]

/-- Facts are only added, a dead row stays dead, and a final status stays. -/
structure Keeps (before after : Life) : Prop where
  grown : before.facts <+: after.facts
  dead : before.facts ≠ [] → before.row = none → after.row = none
  status : ∀ account o, before.outbound account = some o → o.status.terminal = true →
    ∃ o', after.outbound account = some o' ∧ o'.status = o.status

theorem keeps_refl (life : Life) : life.Keeps life :=
  ⟨List.prefix_rfl, fun _ dead => dead, fun _ o found _ => ⟨o, found, rfl⟩⟩

theorem keeps_trans {first second third : Life} (early : first.Keeps second)
    (late : second.Keeps third) : first.Keeps third := by
  refine ⟨early.grown.trans late.grown, ?_, ?_⟩
  · intro known dead
    refine late.dead (fun empty => known ?_) (early.dead known dead)
    exact List.prefix_nil.mp (empty ▸ early.grown)
  · intro account o found final
    obtain ⟨middle, kept, same⟩ := early.status account o found final
    obtain ⟨last, stored, equal⟩ := late.status account middle kept (same ▸ final)
    exact ⟨last, stored, equal.trans same⟩

/-- No move revives a message or rewrites its final status: a final status means
the row is gone, and a message without a row is only ever noted. -/
theorem step_keeps {begins : Prop} {life next : Life} (moved : Step begins life next)
    (sound : life.Sound) : life.Keeps next := by
  cases moved with
  | stay same => exact same ▸ keeps_refl life
  | insert _ _ _ vacant =>
    subst vacant
    refine ⟨List.nil_prefix, fun known => absurd rfl known, ?_⟩
    intro account o found
    cases found
  | change _ _ _ _ was _ facts =>
    refine ⟨facts ▸ List.prefix_append _ _, fun _ dead => absurd dead (by simp [was]), ?_⟩
    intro account o found final
    exact absurd (sound.final account o found final) (by simp [was])
  | note _ f _ row facts _ kept shows =>
    refine ⟨facts ▸ List.prefix_append _ _, fun _ dead => row.trans dead, ?_⟩
    intro account o found final
    rcases shows account with same | changed
    · exact ⟨o, same.trans found, rfl⟩
    · exact ⟨f o, by rw [changed, found, Option.map_some], kept o⟩
  | remove _ _ _ was gone facts final =>
    refine ⟨facts ▸ List.prefix_append _ _, fun _ _ => gone, ?_⟩
    intro account o found settled
    exact absurd (sound.final account o found settled) (by simp [was])

/-- A message whose id is not handed out does not begin. -/
theorem step_unborn {begins : Prop} {next : Life} (moved : Step begins Life.unborn next)
    (later : ¬ begins) : next = Life.unborn := by
  cases moved with
  | stay same => exact same
  | insert new => exact absurd new later
  | change _ _ _ _ was => cases was
  | note _ _ known => exact absurd rfl known
  | remove _ _ _ was => cases was

end Life

end OctoMail.Queue
