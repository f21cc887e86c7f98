import OctoMail.Queue.Simulation

/-!
# At most one final outcome per message

Every step of the system is a move of every message, so each life keeps its shape:
one terminal fact at most, present exactly when the row is gone, and a final
outbound status that stays. The OnFailed hooks are tied to the lives by ownership:
whoever removed the row as failed is the only party that may start the hook, and
removes its right to do so with the start.
-/

namespace OctoMail.Queue

open List
open Transition (always relation run)

/-- The messages a worker still holds. -/
def Position.msgs : Position → List Msg
  | .batch rest => rest
  | .delivering m rest => m :: rest
  | .returned m _ rest => m :: rest
  | .recorded m _ rest => m :: rest
  | .bouncing m rest => m :: rest
  | .warning m rest => m :: rest

def Position.bounces : Position → Option Nat
  | .bouncing m _ => some m.id
  | _ => none

def FailCall.bounces : FailCall → Option Nat
  | .bouncing m _ => some m.id
  | .loop _ => none

/-- The id whose OnFailed hook the worker, or the Fail call, is about to start. -/
def State.bounces (s : State) : String ⊕ Nat → Option Nat
  | .inl node => (s.workers node).bounces
  | .inr call => (s.calls call).bounces

/-- A failure is recorded as the message's outcome. -/
def Db.failed (db : Db) (id : Nat) : Prop := ∃ fact ∈ db.facts id, fact.isFailed = true

/-- The lives are sound, an id is inserted when it has facts, and workers hold only
messages that have facts. -/
structure Lives (s : State) : Prop where
  sound : ∀ id, (s.db.life id).Sound
  born : ∀ id, s.inserted id = none ↔ s.db.facts id = []
  known : ∀ node, ∀ m ∈ (s.workers node).msgs, s.db.facts m.id ≠ []

/-- The right to start a hook comes with a recorded failure, belongs to one party,
and is used once. -/
structure Hooks (s : State) : Prop where
  owed : ∀ owner id, s.bounces owner = some id → s.db.failed id ∧ id ∉ s.started
  owner : ∀ first second id, s.bounces first = some id → s.bounces second = some id →
    first = second
  started : ∀ id ∈ s.started, s.db.failed id
  once : s.started.Nodup

theorem initial_lives : Lives initial := by
  refine ⟨fun _ => Life.unborn_sound, fun _ => by simp [initial, Db.facts], ?_⟩
  intro node m held
  cases held

theorem initial_hooks : Hooks initial := by
  constructor
  · rintro (node | call) id bounces <;> cases bounces
  · rintro (node | call) second id bounces <;> cases bounces
  · intro id started
    cases started
  · exact nodup_nil

@[simp] theorem setWorker_db (s : State) (node : String) (position : Position) :
    (s.setWorker node position).db = s.db := rfl

@[simp] theorem setCall_db (s : State) (call : Nat) (position : FailCall) :
    (s.setCall call position).db = s.db := rfl

theorem setWorker_workers (s : State) (node other : String) (position : Position) :
    (s.setWorker node position).workers other =
      if other = node then position else s.workers other := by
  simp [State.setWorker, Function.update_apply]

theorem setCall_calls (s : State) (call other : Nat) (position : FailCall) :
    (s.setCall call position).calls other =
      if other = call then position else s.calls other := by
  simp [State.setCall, Function.update_apply]

variable {label : Label} {s t : State} {id : Nat}

/-- The step is a move of every message. -/
theorem moved_life (moved : Moved s label t) (lives : Lives s) (id : Nat) :
    Life.Step (s.inserted id = none ∧ t.inserted id ≠ none) (s.db.life id) (t.db.life id) := by
  cases moved with
  | enqueue new m hold maxAttempts now vacant =>
    have unborn : s.db.life new = Life.unborn :=
      (lives.sound new).unborn ((lives.born new).mp vacant)
    refine enqueueTx_life s.db new m hold maxAttempts now unborn id ?_
    rintro rfl
    obtain ⟨row, queue, _⟩ := enqueueTx_row s.db id m hold maxAttempts now
    exact ⟨vacant, by simp [queue]⟩
  | claim => exact claimTx_life s.db id
  | renew _ _ renewed | start _ _ _ renewed =>
    obtain ⟨row, found, _, _, about⟩ := renewLeaseTx_spec renewed
    exact about_change about found (by simp) (fun _ => rfl) id
  | record node m a at_ =>
    have known := lives.known node m (by simp [at_, Position.msgs])
    exact about_note (recordResultTx_spec s.db m a _) known rfl (fun _ => rfl) id
  | deliver _ _ retired | giveUp _ _ _ retired =>
    obtain ⟨leased, about⟩ := retireTx_spec retired
    obtain ⟨row, found, _⟩ := (leases_iff s.db _ _).mp leased
    exact about_remove about (by simp [found]) rfl id
  | backOff _ _ released =>
    obtain ⟨row, found, _, about⟩ := rescheduleTx_spec released
    refine about_change about found ?_ (fun _ => rfl) id
    split <;> simp [Fact.terminal]
  | admin _ _ unique => exact mutateLog_life s.db unique id
  | failDelete _ _ _ removed =>
    obtain ⟨live, about⟩ := failTx_spec removed
    exact about_remove about live rfl id
  | bounce | alone | failHook | failAlone => exact .stay rfl

/-- A worker's messages are ones it held or, after a claim, ones with a row. -/
theorem moved_held (moved : Moved s label t) {node : String}
    {m : Msg} (held : m ∈ (t.workers node).msgs) :
    (∃ old ∈ (s.workers node).msgs, old.id = m.id) ∨ s.db.queue m.id ≠ none := by
  have kept : ∀ (who : String) (position : Position),
      (∀ m ∈ position.msgs, ∃ old ∈ (s.workers who).msgs, old.id = m.id) →
      m ∈ (if node = who then position else s.workers node).msgs →
      ∃ old ∈ (s.workers node).msgs, old.id = m.id := by
    intro who position from_ inside
    split at inside
    · rename_i same
      subst same
      exact from_ m inside
    · exact ⟨m, inside, rfl⟩
  -- Most steps leave the worker its batch, or what comes behind the message they are about.
  have behind {who : String} {position : Position} {current : Msg} {rest : List Msg}
      (at_ : (s.workers who).msgs = current :: rest)
      (then_ : position.msgs = rest ∨ position.msgs = current :: rest)
      (inside : m ∈ (if node = who then position else s.workers node).msgs) :
      ∃ old ∈ (s.workers node).msgs, old.id = m.id := by
    refine kept who position (fun other member => ⟨other, ?_, rfl⟩) inside
    rw [at_]
    rcases then_ with same | same
    · exact mem_cons_of_mem _ (same ▸ member)
    · exact same ▸ member
  cases moved with
  | claim _ ids _ _ _ got =>
    rw [setWorker_workers] at held
    split at held
    · rcases got with rfl | rfl
      · cases held
      · obtain ⟨id, _, row, found, rfl⟩ := (mem_returning s.db ids m).mp held
        exact .inr (by simp [Row.msg, found])
    · exact .inl ⟨m, held, rfl⟩
  | enqueue | admin | failDelete | failHook | failAlone => exact .inl ⟨m, held, rfl⟩
  | renew _ at_ | deliver _ at_ | bounce _ _ at_ =>
    rw [setWorker_workers] at held
    exact .inl (behind (congrArg Position.msgs at_) (.inl rfl) held)
  | start who current at_ =>
    rw [setWorker_workers] at held
    refine .inl (kept who _ (fun other inside => ?_) held)
    rcases mem_cons.mp inside with rfl | later
    · exact ⟨current, by simp [at_, Position.msgs], rfl⟩
    · exact ⟨other, by simp [at_, Position.msgs, later], rfl⟩
  | record _ _ _ at_ =>
    rw [setWorker_workers] at held
    exact .inl (behind (congrArg Position.msgs at_) (.inr rfl) held)
  | giveUp _ _ at_ _ then_ | backOff _ at_ _ then_ =>
    rw [setWorker_workers] at held
    exact .inl (behind (congrArg Position.msgs at_)
      (then_.imp (congrArg Position.msgs) (congrArg Position.msgs)) held)
  | alone who next =>
    rw [setWorker_workers] at held
    refine .inl (kept who _ (fun other inside => ⟨other, ?_, rfl⟩) held)
    generalize s.workers who = before at next
    cases next with
    | skip => exact mem_cons_of_mem _ inside
    | return_ | record => exact inside
    | settle | warned => exact mem_cons_of_mem _ inside
    | stop => cases inside

/-- An id that is not handed out was not before. -/
theorem moved_inserted (moved : Moved s label t)
    (absent : t.inserted id = none) : s.inserted id = none := by
  cases moved with
  | enqueue new _ _ _ _ vacant =>
    by_cases same : id = new
    · exact same ▸ vacant
    · simpa [same] using absent
  | _ => exact absent

/-- An id is handed out together with its first fact. -/
theorem moved_silent (moved : Moved s label t)
    (silent : t.db.facts id = []) (before : s.inserted id = none) : t.inserted id = none := by
  cases moved with
  | enqueue new =>
    by_cases same : id = new
    · rw [Db.enqueueTx, appendLog_facts] at silent
      simp [same] at silent
    · simpa [same] using before
  | _ => exact before

/-- Facts are never taken back. -/
theorem facts_kept {before after : Db}
    (keeps : (before.life id).Keeps (after.life id)) (known : before.facts id ≠ []) :
    after.facts id ≠ [] := fun empty => known (prefix_nil.mp (empty ▸ keeps.grown))

theorem moved_lives (moved : Moved s label t) (lives : Lives s) : Lives t := by
  have steps := moved_life moved lives
  have keeps : ∀ id, (s.db.life id).Keeps (t.db.life id) := fun id =>
    Life.step_keeps (steps id) (lives.sound id)
  refine ⟨fun id => Life.step_sound _ _ _ (steps id) (lives.sound id), ?_, ?_⟩
  · intro id
    constructor
    · intro absent
      have before : s.inserted id = none := moved_inserted moved absent
      have unborn : s.db.life id = Life.unborn :=
        (lives.sound id).unborn ((lives.born id).mp before)
      have still := Life.step_unborn (unborn ▸ steps id) (fun new => new.2 absent)
      exact congrArg Life.facts still
    · intro silent
      have before : s.inserted id = none := by
        by_contra earlier
        exact facts_kept (keeps id) (fun empty => earlier ((lives.born id).mpr empty))
          silent
      exact moved_silent moved silent before
  · intro node m held
    refine facts_kept (keeps m.id) ?_
    rcases moved_held moved held with ⟨old, inside, same⟩ | live
    · exact same ▸ lives.known node old inside
    · exact ((lives.sound m.id).alive live).1

/-- A recorded failure stays recorded. -/
theorem failed_kept {before after : Db} (keeps : (before.life id).Keeps (after.life id))
    (failed : before.failed id) : after.failed id := by
  obtain ⟨fact, member, kind⟩ := failed
  exact ⟨fact, keeps.grown.subset member, kind⟩

variable {db : Db}

/-- A message with a row has not failed. -/
theorem alive_not_failed (sound : (db.life id).Sound)
    (live : db.queue id ≠ none) : ¬ db.failed id := by
  rintro ⟨fact, member, kind⟩
  have final : fact.terminal = true := by
    cases fact <;> first | rfl | cases kind
  have ended : fact ∈ (db.life id).ends := mem_filter.mpr ⟨member, final⟩
  rw [(sound.alive live).2] at ended
  cases ended

/-- No party gains a right and no hook starts. -/
theorem hooks_quiet (hooks : Hooks s) (started : t.started = s.started)
    (keeps : ∀ id, (s.db.life id).Keeps (t.db.life id))
    (fewer : ∀ owner id, t.bounces owner = some id → s.bounces owner = some id) : Hooks t := by
  refine ⟨?_, ?_, ?_, started ▸ hooks.once⟩
  · intro owner id bounces
    obtain ⟨failed, waiting⟩ := hooks.owed owner id (fewer owner id bounces)
    exact ⟨failed_kept (keeps id) failed, started ▸ waiting⟩
  · intro first second id one two
    exact hooks.owner first second id (fewer first id one) (fewer second id two)
  · intro id member
    exact failed_kept (keeps id) (hooks.started id (started ▸ member))

/-- The party that removes a live row as failed gains the right: nobody had it. -/
theorem hooks_gain (s : State) {t : State} (hooks : Hooks s) (owner : String ⊕ Nat) (id : Nat)
    (sound : (s.db.life id).Sound) (live : s.db.queue id ≠ none) (failed : t.db.failed id)
    (started : t.started = s.started) (keeps : ∀ id, (s.db.life id).Keeps (t.db.life id))
    (others : ∀ other, other ≠ owner → t.bounces other = s.bounces other)
    (mine : t.bounces owner = some id) : Hooks t := by
  have nobody : ∀ other, s.bounces other ≠ some id := fun other bounces =>
    alive_not_failed sound live (hooks.owed other id bounces).1
  have waiting : id ∉ s.started := fun member =>
    alive_not_failed sound live (hooks.started id member)
  refine ⟨?_, ?_, ?_, started ▸ hooks.once⟩
  · intro other which bounces
    by_cases same : other = owner
    · subst same
      cases Option.some.inj (mine.symm.trans bounces)
      exact ⟨failed, started ▸ waiting⟩
    · rw [others other same] at bounces
      obtain ⟨earlier, unstarted⟩ := hooks.owed other which bounces
      exact ⟨failed_kept (keeps which) earlier, started ▸ unstarted⟩
  · intro first second which one two
    by_cases firstSame : first = owner <;> by_cases secondSame : second = owner
    · exact firstSame.trans secondSame.symm
    · subst firstSame
      cases Option.some.inj (mine.symm.trans one)
      exact absurd (others second secondSame ▸ two) (nobody second)
    · subst secondSame
      cases Option.some.inj (mine.symm.trans two)
      exact absurd (others first firstSame ▸ one) (nobody first)
    · exact hooks.owner first second which (others first firstSame ▸ one)
        (others second secondSame ▸ two)
  · intro which member
    exact failed_kept (keeps which) (hooks.started which (started ▸ member))

/-- Starting the hook uses the right up. -/
theorem hooks_start (s : State) {t : State} (hooks : Hooks s) (owner : String ⊕ Nat) (id : Nat)
    (had : s.bounces owner = some id) (started : t.started = s.started ++ [id])
    (same : t.db = s.db) (others : ∀ other, other ≠ owner → t.bounces other = s.bounces other)
    (used : t.bounces owner = none) : Hooks t := by
  obtain ⟨failed, waiting⟩ := hooks.owed owner id had
  have before : ∀ other which, t.bounces other = some which →
      s.bounces other = some which ∧ which ≠ id := by
    intro other which bounces
    have different : other ≠ owner := by
      rintro rfl
      simp [used] at bounces
    rw [others other different] at bounces
    refine ⟨bounces, ?_⟩
    rintro rfl
    exact different (hooks.owner other owner which bounces had)
  refine ⟨?_, ?_, ?_, ?_⟩
  · intro other which bounces
    obtain ⟨earlier, apart⟩ := before other which bounces
    obtain ⟨recorded, unstarted⟩ := hooks.owed other which earlier
    refine ⟨same ▸ recorded, ?_⟩
    simp [started, unstarted, apart]
  · intro first second which one two
    exact hooks.owner first second which (before first which one).1 (before second which two).1
  · intro which member
    rw [started, mem_append, mem_singleton] at member
    rw [same]
    rcases member with earlier | rfl
    · exact hooks.started which earlier
    · exact failed
  · rw [started]
    exact nodup_append.mpr ⟨hooks.once, by simp, by
      intro first member second now_ equal
      rw [mem_singleton] at now_
      exact waiting (now_ ▸ equal ▸ member)⟩

theorem setWorker_bounces (s : State) (node : String) (position : Position) (owner : String ⊕ Nat) :
    (s.setWorker node position).bounces owner =
      if owner = .inl node then position.bounces else s.bounces owner := by
  cases owner with
  | inl who =>
    by_cases same : who = node <;> simp [State.bounces, setWorker_workers, same]
  | inr call => rfl

theorem setCall_bounces (s : State) (call : Nat) (position : FailCall) (owner : String ⊕ Nat) :
    (s.setCall call position).bounces owner =
      if owner = .inr call then position.bounces else s.bounces owner := by
  cases owner with
  | inl node => rfl
  | inr which =>
    by_cases same : which = call <;> simp [State.bounces, setCall_calls, same]

/-- A worker that moves to a position without a right leaves the rights of others. -/
theorem hooks_setWorker (s : State) (delivers : List (String × Nat)) (node : String)
    {position : Position} (hooks : Hooks s) (none_ : position.bounces = none)
    (keeps : ∀ id, (s.db.life id).Keeps (db.life id)) :
    Hooks ({ s with db := db, delivers := delivers }.setWorker node position) := by
  refine hooks_quiet hooks rfl keeps ?_
  intro owner id bounces
  rw [setWorker_bounces] at bounces
  split at bounces
  · simp [none_] at bounces
  · exact bounces

theorem hooks_setCall (s : State) (call : Nat) (rest : List Msg) (hooks : Hooks s)
    (keeps : ∀ id, (s.db.life id).Keeps (db.life id)) :
    Hooks ({ s with db := db }.setCall call (.loop rest)) := by
  refine hooks_quiet hooks rfl keeps ?_
  intro owner id bounces
  rw [setCall_bounces] at bounces
  split at bounces
  · cases bounces
  · exact bounces

/-- The terminal fact of a removal is the message's own. -/
theorem about_failed (m : Msg) (attempts : Nat) (admin : Bool) {change : Outbound → Outbound}
    (db next : Db) (about : About m none [.failed attempts admin] change db next) :
    next.failed m.id :=
  ⟨.failed attempts admin, by simp [about.facts], rfl⟩

theorem moved_hooks (moved : Moved s label t) (lives : Lives s) (hooks : Hooks s) : Hooks t := by
  have keeps : ∀ id, (s.db.life id).Keeps (t.db.life id) := fun id =>
    Life.step_keeps (moved_life moved lives id) (lives.sound id)
  cases moved with
  | enqueue | admin =>
    exact hooks_quiet hooks rfl keeps (fun _ _ bounces => bounces)
  | claim node | renew node | record node | deliver node =>
    exact hooks_setWorker s s.delivers node hooks rfl keeps
  | start node =>
    exact hooks_setWorker s _ node hooks rfl keeps
  | giveUp node m _ retired then_ =>
    rcases then_ with rfl | rfl
    · exact hooks_setWorker s s.delivers node hooks rfl keeps
    · obtain ⟨leased, about⟩ := retireTx_spec retired
      obtain ⟨row, found, _⟩ := (leases_iff s.db node m.id).mp leased
      refine hooks_gain s hooks (.inl node) m.id (lives.sound m.id) (by simp [found])
        (about_failed m m.attempts false s.db _ about) rfl keeps ?_ ?_
      · intro other different
        rw [setWorker_bounces, if_neg different]
        rfl
      · simp [setWorker_bounces, Position.bounces]
  | backOff node _ _ then_ =>
    rcases then_ with rfl | rfl <;> exact hooks_setWorker s s.delivers node hooks rfl keeps
  | bounce node m at_ =>
    refine hooks_start s hooks (.inl node) m.id ?_ rfl rfl ?_ ?_
    · simp [State.bounces, at_, Position.bounces]
    · intro other different
      rw [setWorker_bounces, if_neg different]
      rfl
    · simp [setWorker_bounces, Position.bounces]
  | alone node next =>
    refine hooks_setWorker s s.delivers node hooks ?_ keeps
    generalize s.workers node = before at next
    cases next <;> rfl
  | failDelete call m _ removed then_ =>
    rcases then_ with rfl | rfl
    · exact hooks_setCall s call _ hooks keeps
    · obtain ⟨live, about⟩ := failTx_spec removed
      refine hooks_gain s hooks (.inr call) m.id (lives.sound m.id) live
        (about_failed m m.attempts true s.db _ about) rfl keeps ?_ ?_
      · intro other different
        rw [setCall_bounces, if_neg different]
        rfl
      · simp [setCall_bounces, FailCall.bounces]
  | failHook call m at_ =>
    refine hooks_start s hooks (.inr call) m.id ?_ rfl rfl ?_ ?_
    · simp [State.bounces, at_, FailCall.bounces]
    · intro other different
      rw [setCall_bounces, if_neg different]
      rfl
    · simp [setCall_bounces, FailCall.bounces]
  | failAlone call => exact hooks_setCall s call _ hooks keeps

/-- The terminal entries of the log about one id. -/
def Db.terminals (db : Db) (id : Nat) : List Fact := (db.facts id).filter Fact.terminal

/-- Each id has at most one terminal entry, exactly when its row is gone, and its
OnFailed hook has started at most once and only where that entry is a failure. -/
structure Settled (s : State) : Prop where
  once : ∀ id, (s.db.terminals id).length ≤ 1
  gone : ∀ id, s.inserted id ≠ none → (s.db.terminals id ≠ [] ↔ s.db.queue id = none)
  hookOnce : ∀ id, s.started.count id ≤ 1
  hookFailed : ∀ id ∈ s.started, ∃ fact, s.db.terminals id = [fact] ∧ fact.isFailed = true

/-- A row that is gone stays gone, and a final outbound status stays. -/
structure Stays (s t : State) : Prop where
  row : ∀ id, s.inserted id ≠ none → s.db.queue id = none → t.db.queue id = none
  status : ∀ account id o, s.db.outbound account id = some o → o.status.terminal = true →
    ∃ o', t.db.outbound account id = some o' ∧ o'.status = o.status

theorem settled_of_lives (s : State) (lives : Lives s) (hooks : Hooks s) : Settled s := by
  have dead : ∀ id, s.inserted id ≠ none → s.db.queue id = none →
      ∃ fact, s.db.terminals id = [fact] := fun id known gone =>
    (lives.sound id).gone gone (fun silent => known ((lives.born id).mpr silent))
  have live : ∀ id, s.db.queue id ≠ none → s.db.terminals id = [] := fun id alive =>
    ((lives.sound id).alive alive).2
  refine ⟨?_, ?_, ?_, ?_⟩
  · intro id
    by_cases known : s.inserted id = none
    · simp [Db.terminals, (lives.born id).mp known]
    · by_cases gone : s.db.queue id = none
      · obtain ⟨fact, one⟩ := dead id known gone
        simp [one]
      · simp [live id gone]
  · intro id known
    constructor
    · intro ended
      by_contra alive
      exact ended (live id alive)
    · intro gone
      obtain ⟨fact, one⟩ := dead id known gone
      simp [one]
  · intro id
    exact nodup_iff_count.mp hooks.once id
  · intro id started
    obtain ⟨fact, member, kind⟩ := hooks.started id started
    have gone : s.db.queue id = none := by
      by_contra alive
      exact alive_not_failed (lives.sound id) alive ⟨fact, member, kind⟩
    have known : s.inserted id ≠ none := fun absent =>
      ne_nil_of_mem member ((lives.born id).mp absent)
    obtain ⟨only, one⟩ := dead id known gone
    have final : fact.terminal = true := by
      cases fact <;> first | rfl | cases kind
    have inside : fact ∈ s.db.terminals id := mem_filter.mpr ⟨member, final⟩
    rw [one, mem_singleton] at inside
    exact ⟨only, one, inside ▸ kind⟩

/-- The invariant of a run, kept by every step. -/
theorem step_lives {settings : String → Worker}
    (inv : Lives s ∧ Hooks s) (moved : step settings s label = some t) : Lives t ∧ Hooks t :=
  have moves := step_moved moved
  ⟨moved_lives moves inv.1, moved_hooks moves inv.1 inv.2⟩

/-- In every run, from any state reached on: at most one terminal entry per id,
present exactly when the row is gone, never a second life, no change of a final
outbound status, and at most one OnFailed hook, for failures only. -/
theorem one_final_outcome (settings : String → Worker) (s t : State) (first second : List Label)
    (reached : run (step settings) initial first = some s)
    (continued : run (step settings) s second = some t) : Settled s ∧ Stays s t := by
  have inv : Lives s ∧ Hooks s := always (fun s => Lives s ∧ Hooks s) step_lives
    ⟨initial_lives, initial_hooks⟩ reached
  have keeps : ∀ id, (s.db.life id).Keeps (t.db.life id) :=
    relation (fun s => Lives s ∧ Hooks s)
      (fun s t => ∀ id, (s.db.life id).Keeps (t.db.life id))
      (fun _ _ => Life.keeps_refl _) (fun early late id => Life.keeps_trans (early id) (late id))
      step_lives (fun before moved id => Life.step_keeps
        (moved_life (step_moved moved) before.1 id) (before.1.sound id)) inv continued
  refine ⟨settled_of_lives s inv.1 inv.2, ?_, ?_⟩
  · intro id known gone
    exact (keeps id).dead (fun silent => known ((inv.1.born id).mpr silent)) gone
  · intro account id o found final
    exact (keeps id).status account o found final

/-- A linked message to one recipient. -/
def sample : Msg where
  id := 0
  tenantId := 1
  accountId := 7
  messageId := 5
  mailFrom := "a@example.org"
  rcptTo := "b@example.net"
  blobRef := "body"
  size := 100
  attempts := 0
  maxAttempts := 0
  notBefore := none
  createdAt := none

/-- Default settings with a bounce hook. -/
def defaults : Worker := ⟨0, 0, 0, 0, 0, 0, 0, true, false⟩

def rejected : Attempt := ⟨0, 1, some ⟨"550 no such user", some (550, "5.1.1"), some true, none⟩⟩

/-- Worker A renews, loses its lease to B while delivering, and both report. B fails
the message for good and bounces; A's own attempt to retire finds no row. -/
def overtaken : List Label :=
  [.enqueue 1 sample false 10 0, .claim "A" [1] .committed 0, .renewLease "A" .committed 0,
    .claim "B" [1] .committed (31 * second), .renewLease "B" .committed (31 * second),
    .deliver "B" rejected, .recordResult "B" .committed (32 * second),
    .reschedule "B" .committed (32 * second) (32 * second) 0, .onFailed "B"]

def overtakenLate : List Label :=
  [.deliver "A" ⟨0, 40 * second, none⟩, .recordResult "A" .committed (40 * second),
    .retire "A" .committed (40 * second) (40 * second)]

theorem overtaken_one_outcome :
    ∃ s t, run (step fun _ => defaults) initial overtaken = some s ∧
      run (step fun _ => defaults) s overtakenLate = some t ∧
      s.db.terminals 1 = [.failed 2 false] ∧ s.started = [1] ∧ Settled s ∧ Stays s t := by
  have first : (run (step fun _ => defaults) initial overtaken).map
      (fun s => (s.db.terminals 1, s.started,
        (run (step fun _ => defaults) s overtakenLate).isSome)) =
      some ([.failed 2 false], [1], true) := by decide
  obtain ⟨s, reached, seen⟩ := Option.map_eq_some_iff.mp first
  simp only [Prod.mk.injEq] at seen
  obtain ⟨t, continued⟩ := Option.isSome_iff_exists.mp seen.2.2
  obtain ⟨settled, stays⟩ := one_final_outcome (fun _ => defaults) s t overtaken overtakenLate
    reached continued
  exact ⟨s, t, reached, continued, seen.1, seen.2.1, settled, stays⟩

end OctoMail.Queue
