import OctoMail.Account.Handlers
import OctoMail.WebApi.Messages

/-!
# The JMAP and Web API transactions are mutator calls

The bodies of Email/set, Mailbox/set and the message and draft endpoints as sequences
of effects. Two of them do not keep the rules by themselves. Email/set may expunge a row
after it changed the flags of that row, with the flags it read before; `countsKept` says
when this does no harm. Mailbox/set may delete a mailbox that holds messages.
-/

namespace OctoMail.Account

open List Store Store.Tx Program

variable {rules : Rules} {start : Tx} {limit : Nat} {boxes : List Nat}
variable {rows : List Message} {exact_ : Message → Prop}

/-! ### Keywords leave the row -/

theorem applyKeyword_sameRow (env : Env) (m : Message) {name : String} {value : Bool} :
    m.SameRow (Jmap.applyKeyword env m name value) := by
  simp only [Jmap.applyKeyword]
  repeat' split
  all_goals exact ⟨rfl, rfl, rfl, rfl, rfl⟩

theorem applyJMAPKeywords_sameRow {m : Message} {keywords : List (String × Bool)} :
    m.SameRow (Jmap.applyJMAPKeywords m keywords) := by
  refine foldl_sameRow (fun m entry => ?_) keywords m
  repeat' split
  all_goals exact ⟨rfl, rfl, rfl, rfl, rfl⟩

theorem patched_sameRow (env : Env) (patch : Jmap.Patch) (m : Message) :
    m.SameRow (Jmap.patched env patch m) := by
  have entries : ∀ (list : Jmap.Patch) (from_ : Message),
      from_.SameRow (Jmap.applyKeywordPatch env from_ list) := by
    intro list from_
    refine foldl_sameRow (fun m entry => ?_) list from_
    split
    · exact applyKeyword_sameRow env m
    · exact .refl m
  simp only [Jmap.patched]
  refine Message.SameRow.trans ?_ (entries _ _)
  split
  · have cleared : m.SameRow { m with flags := {}, keywords := none } := ⟨rfl, rfl, rfl, rfl, rfl⟩
    exact cleared.trans (applyJMAPKeywords_sameRow)
  · exact .refl m

theorem webSetFlag_sameRow (env : Env) (m : Message) (name : String) (value : Bool) :
    m.SameRow (WebApi.setFlag env m name value) := by
  simp only [WebApi.setFlag]
  repeat' split
  all_goals exact ⟨rfl, rfl, rfl, rfl, rfl⟩

/-! ### Email/set -/

instance (row m : Message) : Decidable (row.SameCounted m) :=
  inferInstanceAs (Decidable (_ ∧ _))

/-- The update takes the Email out of no mailbox where it also changes a counted flag of
the row there. -/
def countsKept (env : Env) (patch : Jmap.Patch) (group : List Message) : Bool :=
  !Jmap.hasKeywordChange patch ||
    match Jmap.desiredMailboxIDs env patch group with
    | none => true
    | some want => (Jmap.currentRows group).all (fun entry =>
        want.contains entry.1 || decide ((Jmap.patched env patch entry.2).SameCounted entry.2))

/-- Every update of an Email/set keeps the counts, each in the state it is applied in. -/
def updatesKeepCounts (env : Env) : List (String × Jmap.Patch) → Tx → Bool
  | [], _ => true
  | entry :: rest, pt =>
      (match Jmap.emailGroup entry.1 pt with
        | .ok (some group, _) => countsKept env entry.2 group
        | _ => true) &&
      match Jmap.emailSetOne env entry pt with
        | .ok (_, next) => updatesKeepCounts env rest next
        | .error _ => true

variable {held : Tx → Prop} {group : List Message}

theorem emailGroup_reads (wf : ∀ pt, held pt → pt.db.Wf) (id : String) :
    Triple held (Jmap.emailGroup id)
      (fun found pt => held pt ∧ ∀ group, found = some group → Rows pt group) := by
  unfold Jmap.emailGroup
  split
  · exact Triple.pure _ fun pt holds => ⟨holds, fun group none => by cases none⟩
  refine Triple.bind (messagesByEmailId_reads wf _) fun msgs =>
    Triple.pure _ fun pt read => ⟨read.1, fun group some => ?_⟩
  split at some
  · cases some
  · cases some
    exact read.2

theorem findMailboxByID_reads (id : Int) :
    Triple held (Jmap.findMailboxByID id) (fun found pt => held pt ∧ ∀ mb, found = some mb →
      (mb.id : Int) = id ∧ pt.Open mb.id) := by
  refine Triple.ite (fun natural => ?_) (fun _ => ?_)
  · refine (findMailboxById_reads id.toNat).consequence (fun _ holds => holds)
      fun found pt facts => ⟨facts.1, fun mb some => ?_⟩
    obtain ⟨same, opened⟩ := facts.2 mb some
    exact ⟨by omega, opened⟩
  · exact Triple.pure _ fun pt holds => ⟨holds, fun mb none => by cases none⟩

/-- Rows of the Email are added; what is known stays known. -/
theorem addWanted_running (wf : start.db.Wf) (env : Env) (rep : Message)
    {current : List (Int × Message)} (known : rep ∈ rows) (grouped : ¬ rules.lone)
    {wanted : List Int} :
    Triple (Running rules start limit [] rows exact_) (Jmap.addWanted env rep current wanted)
      (fun _ => Running rules start limit [] rows exact_) := by
  induction wanted with
  | nil => exact Triple.pure _ fun _ running => running
  | cons mailboxId rest ih =>
    refine Triple.ite (fun _ => ih) fun _ => ?_
    refine Triple.bind (findMailboxByID_reads mailboxId) fun found => ?_
    cases found with
    | none => exact Triple.pure _ fun _ held => held.1
    | some mb =>
      have added : Triple (Running rules start limit [mb.id] rows exact_) (addSibling env rep mb)
          (fun _ => Running rules start limit [mb.id] rows exact_) :=
        addSibling_running wf env mem_cons_self known grouped
      refine Triple.bind (added.consequence (fun pt held => held.1.found (held.2 mb rfl).2)
        fun _ pt running => ?_) fun _ => ih
      exact running.weaken (Nat.le_refl _) (fun _ none => absurd none not_mem_nil)
        (fun _ here => ⟨here, id⟩)

/-- The rows of the group, each updated; where the patch keeps the counted flags of a
row, the row read before still counts as the stored one. -/
theorem keywordUpdates_running (wf : start.db.Wf) (env : Env) (patch : Jmap.Patch)
    (distinct : (group.map Message.id).Nodup) :
    Triple (Running rules start limit boxes group (fun _ => True))
      (group.forM (fun m => update (Jmap.patched env patch m)))
      (fun _ => Running rules start limit boxes group
        (fun m => (Jmap.patched env patch m).SameCounted m)) := by
  -- The invariant: a row still to come counts as it was read, one that is done as patched.
  have loop : Triple
      (fun pt => Running rules start limit boxes group
        (fun m => m ∈ group ∨ (Jmap.patched env patch m).SameCounted m) pt ∧
        (∀ m ∈ group, m ∈ group) ∧ (group.map Message.id).Nodup)
      (group.forM (fun m => update (Jmap.patched env patch m)))
      (fun _ pt => Running rules start limit boxes group
        (fun m => m ∈ ([] : List Message) ∨ (Jmap.patched env patch m).SameCounted m) pt ∧
        (∀ m ∈ ([] : List Message), m ∈ group) ∧ (([] : List Message).map Message.id).Nodup) := by
    refine Triple.forM (fun rest pt => Running rules start limit boxes group
      (fun m => m ∈ rest ∨ (Jmap.patched env patch m).SameCounted m) pt ∧
      (∀ m ∈ rest, m ∈ group) ∧ (rest.map Message.id).Nodup) (fun m rest => ?_) group
    refine Triple.given fun facts => ?_
    obtain ⟨inside, once⟩ := facts
    obtain ⟨apart, once⟩ := nodup_cons.mp once
    have member : m ∈ group := inside m mem_cons_self
    have sameId := (patched_sameRow env patch m).id
    refine (update_running wf member (patched_sameRow env patch m)).consequence
      (fun _ running => running) fun _ pt running => ⟨?_, fun other later =>
        inside other (mem_cons_of_mem _ later), once⟩
    refine running.weaken (Nat.le_refl _) (fun _ here => here) fun other there => ⟨there, ?_⟩
    intro either
    constructor
    · intro _
      exact either.imp_left (mem_cons_of_mem _)
    · intro same
      obtain rfl := Table.eq_of_key distinct there member (same.trans sameId.symm)
      exact either.resolve_left fun later => apart (mem_map.mpr ⟨other, later, rfl⟩)
  exact loop.consequence
    (fun pt running => ⟨running.weaken (Nat.le_refl _) (fun _ here => here)
      (fun _ here => ⟨here, fun _ => trivial⟩), fun _ here => here, distinct⟩)
    (fun _ pt held => held.1.weaken (Nat.le_refl _) (fun _ here => here)
      (fun _ here => ⟨here, .inr⟩))

/-- The entries of the current rows: rows of the group under their mailbox, none twice. -/
theorem currentRows_spec (distinct : (group.map Message.id).Nodup)
    {entries : List (Int × Message)} (visited : entries.Perm (Jmap.currentRows group)) :
    (∀ entry ∈ entries, entry.2 ∈ group ∧ entry.1 = entry.2.mailboxId) ∧
      (entries.map (fun entry => entry.2.id)).Nodup := by
  obtain ⟨unique, origin⟩ := Assoc.ofList_spec (group.map (fun m => ((m.mailboxId : Int), m)))
  have inside : ∀ entry ∈ entries, entry.2 ∈ group ∧ entry.1 = entry.2.mailboxId := by
    intro entry member
    obtain ⟨m, there, rfl⟩ := mem_map.mp (origin entry (visited.subset member))
    exact ⟨there, rfl⟩
  refine ⟨inside, ?_⟩
  have keys : (entries.map Prod.fst).Nodup := (visited.map Prod.fst).nodup_iff.mpr unique
  refine List.Nodup.map_on ?_ (List.Nodup.of_map Prod.fst keys)
  intro first here second there same
  have row := Table.eq_of_key distinct (inside first here).1 (inside second there).1 same
  exact Prod.ext ((inside first here).2.trans (row ▸ (inside second there).2.symm)) row

theorem removeUnwanted_running (want : List Int) {entry : Int × Message} (rest : List Message)
    (there : entry.1 = entry.2.mailboxId) (apart : ∀ other ∈ rest, other.id ≠ entry.2.id)
    (fresh : rules.fresh → want.contains entry.1 = false → exact_ entry.2) :
    Triple (Running rules start limit boxes (entry.2 :: rest) exact_)
      (Jmap.removeUnwanted want entry) (fun _ => Running rules start limit boxes rest exact_) := by
  have skipped : ∀ pt, Running rules start limit boxes (entry.2 :: rest) exact_ pt →
      Running rules start limit boxes rest exact_ pt := keep fun _ => mem_cons_of_mem _
  refine Triple.ite (fun _ => Triple.pure _ skipped) fun unwanted => ?_
  refine Triple.bind (findMailboxByID_reads entry.1) fun found => ?_
  cases found with
  | none => exact Triple.pure _ fun pt held => skipped pt held.1
  | some mb =>
    refine Triple.consequence (Triple.given fun same => removeOne_running rest ?_ apart
      fun ruled => fresh ruled (by simpa using unwanted))
      (fun pt held => ⟨held.1, (held.2 mb rfl).1⟩) (fun _ _ running => running)
    omega

theorem updateKeywords_running (wf : start.db.Wf) (env : Env)
    (patch : Jmap.Patch) (distinct : (group.map Message.id).Nodup) :
    Triple (Running rules start limit boxes group (fun _ => True))
      (Jmap.updateKeywords env group patch)
      (fun _ => Running rules start limit boxes group (fun m =>
        Jmap.hasKeywordChange patch = true → (Jmap.patched env patch m).SameCounted m)) := by
  refine Triple.ite (fun changes => ?_) fun _ => Triple.pure _ fun pt running => ?_
  · exact (keywordUpdates_running wf env patch distinct).consequence
      (fun _ running => running) fun _ pt running => running.weaken (Nat.le_refl _)
        (fun _ here => here) (fun _ here => ⟨here, fun counted => counted changes⟩)
  · exact running.weaken (Nat.le_refl _) (fun _ here => here)
      (fun _ here => ⟨here, fun _ => trivial⟩)

/-- Every row expunged counts as it was read, by `countsKept`. -/
theorem emailUpdate_running (wf : start.db.Wf) (env : Env) (group : List Message)
    (patch : Jmap.Patch) (distinct : (group.map Message.id).Nodup)
    (grouped : ¬ rules.lone) (fresh : rules.fresh → countsKept env patch group = true) :
    Triple (Running rules start limit [] group (fun _ => True)) (Jmap.emailUpdate env group patch)
      (fun _ => Blank rules start limit) := by
  refine Triple.bind (updateKeywords_running wf env patch distinct) fun _ => ?_
  split
  · exact Triple.pure _ blank
  · exact Triple.pure _ blank
  · rename_i want rep others desired
    refine Triple.bind (addWanted_running wf env rep mem_cons_self grouped) fun existed => ?_
    refine Triple.ite (fun _ => ?_) fun _ => Triple.pure _ blank
    obtain ⟨inside, once⟩ := currentRows_spec distinct
      (env.order.perm [4, rep.id] (Jmap.currentRows (rep :: others)))
    refine Triple.bind ((removes_running (Jmap.removeUnwanted want) once
      fun entry member rest apart => removeUnwanted_running want rest (inside entry member).2
        apart fun ruled unwanted changes => ?_).consequence (keep fun m member => ?_)
      fun _ _ running => running) fun _ => Triple.pure _ blank
    · have kept := fresh ruled
      simp only [countsKept, changes, desired, Bool.not_true, Bool.false_or, all_eq_true] at kept
      have this := kept entry ((env.order.perm _ _).subset member)
      rw [unwanted] at this
      simpa using this
    · obtain ⟨entry, there, rfl⟩ := mem_map.mp member
      exact (inside entry there).1

/-- One update, which keeps the counts where the rule asks for it. -/
theorem emailSetOne_running (wf : start.db.Wf) {env : Env} {entry : String × Jmap.Patch}
    {pt final : Tx} {result : String × Jmap.Outcome} (running : Blank rules start limit pt)
    (grouped : ¬ rules.lone)
    (fresh : rules.fresh → ∀ group, Jmap.emailGroup entry.1 pt = .ok (some group, pt) →
      countsKept env entry.2 group = true)
    (ran : Jmap.emailSetOne env entry pt = .ok (result, final)) :
    Blank rules start limit final := by
  obtain ⟨found, between, read, continued⟩ := (bind_ok _ _ _ _ _).mp ran
  have unchanged : ∀ state, state = pt → state.db.Wf := fun state same => same ▸ running.wf wf
  obtain ⟨rfl, group⟩ := emailGroup_reads unchanged entry.1 pt found between rfl read
  cases found with
  | none =>
    obtain ⟨_, rfl⟩ := (pure_ok _ _ _ _).mp continued
    exact running
  | some msgs =>
    have rows := group msgs rfl
    have updated : Triple (Running rules start limit [] msgs (fun _ => True))
        (Jmap.emailUpdate env msgs entry.2) (fun _ => Blank rules start limit) :=
      emailUpdate_running wf env msgs entry.2 rows.1 grouped (fun ruled => fresh ruled msgs read)
    obtain ⟨done, last, applied, returned⟩ := (bind_ok _ _ _ _ _).mp continued
    obtain ⟨_, rfl⟩ := (pure_ok _ _ _ _).mp returned
    exact updated between done last (running.read rows) applied

/-- Email/set, where each of its updates keeps the counts. -/
theorem emailSetUpdate_running (wf : start.db.Wf) (env : Env)
    (updates : List (String × Jmap.Patch)) (grouped : ¬ rules.lone)
    (fresh : rules.fresh → updatesKeepCounts env (env.order.visit [5] updates) start = true) :
    Triple (fun pt => pt = start) (Jmap.emailSetUpdate env updates)
      (fun _ => Blank rules start 0) := by
  refine (Triple.each (fun rest pt => Blank rules start 0 pt ∧
    (rules.fresh → updatesKeepCounts env rest pt = true)) (fun entry rest => ?_)
    (env.order.visit [5] updates)).consequence (fun pt same => ?_) (fun _ _ held => held.1)
  · rintro pt result final ⟨running, kept⟩ ran
    have both : rules.fresh → (∀ group, Jmap.emailGroup entry.1 pt = .ok (some group, pt) →
        countsKept env entry.2 group = true) ∧ updatesKeepCounts env rest final = true := by
      intro ruled
      have now := kept ruled
      simp only [updatesKeepCounts, ran, Bool.and_eq_true] at now
      refine ⟨fun group read => ?_, now.2⟩
      simpa only [read] using now.1
    exact ⟨emailSetOne_running wf running grouped
      (fun ruled => (both ruled).1) ran, fun ruled => (both ruled).2⟩
  · subst same
    exact ⟨Running.atStart, fresh⟩

theorem destroyRow_running (m : Message) (rest : List Message)
    (apart : ∀ other ∈ rest, other.id ≠ m.id) :
    Triple (Running rules start limit boxes (m :: rest) (fun _ => True)) (Jmap.destroyRow m)
      (fun _ => Running rules start limit boxes rest (fun _ => True)) := by
  refine Triple.bind (findMailboxByID_reads m.mailboxId) fun found => ?_
  cases found with
  | none => exact Triple.pure _ fun pt held => keep (fun _ => mem_cons_of_mem _) pt held.1
  | some mb =>
    refine Triple.consequence (Triple.given fun same => removeOne_running rest ?_ apart
      fun _ => trivial) (fun pt held => ⟨held.1, (held.2 mb rfl).1⟩) (fun _ _ running => running)
    omega

theorem emailDestroy_running (wf : start.db.Wf) (id : String) :
    Triple (Blank rules start limit) (Jmap.emailDestroy id) (fun _ => Blank rules start limit) := by
  refine Triple.bind (emailGroup_reads (fun _ running => running.wf wf) id) fun found => ?_
  cases found with
  | none => exact Triple.pure _ fun pt held => held.1
  | some group =>
    refine Triple.consequence (afterRead (fun _ => True) fun distinct => Triple.bind
      (removesEach_running Jmap.destroyRow distinct destroyRow_running)
      fun _ => Triple.pure _ blank) (fun pt held => ⟨held.1, held.2 group rfl⟩)
      (fun _ _ running => running)

/-! ### Mailbox/set -/

/-- Creating a mailbox touches no message. -/
theorem mailboxCreate_messages (msgs : List Message) (name : String) (su : SpecialUse) :
    Triple (fun pt => pt.db.messages = msgs) (mailboxCreate name su)
      (fun _ pt => pt.db.messages = msgs) := by
  have made : Triple (fun pt => pt.db.messages = msgs) (createMailbox name false su)
      (fun _ pt => pt.db.messages = msgs) := by
    intro pt mb final same ran
    obtain ⟨_, _, _, messages, _⟩ := createMailbox_ran ⟨True, True, True⟩ ran
    exact messages.trans same
  have ensured : Triple (fun pt => pt.db.messages = msgs) (ensureMailbox name false su)
      (fun _ pt => pt.db.messages = msgs) := by
    refine Triple.bind (mailboxFind_reads name) fun found => ?_
    cases found with
    | some mb => exact Triple.pure _ fun _ held => held.1
    | none => exact made.consequence (fun _ held => held.1) (fun _ _ held => held)
  refine Triple.bind (mailboxFind_reads name) fun found => ?_
  cases found with
  | some mb => exact Triple.pure _ fun _ held => held.1
  | none =>
    exact Triple.bind (ensured.consequence (fun _ held => held.1) (fun _ _ held => held))
      fun mb => Triple.pure _ fun _ held => held

theorem mailboxSetCreate_running (entry : String × String) :
    Triple (fun pt => Blank rules start limit pt ∧ pt.db.messages = start.db.messages)
      (Jmap.mailboxSetCreate entry)
      (fun _ pt => Blank rules start (limit + 1) pt ∧ pt.db.messages = start.db.messages) := by
  refine Triple.ite (fun _ => Triple.pure _ fun pt held => ⟨held.1.raise, held.2⟩) fun _ => ?_
  refine Triple.bind ((mailboxCreate_running entry.2 {}).and
    (mailboxCreate_messages start.db.messages entry.2 {})) fun made => ?_
  cases made with
  | none | some mb => exact Triple.pure _ fun pt held => ⟨blank pt held.1, held.2⟩

theorem mailboxSetDestroy_running (id : String)
    (empty : rules.empty → (Jmap.parseInt64 id).all (holdsNone start) = true) :
    Triple (fun pt => Blank rules start limit pt ∧ pt.db.messages = start.db.messages)
      (Jmap.mailboxSetDestroy id)
      (fun _ pt => Blank rules start limit pt ∧ pt.db.messages = start.db.messages) := by
  unfold Jmap.mailboxSetDestroy
  split
  · exact Triple.pure _ fun _ held => held
  rename_i n parsed
  refine Triple.bind (findMailboxByID_reads n) fun found => ?_
  cases found with
  | none => exact Triple.pure _ fun _ held => held.1
  | some mb =>
    refine Triple.bind ?_ fun children => Triple.pure _ fun _ held => held
    rintro pt children final ⟨⟨running, messages⟩, facts⟩ ran
    have named := (facts mb rfl).1
    obtain ⟨_, _, steps⟩ := running.steps
    have emptied : rules.empty → ∀ m, pt.Stored m → m.mailboxId ≠ mb.id := by
      intro ruled m stored same
      have none : holdsNone start n = true := by simpa [parsed] using empty ruled
      exact (holdsNone_iff start n).mp none m
        ⟨messages ▸ stored.mem, stored.live, stored.mine.trans steps.accountId⟩ (by omega)
    obtain ⟨effect, _, kept⟩ := mailboxDelete_ran rules emptied ran
    exact ⟨running.mailboxEffect effect kept, kept.trans messages⟩

theorem mailboxSet_running (env : Env) (create : List (String × String)) (destroy : List String)
    (empty : rules.empty → destroy.all (fun id =>
      (Jmap.parseInt64 id).all (holdsNone start)) = true) :
    Triple (fun pt => pt = start) (Jmap.mailboxSet env create destroy)
      (fun _ => Blank rules start create.length) := by
  have creates : Triple (fun pt => pt = start)
      (each Jmap.mailboxSetCreate (env.order.visit [6] create))
      (fun _ pt => Blank rules start create.length pt ∧ pt.db.messages = start.db.messages) := by
    refine (Triple.each (fun rest pt => ∃ made, made + rest.length ≤ create.length ∧
      Blank rules start made pt ∧ pt.db.messages = start.db.messages) (fun entry rest => ?_)
      (env.order.visit [6] create)).consequence ?_ ?_
    · rintro pt result final ⟨made, bounded, held⟩ ran
      exact ⟨made + 1, by rw [length_cons] at bounded; omega,
        mailboxSetCreate_running entry pt result final held ran⟩
    · rintro pt rfl
      exact ⟨0, by rw [(env.order.perm [6] create).length_eq]; omega, Running.atStart, rfl⟩
    · rintro _ pt ⟨made, bounded, running, messages⟩
      exact ⟨running.weaken (by simpa using bounded) (fun _ here => here)
        (fun _ here => ⟨here, id⟩), messages⟩
  refine Triple.bind creates fun _ => Triple.bind ((Triple.each
    (fun rest pt => (Blank rules start create.length pt ∧ pt.db.messages = start.db.messages) ∧
      ∀ id ∈ rest, id ∈ destroy) (fun id rest => Triple.given fun inside => ?_)
    destroy).consequence (fun pt held => ⟨held, fun _ here => here⟩) fun _ _ held => held)
    fun _ => Triple.pure _ fun _ held => held.1.1
  exact (mailboxSetDestroy_running id fun ruled =>
    all_eq_true.mp (empty ruled) id (inside id mem_cons_self)).consequence (fun _ held => held)
    fun _ _ held => ⟨held, fun other later => inside other (mem_cons_of_mem _ later)⟩

/-! ### Web API -/

theorem loadGroup_reads (wf : ∀ pt, held pt → pt.db.Wf) (id : String) :
    Triple held (WebApi.loadGroup id) (fun msgs pt => held pt ∧ Rows pt msgs) := by
  refine Triple.bind (Triple.require _ _ fun _ _ holds _ => holds) fun gid => ?_
  refine Triple.bind (messagesByEmailId_reads wf gid) fun msgs => ?_
  exact Triple.bind (Triple.refuse _ _ fun _ read _ => read) fun _ =>
    Triple.pure _ fun _ read => read

theorem mailboxByID_reads (id : Nat) :
    Triple held (WebApi.mailboxByID id) (fun mb pt => held pt ∧ mb.id = id ∧ pt.Open mb.id) :=
  Triple.bind (findMailboxById_reads id) fun found => Triple.required found _

theorem patchMessage_running (wf : start.db.Wf) (env : Env) (id : String)
    (addKeywords removeKeywords : List String) :
    Triple (Blank rules start limit) (WebApi.patchMessage env id addKeywords removeKeywords)
      (fun _ => Blank rules start limit) := by
  refine Triple.bind (loadGroup_reads (fun _ running => running.wf wf) id) fun msgs =>
    afterRead (fun _ => True) fun _ => ?_
  refine updates_running wf (fun m => removeKeywords.foldl (fun m name =>
    WebApi.setFlag env m name false) (addKeywords.foldl (fun m name =>
      WebApi.setFlag env m name true) m)) (fun m => .inr rfl) (fun m => ?_) msgs
  exact (foldl_sameRow (fun m name => webSetFlag_sameRow env m name true) addKeywords m).trans
    (foldl_sameRow (fun m name => webSetFlag_sameRow env m name false) removeKeywords _)

theorem removeRows_running {msgs : List Message} (distinct : (msgs.map Message.id).Nodup) :
    Triple (Running rules start limit [] msgs (fun _ => True)) (WebApi.removeRows msgs)
      (fun _ => Blank rules start limit) := by
  refine (removesEach_running _ distinct fun m rest apart => ?_).consequence
    (fun _ running => running) (fun _ => blank)
  refine Triple.bind (mailboxByID_reads m.mailboxId) fun mb => ?_
  exact Triple.consequence (Triple.given fun same => removeOne_running rest same.symm apart
    fun _ => trivial) (fun pt held => ⟨held.1, held.2.1⟩) (fun _ _ running => running)

theorem deleteMessage_running (wf : start.db.Wf) (id : String) :
    Triple (Blank rules start limit) (WebApi.deleteMessage id)
      (fun _ => Blank rules start limit) :=
  Triple.bind (loadGroup_reads (fun _ running => running.wf wf) id) fun msgs =>
    afterRead (fun _ => True) fun distinct => removeRows_running distinct

theorem removeSentCopy_running (wf : start.db.Wf) (messageId : Nat) :
    Triple (Blank rules start limit) (WebApi.removeSentCopy messageId)
      (fun _ => Blank rules start limit) :=
  Triple.bind (messagesByEmailId_reads (fun _ running => running.wf wf) messageId) fun msgs =>
    afterRead (fun _ => True) fun distinct => removeRows_running distinct

theorem specialMailbox_running {has : SpecialUse → Bool} {mark : SpecialUse → SpecialUse}
    {name : String} :
    Triple (Blank rules start limit) (WebApi.specialMailbox has mark name)
      (fun mb => Running rules start (limit + 1) [mb.id] [] (fun _ => False)) := by
  refine Triple.bind listMailboxes_reads fun listed => ?_
  split
  · rename_i mb located
    refine Triple.pure _ fun pt held => ?_
    obtain ⟨member, live⟩ := held.2 mb (mem_of_find?_eq_some located)
    exact (held.1.found ⟨mb, member, rfl, live⟩).raise
  · refine Triple.bind ((mailboxFind_reads name).consequence (fun _ held => held.1)
      fun _ _ held => held) fun found => ?_
    cases found with
    | none =>
      exact (mailboxEnsure_running name true (mark {})).consequence (fun _ held => held.1)
        fun _ _ running => running
    | some mb =>
      have opened : ∀ pt, (Blank rules start limit pt ∧ ∀ b, some mb = some b →
          b ∈ pt.db.mailboxes ∧ b.accountId = pt.accountId ∧ b.name = name ∧
            b.expunged = false) →
          Running rules start (limit + 1) [mb.id] [] (fun _ => False) pt := by
        intro pt held
        obtain ⟨member, _, _, live⟩ := held.2 mb rfl
        exact (held.1.found ⟨mb, member, rfl, live⟩).raise
      refine Triple.ite (fun _ => Triple.pure _ opened) fun _ => ?_
      exact Triple.bind ((mailboxSetSpecialUse_running mb).consequence opened
        fun _ _ running => running) fun _ => Triple.pure _ fun _ running => running

theorem addTo_running (wf : start.db.Wf) (env : Env) (mb : Mailbox) {m : Message} (body : Body) :
    Triple (Running rules start limit [mb.id] rows exact_) (messageAdd env mb m body 0)
      (fun _ => Running rules start limit [mb.id] rows exact_) :=
  messageAdd_running wf env m body 0 mem_cons_self (absurd rfl)

theorem saveSentCopy_running (wf : start.db.Wf) (env : Env) (raw : Body) :
    Triple (Blank rules start limit) (WebApi.saveSentCopy env raw)
      (fun _ => Blank rules start (limit + 1)) :=
  Triple.bind (specialMailbox_running) fun mb =>
    (addTo_running wf env mb raw).consequence (fun _ running => running) (fun _ => blank)

theorem saveDraft_running (wf : start.db.Wf) (env : Env) (raw : Body) (known : Bool) :
    Triple (Blank rules start limit) (WebApi.saveDraft env raw known)
      (fun _ => Blank rules start (limit + 1)) := by
  refine Triple.ite (fun _ => Triple.pure _ fun pt running => running.raise) fun _ => ?_
  refine Triple.bind (specialMailbox_running) fun mb => ?_
  exact Triple.bind (addTo_running wf env mb raw) fun _ => Triple.pure _ blank

/-- The row found is one of the group, and its mailbox is open. -/
theorem loadDraftRow_running (env : Env) (msgs group : List Message)
    (inside : ∀ m ∈ msgs, m ∈ group) :
    Triple (Running rules start limit [] group exact_) (WebApi.loadDraftRow env msgs)
      (fun found pt => Running rules start limit [found.2.id] group exact_ pt ∧
        found.1 ∈ group ∧ found.1.mailboxId = found.2.id) := by
  induction msgs with
  | nil => exact Triple.throw _
  | cons m rest ih =>
    refine Triple.bind (mailboxByID_reads m.mailboxId) fun mb => ?_
    refine Triple.ite (fun _ => Triple.pure _ fun pt held => ?_) fun _ => ?_
    · exact ⟨held.1.found held.2.2, inside m mem_cons_self, held.2.1.symm⟩
    · exact (ih fun other later => inside other (mem_cons_of_mem _ later)
        ).consequence (fun _ held => held.1) fun _ _ held => held

theorem loadDraftMessage_running (wf : start.db.Wf) (env : Env) (id : String) :
    Triple (Blank rules start limit) (WebApi.loadDraftMessage env id)
      (fun found pt => Running rules start limit [found.2.id] [found.1] (fun _ => True) pt ∧
        found.1.mailboxId = found.2.id) := by
  refine Triple.bind (loadGroup_reads (fun _ running => running.wf wf) id) fun msgs =>
    afterRead (fun _ => True) fun _ => ?_
  refine (loadDraftRow_running env msgs msgs fun _ here => here).consequence
    (fun _ running => running) fun found pt held => ⟨keep (fun m here => ?_) pt held.1, held.2.2⟩
  rw [mem_singleton.mp here]
  exact held.2.1

theorem gate_running (answer : Option Failure) :
    Triple held (WebApi.gate answer) (fun _ => held) := by
  cases answer with
  | none => exact Triple.pure _ fun _ holds => holds
  | some failure => exact Triple.throw failure

/-- The row found is the only one known, and it is expunged. -/
theorem removeFound_running {current : Message} {mb : Mailbox} (there : current.mailboxId = mb.id) :
    Triple (Running rules start limit boxes [current] (fun _ => True))
      (messageRemove mb [current]) (fun _ => Blank rules start limit) :=
  (removeOne_running [] there (fun _ none => absurd none not_mem_nil)
    (fun _ => trivial)).consequence (fun _ running => running) (fun _ => blank)

theorem updateDraft_running (wf : start.db.Wf) (env : Env) (id : String) (raw : Body)
    (earlier : Message → Option Failure) (later : Option Failure) :
    Triple (Blank rules start limit) (WebApi.updateDraft env id raw earlier later)
      (fun _ => Blank rules start limit) := by
  refine Triple.bind (loadDraftMessage_running wf env id) fun found => Triple.given fun there => ?_
  refine Triple.bind (gate_running _) fun _ => ?_
  refine Triple.bind (addTo_running wf env found.2 raw) fun _ => ?_
  refine Triple.bind (removeFound_running there) fun _ => ?_
  exact Triple.bind (gate_running later) fun _ => Triple.pure _ fun _ held => held

theorem removeDraft_running (wf : start.db.Wf) (env : Env) (id : String)
    (check : Message → Option Failure) :
    Triple (Blank rules start limit) (WebApi.removeDraft env id check)
      (fun _ => Blank rules start limit) := by
  refine Triple.bind (loadDraftMessage_running wf env id) fun found => Triple.given fun there => ?_
  refine Triple.bind (gate_running _) fun _ => ?_
  exact Triple.bind (removeFound_running there) fun _ =>
    Triple.pure _ fun _ held => held

end OctoMail.Account
