import OctoMail.Store.Blobs

/-!
# Bodies in use

A committed row should never name a missing blob. The collector's check and its
delete are two steps, and so are a delivery's put and its commit. A put that finds
the body already stored returns while a collector that has just found it
unreferenced is about to delete it, and a check does not see the row of a delivery
that has put its body and not committed. `Apart` excludes the two overlaps; under
it the blob of every committed row, and of every row about to be committed, is there.
-/

namespace OctoMail.Store.Blobs

open Function
open Transition (Meets Outcome invariant run)

universe u v
variable {β : Type u} {ρ : Type v} [DecidableEq ρ]

namespace Transaction

/-- The transaction has put this body and its row is not committed yet. -/
def holds (t : Transaction ρ) (ref : ρ) : Bool :=
  t.stored == some ref || t.inserted.any (fun row => decide (row.ref = ref))

theorem holds_iff (t : Transaction ρ) (ref : ρ) :
    t.holds ref = true ↔ t.stored = some ref ∨ ∃ row ∈ t.inserted, row.ref = ref := by
  simp [holds]

end Transaction

namespace State

/-- Some collector has found the body unreferenced and is about to delete it. -/
def Condemned (s : State β ρ) (tenant : Nat) (ref : ρ) : Prop :=
  ∃ id c, s.collectors id = some c ∧ c.deleting = some (tenant, ref)

/-- Some open transaction of the tenant has put the body. -/
def Awaited (s : State β ρ) (tenant : Nat) (ref : ρ) : Prop :=
  ∃ account t, s.transactions account = some t ∧ s.tenant account = tenant ∧
    t.holds ref = true

/-- The label overlaps no conflicting one: a delivery puts no body that a collector
is about to delete, and a check finds no body unreferenced that an open transaction
has put. -/
def Apart (hash : β → ρ) (s : State β ρ) : Label β ρ → Prop
  | .put account body => ¬ s.Condemned (s.tenant account) (hash body)
  | .check id false => ∀ c tenant ref rest, s.collectors id = some c →
      c.freed = (tenant, ref) :: rest → s.referenced tenant ref = false →
      ¬ s.Awaited tenant ref
  | _ => True

/-- Every live row's body is in the store. -/
def InUsePresent (s : State β ρ) : Prop :=
  ∀ row ∈ s.rows, row.expunged = false → (s.blobs (s.tenant row.account) row.ref).isSome

structure Inv (s : State β ρ) : Prop where
  rows : ∀ row ∈ s.rows, (s.blobs (s.tenant row.account) row.ref).isSome
  inserted : ∀ account t, s.transactions account = some t →
    ∀ row ∈ t.inserted, row.account = account
  awaited : ∀ tenant ref, s.Awaited tenant ref → (s.blobs tenant ref).isSome
  unused : ∀ tenant ref, s.Condemned tenant ref → ∀ row ∈ s.rows,
    ¬ (s.tenant row.account = tenant ∧ row.ref = ref)
  apart : ∀ tenant ref, s.Condemned tenant ref → ¬ s.Awaited tenant ref

variable {s : State β ρ} {account tenant : Nat} {ref : ρ}

/-- What a step may do. A body leaves the store only if a collector had condemned
it; a row is an old one or one an open transaction was to commit; a put body is
there and not condemned; and a collector condemns only what nothing refers to. -/
theorem Inv.next {next : State β ρ} (inv : s.Inv) (tenant : next.tenant = s.tenant)
    (blobs : ∀ t r, (s.blobs t r).isSome → (next.blobs t r).isSome ∨ s.Condemned t r)
    (rows : ∀ row ∈ next.rows, (∃ old ∈ s.rows, old.account = row.account ∧ old.ref = row.ref) ∨
      s.Awaited (s.tenant row.account) row.ref)
    (inserted : ∀ account t, next.transactions account = some t →
      ∀ row ∈ t.inserted, row.account = account) (awaited : ∀ t r, next.Awaited t r →
      s.Awaited t r ∨ (next.blobs t r).isSome ∧ ¬ s.Condemned t r)
    (condemned : ∀ t r, next.Condemned t r → s.Condemned t r ∨
      s.referenced t r = false ∧ ¬ s.Awaited t r ∧ ¬ next.Awaited t r) : next.Inv := by
  have keeps : ∀ t r, s.Awaited t r → (next.blobs t r).isSome := by
    intro t r open_
    exact (blobs t r (inv.awaited t r open_)).resolve_right fun bad => inv.apart t r bad open_
  have source : ∀ t r, s.Condemned t r → ∀ row ∈ next.rows,
      ¬ (s.tenant row.account = t ∧ row.ref = r) := by
    rintro t r bad row member ⟨rfl, rfl⟩
    rcases rows row member with ⟨old, stays, account, ref⟩ | open_
    · exact inv.unused _ _ bad old stays ⟨by rw [account], ref⟩
    · exact inv.apart _ _ bad open_
  refine ⟨?_, inserted, ?_, ?_, ?_⟩
  · intro row member
    rw [tenant]
    rcases rows row member with ⟨old, stays, account, ref⟩ | open_
    · have present := inv.rows old stays
      rw [account, ref] at present
      refine (blobs _ _ present).resolve_right fun bad => ?_
      exact source _ _ bad row member ⟨rfl, rfl⟩
    · exact keeps _ _ open_
  · intro t r open_
    exact (awaited t r open_).elim (keeps t r) And.left
  · intro t r bad row member
    rw [tenant]
    rcases condemned t r bad with old | ⟨unreferenced, closed, _⟩
    · exact source t r old row member
    · rintro ⟨rfl, rfl⟩
      rcases rows row member with ⟨old, stays, account, ref⟩ | open_
      · have seen : s.referenced (s.tenant row.account) row.ref = true := by
          simp only [referenced, Bool.or_eq_true, List.any_eq_true]
          exact .inl ⟨old, stays, by simp [account, ref]⟩
        rw [unreferenced] at seen
        cases seen
      · exact closed open_
  · intro t r bad open_
    rcases condemned t r bad with old | ⟨_, _, closed⟩
    · rcases awaited t r open_ with before | ⟨_, free⟩
      · exact inv.apart t r old before
      · exact free old
    · exact closed open_

theorem awaited_setTransaction {t : Option (Transaction ρ)}
    (open_ : (s.setTransaction account t).Awaited tenant ref) :
    s.Awaited tenant ref ∨
      ∃ held, t = some held ∧ s.tenant account = tenant ∧ held.holds ref = true := by
  obtain ⟨other, held, found, mine, holds⟩ := open_
  by_cases same : other = account
  · subst same
    simp only [setTransaction, update_self] at found
    exact .inr ⟨held, found, mine, holds⟩
  · simp only [setTransaction, update_of_ne same] at found
    exact .inl ⟨other, held, found, mine, holds⟩

omit [DecidableEq ρ] in
theorem condemned_setCollector {id : Nat} {c : Option (Collector ρ)}
    (bad : (s.setCollector id c).Condemned tenant ref) :
    s.Condemned tenant ref ∨ ∃ held, c = some held ∧ held.deleting = some (tenant, ref) := by
  obtain ⟨other, held, found, deleting⟩ := bad
  by_cases same : other = id
  · subst same
    simp only [setCollector, update_self] at found
    exact .inr ⟨held, found, deleting⟩
  · simp only [setCollector, update_of_ne same] at found
    exact .inl ⟨other, held, found, deleting⟩

omit [DecidableEq ρ] in
theorem inserted_setTransaction (before : ∀ other held, s.transactions other = some held →
      ∀ row ∈ held.inserted, row.account = other) {t : Option (Transaction ρ)}
    (mine : ∀ held, t = some held → ∀ row ∈ held.inserted, row.account = account) :
    ∀ other held, (s.setTransaction account t).transactions other = some held →
      ∀ row ∈ held.inserted, row.account = other := by
  intro other held found
  by_cases same : other = account
  · subst same
    simp only [setTransaction, update_self] at found
    exact mine held found
  · simp only [setTransaction, update_of_ne same] at found
    exact before other held found

/-- A transaction changes and holds no more than before. -/
theorem Inv.setTransaction (inv : s.Inv) (account : Nat) (t : Option (Transaction ρ))
    (mine : ∀ held, t = some held → ∀ row ∈ held.inserted, row.account = account)
    (less : ∀ held ref, t = some held → held.holds ref = true →
      s.Awaited (s.tenant account) ref) : (s.setTransaction account t).Inv := by
  have awaited : ∀ tenant ref, (s.setTransaction account t).Awaited tenant ref →
      s.Awaited tenant ref := by
    intro tenant ref open_
    rcases awaited_setTransaction open_ with old | ⟨held, rfl, rfl, holds⟩
    · exact old
    · exact less held ref rfl holds
  exact inv.next rfl (fun _ _ present => .inl present)
    (fun row member => .inl ⟨row, member, rfl, rfl⟩) (inserted_setTransaction inv.inserted mine)
    (fun tenant ref open_ => .inl (awaited tenant ref open_)) (fun _ _ bad => .inl bad)

/-- A collector moves on and condemns nothing. -/
theorem Inv.setCollector (inv : s.Inv) (id : Nat) (c : Option (Collector ρ))
    (clear : ∀ held, c = some held → held.deleting = none) : (s.setCollector id c).Inv := by
  refine inv.next rfl (fun _ _ present => .inl present)
    (fun row member => .inl ⟨row, member, rfl, rfl⟩) inv.inserted (fun _ _ open_ => .inl open_) ?_
  intro tenant ref bad
  rcases condemned_setCollector bad with old | ⟨held, rfl, deleting⟩
  · exact .inl old
  · rw [clear held rfl] at deleting
    cases deleting

theorem stored_isSome (s : State β ρ) (tenant : Nat) (ref : ρ) (body : β) (t : Nat) (r : ρ) :
    ((s.stored tenant ref body).blobs t r).isSome ↔
      (t = tenant ∧ r = ref) ∨ (s.blobs t r).isSome := by
  simp only [stored]
  split
  · next same => simp [same]
  · next apart => simp [apart]

theorem put_inv {hash : β → ρ} {next : State β ρ} (inv : s.Inv) {body : β}
    (apart : ¬ s.Condemned (s.tenant account) (hash body))
    (moved : s.put hash account body = some next) : next.Inv := by
  simp only [put] at moved
  split at moved
  case h_1 => cases moved
  case h_2 t found =>
    cases moved
    refine inv.next rfl ?_ (fun row member => .inl ⟨row, member, rfl, rfl⟩) ?_ ?_
      (fun _ _ bad => .inl bad)
    · intro tenant ref present
      exact .inl ((stored_isSome s _ _ body tenant ref).mpr (.inr present))
    · refine inserted_setTransaction inv.inserted ?_
      rintro held ⟨⟩
      exact inv.inserted account t found
    · intro tenant ref open_
      rcases awaited_setTransaction open_ with old | ⟨held, equal, rfl, holds⟩
      · exact .inl old
      · cases equal
        rcases (Transaction.holds_iff _ ref).mp holds with now | earlier
        · cases now
          exact .inr ⟨(stored_isSome s _ _ body _ _).mpr (.inl ⟨rfl, rfl⟩), apart⟩
        · exact .inl ⟨account, t, found, rfl, (Transaction.holds_iff t ref).mpr (.inr earlier)⟩

theorem insert_inv {next : State β ρ} (inv : s.Inv)
    (moved : s.insert account = some next) : next.Inv := by
  simp only [insert] at moved
  split at moved
  case h_1 => cases moved
  case h_2 t found =>
    split at moved
    case h_1 => cases moved
    case h_2 ref stored =>
      cases moved
      have counted : { s with nextId := s.nextId + 1 }.Inv :=
        ⟨inv.rows, inv.inserted, inv.awaited, inv.unused, inv.apart⟩
      refine counted.setTransaction account _ ?_ ?_
      · rintro held ⟨⟩ row member
        rcases List.mem_append.mp member with old | new
        · exact inv.inserted account t found row old
        · rw [List.mem_singleton.mp new]
      · rintro held other ⟨⟩ holds
        refine ⟨account, t, found, rfl, (Transaction.holds_iff t other).mpr ?_⟩
        rcases (Transaction.holds_iff _ other).mp holds with now | ⟨row, member, rfl⟩
        · cases now
        · rcases List.mem_append.mp member with old | new
          · exact .inr ⟨row, old, rfl⟩
          · rw [List.mem_singleton.mp new]
            exact .inl stored

theorem commit_inv {next : State β ρ} (inv : s.Inv)
    (moved : s.commit account = some next) : next.Inv := by
  simp only [commit] at moved
  split at moved
  case h_1 => cases moved
  case h_2 t found =>
    cases moved
    refine inv.next rfl (fun _ _ present => .inl present) ?_
      (inserted_setTransaction inv.inserted (fun _ none_ => by cases none_)) ?_
      (fun _ _ bad => .inl bad)
    · intro row member
      obtain ⟨before, stays, rfl⟩ := List.mem_map.mp member
      rcases List.mem_append.mp stays with old | new
      · exact .inl ⟨before, old, rfl, rfl⟩
      · have mine : before.account = account := inv.inserted account t found before new
        refine .inr ⟨account, t, found, ?_, (Transaction.holds_iff t _).mpr
          (.inr ⟨before, new, rfl⟩)⟩
        simp only [Transaction.mark, mine]
    · intro tenant ref open_
      rcases awaited_setTransaction open_ with old | ⟨_, none_, _⟩
      · exact .inl old
      · cases none_

theorem deleteRows_inv {next : State β ρ} (inv : s.Inv) {id limit : Nat} {rows : List Nat}
    {reported : Bool} (moved : s.deleteRows id limit rows reported = some next) : next.Inv := by
  simp only [deleteRows] at moved
  split at moved
  case h_1 => cases moved
  case h_2 =>
    split at moved
    case isFalse => cases moved
    case isTrue =>
      cases moved
      have fewer : { s with rows := s.rows.filter (fun row => !rows.contains row.id) }.Inv :=
        inv.next rfl (fun _ _ present => .inl present)
          (fun row member => .inl ⟨row, (List.mem_filter.mp member).1, rfl, rfl⟩) inv.inserted
          (fun _ _ open_ => .inl open_) (fun _ _ bad => .inl bad)
      split
      · refine fewer.setCollector id _ ?_
        rintro held ⟨⟩
        rfl
      · exact fewer

theorem check_inv {hash : β → ρ} {next : State β ρ} (inv : s.Inv) {id : Nat} {failed : Bool}
    (apart : s.Apart hash (.check id failed)) (moved : s.check id failed = some next) :
    next.Inv := by
  simp only [check] at moved
  split at moved
  case h_1 => cases moved
  case h_2 c found =>
    split at moved
    case h_1 => cases moved
    case h_2 =>
      cases moved
      exact inv.setCollector id none (fun _ none_ => by cases none_)
    case h_3 tenant ref rest clear freed =>
      by_cases visited : (tenant, ref) ∈ c.seen
      · rw [if_pos visited] at moved
        cases moved
        refine inv.setCollector id _ ?_
        rintro held ⟨⟩
        exact clear
      · rw [if_neg visited] at moved
        cases failed with
        | true =>
          cases moved
          exact inv.setCollector id none (fun _ none_ => by cases none_)
        | false =>
          simp only [Bool.false_eq_true, if_false] at moved
          split at moved
          case isTrue =>
            cases moved
            refine inv.setCollector id _ ?_
            rintro held ⟨⟩
            exact clear
          case isFalse unreferenced =>
            cases moved
            have unseen : s.referenced tenant ref = false := by simpa using unreferenced
            have closed := apart c tenant ref rest found freed unseen
            refine inv.next rfl (fun _ _ present => .inl present)
              (fun row member => .inl ⟨row, member, rfl, rfl⟩) inv.inserted
              (fun _ _ open_ => .inl open_) ?_
            intro t r bad
            rcases condemned_setCollector bad with old | ⟨held, equal, deleting⟩
            · exact .inl old
            · cases equal
              obtain ⟨rfl, rfl⟩ := Prod.mk.inj (Option.some.inj deleting)
              exact .inr ⟨unseen, closed, closed⟩

/-- What a collector deletes it had condemned. -/
theorem removed_inv (inv : s.Inv) (bad : s.Condemned tenant ref) : (s.removed tenant ref).Inv := by
  refine inv.next rfl ?_ (fun row member => .inl ⟨row, member, rfl, rfl⟩) inv.inserted
    (fun _ _ open_ => .inl open_) (fun _ _ old => .inl old)
  intro t r present
  by_cases same : t = tenant ∧ r = ref
  · obtain ⟨rfl, rfl⟩ := same
    exact .inr bad
  · refine .inl ?_
    simp only [removed, if_neg same]
    exact present

theorem deleteBlob_inv {next : State β ρ} (inv : s.Inv) {id : Nat}
    {outcome : Outcome} (moved : s.deleteBlob id outcome = some next) : next.Inv := by
  simp only [deleteBlob] at moved
  split at moved
  case h_1 => cases moved
  case h_2 c found =>
    split at moved
    case h_1 => cases moved
    case h_2 tenant ref deleting =>
      have deleted : (s.removed tenant ref).Inv :=
        removed_inv inv ⟨id, c, found, deleting⟩
      cases outcome with
      | committed =>
        cases moved
        refine deleted.setCollector id _ ?_
        rintro held ⟨⟩
        rfl
      | failed =>
        cases moved
        exact inv.setCollector id none (fun _ none_ => by cases none_)
      | unreported =>
        cases moved
        exact deleted.setCollector id none (fun _ none_ => by cases none_)

theorem initial_inv (tenant : Nat → Nat) : (initial tenant : State β ρ).Inv where
  rows := fun _ member => (List.not_mem_nil member).elim
  inserted := fun _ _ found => by cases found
  awaited := by
    rintro _ _ ⟨_, _, found, _⟩
    cases found
  unused := fun _ _ _ _ member => (List.not_mem_nil member).elim
  apart := by
    rintro _ _ ⟨_, _, found, _⟩
    cases found

theorem step_inv (hash : β → ρ) (s next : State β ρ) (label : Label β ρ) (inv : s.Inv)
    (apart : s.Apart hash label) (moved : s.step hash label = some next) : next.Inv := by
  cases label with
  | start account =>
    simp only [step, start] at moved
    split at moved
    case h_1 => cases moved
    case h_2 =>
      cases moved
      refine inv.setTransaction account _ ?_ ?_
      · rintro held ⟨⟩ row member
        cases member
      · rintro held ref ⟨⟩ holds
        cases holds
  | put => exact put_inv inv apart moved
  | insert => exact insert_inv inv moved
  | expunge account =>
    simp only [step, expunge] at moved
    split at moved
    case h_1 => cases moved
    case h_2 t found =>
      cases moved
      refine inv.setTransaction account _ ?_ ?_
      · rintro held ⟨⟩
        exact inv.inserted account t found
      · rintro held ref ⟨⟩ holds
        exact ⟨account, t, found, rfl, holds⟩
  | commit => exact commit_inv inv moved
  | rollback account =>
    simp only [step, rollback] at moved
    split at moved
    case h_1 => cases moved
    case h_2 =>
      cases moved
      exact inv.setTransaction account none (fun _ none_ => by cases none_)
        (fun _ _ none_ => by cases none_)
  | upload tenant body =>
    cases moved
    exact inv.next rfl
      (fun t r present => .inl ((stored_isSome s tenant (hash body) body t r).mpr (.inr present)))
      (fun row member => .inl ⟨row, member, rfl, rfl⟩) inv.inserted (fun _ _ open_ => .inl open_)
      (fun _ _ bad => .inl bad)
  | enqueue tenant ref | retire tenant ref =>
    cases moved
    exact ⟨inv.rows, inv.inserted, inv.awaited, inv.unused, inv.apart⟩
  | deleteRows =>
    exact deleteRows_inv inv moved
  | check => exact check_inv inv apart moved
  | deleteBlob => exact deleteBlob_inv inv moved
  | stop id =>
    simp only [step, stop] at moved
    split at moved
    case h_1 => cases moved
    case h_2 =>
      cases moved
      exact inv.setCollector id none (fun _ none_ => by cases none_)

/-- In every run in which puts and checks stay apart, the body of every live row is
in the blob store. -/
theorem live_bodies_present (hash : β → ρ) (tenant : Nat → Nat) (labels : List (Label β ρ))
    (final : State β ρ) (met : Meets (step hash) (fun s label => s.Apart hash label)
      (initial tenant) labels)
    (reached : run (step hash) (initial tenant) labels = some final) :
    final.InUsePresent := by
  have inv : final.Inv := invariant Inv (step_inv hash _ _ _) (initial_inv tenant) met
    reached
  intro row member _
  exact inv.rows row member

/-- A body is delivered, expunged and collected, and then delivered again. -/
def redelivered : List (Label Nat Nat) :=
  [.start 7, .put 7 42, .insert 7, .commit 7, .start 7, .expunge 7 1, .commit 7,
    .deleteRows 0 0 [1] true, .check 0 false, .deleteBlob 0 .committed,
    .start 7, .put 7 42, .insert 7, .commit 7]

theorem redelivered_present :
    ∃ final, run (step id) (initial fun _ => 1) redelivered = some final ∧
      final.rows = [⟨2, 7, 42, false⟩] ∧ final.InUsePresent := by
  have ended : (run (step id) (initial fun _ => 1) redelivered).map
      (fun s => s.rows) = some [⟨2, 7, 42, false⟩] := by
    decide
  obtain ⟨final, reached, rows⟩ := Option.map_eq_some_iff.mp ended
  -- no collector is in flight at either put, and no transaction is open at the check
  have met : Meets (step id) (fun s label => s.Apart id label) (initial fun _ => 1)
      redelivered := by
    simp [redelivered, Meets, step, start, put, insert, commit, expunge, check,
      deleteRows, deleteBlob, Apart, Condemned, Awaited, setTransaction, setCollector, initial,
      update_apply, stored, removed, referenced, Transaction.mark, batchLimit]
  exact ⟨final, reached, rows, live_bodies_present id _ redelivered final met reached⟩

/-- The second delivery puts the body between the collector's check and its delete. -/
def overlapping : List (Label Nat Nat) :=
  [.start 7, .put 7 42, .insert 7, .commit 7, .start 7, .expunge 7 1, .commit 7,
    .deleteRows 0 0 [1] true, .check 0 false,
    .start 7, .put 7 42, .insert 7, .commit 7, .deleteBlob 0 .committed]

/-- The live row of the second delivery names a body that is gone. -/
theorem overlapping_body_missing :
    ∃ final, run (step id) (initial fun _ => 1) overlapping = some final ∧
      final.rows = [⟨2, 7, 42, false⟩] ∧ ¬ final.InUsePresent := by
  have ended : (run (step id) (initial fun _ => 1) overlapping).map
      (fun s => (s.rows, s.blobs (s.tenant 7) 42)) = some ([⟨2, 7, 42, false⟩], none) := by
    decide
  obtain ⟨final, reached, observed⟩ := Option.map_eq_some_iff.mp ended
  obtain ⟨rows, missing⟩ := Prod.mk.inj observed
  refine ⟨final, reached, rows, fun present => ?_⟩
  have there := present ⟨2, 7, 42, false⟩ (by rw [rows]; exact List.mem_singleton.mpr rfl) rfl
  rw [missing] at there
  cases there

end State

end OctoMail.Store.Blobs
