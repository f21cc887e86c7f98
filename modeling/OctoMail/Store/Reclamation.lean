import OctoMail.Store.GarbageCollection

/-!
# Bodies left behind

The collector looks at a body once, in the run that deletes a row naming it. If that run
ends before it has looked, or finds the body in the outbound queue, no later run looks
again: the rows are gone, and `queue.retire` deletes no blob. The comment of
`CollectGarbage` expects the next run to reclaim such a body.

A body is accounted for while a row names it, an open transaction has put it, or a
collector is still to look at it or to delete it. `Tidy` names the steps that lose a body;
in a run without them a body that was named once is gone, or still named by a row, as
soon as nothing is in flight.
-/

namespace OctoMail.Store.Blobs

open List
open Transition (Meets Outcome always invariant run run_append)

universe u v
variable {β : Type u} {ρ : Type v} [DecidableEq ρ]

namespace Collector

/-- The collector is still to look at the body or to delete it. -/
def pending (c : Collector ρ) (tenant : Nat) (ref : ρ) : Bool :=
  c.deleting = some (tenant, ref) || c.unvisited tenant ref

theorem pending_iff (c : Collector ρ) (tenant : Nat) (ref : ρ) :
    c.pending tenant ref = true ↔
      c.deleting = some (tenant, ref) ∨ (tenant, ref) ∈ c.freed ∧ (tenant, ref) ∉ c.seen := by
  simp [pending, unvisited]

end Collector

namespace State

/-- A row, expunged or not, names the body. -/
def named (s : State β ρ) (tenant : Nat) (ref : ρ) : Bool :=
  s.rows.any (fun row => s.tenant row.account == tenant && decide (row.ref = ref))

def queued (s : State β ρ) (tenant : Nat) (ref : ρ) : Bool :=
  s.queue.any (fun entry => entry.1 == tenant && decide (entry.2 = ref))

theorem referenced_eq (s : State β ρ) (tenant : Nat) (ref : ρ) :
    s.referenced tenant ref = (s.named tenant ref || s.queued tenant ref) := rfl

theorem named_iff (s : State β ρ) (tenant : Nat) (ref : ρ) :
    s.named tenant ref = true ↔ ∃ row ∈ s.rows, s.tenant row.account = tenant ∧ row.ref = ref := by
  simp [named]

def Pends (s : State β ρ) (tenant : Nat) (ref : ρ) : Prop :=
  ∃ id c, s.collectors id = some c ∧ c.pending tenant ref = true

/-- The body named by a row, put by an open transaction, or in the hands of a collector. -/
def Minded (s : State β ρ) (tenant : Nat) (ref : ρ) : Prop :=
  s.named tenant ref = true ∨ s.Awaited tenant ref ∨ s.Pends tenant ref

def transactionIs (s : State β ρ) (account tenant : Nat) (test : Transaction ρ → Bool) : Bool :=
  s.tenant account == tenant && (s.transactions account).any test

def collectorIs (s : State β ρ) (id : Nat) (test : Collector ρ → Bool) : Bool :=
  (s.collectors id).any test

/-- The step is not one that loses a body nobody names: a transaction that has put it
ends, or goes on, without a row for it; it is put outside any transaction; its collector
ends before it has looked at it or deleted it; or the collector finds it queued. -/
def careful (hash : β → ρ) (s : State β ρ) (tenant : Nat) (ref : ρ) : Label β ρ → Bool
  | .put account _ => !s.transactionIs account tenant (fun t => t.stored == some ref)
  | .commit account => !s.transactionIs account tenant (fun t => t.stored == some ref)
  | .rollback account => !s.transactionIs account tenant (fun t => t.holds ref)
  | .upload other body => !(other == tenant && decide (hash body = ref))
  | .check id true => !s.collectorIs id (fun c => c.pending tenant ref)
  | .check id false => !(s.collectorIs id (fun c => decide (c.freed.head? = some (tenant, ref))) &&
      s.queued tenant ref)
  | .deleteBlob id .failed => !s.collectorIs id (fun c => c.pending tenant ref)
  | .deleteBlob id .unreported => !s.collectorIs id (fun c => c.unvisited tenant ref)
  | .stop id => !s.collectorIs id (fun c => c.pending tenant ref)
  | _ => true

/-- The step loses no body: it is careful or a row names the body, and a row delete
whose commit is not reported leaves or frees no row of it. -/
def Tidy (hash : β → ρ) (tenant : Nat) (ref : ρ) (s : State β ρ) (label : Label β ρ) : Bool :=
  match label with
  | .deleteRows _ _ rows false =>
      s.rows.all (fun row => !(rows.contains row.id && s.tenant row.account == tenant &&
        decide (row.ref = ref)))
  | _ => s.named tenant ref || s.careful hash tenant ref label

/-- A body in the store is accounted for. -/
def Accounted (tenant : Nat) (ref : ρ) (s : State β ρ) : Prop :=
  (s.blobs tenant ref).isSome → s.Minded tenant ref

/-- The uncommitted rows of a transaction are its account's. -/
def Owned (s : State β ρ) : Prop :=
  ∀ account t, s.transactions account = some t → ∀ row ∈ t.inserted, row.account = account

variable {ref : ρ} {s next : State β ρ} {tenant account : Nat} {c : Collector ρ} {hash : β → ρ}

theorem accounted_next {next : State β ρ} (accounted : Accounted tenant ref s)
    (present : (next.blobs tenant ref).isSome → (s.blobs tenant ref).isSome)
    (kept : s.Minded tenant ref → next.Minded tenant ref) : Accounted tenant ref next :=
  fun there => kept (accounted (present there))

theorem awaited_keeps (account : Nat) (t : Option (Transaction ρ)) (open_ : s.Awaited tenant ref)
    (keeps : ∀ old, s.transactions account = some old → s.tenant account = tenant →
      old.holds ref = true → ∃ held, t = some held ∧ held.holds ref = true) :
    (s.setTransaction account t).Awaited tenant ref := by
  obtain ⟨other, old, found, mine, holds⟩ := open_
  by_cases same : other = account
  · subst same
    obtain ⟨held, rfl, still⟩ := keeps old found mine holds
    exact ⟨other, held, by simp [setTransaction], mine, still⟩
  · exact ⟨other, old, by simpa [setTransaction, same] using found, mine, holds⟩

theorem pends_keeps (id : Nat) (c : Option (Collector ρ)) (pends : s.Pends tenant ref)
    (keeps : ∀ old, s.collectors id = some old → old.pending tenant ref = true →
      ∃ held, c = some held ∧ held.pending tenant ref = true) :
    (s.setCollector id c).Pends tenant ref := by
  obtain ⟨other, old, found, pending⟩ := pends
  by_cases same : other = id
  · subst same
    obtain ⟨held, rfl, still⟩ := keeps old found pending
    exact ⟨other, held, by simp [setCollector], still⟩
  · exact ⟨other, old, by simpa [setCollector, same] using found, pending⟩

/-- A transaction goes on, or ends, and keeps the bodies it has put. -/
theorem minded_setTransaction (account : Nat) (t : Option (Transaction ρ))
    (minded : s.Minded tenant ref)
    (keeps : ∀ old, s.transactions account = some old → s.tenant account = tenant →
      old.holds ref = true → ∃ held, t = some held ∧ held.holds ref = true) :
    (s.setTransaction account t).Minded tenant ref := by
  rcases minded with named | open_ | pends
  · exact .inl named
  · exact .inr (.inl (awaited_keeps account t open_ keeps))
  · exact .inr (.inr pends)

theorem minded_setCollector (id : Nat) (c : Option (Collector ρ)) (minded : s.Minded tenant ref)
    (keeps : ∀ old, s.collectors id = some old → old.pending tenant ref = true →
      s.named tenant ref = true ∨ ∃ held, c = some held ∧ held.pending tenant ref = true) :
    (s.setCollector id c).Minded tenant ref := by
  rcases minded with named | open_ | pends
  · exact .inl named
  · exact .inr (.inl open_)
  · by_cases named : s.named tenant ref = true
    · exact .inl named
    · exact .inr (.inr (pends_keeps id c pends
        (fun old found pending => (keeps old found pending).resolve_left named)))

omit [DecidableEq ρ] in
/-- A test of a transaction that fails, read at the one that is there. -/
theorem transactionIs_false {test : Transaction ρ → Bool} {t : Transaction ρ}
    (found : s.transactions account = some t) (mine : s.tenant account = tenant)
    (fails : (!s.transactionIs account tenant test) = true) : test t = false := by
  simpa [transactionIs, found, mine] using fails

omit [DecidableEq ρ] in
theorem collectorIs_false {id : Nat} {test : Collector ρ → Bool} (found : s.collectors id = some c)
    (fails : (!s.collectorIs id test) = true) : test c = false := by
  simpa [collectorIs, found] using fails

theorem put_accounted {body : β} (accounted : Accounted tenant ref s)
    (tidy : s.Tidy hash tenant ref (.put account body) = true)
    (moved : s.put hash account body = some next) : Accounted tenant ref next := by
  simp only [put] at moved
  split at moved
  case h_1 => cases moved
  case h_2 t found =>
    cases moved
    intro there
    by_cases mine : tenant = s.tenant account ∧ ref = hash body
    · obtain ⟨rfl, rfl⟩ := mine
      refine .inr (.inl ⟨account, { t with stored := some (hash body) }, ?_, rfl, ?_⟩)
      · simp [setTransaction]
      · simp [Transaction.holds]
    · have before : (s.blobs tenant ref).isSome :=
        ((stored_isSome s _ _ body tenant ref).mp there).resolve_left mine
      simp only [Tidy, Bool.or_eq_true] at tidy
      rcases tidy with named | careful
      · exact .inl named
      · refine minded_setTransaction account _
          (accounted before) ?_
        intro old same tenant_ holds
        obtain rfl : t = old := Option.some.inj (found.symm.trans same)
        have unput := transactionIs_false found tenant_ careful
        refine ⟨_, rfl, (Transaction.holds_iff _ ref).mpr (.inr ?_)⟩
        exact ((Transaction.holds_iff t ref).mp holds).resolve_left (by simpa using unput)

theorem insert_accounted
    (accounted : Accounted tenant ref s) (moved : s.insert account = some next) :
    Accounted tenant ref next := by
  simp only [insert] at moved
  split at moved
  case h_1 => cases moved
  case h_2 t found =>
    split at moved
    case h_1 => cases moved
    case h_2 put stored =>
      cases moved
      refine accounted_next accounted (fun there => there) (fun minded => ?_)
      refine minded_setTransaction account _ minded ?_
      intro old same _ holds
      obtain rfl : t = old := Option.some.inj (found.symm.trans same)
      refine ⟨_, rfl, (Transaction.holds_iff _ ref).mpr (.inr ?_)⟩
      rcases (Transaction.holds_iff t ref).mp holds with now | ⟨row, member, same⟩
      · obtain rfl : put = ref := Option.some.inj (stored.symm.trans now)
        exact ⟨_, mem_append_right _ (mem_singleton.mpr rfl), rfl⟩
      · exact ⟨row, mem_append_left _ member, same⟩

/-- The rows of a transaction name their bodies from the commit on. -/
theorem commit_accounted (owned : s.Owned) (accounted : Accounted tenant ref s)
    (tidy : s.Tidy hash tenant ref (.commit account) = true)
    (moved : s.commit account = some next) :
    Accounted tenant ref next := by
  simp only [commit] at moved
  split at moved
  case h_1 => cases moved
  case h_2 t found =>
    cases moved
    refine accounted_next accounted (fun there => there) (fun minded => ?_)
    have committed : ∀ row ∈ s.rows ++ t.inserted, s.tenant row.account = tenant → row.ref = ref →
        ({ s with rows := (s.rows ++ t.inserted).map (t.mark account) }.setTransaction account
          none).named tenant ref = true := by
      intro row member mine same
      exact (named_iff _ tenant ref).mpr
        ⟨t.mark account row, mem_map_of_mem member, mine, same⟩
    have named : s.named tenant ref = true → ({ s with
        rows := (s.rows ++ t.inserted).map (t.mark account) }.setTransaction account
          none).named tenant ref = true := by
      intro before
      obtain ⟨row, member, mine, same⟩ := (named_iff s tenant ref).mp before
      exact committed row (mem_append_left _ member) mine same
    simp only [Tidy, Bool.or_eq_true] at tidy
    rcases minded with before | ⟨other, held, stored, mine, holds⟩ | pends
    · exact .inl (named before)
    · by_cases same : other = account
      · subst same
        obtain rfl : t = held := Option.some.inj (found.symm.trans stored)
        rcases tidy with before | careful
        · exact .inl (named before)
        · have unput := transactionIs_false found mine careful
          obtain ⟨row, member, same⟩ :=
            ((Transaction.holds_iff t ref).mp holds).resolve_left (by simpa using unput)
          have account := owned other t found row member
          exact .inl (committed row (mem_append_right _ member) (by rw [account, mine]) same)
      · exact .inr (.inl ⟨other, held, by simpa [setTransaction, same] using stored, mine, holds⟩)
    · exact .inr (.inr pends)

/-- The collector that deletes a row of the body is the one to look at it. -/
theorem deleteRows_accounted {id limit : Nat} {rows : List Nat} {reported : Bool}
    (accounted : Accounted tenant ref s)
    (tidy : s.Tidy hash tenant ref (.deleteRows id limit rows reported) = true)
    (moved : s.deleteRows id limit rows reported = some next) : Accounted tenant ref next := by
  simp only [deleteRows] at moved
  split at moved
  case h_1 => cases moved
  case h_2 free =>
    split at moved
    case isFalse => cases moved
    case isTrue =>
      cases moved
      have kept : ∀ row ∈ s.rows, ¬ rows.contains row.id = true → s.tenant row.account = tenant →
          row.ref = ref → { s with
            rows := s.rows.filter (fun row => !rows.contains row.id) }.named tenant ref = true := by
        intro row member left mine same
        exact (named_iff _ tenant ref).mpr
          ⟨row, mem_filter.mpr ⟨member, by simpa using left⟩, mine, same⟩
      cases reported with
      | true =>
        rw [if_pos rfl]
        refine accounted_next accounted (fun there => there) (fun minded => ?_)
        rcases minded with named | open_ | pends
        · obtain ⟨row, member, mine, same⟩ := (named_iff s tenant ref).mp named
          by_cases doomed : rows.contains row.id = true
          · refine .inr (.inr ⟨id, _, Function.update_self ..,
              (Collector.pending_iff _ _ _).mpr ?_⟩)
            refine .inr ⟨mem_map.mpr ⟨row, mem_filter.mpr ⟨member, doomed⟩, ?_⟩, by simp⟩
            rw [mine, same]
          · exact .inl (kept row member doomed mine same)
        · exact .inr (.inl open_)
        · refine .inr (.inr (pends_keeps id _ pends ?_))
          intro old found
          cases free.symm.trans found
      | false =>
        refine accounted_next accounted (fun there => there) (fun minded => ?_)
        rcases minded with named | open_ | pends
        · obtain ⟨row, member, mine, same⟩ := (named_iff s tenant ref).mp named
          refine .inl (kept row member ?_ mine same)
          have spared := all_eq_true.mp tidy row member
          intro doomed
          simp only [doomed, mine, same, beq_self_eq_true, decide_true, Bool.and_true,
            Bool.not_true, Bool.false_eq_true] at spared
        · exact .inr (.inl open_)
        · exact .inr (.inr pends)

/-- A collector that ends leaves nothing pending. -/
theorem ended_accounted {id : Nat}
    (accounted : Accounted tenant ref s) (found : s.collectors id = some c)
    (clear : s.named tenant ref = true ∨ c.pending tenant ref = false) :
    Accounted tenant ref (s.setCollector id none) := by
  refine accounted_next accounted (fun there => there) (fun minded => ?_)
  refine minded_setCollector id none minded ?_
  intro old same pending
  obtain rfl : c = old := Option.some.inj (found.symm.trans same)
  rcases clear with named | none_
  · exact .inl named
  · rw [none_] at pending
    cases pending

/-- A collector that goes on keeps what is pending, or finds it named by a row. -/
theorem visited_accounted {id : Nat} {after : Collector ρ} (accounted : Accounted tenant ref s)
    (found : s.collectors id = some c) (keeps : c.pending tenant ref = true →
      s.named tenant ref = true ∨ after.pending tenant ref = true) :
    Accounted tenant ref (s.setCollector id (some after)) := by
  refine accounted_next accounted (fun there => there) (fun minded => ?_)
  refine minded_setCollector id (some after) minded ?_
  intro old same pending
  obtain rfl : c = old := Option.some.inj (found.symm.trans same)
  exact (keeps pending).imp_right (fun still => ⟨after, rfl, still⟩)

theorem check_accounted {id : Nat} {failed : Bool} (accounted : Accounted tenant ref s)
    (tidy : s.Tidy hash tenant ref (.check id failed) = true)
    (moved : s.check id failed = some next) : Accounted tenant ref next := by
  simp only [Tidy, Bool.or_eq_true] at tidy
  simp only [check] at moved
  split at moved
  case h_1 => cases moved
  case h_2 c found =>
    split at moved
    case h_1 => cases moved
    case h_2 clear freed =>
      cases moved
      exact ended_accounted accounted found
        (.inr (by simp [Collector.pending, Collector.unvisited, clear, freed]))
    case h_3 other looked rest clear freed =>
      have pending : c.pending tenant ref = true → (tenant, ref) ∉ c.seen ∧
          ((tenant, ref) = (other, looked) ∨ (tenant, ref) ∈ rest) := by
        intro waits
        rcases (Collector.pending_iff c tenant ref).mp waits with deleting | ⟨member, unseen⟩
        · rw [clear] at deleting
          cases deleting
        · rw [freed] at member
          exact ⟨unseen, mem_cons.mp member⟩
      by_cases visited : (other, looked) ∈ c.seen
      · rw [if_pos visited] at moved
        cases moved
        refine visited_accounted accounted found (fun waits => .inr ?_)
        obtain ⟨unseen, same | later⟩ := pending waits
        · exact absurd (same ▸ visited) unseen
        · exact (Collector.pending_iff _ _ _).mpr (.inr ⟨later, unseen⟩)
      · rw [if_neg visited] at moved
        cases failed with
        | true =>
          cases moved
          exact ended_accounted accounted found
            (tidy.imp_right (collectorIs_false found))
        | false =>
          simp only [Bool.false_eq_true, if_false] at moved
          -- the other bodies stay pending: only the one looked at joins the seen
          have others : ∀ waits : c.pending tenant ref = true,
              (tenant, ref) ≠ (other, looked) → (tenant, ref) ∈ rest ∧
                (tenant, ref) ∉ (other, looked) :: c.seen := by
            intro waits apart
            obtain ⟨unseen, same | later⟩ := pending waits
            · exact absurd same apart
            · exact ⟨later, by simp only [mem_cons, not_or]; exact ⟨apart, unseen⟩⟩
          split at moved
          case isTrue held =>
            cases moved
            refine visited_accounted accounted found (fun waits => ?_)
            by_cases same : (tenant, ref) = (other, looked)
            · obtain ⟨rfl, rfl⟩ := Prod.mk.inj same
              left
              rcases tidy with named | careful
              · exact named
              · have head : c.freed.head? = some (tenant, ref) := by rw [freed]; rfl
                rw [referenced_eq, Bool.or_eq_true] at held
                refine held.resolve_right ?_
                simpa [careful, State.careful, collectorIs, found, head] using careful
            · exact .inr ((Collector.pending_iff _ _ _).mpr (.inr (others waits same)))
          case isFalse =>
            cases moved
            refine visited_accounted accounted found (fun waits => .inr ?_)
            by_cases same : (tenant, ref) = (other, looked)
            · exact (Collector.pending_iff _ _ _).mpr (.inl (by rw [same]))
            · exact (Collector.pending_iff _ _ _).mpr (.inr (others waits same))

theorem deleteBlob_accounted {id : Nat}
    {outcome : Outcome} (accounted : Accounted tenant ref s)
    (tidy : s.Tidy hash tenant ref (.deleteBlob id outcome) = true)
    (moved : s.deleteBlob id outcome = some next) : Accounted tenant ref next := by
  simp only [Tidy, Bool.or_eq_true] at tidy
  simp only [deleteBlob] at moved
  split at moved
  case h_1 => cases moved
  case h_2 c found =>
    split at moved
    case h_1 => cases moved
    case h_2 other looked deleting =>
      -- a body that is still there afterwards is not the deleted one
      have apart : ((s.removed other looked).blobs tenant ref).isSome →
          ¬ c.deleting = some (tenant, ref) ∧ (s.blobs tenant ref).isSome := by
        intro there
        simp only [removed] at there
        split at there
        · cases there
        rename_i different
        refine ⟨?_, there⟩
        rw [deleting]
        rintro same
        obtain ⟨rfl, rfl⟩ := Prod.mk.inj (Option.some.inj same)
        exact different ⟨rfl, rfl⟩
      cases outcome with
      | committed =>
        cases moved
        intro there
        obtain ⟨remains, before⟩ := apart there
        refine minded_setCollector id _ (accounted before) ?_
        intro old same pending
        obtain rfl : c = old := Option.some.inj (found.symm.trans same)
        refine .inr ⟨_, rfl, (Collector.pending_iff _ _ _).mpr (.inr ?_)⟩
        exact ((Collector.pending_iff c tenant ref).mp pending).resolve_left remains
      | failed =>
        cases moved
        exact ended_accounted accounted found
          (tidy.imp_right (collectorIs_false found))
      | unreported =>
        cases moved
        intro there
        obtain ⟨remains, before⟩ := apart there
        refine minded_setCollector id none
          (accounted before) ?_
        intro old same pending
        obtain rfl : c = old := Option.some.inj (found.symm.trans same)
        refine tidy.elim .inl (fun careful => ?_)
        have looked := collectorIs_false found careful
        simp only [Collector.pending, looked, remains, decide_false, Bool.or_false,
          Bool.false_eq_true] at pending

theorem step_accounted {label : Label β ρ} (owned : s.Owned) (accounted : Accounted tenant ref s)
    (tidy : s.Tidy hash tenant ref label = true) (moved : s.step hash label = some next) :
    Accounted tenant ref next := by
  cases label with
  | start account =>
    simp only [step, start] at moved
    split at moved
    case h_1 => cases moved
    case h_2 free =>
      cases moved
      refine accounted_next accounted (fun there => there) (fun minded => ?_)
      refine minded_setTransaction account _ minded ?_
      intro old found
      cases free.symm.trans found
  | put => exact put_accounted accounted tidy moved
  | insert => exact insert_accounted accounted moved
  | expunge account =>
    simp only [step, expunge] at moved
    split at moved
    case h_1 => cases moved
    case h_2 t found =>
      cases moved
      refine accounted_next accounted (fun there => there) (fun minded => ?_)
      refine minded_setTransaction account _ minded ?_
      intro old same _ holds
      obtain rfl : t = old := Option.some.inj (found.symm.trans same)
      exact ⟨_, rfl, holds⟩
  | commit =>
    exact commit_accounted owned accounted tidy moved
  | rollback account =>
    simp only [step, rollback] at moved
    split at moved
    case h_1 => cases moved
    case h_2 t found =>
      cases moved
      refine accounted_next accounted (fun there => there) (fun minded => ?_)
      simp only [Tidy, Bool.or_eq_true] at tidy
      rcases tidy with named | careful
      · exact .inl named
      · refine minded_setTransaction account none minded ?_
        intro old same mine holds
        obtain rfl : t = old := Option.some.inj (found.symm.trans same)
        rw [transactionIs_false found mine careful] at holds
        cases holds
  | upload _ body =>
    cases moved
    intro there
    simp only [Tidy, careful, Bool.or_eq_true, Bool.not_eq_true', Bool.and_eq_false_imp,
      beq_iff_eq, decide_eq_false_iff_not] at tidy
    rcases tidy with named | apart
    · exact .inl named
    · refine accounted (((stored_isSome s _ _ body tenant ref).mp there).resolve_left ?_)
      rintro ⟨same, equal⟩
      exact apart same.symm equal.symm
  | enqueue | retire =>
    cases moved
    exact accounted
  | deleteRows =>
    exact deleteRows_accounted accounted tidy moved
  | check => exact check_accounted accounted tidy moved
  | deleteBlob =>
    exact deleteBlob_accounted accounted tidy moved
  | stop =>
    simp only [step, stop] at moved
    split at moved
    case h_1 => cases moved
    case h_2 c found =>
      cases moved
      simp only [Tidy, Bool.or_eq_true] at tidy
      exact ended_accounted accounted found
        (tidy.imp_right (collectorIs_false found))

theorem check_transactions {id : Nat} {failed : Bool}
    (moved : s.check id failed = some next) : next.transactions = s.transactions := by
  simp only [check] at moved
  repeat' split at moved
  all_goals first
    | cases moved; done
    | (obtain rfl := Option.some.inj moved; rfl)

theorem deleteBlob_transactions {id : Nat} {outcome : Outcome}
    (moved : s.deleteBlob id outcome = some next) : next.transactions = s.transactions := by
  simp only [deleteBlob] at moved
  repeat' split at moved
  all_goals first
    | cases moved; done
    | (obtain rfl := Option.some.inj moved; rfl)

theorem step_owned {label : Label β ρ} (owned : s.Owned)
    (moved : s.step hash label = some next) : next.Owned := by
  cases label with
  | start =>
    simp only [step, start] at moved
    split at moved
    case h_1 => cases moved
    case h_2 =>
      cases moved
      refine inserted_setTransaction owned ?_
      rintro held ⟨⟩ row member
      cases member
  | put account =>
    simp only [step, put] at moved
    split at moved
    case h_1 => cases moved
    case h_2 t found =>
      cases moved
      refine inserted_setTransaction owned ?_
      rintro held ⟨⟩
      exact owned account t found
  | insert account =>
    simp only [step, insert] at moved
    split at moved
    case h_1 => cases moved
    case h_2 t found =>
      split at moved
      case h_1 => cases moved
      case h_2 =>
        cases moved
        refine inserted_setTransaction owned ?_
        rintro held ⟨⟩ row member
        rcases mem_append.mp member with old | new
        · exact owned account t found row old
        · rw [mem_singleton.mp new]
  | expunge account =>
    simp only [step, expunge] at moved
    split at moved
    case h_1 => cases moved
    case h_2 t found =>
      cases moved
      refine inserted_setTransaction owned ?_
      rintro held ⟨⟩
      exact owned account t found
  | commit =>
    simp only [step, commit] at moved
    split at moved
    case h_1 => cases moved
    case h_2 t found =>
      cases moved
      exact inserted_setTransaction
        owned (fun _ none_ => by cases none_)
  | rollback =>
    simp only [step, rollback] at moved
    split at moved
    case h_1 => cases moved
    case h_2 =>
      cases moved
      exact inserted_setTransaction owned (fun _ none_ => by cases none_)
  | upload | enqueue | retire =>
    cases moved
    exact owned
  | deleteRows =>
    simp only [step, deleteRows] at moved
    split at moved
    case h_1 => cases moved
    case h_2 =>
      split at moved
      case isFalse => cases moved
      case isTrue =>
        cases moved
        split <;> exact owned
  | check =>
    rw [Owned, check_transactions moved]
    exact owned
  | deleteBlob =>
    rw [Owned, deleteBlob_transactions moved]
    exact owned
  | stop =>
    simp only [step, stop] at moved
    split at moved
    case h_1 => cases moved
    case h_2 =>
      cases moved
      exact owned

/-- A body that a row names at some time, in every run from then on that loses no body:
once no transaction is open and no collector runs, it is gone or a row names it. -/
theorem bodies_reclaimed (hash : β → ρ) (tenants : Nat → Nat) (s t : State β ρ)
    (first second : List (Label β ρ)) (tenant : Nat) (ref : ρ)
    (reached : run (step hash) (initial tenants) first = some s)
    (named : s.named tenant ref = true) (continued : run (step hash) s second = some t)
    (tidy : Meets (step hash) (Tidy hash tenant ref · ·) s second)
    (closed : ∀ account, t.transactions account = none) (ended : ∀ id, t.collectors id = none)
    (present : (t.blobs tenant ref).isSome) :
    ∃ row ∈ t.rows, t.tenant row.account = tenant ∧ row.ref = ref := by
  have owned : s.Owned :=
    always Owned step_owned (fun _ _ found => by cases found) reached
  have inv : t.Owned ∧ Accounted tenant ref t :=
    invariant (fun s => s.Owned ∧ Accounted tenant ref s)
      (fun inv tidy moved => ⟨step_owned inv.1 moved, step_accounted inv.1 inv.2 tidy moved⟩)
      ⟨owned, fun _ => .inl named⟩ tidy continued
  rcases inv.2 present with named | ⟨account, open_, found, _⟩ | ⟨id, c, found, _⟩
  · exact (named_iff t tenant ref).mp named
  · cases (closed account).symm.trans found
  · cases (ended id).symm.trans found

/-- Two accounts have the same body; one expunges it, and it is collected there. -/
def shared : List (Label Nat Nat) :=
  [.start 7, .put 7 42, .insert 7, .commit 7, .start 8, .put 8 42, .insert 8, .commit 8]

def unshared : List (Label Nat Nat) :=
  [.start 7, .expunge 7 1, .commit 7, .deleteRows 0 0 [1] true, .check 0 false, .check 0 false]

theorem unshared_reclaimed :
    ∃ s t, run (step id) (initial fun _ => 1) shared = some s ∧
      run (step id) s unshared = some t ∧ (t.blobs 1 42).isSome = true ∧
      ∃ row ∈ t.rows, t.tenant row.account = 1 ∧ row.ref = 42 := by
  have first : (run (step id) (initial fun _ => 1) shared).map
      (fun s : State Nat Nat => decide (s.named 1 42 = true ∧
        Meets (step id) (Tidy id 1 42 · ·) s unshared)) = some true := by
    decide +kernel
  obtain ⟨s, reached, seen⟩ := Option.map_eq_some_iff.mp first
  obtain ⟨named, tidy⟩ := of_decide_eq_true seen
  have present : (run (step id) (initial fun _ => 1) (shared ++ unshared)).map
      (fun t : State Nat Nat => (t.blobs 1 42).isSome) = some true := by decide +kernel
  have idle : ∀ account : Nat, (run (step id) (initial fun _ => 1)
      (shared ++ unshared)).map (fun t : State Nat Nat =>
        (t.transactions account, t.collectors account)) = some (none, none) := by
    intro account
    simp [shared, unshared, run, step, start, put, insert, commit, expunge, check,
      deleteRows, setTransaction, setCollector, initial, stored, referenced, Transaction.mark,
      batchLimit]
  obtain ⟨t, both, there⟩ := Option.map_eq_some_iff.mp present
  simp only [both, Option.map_some, Option.some.injEq, Prod.mk.injEq] at idle
  rw [run_append, reached, Option.bind_some] at both
  refine ⟨s, t, reached, both, there, ?_⟩
  exact bodies_reclaimed id _ s t shared unshared 1 42 reached named both tidy
    (fun account => (idle account).1) (fun id => (idle id).2) there

/-- The collector stops between its row delete and its first check; the next run finds
no row to delete. -/
def crashed : List (Label Nat Nat) :=
  [.start 7, .put 7 42, .insert 7, .commit 7, .start 7, .expunge 7 1, .commit 7,
    .deleteRows 0 0 [1] true, .stop 0, .deleteRows 0 0 [] true, .check 0 false]

/-- The body is queued when the collector looks at it, and retired afterwards. -/
def queuedOnce : List (Label Nat Nat) :=
  [.start 7, .put 7 42, .insert 7, .commit 7, .enqueue 1 42, .start 7, .expunge 7 1, .commit 7,
    .deleteRows 0 0 [1] true, .check 0 false, .check 0 false, .retire 1 42,
    .deleteRows 0 0 [] true, .check 0 false]

/-- Nothing refers to the body any more, nothing is queued or expunged, no collector runs,
and the body is still there. -/
def Abandoned (s : State Nat Nat) : Prop :=
  s.rows = [] ∧ s.queue = [] ∧ s.collectors 0 = none ∧ s.transactions 7 = none ∧
    s.blobs 1 42 = some 42

instance (s : State Nat Nat) : Decidable s.Abandoned :=
  inferInstanceAs (Decidable (_ ∧ _))

theorem bodies_left_behind :
    (∃ s, run (step id) (initial fun _ => 1) crashed = some s ∧ s.Abandoned) ∧
      ∃ s, run (step id) (initial fun _ => 1) queuedOnce = some s ∧ s.Abandoned := by
  have ended : ∀ labels ∈ [crashed, queuedOnce],
      (run (step id) (initial fun _ => 1) labels).map
        (fun s : State Nat Nat => decide s.Abandoned) = some true := by decide +kernel
  have left (labels : List (Label Nat Nat)) (member : labels ∈ [crashed, queuedOnce]) :
      ∃ s, run (step id) (initial fun _ => 1) labels = some s ∧ s.Abandoned := by
    obtain ⟨s, reached, seen⟩ := Option.map_eq_some_iff.mp (ended labels member)
    exact ⟨s, reached, of_decide_eq_true seen⟩
  exact ⟨left crashed (by simp), left queuedOnce (by simp)⟩

end State

end OctoMail.Store.Blobs
