/-!
# Row locks

Transactions of several processes share a database and lock its rows. A row is locked by
at most one process, from the statement that locks it to the end of its transaction, and
only a process that has locked a row writes it.

What a process has read stays true as long as it concerns the rows it has locked. So a
transaction may act on what it knows when it commits, whatever the others did since it
read. How rows are kept and what a process remembers are left open.
-/

namespace OctoMail.RowLocks

universe u v w
variable {π : Type u} {κ : Type v} {σ : Type w}

variable {p : Nat} {procs : List π}

section Locks

variable (locks : π → List κ)

/-- A row is locked by at most one process. -/
def Exclusive (procs : List π) : Prop :=
  ∀ (p q : Nat) one other key, procs[p]? = some one → procs[q]? = some other →
    key ∈ locks one → key ∈ locks other → p = q

/-- No process but this one has locked the row. -/
def free [BEq κ] (procs : List π) (p : Nat) (key : κ) : Bool :=
  procs.zipIdx.all (fun (proc, q) => q == p || !(locks proc).contains key)

theorem free_apart [BEq κ] [LawfulBEq κ] {q : Nat} {key : κ} {other : π}
    (isFree : free locks procs p key = true) (found : procs[q]? = some other) (apart : q ≠ p) :
    key ∉ locks other := by
  have here : (other, q) ∈ procs.zipIdx := List.mk_mem_zipIdx_iff_getElem?.mpr found
  have allowed := List.all_eq_true.mp isFree _ here
  simpa [apart] using allowed

theorem exclusive_replicate (count : Nat) {idle : π} (none_ : locks idle = []) :
    Exclusive locks (List.replicate count idle) := by
  intro p q one other key found _ held _
  have same := List.eq_of_mem_replicate (List.mem_of_getElem? found)
  rw [same, none_] at held
  cases held

/-- A process keeps its locks or takes free ones. -/
theorem Exclusive.set [BEq κ] [LawfulBEq κ] {old new : π}
    (exclusive : Exclusive locks procs) (mine : procs[p]? = some old)
    (takes : ∀ key ∈ locks new, key ∈ locks old ∨ free locks procs p key = true) :
    Exclusive locks (procs.set p new) := by
  -- the process that moved against one that did not
  have against {q : Nat} {other : π} {key : κ} (found : procs[q]? = some other)
      (held : key ∈ locks new) (theirs : key ∈ locks other) : q = p := by
    refine Classical.byContradiction fun apart => ?_
    rcases takes key held with kept | isFree
    · exact apart (exclusive q p other old key found mine theirs kept)
    · exact free_apart locks isFree found apart theirs
  intro q r one other key found alsoFound held alsoHeld
  rw [List.getElem?_set] at found alsoFound
  split at found
  case isTrue first =>
    split at alsoFound
    case isTrue second => exact first.symm.trans second
    case isFalse second =>
      split at found
      case isFalse => cases found
      case isTrue =>
        cases found
        exact absurd (against alsoFound held alsoHeld) (Ne.symm second)
  case isFalse first =>
    split at alsoFound
    case isTrue second =>
      split at alsoFound
      case isFalse => cases alsoFound
      case isTrue =>
        cases alsoFound
        exact absurd (against found alsoHeld held) (Ne.symm first)
    case isFalse second => exact exclusive q r one other key found alsoFound held alsoHeld

end Locks

section Knowledge

/-- The locks of a process, what it knows of the database, and when a row is the same in two
databases. -/
structure Discipline (π : Type u) (κ : Type v) (σ : Type w) where
  locks : π → List κ
  knows : σ → π → Prop
  same : σ → σ → κ → Prop
  /-- What a process knows concerns the rows it has locked. -/
  framed : ∀ {before after proc}, (∀ key ∈ locks proc, same before after key) →
    knows before proc → knows after proc

variable (discipline : Discipline π κ σ)

/-- Rows are locked by one process each, and what the processes know is true. -/
structure Protected (database : σ) (procs : List π) : Prop where
  exclusive : Exclusive discipline.locks procs
  known : ∀ {p : Nat} {proc}, procs[p]? = some proc → discipline.knows database proc

theorem protected_replicate {database : σ} {count : Nat} {idle : π}
    (unlocked : discipline.locks idle = []) (nothing : discipline.knows database idle) :
    Protected discipline database (List.replicate count idle) := by
  refine ⟨exclusive_replicate _ count unlocked, fun found => ?_⟩
  rw [List.eq_of_mem_replicate (List.mem_of_getElem? found)]
  exact nothing

variable {discipline}

/-- A process moves: it takes no lock of another, writes only what it has locked, and what it
knows now is true. -/
theorem Protected.move [BEq κ] [LawfulBEq κ] {before after : σ}
    {old new : π} (protected_ : Protected discipline before procs) (mine : procs[p]? = some old)
    (takes : ∀ key ∈ discipline.locks new,
      key ∈ discipline.locks old ∨ free discipline.locks procs p key = true)
    (writes : ∀ key, key ∉ discipline.locks old → discipline.same before after key)
    (learns : discipline.knows after new) : Protected discipline after (procs.set p new) := by
  refine ⟨protected_.exclusive.set _ mine takes, fun {q proc} found => ?_⟩
  rw [List.getElem?_set] at found
  split at found
  case isTrue =>
    split at found
    case isTrue => cases found; exact learns
    case isFalse => cases found
  case isFalse apart =>
    refine discipline.framed (fun key held => writes key fun mineToo => ?_) (protected_.known found)
    exact apart (protected_.exclusive p q old proc key mine found mineToo held)

end Knowledge

end OctoMail.RowLocks
