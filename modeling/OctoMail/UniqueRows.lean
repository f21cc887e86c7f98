import Mathlib.Data.List.Nodup

/-!
# Rows with unique keys

Rows of every table of a database stand in one list. A row has keys, and no two rows of the
list share one: these are the unique constraints. A row refers to others by keys that they
have: these are the foreign keys.

A transaction inserts rows that no other sees before it commits. A row may be inserted if
its keys are neither in the list nor in the rows that the transaction has inserted before,
and if what it refers to is in one of them. How a transaction waits for the keys that another
has inserted is left open. Rows are never removed.
-/

namespace OctoMail.UniqueRows

open List

universe u v
variable {ρ : Type u} {κ : Type v} (keys refs : ρ → List κ)

def keysOf (rows : List ρ) : List κ := rows.flatMap keys

/-- No two rows share a key. -/
def Distinct (rows : List ρ) : Prop := (keysOf keys rows).Nodup

/-- Every row refers to rows that are there, or that are among others. -/
def Grounded (rows others : List ρ) : Prop :=
  ∀ row ∈ rows, ∀ key ∈ refs row, key ∈ keysOf keys others ∨ key ∈ keysOf keys rows

variable {keys refs}

variable {key : κ} {rows : List ρ}

theorem mem_keysOf : key ∈ keysOf keys rows ↔ ∃ row ∈ rows, key ∈ keys row := mem_flatMap

theorem mem_keysOf_append {first second : List ρ} :
    key ∈ keysOf keys (first ++ second) ↔ key ∈ keysOf keys first ∨ key ∈ keysOf keys second := by
  rw [keysOf, flatMap_append]
  exact mem_append

theorem mem_keysOf_singleton {row : ρ} : key ∈ keysOf keys [row] ↔ key ∈ keys row := by
  simp [keysOf]

/-- A key determines its row. -/
theorem Distinct.eq_of_key (distinct : Distinct keys rows) {one other : ρ}
    (key : κ) (here : one ∈ rows) (there : other ∈ rows) (mine : key ∈ keys one)
    (theirs : key ∈ keys other) : one = other := by
  induction rows with
  | nil => cases here
  | cons row rest ih =>
    rw [Distinct, keysOf, flatMap_cons] at distinct
    obtain ⟨-, tail, apart⟩ := nodup_append.mp distinct
    -- a key of the first row is no key of a later one
    have later {found : ρ} (member : found ∈ rest) (also : key ∈ keys found) : key ∉ keys row :=
      fun first => apart key first key (mem_keysOf.mpr ⟨found, member, also⟩) rfl
    rcases mem_cons.mp here with first | here' <;>
      rcases mem_cons.mp there with second | there'
    · rw [first, second]
    · exact absurd (first ▸ mine) (later there' theirs)
    · exact absurd (second ▸ theirs) (later here' mine)
    · exact ih tail here' there'

/-- Rows with new keys are added. -/
theorem Distinct.append {rows more : List ρ} (distinct : Distinct keys rows)
    (also : Distinct keys more)
    (fresh : ∀ key ∈ keysOf keys more, key ∉ keysOf keys rows) : Distinct keys (rows ++ more) := by
  rw [Distinct, keysOf, flatMap_append]
  refine nodup_append.mpr ⟨distinct, also, ?_⟩
  rintro key here _ there rfl
  exact fresh key there here

theorem Grounded.append {rows more : List ρ} (grounded : Grounded keys refs rows [])
    (also : Grounded keys refs more rows) : Grounded keys refs (rows ++ more) [] := by
  intro row member key needed
  refine .inr (mem_keysOf_append.mpr ?_)
  rcases mem_append.mp member with member | member
  · exact .inl ((grounded row member key needed).resolve_left (fun none_ => nomatch none_))
  · exact also row member key needed

/-- What a transaction refers to stays there. -/
theorem Grounded.more {others : List ρ} (grounded : Grounded keys refs rows others)
    (later : List ρ) : Grounded keys refs rows (others ++ later) := by
  intro row member key needed
  exact (grounded row member key needed).imp_left fun here => mem_keysOf_append.mpr (.inl here)

section Insertion

variable (keys refs) [DecidableEq κ]

/-- A row may be inserted after others of the same transaction. -/
def admits (rows inserted : List ρ) (row : ρ) : Bool :=
  decide (keys row).Nodup &&
  (keys row).all (fun key => decide (key ∉ keysOf keys rows ∧ key ∉ keysOf keys inserted)) &&
  (refs row).all (fun key => decide
    (key ∈ keysOf keys rows ∨ key ∈ keysOf keys inserted ∨ key ∈ keys row))

variable {keys refs}

theorem admits_spec {inserted : List ρ} {row : ρ}
    (admitted : admits keys refs rows inserted row = true) :
    (keys row).Nodup ∧ (∀ key ∈ keys row, key ∉ keysOf keys rows ∧ key ∉ keysOf keys inserted) ∧
      ∀ key ∈ refs row, key ∈ keysOf keys rows ∨ key ∈ keysOf keys (inserted ++ [row]) := by
  simp only [admits, Bool.and_eq_true, decide_eq_true_eq, all_eq_true] at admitted
  refine ⟨admitted.1.1, admitted.1.2, fun key needed => (admitted.2 key needed).imp_right ?_⟩
  intro here
  rw [mem_keysOf_append]
  exact here.imp_right fun mine => mem_keysOf.mpr ⟨row, mem_singleton_self row, mine⟩

section Admitted

variable {rows inserted : List ρ} {row : ρ} (admitted : admits keys refs rows inserted row = true)

include admitted

theorem admits_distinct (distinct : Distinct keys inserted) :
    Distinct keys (inserted ++ [row]) := by
  obtain ⟨nodup, absent, -⟩ := admits_spec admitted
  refine distinct.append (by simpa [Distinct, keysOf] using nodup) fun key mine => ?_
  exact (absent key (mem_keysOf_singleton.mp mine)).2

/-- The rows that a transaction has inserted are new. -/
theorem admits_fresh (fresh : ∀ key ∈ keysOf keys inserted, key ∉ keysOf keys rows) :
    ∀ key ∈ keysOf keys (inserted ++ [row]), key ∉ keysOf keys rows := by
  intro key member
  rcases mem_keysOf_append.mp member with before | mine
  · exact fresh key before
  · exact ((admits_spec admitted).2.1 key (mem_keysOf_singleton.mp mine)).1

theorem admits_grounded (grounded : Grounded keys refs inserted rows) :
    Grounded keys refs (inserted ++ [row]) rows := by
  intro other member key needed
  rcases mem_append.mp member with before | now
  · exact (grounded other before key needed).imp_right fun here => mem_keysOf_append.mpr (.inl here)
  · rw [mem_singleton.mp now] at needed
    exact (admits_spec admitted).2.2 key needed

end Admitted

end Insertion

end OctoMail.UniqueRows
