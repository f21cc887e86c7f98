import Mathlib.Algebra.BigOperators.Group.List.Basic
import Mathlib.Data.List.Nodup
import Mathlib.Tactic.Ring

/-!
# Tables of keyed rows

A table is the list of its rows, and a key is a function of the row. An `UPDATE`
replaces the rows its WHERE clause chooses. A tally sums an integer weight over all
rows; where keys are distinct, a statement that replaces the row of one key moves the
tally by the difference of that row's weights. No particular table is named.
-/

namespace OctoMail.Table

open List Function

universe u v
variable {ρ : Type u} {κ : Type v}

/-- Replace the chosen rows. -/
def update (chosen : ρ → Bool) (f : ρ → ρ) (rows : List ρ) : List ρ :=
  rows.map (fun row => if chosen row then f row else row)

variable {row : ρ} {rows : List ρ} {key : ρ → κ}

variable {chosen : ρ → Bool} {f : ρ → ρ}

theorem mem_update :
    row ∈ update chosen f rows ↔
      ∃ old ∈ rows, (if chosen old then f old else old) = row := mem_map

/-- A row that is not chosen stays. -/
theorem mem_update_of_mem
    (member : row ∈ rows) (passed : chosen row = false) : row ∈ update chosen f rows :=
  mem_update.mpr ⟨row, member, by simp [passed]⟩

/-- A replacement that replaces nothing. -/
theorem update_of_same (chosen : ρ → Bool) (f : ρ → ρ) (rows : List ρ)
    (same : ∀ row, chosen row = true → f row = row) : update chosen f rows = rows := by
  have each : ∀ row, (if chosen row then f row else row) = row := by
    intro row
    split
    · exact same row ‹_›
    · rfl
  simp only [update, each, map_id']

/-- Replacing some rows and then others in the same way replaces them all. -/
theorem update_update (first second : ρ → Bool) (f : ρ → ρ) (rows : List ρ)
    (kept : ∀ row, second (f row) = second row) (again : ∀ row, f (f row) = f row) :
    update second f (update first f rows) = update (fun row => first row || second row) f rows := by
  simp only [update, map_map]
  refine map_congr_left fun row _ => ?_
  by_cases one : first row = true
  · by_cases two : second row = true <;> simp [one, two, kept, again]
  · simp [one]

/-- A column that the replacement keeps has the values it had, row by row. -/
theorem map_update (key : ρ → κ) {rows : List ρ}
    (kept : ∀ row, key (f row) = key row) : (update chosen f rows).map key = rows.map key := by
  simp only [update, map_map]
  refine map_congr_left fun row _ => ?_
  simp only [comp_apply]
  split
  · exact kept row
  · rfl

/-- A projection of the rows turns a replacement into one of the projected rows. -/
theorem map_update_eq {τ : Type v} (view : ρ → τ)
    {picked : τ → Bool} {g : τ → τ} {rows : List ρ} (same : ∀ row, picked (view row) = chosen row)
    (moved : ∀ row, view (f row) = g (view row)) :
    (update chosen f rows).map view = update picked g (rows.map view) := by
  simp only [update, map_map]
  refine map_congr_left fun row _ => ?_
  simp only [comp_apply, same]
  split
  · exact moved row
  · rfl

/-- The first row of a kind is replaced in place. -/
theorem find?_update (wanted chosen : ρ → Bool) (f : ρ → ρ) (rows : List ρ)
    (kept : ∀ row, wanted (f row) = wanted row) :
    (update chosen f rows).find? wanted =
      (rows.find? wanted).map (fun row => if chosen row then f row else row) := by
  simp only [update, find?_map]
  congr 1
  refine congrArg (fun test => rows.find? test) (funext fun row => ?_)
  simp only [comp_apply]
  split
  · exact kept row
  · rfl

/-- A replacement of other rows by other rows leaves the wanted ones. -/
theorem filter_update {wanted : ρ → Bool} (chosen : ρ → Bool) (f : ρ → ρ) (rows : List ρ)
    (apart : ∀ row ∈ rows, chosen row = true → wanted row = false ∧ wanted (f row) = false) :
    (update chosen f rows).filter wanted = rows.filter wanted := by
  induction rows with
  | nil => rfl
  | cons row rest ih =>
    have later := ih fun old member => apart old (mem_cons_of_mem _ member)
    have split : update chosen f (row :: rest) =
        (if chosen row then f row else row) :: update chosen f rest := rfl
    rw [split, filter_cons, filter_cons, later]
    cases picked : chosen row with
    | false => simp
    | true =>
      obtain ⟨before, after⟩ := apart row mem_cons_self picked
      simp [before, after]

/-- Rows with one key are one row. -/
theorem eq_of_key (distinct : (rows.map key).Nodup) {first second : ρ} (here : first ∈ rows)
    (there : second ∈ rows) (same : key first = key second) : first = second :=
  inj_on_of_nodup_map distinct here there same

/-- Distinct keys stay distinct when a row with a new key is added. -/
theorem nodup_insert (distinct : (rows.map key).Nodup) (row : ρ)
    (fresh : ∀ old ∈ rows, key old ≠ key row) : ((rows ++ [row]).map key).Nodup := by
  rw [map_append, map_singleton]
  refine nodup_append.mpr ⟨distinct, nodup_singleton _, ?_⟩
  intro taken old new here
  obtain ⟨other, member, rfl⟩ := mem_map.mp old
  rw [mem_singleton.mp here]
  exact fresh other member

/-! ### Tallies -/

/-- The sum of a weight over all rows. -/
def tally (weight : ρ → Int) (rows : List ρ) : Int := (rows.map weight).sum

@[simp] theorem tally_nil (weight : ρ → Int) : tally weight ([] : List ρ) = 0 := rfl

@[simp] theorem tally_cons (weight : ρ → Int) (row : ρ) (rows : List ρ) :
    tally weight (row :: rows) = weight row + tally weight rows := sum_cons

theorem tally_insert (weight : ρ → Int) (rows : List ρ) (row : ρ) :
    tally weight (rows ++ [row]) = tally weight rows + weight row := by
  simp [tally]

/-- Rows of weight zero do not count. -/
theorem tally_eq_zero {weight : ρ → Int} {rows : List ρ}
    (none : ∀ row ∈ rows, weight row = 0) : tally weight rows = 0 := by
  induction rows with
  | nil => rfl
  | cons row rows ih =>
    rw [tally_cons, none row mem_cons_self,
      ih fun old member => none old (mem_cons_of_mem _ member)]
    rfl

/-- Deleting rows of weight zero does not change the tally. -/
theorem tally_filter {weight : ρ → Int} {kept : ρ → Bool} {rows : List ρ}
    (none : ∀ row ∈ rows, kept row = false → weight row = 0) :
    tally weight (rows.filter kept) = tally weight rows := by
  induction rows with
  | nil => rfl
  | cons row rows ih =>
    have rest := ih fun old member => none old (mem_cons_of_mem _ member)
    cases stays : kept row with
    | true => rw [filter_cons_of_pos stays, tally_cons, tally_cons, rest]
    | false =>
      rw [filter_cons_of_neg (by simp [stays]), tally_cons, rest,
        none row mem_cons_self stays, Int.zero_add]

/-- A replacement that keeps the weight of every chosen row keeps the tally. -/
theorem tally_update_of_same (weight : ρ → Int) (chosen : ρ → Bool) (f : ρ → ρ) (rows : List ρ)
    (same : ∀ row ∈ rows, chosen row = true → weight (f row) = weight row) :
    tally weight (update chosen f rows) = tally weight rows := by
  simp only [tally, update, map_map]
  refine congrArg List.sum (map_congr_left fun row member => ?_)
  simp only [comp_apply]
  split
  · exact same row member ‹_›
  · rfl

/-- Replacing the row of one key moves the tally by the difference of its weights. -/
theorem tally_update_one (weight : ρ → Int) (chosen : ρ → Bool) (f : ρ → ρ)
    (distinct : (rows.map key).Nodup) (member : row ∈ rows)
    (exactly : ∀ other ∈ rows, chosen other = true ↔ key other = key row) :
    tally weight (update chosen f rows) = tally weight rows + (weight (f row) - weight row) := by
  induction rows with
  | nil => cases member
  | cons head tail ih =>
    obtain ⟨apart, distinct⟩ := nodup_cons.mp distinct
    have inside : ∀ other ∈ tail, chosen other = true ↔ key other = key row :=
      fun other there => exactly other (mem_cons_of_mem _ there)
    have split : tally weight (update chosen f (head :: tail)) =
        weight (if chosen head then f head else head) + tally weight (update chosen f tail) := rfl
    rw [split, tally_cons]
    rcases mem_cons.mp member with rfl | later
    · have others : tally weight (update chosen f tail) = tally weight tail := by
        refine tally_update_of_same weight chosen f tail fun other there picked => ?_
        exact absurd (mem_map.mpr ⟨other, there, (inside other there).mp picked⟩) apart
      rw [others, if_pos ((exactly row mem_cons_self).mpr rfl)]
      ring
    · have passed : ¬ chosen head = true := by
        intro picked
        have same := (exactly head mem_cons_self).mp picked
        exact apart (mem_map.mpr ⟨row, later, same.symm⟩)
      rw [ih distinct later inside, if_neg passed]
      ring

end OctoMail.Table
