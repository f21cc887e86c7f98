import Mathlib.Data.List.Nodup
import Mathlib.Data.List.Perm.Basic

/-!
# Maps as lists of entries

A Go map with comparable keys, as the list of its entries with no key twice. The
order of the entries is not meaningful; a program that visits a map gets a
permutation of it.
-/

namespace OctoMail.Assoc

open List

universe u v
variable {κ : Type u} {υ : Type v} [DecidableEq κ]

/-- The value of a key. -/
def get (entries : List (κ × υ)) (key : κ) : Option υ :=
  (entries.find? (fun entry => entry.1 == key)).map Prod.snd

/-- Set a key, replacing the value it had. -/
def set (entries : List (κ × υ)) (key : κ) (value : υ) : List (κ × υ) :=
  entries.filter (fun entry => entry.1 != key) ++ [(key, value)]

/-- The map built by setting the entries in turn. -/
def ofList (entries : List (κ × υ)) : List (κ × υ) :=
  entries.foldl (fun built entry => set built entry.1 entry.2) []

/-- No key occurs twice. -/
def Unique (entries : List (κ × υ)) : Prop := (entries.map Prod.fst).Nodup

variable {entries : List (κ × υ)}

theorem mem_set {key : κ} {value : υ} {entry : κ × υ}
    (member : entry ∈ set entries key value) : entry ∈ entries ∨ entry = (key, value) := by
  rcases mem_append.mp member with old | new
  · exact .inl (mem_filter.mp old).1
  · exact .inr (mem_singleton.mp new)

theorem unique_set (key : κ) (value : υ) (unique : Unique entries) :
    Unique (set entries key value) := by
  simp only [Unique, set, map_append, map_cons, map_nil]
  refine nodup_append.mpr ⟨?_, nodup_singleton key, ?_⟩
  · exact (filter_sublist.map Prod.fst).nodup unique
  · intro first old second new equal
    obtain ⟨entry, member, rfl⟩ := mem_map.mp old
    have apart : entry.1 ≠ key := by simpa using (mem_filter.mp member).2
    exact apart (equal.trans (mem_singleton.mp new))

/-- The built map has no key twice, and its entries are among those given. -/
theorem ofList_spec (entries : List (κ × υ)) :
    Unique (ofList entries) ∧ ∀ entry ∈ ofList entries, entry ∈ entries := by
  have built : ∀ (rest start : List (κ × υ)), Unique start →
      Unique (rest.foldl (fun built entry => set built entry.1 entry.2) start) ∧
        ∀ entry ∈ rest.foldl (fun built entry => set built entry.1 entry.2) start,
          entry ∈ start ∨ entry ∈ rest := by
    intro rest
    induction rest with
    | nil => exact fun start unique => ⟨unique, fun entry member => .inl member⟩
    | cons head tail ih =>
      intro start unique
      obtain ⟨kept, origin⟩ :=
        ih (set start head.1 head.2) (unique_set head.1 head.2 unique)
      refine ⟨kept, fun entry member => ?_⟩
      rcases origin entry member with early | late
      · rcases mem_set early with old | new
        · exact .inl old
        · exact .inr (mem_cons.mpr (.inl new))
      · exact .inr (mem_cons_of_mem _ late)
  obtain ⟨unique, origin⟩ := built entries [] nodup_nil
  exact ⟨unique, fun entry member => (origin entry member).resolve_left not_mem_nil⟩

/-- Entries with no key twice are built as they are given. -/
theorem ofList_of_unique {entries : List (κ × υ)} (unique : Unique entries) :
    ofList entries = entries := by
  have built : ∀ (rest start : List (κ × υ)), Unique (start ++ rest) →
      rest.foldl (fun built entry => set built entry.1 entry.2) start = start ++ rest := by
    intro rest
    induction rest with
    | nil => exact fun start _ => (append_nil start).symm
    | cons head tail ih =>
      intro start unique
      have apart : ∀ entry ∈ start, (entry.1 != head.1) = true := by
        intro entry member
        rw [Unique, map_append, nodup_append] at unique
        simpa using unique.2.2 entry.1 (mem_map_of_mem member) head.1
          (mem_map_of_mem mem_cons_self)
      have added : set start head.1 head.2 = start ++ [head] := by
        rw [set, filter_eq_self.mpr apart]
      rw [foldl_cons, added, ih _ (by simpa using unique)]
      simp
  exact built entries [] unique

/-- An entry of a map is what its key is found with. -/
theorem get_of_mem (unique : Unique entries) {entry : κ × υ}
    (member : entry ∈ entries) : get entries entry.1 = some entry.2 := by
  induction entries with
  | nil => exact absurd member not_mem_nil
  | cons head tail ih =>
    obtain ⟨fresh, others⟩ := nodup_cons.mp unique
    rcases mem_cons.mp member with rfl | later
    · simp [get]
    · have apart : head.1 ≠ entry.1 := fun same =>
        fresh (mem_map.mpr ⟨entry, later, same.symm⟩)
      have passed : get (head :: tail) entry.1 = get tail entry.1 := by simp [get, apart]
      rw [passed]
      exact ih others later

end OctoMail.Assoc
