import Mathlib.Data.List.Basic
import Mathlib.Data.List.Dedup
import Mathlib.Data.List.Induction
import Mathlib.Data.List.Nodup
import Mathlib.Data.List.Perm.Basic
import Mathlib.Order.Defs.LinearOrder

/-!
# Sorting and grouping

A list sorted by several comparisons in turn, a list divided into groups by a key, the first of
each key, and the pages of a list. A sort is given the strict comparison, as sorting functions
that swap elements are.
-/

namespace OctoMail.Arrange

open List

variable {α κ : Type}

/-! ### Comparisons in turn -/

/-- The first of the comparisons that tells two elements apart, or the last one. -/
def inTurn (comparisons : List (α → α → Ordering)) (last : α → α → Ordering) :
    α → α → Ordering :=
  comparisons.foldr compareLex last

theorem transCmp_inTurn {comparisons : List (α → α → Ordering)} {last : α → α → Ordering}
    (linear : ∀ compare ∈ comparisons, Std.TransCmp compare) (end_ : Std.TransCmp last) :
    Std.TransCmp (inTurn comparisons last) := by
  induction comparisons with
  | nil => exact end_
  | cons compare others ih =>
    obtain ⟨first, rest⟩ := forall_mem_cons.mp linear
    have later := ih rest
    exact inferInstanceAs (Std.TransCmp (compareLex compare (inTurn others last)))

/-! ### Sorting -/

/-- A stable sort by a strict comparison. -/
def sliceStable (less : α → α → Bool) (l : List α) : List α :=
  l.mergeSort (fun a b => !less b a)

theorem sliceStable_perm (less : α → α → Bool) (l : List α) : (sliceStable less l).Perm l :=
  mergeSort_perm l _

/-- Sorted by a linear comparison, each element is at most those behind it. -/
theorem sliceStable_sorted {compare : α → α → Ordering} (linear : Std.TransCmp compare)
    {less : α → α → Bool} (strict : ∀ a b, less a b = true ↔ compare a b = .lt) (l : List α) :
    (sliceStable less l).Pairwise (fun a b => (compare a b).isLE = true) := by
  have le_iff : (fun a b => !less b a) = fun a b => (compare a b).isLE := by
    funext a b
    have swapped := @Std.OrientedCmp.eq_swap α compare _ a b
    cases here : less b a with
    | true => rw [swapped, (strict b a).mp here]; rfl
    | false =>
      have notLess : compare b a ≠ .lt := fun same => by simp [(strict b a).mpr same] at here
      rw [swapped]
      cases same : compare b a with
      | lt => exact absurd same notLess
      | eq | gt => rfl
  rw [sliceStable, le_iff]
  refine pairwise_mergeSort (fun _ _ _ => Std.TransCmp.isLE_trans) (fun a b => ?_) l
  rw [@Std.OrientedCmp.eq_swap α compare _ b a]
  cases compare a b <;> rfl

theorem flatten_sliceStable_perm {less : α → α → Bool} {groups : List (List α)} :
    ((groups.map (sliceStable less)).flatten).Perm groups.flatten := by
  induction groups with
  | nil => exact .refl _
  | cons group rest ih =>
    exact (sliceStable_perm less group).append ih

/-! ### Grouping -/

section Grouping

variable [DecidableEq κ]

/-- Put an element into the group of its key, a new one at the end where there is none. -/
def addTo (key : κ) (a : α) : List (κ × List α) → List (κ × List α)
  | [] => [(key, [a])]
  | (k, members) :: rest =>
      if k = key then (k, members ++ [a]) :: rest else (k, members) :: addTo key a rest

def grouped (key : α → κ) (l : List α) : List (κ × List α) :=
  l.foldl (fun groups a => addTo (key a) a groups) []

theorem addTo_perm (key : κ) (a : α) (groups : List (κ × List α)) :
    ((addTo key a groups).flatMap Prod.snd).Perm (groups.flatMap Prod.snd ++ [a]) := by
  induction groups with
  | nil => exact .refl _
  | cons group rest ih =>
    obtain ⟨k, members⟩ := group
    rw [addTo]
    split
    · simp only [flatMap_cons, append_assoc]
      exact perm_append_comm.append_left members
    · simp only [flatMap_cons, append_assoc]
      exact ih.append_left members

/-- The elements with a key, under that key. -/
def ofKey (key : α → κ) (l : List α) (k : κ) : κ × List α := (k, l.filter (fun a => key a = k))

theorem ofKey_concat (key : α → κ) (l : List α) (a : α) (k : κ) :
    ofKey key (l ++ [a]) k = (k, (ofKey key l k).2 ++ if key a = k then [a] else []) := by
  by_cases same : key a = k <;> simp [ofKey, same]

/-- One more element, into the groups of the keys met before. -/
theorem addTo_ofKey {key : α → κ} {l : List α} {a : α} {keys : List κ} (distinct : keys.Nodup)
    (new : key a ∉ keys → l.filter (fun b => key b = key a) = []) :
    addTo (key a) a (keys.map (ofKey key l)) =
      (if key a ∈ keys then keys else keys ++ [key a]).map (ofKey key (l ++ [a])) := by
  induction keys with
  | nil => simp [addTo, ofKey, new]
  | cons k others ih =>
    obtain ⟨fresh, rest⟩ := nodup_cons.mp distinct
    by_cases here : k = key a
    · subst here
      have same : ∀ k ∈ others, ofKey key l k = ofKey key (l ++ [a]) k := by
        intro k among
        rw [ofKey_concat, if_neg (by rintro rfl; exact fresh among), append_nil, ofKey]
      rw [if_pos mem_cons_self, map_cons, map_cons, ofKey, addTo, if_pos rfl,
        map_congr_left same, ofKey_concat, if_pos rfl, ofKey]
    · have later := ih rest fun missing =>
        new (by simp [missing, Ne.symm here])
      have shown : (if key a ∈ k :: others then k :: others else k :: others ++ [key a]) =
          k :: if key a ∈ others then others else others ++ [key a] := by
        simp only [mem_cons, Ne.symm here, false_or]
        split <;> rfl
      rw [shown, map_cons, map_cons, ← later, ofKey_concat, if_neg (Ne.symm here),
        append_nil, ofKey, addTo, if_neg here]

/-- What a list is divided into: the keys of its elements, each once, with the elements that
have them. -/
structure Groups (key : α → κ) (l : List α) (groups : List (κ × List α)) (keys : List κ) :
    Prop where
  distinct : keys.Nodup
  complete : ∀ k, k ∈ keys ↔ ∃ a ∈ l, key a = k
  members : groups = keys.map (ofKey key l)
  whole : (groups.flatMap Prod.snd).Perm l

theorem Groups.add {key : α → κ} {l : List α} {groups : List (κ × List α)} {keys : List κ}
    (divided : Groups key l groups keys) (a : α) :
    Groups key (l ++ [a]) (addTo (key a) a groups)
      (if key a ∈ keys then keys else keys ++ [key a]) where
  distinct := by
    split
    · exact divided.distinct
    · rename_i fresh
      exact List.Nodup.append divided.distinct (nodup_singleton _)
        (disjoint_singleton.mpr fresh)
  complete k := by
    have before := divided.complete k
    split <;> grind
  members := by
    rw [divided.members]
    refine addTo_ofKey divided.distinct fun missing => ?_
    rw [filter_eq_nil_iff]
    intro b among same
    exact missing ((divided.complete _).mpr ⟨b, among, by simpa using same⟩)
  whole := (addTo_perm (key a) a groups).trans (divided.whole.append_right [a])

theorem grouped_groups (key : α → κ) (l : List α) : ∃ keys, Groups key l (grouped key l) keys := by
  induction l using List.reverseRecOn with
  | nil => exact ⟨[], by simp, by simp, rfl, .refl _⟩
  | append_singleton _ a ih =>
    obtain ⟨keys, divided⟩ := ih
    rw [grouped, foldl_append]
    exact ⟨_, divided.add a⟩

/-- Two elements are in one group exactly when they have the same key. -/
theorem together_iff {key : α → κ} {l : List α} {a b : α} (first : a ∈ l) (second : b ∈ l) :
    (∃ group ∈ grouped key l, a ∈ group.2 ∧ b ∈ group.2) ↔ key a = key b := by
  obtain ⟨keys, divided⟩ := grouped_groups key l
  rw [divided.members]
  constructor
  · rintro ⟨group, among, here, there⟩
    obtain ⟨k, _, rfl⟩ := mem_map.mp among
    simp only [ofKey, mem_filter, decide_eq_true_eq] at here there
    exact here.2.trans there.2.symm
  · intro same
    refine ⟨ofKey key l (key a), mem_map_of_mem ((divided.complete _).mpr ⟨a, first, rfl⟩), ?_⟩
    simp [ofKey, first, second, same]

end Grouping

/-! ### The first of each key -/

section Firsts

variable [DecidableEq κ]

/-- The elements before which no other has their key. -/
def firsts (key : α → κ) : List α → List α
  | [] => []
  | a :: rest => a :: (firsts key rest).filter (fun b => key b ≠ key a)

theorem firsts_sublist (key : α → κ) (l : List α) : (firsts key l).Sublist l := by
  induction l with
  | nil => exact .slnil
  | cons a rest ih =>
    exact (filter_sublist.trans ih).cons_cons a

theorem firsts_nodup (key : α → κ) (l : List α) : ((firsts key l).map key).Nodup := by
  induction l with
  | nil => exact nodup_nil
  | cons a rest ih =>
    rw [firsts, map_cons, nodup_cons]
    constructor
    · simp
    · exact (filter_sublist.map key).nodup ih

/-- Each element has the key of one of the first, and that one stands before it or is it. -/
theorem exists_firsts {key : α → κ} {before : α → α → Prop} {l : List α}
    (sorted : l.Pairwise before) {a : α} (member : a ∈ l) :
    ∃ b ∈ firsts key l, key b = key a ∧ (b = a ∨ before b a) := by
  induction l with
  | nil => exact absurd member not_mem_nil
  | cons first rest ih =>
    obtain ⟨ahead, later⟩ := pairwise_cons.mp sorted
    by_cases same : key first = key a
    · refine ⟨first, mem_cons_self, same, ?_⟩
      rcases mem_cons.mp member with rfl | behind
      · exact .inl rfl
      · exact .inr (ahead a behind)
    · rcases mem_cons.mp member with rfl | behind
      · exact absurd rfl same
      · obtain ⟨b, among, equal, place⟩ := ih later behind
        refine ⟨b, mem_cons_of_mem _ (mem_filter.mpr ⟨among, ?_⟩), equal, place⟩
        rw [equal]
        exact decide_eq_true (Ne.symm same)

/-- There are as many of them as there are keys. -/
theorem firsts_length (key : α → κ) (l : List α) :
    (firsts key l).length = (l.map key).dedup.length := by
  have keys : ((firsts key l).map key).Perm (l.map key).dedup := by
    refine (perm_ext_iff_of_nodup (firsts_nodup key l) (nodup_dedup _)).mpr fun k => ?_
    rw [mem_dedup]
    constructor
    · exact fun member => ((firsts_sublist key l).map key).subset member
    · intro member
      obtain ⟨a, among, rfl⟩ := mem_map.mp member
      have trivial_ : l.Pairwise (fun _ _ => True) := pairwise_of_forall fun _ _ => trivial
      obtain ⟨b, first, same, _⟩ := @exists_firsts α κ _ key _ l trivial_ a among
      exact mem_map.mpr ⟨b, first, same⟩
  simpa using keys.length_eq

end Firsts

/-! ### Pages -/

/-- The page of a list that begins at a place. -/
def page (size offset : Nat) (l : List α) : List α := (l.drop offset).take size

theorem flatMap_pages (size pages : Nat) (l : List α) :
    (List.range pages).flatMap (fun k => page size (k * size) l) = l.take (pages * size) := by
  induction pages with
  | zero => simp
  | succ pages ih =>
    rw [range_succ, flatMap_append, ih, flatMap_singleton, page,
      Nat.succ_mul, take_add]

end OctoMail.Arrange
