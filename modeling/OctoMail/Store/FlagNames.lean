import OctoMail.Store.Shapes

/-!
# System flags by name

`SetByName` (`core/store/shapes.go`) knows a flag in its IMAP and its JMAP spelling, with or
without the leading sign. A flag is named here by its JMAP spelling; what the flags of a message
show under a name is decided by the entry of the registry for it, and by no other.
-/

namespace OctoMail.Store

/-! ### Entries of the registry -/

def specOf (name : String) : Option FlagSpec :=
  flagRegistry.find? (fun spec => normalizeFlagName spec.imap == normalizeFlagName name ||
    normalizeFlagName spec.jmap == normalizeFlagName name)

/-- The JMAP name of the system flag that a name stands for. -/
def flagName (name : String) : Option String := (specOf name).map FlagSpec.jmap

theorem setByName_eq (flags : Flags) (name : String) (value : Bool) :
    flags.setByName name value = (specOf name).map (fun spec => spec.set flags value) := rfl

theorem flagName_jmap : ∀ spec ∈ flagRegistry, flagName spec.jmap = some spec.jmap := by
  decide

theorem flagName_imap : ∀ spec ∈ flagRegistry, flagName spec.imap = some spec.jmap := by
  decide

/-! ### Flags that are set -/

/-- The flags by name, and whether they are set. -/
def flagTable (flags : Flags) : List (String × Bool) :=
  flagRegistry.map (fun spec => (spec.jmap, spec.get flags))

/-- The flag of this name is set. -/
def flagShown (flags : Flags) (name : String) : Bool :=
  flagRegistry.any (fun spec => spec.get flags && spec.jmap == name)

theorem flagTable_eq (f : Flags) :
    flagTable f = [("$seen", f.seen), ("$answered", f.answered), ("$flagged", f.flagged),
      ("$deleted", f.deleted), ("$draft", f.draft), ("$forwarded", f.forwarded),
      ("$junk", f.junk), ("$notjunk", f.notjunk), ("$phishing", f.phishing),
      ("$mdnsent", f.mdnSent)] := by
  cases f
  simp [flagTable, flagRegistry, FlagSpec.get, eq_comm]

theorem flagTable_set (flags : Flags) (value : Bool) : ∀ spec ∈ flagRegistry,
    flagTable (spec.set flags value) =
      (flagTable flags).map (fun entry => (entry.1,
        if entry.1 = spec.jmap then value else entry.2)) := by
  simp [flagTable_eq, flagRegistry]

theorem flagShown_eq (flags : Flags) (name : String) :
    flagShown flags name = (flagTable flags).any (fun entry => entry.2 && entry.1 == name) := by
  rw [flagTable, List.any_map]
  rfl

/-- Setting a flag decides about its name, and about no other. -/
theorem flagShown_set (flags : Flags) (value : Bool) (spec : FlagSpec)
    (member : spec ∈ flagRegistry) (name : String) :
    flagShown (spec.set flags value) name =
      if name = spec.jmap then value else flagShown flags name := by
  rw [flagShown_eq, flagTable_set flags value spec member, List.any_map, flagShown_eq]
  by_cases same : name = spec.jmap
  · subst same
    rw [if_pos rfl]
    have listed : (spec.jmap, spec.get flags) ∈ flagTable flags :=
      List.mem_map.mpr ⟨spec, member, rfl⟩
    refine Bool.eq_iff_iff.mpr ?_
    rw [List.any_eq_true]
    constructor
    · rintro ⟨entry, _, shown⟩
      have equal : entry.1 = spec.jmap := by
        simp only [Function.comp_apply, Bool.and_eq_true, beq_iff_eq] at shown
        exact shown.2
      simpa [equal] using shown
    · rintro rfl
      exact ⟨_, listed, by simp⟩
  · rw [if_neg same]
    refine congrArg (List.any _) (funext fun entry => ?_)
    by_cases here : entry.1 = name
    · simp [here, same]
    · have differs : (entry.1 == name) = false := beq_false_of_ne here
      simp only [Function.comp_apply, differs, Bool.and_false]

/-- Flags are what they show. -/
theorem flags_ext {first second : Flags}
    (same : ∀ name, flagShown first name = flagShown second name) : first = second := by
  have table : ∀ name ∈ flagRegistry.map FlagSpec.jmap,
      flagShown first name = flagShown second name := fun name _ => same name
  simp only [flagShown_eq, flagTable_eq, flagRegistry] at table
  cases first
  cases second
  simp only [List.map_cons, List.map_nil, List.forall_mem_cons] at table
  simp_all

end OctoMail.Store
