/-!
# Finite runs of a labelled step function

A system is its step function: a state and a label give the next state, or none
where the label is not enabled. Every choice of the environment (which party
moves, whether a call fails, what a message contains) is part of the label, so a
run is determined by its labels and can be evaluated.

A guard restricts labels by the state in which they are performed. The rules
below carry an invariant, or a relation between earlier and later states, through
every run whose labels all meet the guard. They name no particular system.
-/

namespace OctoMail.Transition

universe u v
variable {σ : Type u} {ι : Type v}

/-- Perform the labels in order. A label that is not enabled ends the run with
no result; the empty run stays where it is. -/
def run (step : σ → ι → Option σ) : σ → List ι → Option σ
  | state, [] => some state
  | state, label :: rest => (step state label).bind (fun next => run step next rest)

/-- Each label meets the guard in the state in which it is performed. Labels
after a disabled one are never performed and are not constrained. -/
def Meets (step : σ → ι → Option σ) (guard : σ → ι → Prop) : σ → List ι → Prop
  | _, [] => True
  | state, label :: rest =>
      guard state label ∧ ∀ next, step state label = some next → Meets step guard next rest

/-- How a database call ends for its caller: committed and reported, not committed
and reported as an error, or committed and yet reported as an error. -/
inductive Outcome where
  | committed
  | failed
  | unreported
deriving DecidableEq, Repr

section Runs

variable (step : σ → ι → Option σ)

@[simp] theorem run_nil (state : σ) : run step state [] = some state := rfl

/-- A nonempty run is its first step followed by the rest. -/
theorem run_cons (state final : σ) (label : ι) (rest : List ι) :
    run step state (label :: rest) = some final ↔
      ∃ next, step state label = some next ∧ run step next rest = some final := by
  simp [run, Option.bind_eq_some_iff]

/-- Consecutive runs compose. -/
theorem run_append (state : σ) (first second : List ι) :
    run step state (first ++ second) =
      (run step state first).bind (fun middle => run step middle second) := by
  induction first generalizing state with
  | nil => rfl
  | cons label rest ih =>
    cases moved : step state label with
    | none => simp [run, moved]
    | some next => simpa [run, moved] using ih next

/-- The two halves of a guarded run are guarded, the second from the state in
which the first ends. -/
theorem meets_append (guard : σ → ι → Prop) (state : σ) (first second : List ι) :
    Meets step guard state (first ++ second) ↔
      Meets step guard state first ∧
        ∀ middle, run step state first = some middle → Meets step guard middle second := by
  induction first generalizing state with
  | nil => simp [Meets]
  | cons label rest ih =>
    simp only [List.cons_append, Meets, ih, run_cons]
    constructor
    · rintro ⟨here, later⟩
      refine ⟨⟨here, fun next moved => (later next moved).1⟩, ?_⟩
      rintro middle ⟨next, moved, reached⟩
      exact (later next moved).2 middle reached
    · rintro ⟨⟨here, later⟩, final⟩
      exact ⟨here, fun next moved =>
        ⟨later next moved, fun middle reached => final middle ⟨next, moved, reached⟩⟩⟩

/-- Whether a run meets a decidable guard can be evaluated along the run. -/
instance decidableMeets (guard : σ → ι → Prop) [∀ state label, Decidable (guard state label)] :
    (labels : List ι) → (state : σ) → Decidable (Meets step guard state labels)
  | [], _ => isTrue trivial
  | label :: rest, state =>
      match moved : step state label with
      | none => decidable_of_iff (guard state label)
          ⟨fun here => ⟨here, fun next enabled => by rw [moved] at enabled; cases enabled⟩,
            fun met => met.1⟩
      | some next =>
          have := decidableMeets guard rest next
          decidable_of_iff (guard state label ∧ Meets step guard next rest)
            ⟨fun met => ⟨met.1, fun other enabled =>
              Option.some.inj (moved.symm.trans enabled) ▸ met.2⟩,
              fun met => ⟨met.1, met.2 next moved⟩⟩

end Runs

section Invariants

variable {step : σ → ι → Option σ} {guard other : σ → ι → Prop} {state final : σ} {labels : List ι}

/-- An invariant that every guarded step keeps holds at the end of every guarded
run, hence in every state the run passes. -/
theorem invariant (holds : σ → Prop)
    (kept : ∀ {state label next}, holds state → guard state label →
      step state label = some next → holds next) (initially : holds state)
    (met : Meets step guard state labels) (reached : run step state labels = some final) :
    holds final := by
  induction labels generalizing state with
  | nil =>
    have same : state = final := Option.some.inj reached
    exact same ▸ initially
  | cons label rest ih =>
    obtain ⟨next, moved, continued⟩ := (run_cons step state final label rest).mp reached
    exact ih (kept initially met.1 moved) (met.2 next moved) continued

/-- An invariant that every step keeps needs no guard. -/
theorem always (holds : σ → Prop)
    (kept : ∀ {state label next}, holds state → step state label = some next → holds next)
    (initially : holds state) (reached : run step state labels = some final) : holds final := by
  have met : ∀ (labels : List ι) (state : σ), Meets step (fun _ _ => True) state labels := by
    intro labels
    induction labels with
    | nil => exact fun _ => trivial
    | cons _ _ ih => exact fun _ => ⟨trivial, fun next _ => ih next⟩
  exact invariant holds (fun before _ moved => kept before moved) initially (met _ _) reached

/-- In a run that gets through, an invariant and one guard give another guard at
every step. -/
theorem meets_of_invariant (holds : σ → Prop)
    (kept : ∀ {state label next}, holds state → guard state label →
      step state label = some next → holds next)
    (implied : ∀ {state label next}, holds state → guard state label →
      step state label = some next → other state label) (initially : holds state)
    (met : Meets step guard state labels) (reached : run step state labels = some final) :
    Meets step other state labels := by
  induction labels generalizing state with
  | nil => trivial
  | cons label rest ih =>
    obtain ⟨next, moved, continued⟩ := (run_cons step state final label rest).mp reached
    refine ⟨implied initially met.1 moved, fun same enabled => ?_⟩
    cases moved.symm.trans enabled
    exact ih (kept initially met.1 moved) (met.2 next moved) continued

/-- A reflexive and transitive relation that every step from an invariant state
respects relates the two ends of a run. -/
theorem relation (holds : σ → Prop) (related : σ → σ → Prop)
    (reflexive : ∀ state, related state state)
    (transitive : ∀ {first second third}, related first second → related second third →
      related first third)
    (kept : ∀ {state label next}, holds state → step state label = some next → holds next)
    (respected : ∀ {state label next}, holds state → step state label = some next →
      related state next) (initially : holds state)
    (reached : run step state labels = some final) : related state final :=
  (always (fun later => holds later ∧ related state later)
    (fun before moved => ⟨kept before.1 moved, transitive before.2 (respected before.1 moved)⟩)
    ⟨initially, reflexive state⟩ reached).2

end Invariants

end OctoMail.Transition
