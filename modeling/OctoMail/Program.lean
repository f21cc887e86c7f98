/-!
# Programs that run inside a transaction

A transaction body reads and changes a state and may fail; a failure discards every
change. Such a body is a program of type `StateT σ (Except ε) α`.

`Triple` is partial correctness: what holds of the result and the state whenever the
program succeeds. The rules follow the program's text: one for each way a body is
put together and one for the loops over a list. They name no particular state.
-/

namespace OctoMail.Program

universe u v
variable {σ α γ : Type u} {ε : Type v}

/-- From a state where `before` holds, every successful run ends with a result and a
state where `after` holds. -/
def Triple (before : σ → Prop) (program : StateT σ (Except ε) α) (after : α → σ → Prop) : Prop :=
  ∀ state result final, before state → program state = .ok (result, final) → after result final

/-- Fail under a condition. -/
def refuse (condition : Bool) (failure : ε) : StateT σ (Except ε) PUnit :=
  if condition then throw failure else pure ⟨⟩

/-- The value, or a failure where there is none. -/
def require (value : Option α) (failure : ε) : StateT σ (Except ε) α :=
  match value with
  | some found => pure found
  | none => throw failure

/-- Run a body for each element in turn and collect the results. -/
def each {β : Type u} (body : β → StateT σ (Except ε) α) : List β → StateT σ (Except ε) (List α)
  | [] => pure []
  | element :: rest => do
      let result ← body element
      let results ← each body rest
      return result :: results

/-! ### What a successful run did -/

section Runs

variable (state final : σ) (result : α)

@[simp] theorem pure_ok (value : α) :
    (Pure.pure value : StateT σ (Except ε) α) state = .ok (result, final) ↔
      value = result ∧ state = final := by
  constructor
  · intro ran
    exact Prod.mk.inj (Except.ok.inj ran)
  · rintro ⟨rfl, rfl⟩
    rfl

@[simp] theorem throw_ok (error : ε) :
    (MonadExcept.throw error : StateT σ (Except ε) α) state = .ok (result, final) ↔ False := by
  constructor
  · intro ran
    cases ran
  · exact False.elim

@[simp] theorem get_ok (read : σ) :
    (MonadState.get : StateT σ (Except ε) σ) state = .ok (read, final) ↔
      state = read ∧ state = final :=
  pure_ok state final read state

@[simp] theorem modify_ok (change : σ → σ) (done : PUnit) :
    (modify change : StateT σ (Except ε) PUnit) state = .ok (done, final) ↔
      change state = final := by
  constructor
  · intro ran
    exact (Prod.mk.inj (Except.ok.inj ran)).2
  · rintro rfl
    rfl

@[simp] theorem bind_ok (program : StateT σ (Except ε) γ) (next : γ → StateT σ (Except ε) α) :
    (program >>= next) state = .ok (result, final) ↔
      ∃ value between, program state = .ok (value, between) ∧
        next value between = .ok (result, final) := by
  have unfolded : (program >>= next) state =
      (program state >>= fun pair => next pair.1 pair.2) := rfl
  rw [unfolded]
  cases program state with
  | error failure =>
    constructor
    · intro ran
      cases ran
    · rintro ⟨value, between, began, _⟩
      cases began
  | ok pair =>
    constructor
    · intro ran
      exact ⟨pair.1, pair.2, rfl, ran⟩
    · rintro ⟨value, between, began, ran⟩
      obtain rfl := Except.ok.inj began
      exact ran

@[simp] theorem refuse_ok (condition : Bool) (failure : ε) (done : PUnit) :
    refuse condition failure state = .ok (done, final) ↔ condition = false ∧ state = final := by
  cases condition with
  | true | false => simp [refuse]

@[simp] theorem require_ok (value : Option α) (failure : ε) :
    require value failure state = .ok (result, final) ↔ value = some result ∧ state = final := by
  cases value with
  | none | some found => simp [require]

/-- A branch runs in the state it is reached in. -/
theorem ite_run (condition : Prop) [Decidable condition] (yes no : StateT σ (Except ε) α) :
    (if condition then yes else no) state = if condition then yes state else no state := by
  split <;> rfl

end Runs

/-! ### Rules -/

variable {before : σ → Prop} {after : α → σ → Prop} {last : γ → σ → Prop}
variable {program : StateT σ (Except ε) α} {next : α → StateT σ (Except ε) γ}

/-- A weaker assertion before and a stronger one after are enough. -/
theorem Triple.consequence {weaker : σ → Prop} {stronger : α → σ → Prop}
    (proved : Triple weaker program stronger) (entry : ∀ state, before state → weaker state)
    (exit : ∀ result state, stronger result state → after result state) :
    Triple before program after :=
  fun state result final held ran =>
    exit result final (proved state result final (entry state held) ran)

theorem Triple.pure (value : α) (holds : ∀ state, before state → after value state) :
    Triple before (Pure.pure value : StateT σ (Except ε) α) after := by
  intro state result final held ran
  obtain ⟨rfl, rfl⟩ := Prod.mk.inj (Except.ok.inj ran)
  exact holds _ held

theorem Triple.throw (error : ε) :
    Triple before (MonadExcept.throw error : StateT σ (Except ε) α) after := by
  intro state result final _ ran
  cases ran

theorem Triple.bind {middle : α → σ → Prop} (first : Triple before program middle)
    (second : ∀ value, Triple (middle value) (next value) last) :
    Triple before (program >>= next) last := by
  intro state result final held ran
  obtain ⟨value, between, began, continued⟩ := (bind_ok state final result program next).mp ran
  exact second value between result final (first state value between held began) continued

/-- Each branch is proved under its own condition. -/
theorem Triple.ite {condition : Prop} [Decidable condition] {other : StateT σ (Except ε) α}
    (yes : condition → Triple before program after) (no : ¬ condition → Triple before other after) :
    Triple before (if condition then program else other) after := by
  by_cases holds : condition
  · rw [if_pos holds]
    exact yes holds
  · rw [if_neg holds]
    exact no holds

theorem Triple.refuse {passed : PUnit → σ → Prop} (condition : Bool) (failure : ε)
    (holds : ∀ state, before state → condition = false → passed ⟨⟩ state) :
    Triple before (refuse condition failure) passed := by
  cases condition with
  | true => exact Triple.throw failure
  | false => exact Triple.pure _ (fun state held => holds state held rfl)

theorem Triple.require (value : Option α) (failure : ε)
    (holds : ∀ found state, before state → value = some found → after found state) :
    Triple before (require value failure) after := by
  cases value with
  | none => exact Triple.throw failure
  | some found => exact Triple.pure _ (fun state held => holds found state held rfl)

/-- What is known of a value if there is one is known of the value required. -/
theorem Triple.required {facts : α → σ → Prop} (value : Option α) (failure : ε) :
    Triple (fun state => before state ∧ ∀ found, value = some found → facts found state)
      (Program.require value failure) (fun found state => before state ∧ facts found state) :=
  Triple.require value failure fun found _ held some => ⟨held.1, held.2 found some⟩

/-- What does not depend on the state may be assumed beforehand. -/
theorem Triple.given {fact : Prop} (proved : fact → Triple before program after) :
    Triple (fun state => before state ∧ fact) program after :=
  fun state result final held ran => proved held.2 state result final held.1 ran

/-- Two assertions about one program hold together. -/
theorem Triple.and {also : σ → Prop} {then_ : α → σ → Prop} (first : Triple before program after)
    (second : Triple also program then_) :
    Triple (fun state => before state ∧ also state) program
      (fun result state => after result state ∧ then_ result state) :=
  fun state result final held ran =>
    ⟨first state result final held.1 ran, second state result final held.2 ran⟩

variable {β : Type u}

/-- A loop: the invariant speaks of the elements still to come. -/
theorem Triple.forM {body : β → StateT σ (Except ε) PUnit} (invariant : List β → σ → Prop)
    (kept : ∀ element rest,
      Triple (invariant (element :: rest)) (body element) (fun _ => invariant rest))
    (elements : List β) :
    Triple (invariant elements) (elements.forM body) (fun _ => invariant []) := by
  induction elements with
  | nil => exact Triple.pure _ (fun _ held => held)
  | cons element rest ih =>
    exact Triple.bind (kept element rest) (fun _ => ih)

theorem Triple.each {body : β → StateT σ (Except ε) α} (invariant : List β → σ → Prop)
    (kept : ∀ element rest,
      Triple (invariant (element :: rest)) (body element) (fun _ => invariant rest))
    (elements : List β) :
    Triple (invariant elements) (each body elements) (fun _ => invariant []) := by
  induction elements with
  | nil => exact Triple.pure _ (fun _ held => held)
  | cons element rest ih =>
    exact Triple.bind (kept element rest) fun _ =>
      Triple.bind ih fun _ => Triple.pure _ (fun _ held => held)

/-- A loop whose every pass keeps an assertion. -/
theorem Triple.forM_of_forall {body : β → StateT σ (Except ε) PUnit} (elements : List β)
    (kept : ∀ element ∈ elements, Triple before (body element) (fun _ => before)) :
    Triple before (elements.forM body) (fun _ => before) := by
  induction elements with
  | nil => exact Triple.pure _ (fun _ held => held)
  | cons element rest ih =>
    exact Triple.bind (kept element List.mem_cons_self) fun _ =>
      ih fun later member => kept later (List.mem_cons_of_mem _ member)

end OctoMail.Program
