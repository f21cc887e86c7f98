import Mathlib.Data.List.Basic
import OctoMail.Transition

/-!
# Callbacks of the coordinator

`Coordinator.Run` (`ops/ha/coordinator.go`) is one goroutine that campaigns until its
context is cancelled, and a goroutine for each Tick it launches. They share `wasLeader`
and `tickRunning`; every access to these, every call to the `Leader` and every callback
is one step. Of the `Leader` only the leadership connection matters here, and what the
database answers to `IsLeader`, `Heartbeat` and `TryAcquire` is chosen by the label. A
callback that is not set is one that does nothing.

The trace records the callbacks together with the beginnings and ends of the tenures.
The callbacks always alternate. They announce every tenure if no campaign acquires
leadership right after it has found it lost: such a campaign compares `wasLeader` with
itself and calls nobody.
-/

namespace OctoMail.Ha

open Transition

inductive Event where
  /-- `TryAcquire` checks a leadership connection out. -/
  | acquired
  /-- The leadership connection is given up. -/
  | released
  | onElected
  | onLost
deriving DecidableEq, Repr

/-- A Tick goroutine: before its check of `wasLeader`, inside Tick, after it, after
`tickRunning` is cleared, and gone. -/
inductive Tick where
  | launched
  | ticking
  | ticked
  | cleared
  | done
deriving DecidableEq, Repr

/-- What the Run goroutine does next; `prev` and `now` are the variables of `campaign`. -/
inductive Point where
  | campaigning
  | probing
  | beating
  | fenced
  | stepping
  | acquiring (prev : Bool)
  | publishing (prev now : Bool)
  | calling (prev now : Bool)
  | launching
  | starting
  | selecting
  | draining
  | leaving
  | resigning
  | returned
deriving DecidableEq, Repr

structure Coordinator where
  conn : Bool := false
  wasLeader : Bool := false
  tickRunning : Bool := false
  cancelled : Bool := false
  point : Point := .campaigning
  ticks : List Tick := []
  trace : List Event := []
deriving DecidableEq, Repr

/-- What a statement on the leadership connection reports: leadership is confirmed, an
error that leaves the connection open, or a closed connection or definite loss. -/
inductive Probe where
  | confirmed
  | transientError
  | lost
deriving DecidableEq, Repr

inductive CoordinatorLabel where
  /-- The next step of the Run goroutine, where it asks nobody. -/
  | run
  | isLeader (probe : Probe)
  | heartbeat (probe : Probe)
  | tryAcquire (won : Bool)
  /-- The select of Run takes the ticker. -/
  | ticker
  /-- The select of Run takes the cancelled context. -/
  | stop
  | cancel
  /-- The next step of a Tick goroutine. -/
  | tick (i : Nat)
deriving DecidableEq, Repr

namespace Coordinator

variable (c : Coordinator)

def at_ (point : Point) : Coordinator := { c with point := point }

def record (event : Event) : Coordinator := { c with trace := c.trace ++ [event] }

/-- `Leader.release`. -/
def release : Coordinator := if c.conn then { c with conn := false }.record .released else c

/-- `IsLeader` and `Heartbeat`: the answer, and the state they leave. -/
def probe (answer : Probe) : Bool × Coordinator :=
  if c.conn = false then (false, c)
  else
    match answer with
    | .confirmed | .transientError => (true, c)
    | .lost => (false, c.release)

/-- `TryAcquire`; an error counts as not won. -/
def tryAcquire (won : Bool) : Bool × Coordinator :=
  if c.conn then (true, c)
  else if won then (true, { c with conn := true }.record .acquired)
  else (false, c)

/-- The callback of a campaign. -/
def callbacks (prev now : Bool) : List Event :=
  if now && !prev then [.onElected] else if !now && prev then [.onLost] else []

/-- The steps of Run that only touch the coordinator. -/
def run : Option Coordinator :=
  match c.point with
  | .campaigning => some (c.at_ (if c.wasLeader then .probing else .acquiring false))
  | .fenced => some ({ c with wasLeader := false }.at_ .stepping)
  | .stepping => some ((c.record .onLost).at_ .selecting)
  | .publishing prev now => some ({ c with wasLeader := now }.at_ (.calling prev now))
  | .calling prev now => some ({ c with trace := c.trace ++ callbacks prev now }.at_
      (if now then .launching else .selecting))
  | .launching =>
      if c.tickRunning then some (c.at_ .selecting)
      else some ({ c with tickRunning := true }.at_ .starting)
  | .starting => some ({ c with ticks := c.ticks ++ [Tick.launched] }.at_ .selecting)
  -- `tickWG.Wait`
  | .draining => if c.ticks.all (fun tick => tick = .done) then some (c.at_ .leaving) else none
  | .leaving =>
      if c.wasLeader then some ({ c with wasLeader := false }.record .onLost |>.at_ .resigning)
      else some (c.at_ .resigning)
  | .resigning => some (c.release.at_ .returned)
  | _ => none

/-- The steps of a Tick goroutine. -/
def tick (i : Nat) : Option Coordinator :=
  match c.ticks[i]? with
  | some .launched =>
      if !c.wasLeader || c.cancelled then some { c with ticks := c.ticks.set i .ticked }
      else some { c with ticks := c.ticks.set i .ticking }
  | some .ticking => some { c with ticks := c.ticks.set i .ticked }
  | some .ticked => some { c with ticks := c.ticks.set i .cleared, tickRunning := false }
  | some .cleared => some { c with ticks := c.ticks.set i .done }
  | some .done => none
  | none => none

def step (c : Coordinator) : CoordinatorLabel → Option Coordinator
  | .run => c.run
  | .isLeader answer =>
      if c.point = .probing then
        let (leads, next) := c.probe answer
        some (next.at_ (if leads then .beating else .acquiring true))
      else none
  | .heartbeat answer =>
      if c.point = .beating then
        let (leads, next) := c.probe answer
        some (next.at_ (if leads then .publishing true true else .fenced))
      else none
  | .tryAcquire won =>
      match c.point with
      | .acquiring prev =>
          let (now, next) := c.tryAcquire won
          some (next.at_ (.publishing prev now))
      | _ => none
  | .ticker => if c.point = .selecting then some (c.at_ .campaigning) else none
  | .stop => if c.point = .selecting ∧ c.cancelled = true then some (c.at_ .draining) else none
  | .cancel => some { c with cancelled := true }
  | .tick i => c.tick i

end Coordinator

/-! ### What the callbacks should say -/

/-- A tenure and its callbacks. A tenure ends before `OnLost`, or after it if the
coordinator resigns. -/
inductive Tenure where
  | none_
  | won
  | leading
  | finished
  | resigning
deriving DecidableEq, Repr

def Tenure.step : Tenure → Event → Option Tenure
  | none_, .acquired => some won
  | won, .onElected => some leading
  | leading, .released => some finished
  | finished, .onLost => some none_
  | leading, .onLost => some resigning
  | resigning, .released => some none_
  | _, _ => none

def Event.isCallback : Event → Bool
  | onElected | onLost => true
  | acquired | released => false

/-- Two values take turns. -/
def Alternates {α : Type} (first second : α) : List α → Prop
  | [] => True
  | value :: rest => value = first ∧ Alternates second first rest

/-- The callbacks so far end with `OnElected`, or a tenure is announced. -/
def announce : Bool → Event → Option Bool
  | false, .onElected => some true
  | true, .onLost => some false
  | announced, .acquired | announced, .released => some announced
  | _, _ => none

theorem announce_alternates {announced final : Bool} {trace : List Event}
    (reached : Transition.run announce announced trace = some final) :
    Alternates (if announced then Event.onLost else .onElected)
      (if announced then Event.onElected else .onLost)
      (trace.filter Event.isCallback) := by
  induction trace generalizing announced with
  | nil => trivial
  | cons event rest ih =>
    obtain ⟨next, moved, later⟩ := (run_cons _ _ _ _ _).mp reached
    have others := ih later
    cases event <;> cases announced <;> cases moved <;>
      first
      | exact others
      | exact ⟨rfl, others⟩

/-- A tenure that no callback has announced yet. -/
def Tenure.unannounced : Tenure → Nat
  | won => 1
  | _ => 0

/-- An end that no callback has announced yet. -/
def Tenure.ended : Tenure → Nat
  | finished => 1
  | _ => 0

/-- A callback that comes before the end it announces. -/
def Tenure.ending : Tenure → Nat
  | resigning => 1
  | _ => 0

/-- There is a callback for each beginning and for each end. -/
theorem tenure_counts {start final : Tenure} {trace : List Event}
    (reached : Transition.run Tenure.step start trace = some final) :
    start.unannounced + trace.count .acquired = trace.count .onElected + final.unannounced ∧
      start.ended + trace.count .released + final.ending =
        start.ending + trace.count .onLost + final.ended := by
  induction trace generalizing start with
  | nil =>
    cases reached
    simp [Nat.add_comm]
  | cons event rest ih =>
    obtain ⟨next, moved, later⟩ := (run_cons _ _ _ _ _).mp reached
    have counts := ih later
    cases event <;> cases start <;> cases moved <;>
      simp [Tenure.unannounced, Tenure.ended, Tenure.ending] at counts ⊢ <;> omega

namespace Coordinator

/-! ### The callbacks -/

/-- `OnElected` was called last, in the view of the Run goroutine. -/
def announced (c : Coordinator) : Bool :=
  match c.point with
  | .campaigning | .selecting | .draining | .leaving => c.wasLeader
  | .probing | .beating | .fenced | .stepping | .launching | .starting => true
  | .acquiring prev | .publishing prev _ | .calling prev _ => prev
  | .resigning | .returned => false

def tenure (c : Coordinator) : Tenure :=
  match c.announced, c.conn with
  | false, false => .none_
  | true, true => .leading
  | true, false => .finished
  | false, true => if c.point = .resigning then .resigning else .won

/-- The cached flag and the variables of `campaign` agree with the connection. -/
def Coherent (c : Coordinator) : Prop :=
  match c.point with
  | .campaigning | .selecting | .draining | .leaving => c.conn = c.wasLeader
  | .probing | .beating | .launching | .starting => c.conn = true ∧ c.wasLeader = true
  | .fenced => c.conn = false ∧ c.wasLeader = true
  | .stepping => c.conn = false ∧ c.wasLeader = false
  | .acquiring prev => c.conn = false ∧ c.wasLeader = prev
  | .publishing prev now => c.conn = now ∧ c.wasLeader = prev
  | .calling _ now => c.conn = now ∧ c.wasLeader = now
  | .resigning => c.wasLeader = false
  | .returned => c.conn = false ∧ c.wasLeader = false

/-- The label does not acquire leadership in the campaign that found it lost. -/
def NotRegained (c : Coordinator) : CoordinatorLabel → Prop
  | .tryAcquire won => ¬ (won = true ∧ c.point = .acquiring true)
  | _ => True

instance (c : Coordinator) (label : CoordinatorLabel) : Decidable (c.NotRegained label) := by
  unfold NotRegained
  split <;> infer_instance

/-- What a step adds to the trace. -/
structure Tells (c next : Coordinator) (fresh : Prop) : Prop where
  coherent : next.Coherent
  events : ∃ events, next.trace = c.trace ++ events ∧
    Transition.run announce c.announced events = some next.announced ∧
    (fresh → Transition.run Tenure.step c.tenure events = some next.tenure)

variable {c next : Coordinator} {i : Nat} {label : CoordinatorLabel}

variable {fresh : Prop}

theorem Tells.silent (coherent : next.Coherent)
    (trace : next.trace = c.trace) (announced : next.announced = c.announced)
    (tenure : next.tenure = c.tenure) : Tells c next fresh :=
  ⟨coherent, [], by rw [trace, List.append_nil], by rw [announced]; rfl,
    fun _ => by rw [tenure]; rfl⟩

theorem Tells.event (event : Event)
    (coherent : next.Coherent) (trace : next.trace = c.trace ++ [event])
    (announced : announce c.announced event = some next.announced)
    (tenure : fresh → c.tenure.step event = some next.tenure) : Tells c next fresh := by
  refine ⟨coherent, [event], trace, ?_, fun holds => ?_⟩
  · exact (run_cons _ _ _ _ _).mpr ⟨_, announced, rfl⟩
  · exact (run_cons _ _ _ _ _).mpr ⟨_, tenure holds, rfl⟩

/-- The steps of the Run goroutine that ask nobody. -/
theorem run_tells (coherent : c.Coherent)
    (moved : c.run = some next) : Tells c next fresh := by
  obtain ⟨conn, wasLeader, tickRunning, cancelled, point, ticks, trace⟩ := c
  cases point with
  | campaigning =>
    cases moved
    cases coherent
    cases conn
    · exact .silent ⟨rfl, rfl⟩ rfl rfl rfl
    · exact .silent ⟨rfl, rfl⟩ rfl rfl rfl
  | fenced =>
    cases moved
    obtain ⟨rfl, rfl⟩ := coherent
    exact .silent ⟨rfl, rfl⟩ rfl rfl rfl
  | stepping =>
    cases moved
    obtain ⟨rfl, rfl⟩ := coherent
    exact .event .onLost rfl rfl rfl fun _ => rfl
  | publishing prev now =>
    cases moved
    obtain ⟨held, cached⟩ : conn = now ∧ wasLeader = prev := coherent
    subst held cached
    exact .silent ⟨rfl, rfl⟩ rfl rfl rfl
  | calling prev now =>
    cases moved
    obtain ⟨held, cached⟩ : conn = now ∧ wasLeader = now := coherent
    subst held cached
    cases prev <;> cases wasLeader
    · exact .silent rfl (List.append_nil _) rfl rfl
    · exact .event .onElected ⟨rfl, rfl⟩ rfl rfl fun _ => rfl
    · exact .event .onLost rfl rfl rfl fun _ => rfl
    · exact .silent ⟨rfl, rfl⟩ (List.append_nil _) rfl rfl
  | launching =>
    obtain ⟨rfl, rfl⟩ := coherent
    cases tickRunning
    · cases moved
      exact .silent ⟨rfl, rfl⟩ rfl rfl rfl
    · cases moved
      exact .silent rfl rfl rfl rfl
  | starting =>
    cases moved
    obtain ⟨rfl, rfl⟩ := coherent
    exact .silent rfl rfl rfl rfl
  | draining =>
    simp only [run] at moved
    split at moved
    · cases moved
      exact .silent coherent rfl rfl rfl
    · cases moved
  | leaving =>
    cases coherent
    cases conn
    · cases moved
      exact .silent rfl rfl rfl rfl
    · cases moved
      exact .event .onLost rfl rfl rfl fun _ => rfl
  | resigning =>
    cases moved
    cases coherent
    cases conn
    · exact .silent ⟨rfl, rfl⟩ rfl rfl rfl
    · exact .event .released ⟨rfl, rfl⟩ rfl rfl fun _ => rfl
  | _ => cases moved

/-- A Tick goroutine touches neither the trace nor what the callbacks depend on. -/
theorem tick_tells (coherent : c.Coherent)
    (moved : c.tick i = some next) : Tells c next fresh := by
  unfold tick at moved
  split at moved
  · split at moved <;> cases moved <;> exact .silent coherent rfl rfl rfl
  all_goals cases moved <;> exact .silent coherent rfl rfl rfl

theorem step_tells (coherent : c.Coherent)
    (moved : c.step label = some next) : Tells c next (c.NotRegained label) := by
  obtain ⟨conn, wasLeader, tickRunning, cancelled, point, ticks, trace⟩ := c
  cases label with
  | run => exact run_tells coherent moved
  | tick => exact tick_tells coherent moved
  | cancel =>
    cases moved
    exact .silent coherent rfl rfl rfl
  | ticker =>
    simp only [step] at moved
    split at moved <;> try contradiction
    rename_i selecting
    cases selecting
    cases moved
    exact .silent coherent rfl rfl rfl
  | stop =>
    simp only [step] at moved
    split at moved <;> try contradiction
    rename_i selecting
    cases selecting.1
    cases moved
    exact .silent coherent rfl rfl rfl
  | isLeader answer =>
    simp only [step] at moved
    split at moved <;> try contradiction
    rename_i probing
    cases probing
    cases moved
    obtain ⟨rfl, rfl⟩ := coherent
    cases answer
    · exact .silent ⟨rfl, rfl⟩ rfl rfl rfl
    · exact .silent ⟨rfl, rfl⟩ rfl rfl rfl
    · exact .event .released ⟨rfl, rfl⟩ rfl rfl fun _ => rfl
  | heartbeat answer =>
    simp only [step] at moved
    split at moved <;> try contradiction
    rename_i beating
    cases beating
    cases moved
    obtain ⟨rfl, rfl⟩ := coherent
    cases answer
    · exact .silent ⟨rfl, rfl⟩ rfl rfl rfl
    · exact .silent ⟨rfl, rfl⟩ rfl rfl rfl
    · exact .event .released ⟨rfl, rfl⟩ rfl rfl fun _ => rfl
  | tryAcquire won =>
    cases point with
    | acquiring prev =>
      cases moved
      obtain ⟨unheld, cached⟩ : conn = false ∧ wasLeader = prev := coherent
      subst unheld cached
      cases won
      · exact .silent ⟨rfl, rfl⟩ rfl rfl rfl
      · cases wasLeader
        · exact .event .acquired ⟨rfl, rfl⟩ rfl rfl fun _ => rfl
        -- The callbacks have announced a tenure that is over, and another one begins.
        · exact .event .acquired ⟨rfl, rfl⟩ rfl rfl fun fresh => absurd ⟨rfl, rfl⟩ fresh
    | _ => cases moved

/-! ### One Tick at a time -/

/-- The goroutine has not cleared `tickRunning` yet. -/
def active : Tick → Bool
  | .launched | .ticking | .ticked => true
  | .cleared | .done => false

/-- `tickRunning` is set for one goroutine, which is launched or about to be. -/
def SingleFlight (c : Coordinator) : Prop :=
  c.ticks.countP active + (if c.point = .starting then 1 else 0) = if c.tickRunning then 1 else 0

theorem count_active {ticks : List Tick} {old : Tick} (found : ticks[i]? = some old)
    (new : Tick) : (ticks.set i new).countP active + (if active old then 1 else 0) =
      ticks.countP active + (if active new then 1 else 0) := by
  obtain ⟨bound, same⟩ := List.getElem?_eq_some_iff.mp found
  have positive : active old = true → 0 < ticks.countP active := fun on =>
    List.countP_pos_iff.mpr ⟨old, List.mem_of_getElem? found, on⟩
  rw [List.countP_set bound, same]
  cases on : active old with
  | false => simp
  | true =>
    have := positive on
    simp only [if_true]
    omega

/-- A goroutine that goes on while it has not cleared `tickRunning`. -/
theorem SingleFlight.go {c : Coordinator} {i : Nat} {old new : Tick} (single : c.SingleFlight)
    (found : c.ticks[i]? = some old) (same : active old = active new) :
    SingleFlight { c with ticks := c.ticks.set i new } := by
  have counted := count_active found new
  rw [same] at counted
  unfold SingleFlight at single ⊢
  dsimp only
  omega

theorem tick_singleFlight (single : c.SingleFlight)
    (moved : c.tick i = some next) : next.SingleFlight := by
  unfold tick at moved
  split at moved
  · rename_i found
    split at moved
    · cases moved
      exact single.go found rfl
    · cases moved
      exact single.go found rfl
  · rename_i found
    cases moved
    exact single.go found rfl
  · rename_i found
    cases moved
    have counted := count_active found .cleared
    simp only [active, if_true] at counted
    unfold SingleFlight at single ⊢
    have one : (if c.tickRunning then 1 else 0) ≤ 1 := by split <;> omega
    simp only [Bool.false_eq_true, if_false] at counted ⊢
    omega
  · rename_i found
    cases moved
    exact single.go found rfl
  · cases moved
  · cases moved

/-- The point changes, and neither before nor after it is a goroutine about to be launched. -/
theorem SingleFlight.at_ (single : c.SingleFlight)
    (ticks : next.ticks = c.ticks) (running : next.tickRunning = c.tickRunning)
    (before : c.point ≠ .starting) (after : next.point ≠ .starting) : next.SingleFlight := by
  unfold SingleFlight at single ⊢
  rw [if_neg before] at single
  rw [if_neg after, ticks, running]
  exact single

theorem run_singleFlight (single : c.SingleFlight)
    (moved : c.run = some next) : next.SingleFlight := by
  obtain ⟨conn, wasLeader, tickRunning, cancelled, point, ticks, trace⟩ := c
  cases point with
  | launching =>
    cases tickRunning
    · cases moved
      unfold SingleFlight at single ⊢
      simpa [Coordinator.at_] using single
    · cases moved
      exact single.at_ rfl rfl nofun nofun
  | starting =>
    cases moved
    unfold SingleFlight at single ⊢
    cases tickRunning
    · simp at single
    · simpa [Coordinator.at_, List.countP_append, active] using single
  | campaigning =>
    cases moved
    exact single.at_ rfl rfl nofun (by cases wasLeader <;> nofun)
  | calling _ now =>
    cases moved
    exact single.at_ rfl rfl nofun (by cases now <;> nofun)
  | fenced | stepping | publishing =>
    cases moved
    exact single.at_ rfl rfl nofun nofun
  | draining =>
    simp only [run] at moved
    split at moved
    · cases moved
      exact single.at_ rfl rfl nofun nofun
    · cases moved
  | leaving =>
    cases wasLeader <;> cases Option.some.inj moved <;> exact single.at_ rfl rfl nofun nofun
  | resigning =>
    cases moved
    cases conn <;> exact single.at_ rfl rfl nofun nofun
  | _ => cases moved

theorem probe_ticks (c : Coordinator) (answer : Probe) :
    (c.probe answer).2.ticks = c.ticks ∧ (c.probe answer).2.tickRunning = c.tickRunning := by
  unfold probe release
  split
  · exact ⟨rfl, rfl⟩
  · cases answer
    · exact ⟨rfl, rfl⟩
    · exact ⟨rfl, rfl⟩
    · dsimp only
      split <;> exact ⟨rfl, rfl⟩

theorem tryAcquire_ticks (c : Coordinator) (won : Bool) :
    (c.tryAcquire won).2.ticks = c.ticks ∧
      (c.tryAcquire won).2.tickRunning = c.tickRunning := by
  unfold tryAcquire
  split
  · exact ⟨rfl, rfl⟩
  · split <;> exact ⟨rfl, rfl⟩

theorem step_singleFlight
    (single : c.SingleFlight) (moved : c.step label = some next) : next.SingleFlight := by
  cases label with
  | run => exact run_singleFlight single moved
  | tick => exact tick_singleFlight single moved
  | cancel =>
    cases moved
    exact single
  | ticker =>
    simp only [step] at moved
    split at moved <;> try contradiction
    rename_i selecting
    cases moved
    exact single.at_ rfl rfl (by rw [selecting]; nofun) nofun
  | stop =>
    simp only [step] at moved
    split at moved <;> try contradiction
    rename_i selecting
    cases moved
    exact single.at_ rfl rfl (by rw [selecting.1]; nofun) nofun
  | isLeader answer =>
    simp only [step] at moved
    split at moved <;> try contradiction
    rename_i probing
    cases moved
    obtain ⟨ticks, running⟩ := c.probe_ticks answer
    refine single.at_ ticks running (by rw [probing]; nofun) ?_
    cases (c.probe answer).1 <;> nofun
  | heartbeat answer =>
    simp only [step] at moved
    split at moved <;> try contradiction
    rename_i beating
    cases moved
    obtain ⟨ticks, running⟩ := c.probe_ticks answer
    refine single.at_ ticks running (by rw [beating]; nofun) ?_
    cases (c.probe answer).1 <;> nofun
  | tryAcquire won =>
    simp only [step] at moved
    split at moved <;> try contradiction
    rename_i acquiring
    cases moved
    obtain ⟨ticks, running⟩ := c.tryAcquire_ticks won
    exact single.at_ ticks running (by rw [acquiring]; nofun) nofun

/-! ### Runs -/

/-- What every run keeps. -/
structure Inv (c : Coordinator) : Prop where
  coherent : c.Coherent
  single : c.SingleFlight
  alternates : Transition.run announce false c.trace = some c.announced

theorem step_inv (inv : c.Inv) (moved : c.step label = some next) : next.Inv := by
  obtain ⟨coherent, events, trace, told, _⟩ := step_tells inv.coherent moved
  refine ⟨coherent, step_singleFlight inv.single moved, ?_⟩
  rw [trace, run_append, inv.alternates]
  exact told

theorem initial_coherent : Coherent {} := rfl

theorem run_inv {labels : List CoordinatorLabel} {final : Coordinator}
    (reached : Transition.run step {} labels = some final) : final.Inv :=
  always Inv step_inv ⟨initial_coherent, rfl, rfl⟩ reached

/-- The trace is one of tenures that are each announced. -/
theorem run_tenures {labels : List CoordinatorLabel} {final : Coordinator}
    (fresh : Meets step NotRegained {} labels)
    (reached : Transition.run step {} labels = some final) :
    Transition.run Tenure.step .none_ final.trace = some final.tenure := by
  have kept : final.Coherent ∧ Transition.run Tenure.step .none_ final.trace = some final.tenure := by
    refine invariant (fun c => c.Coherent ∧
      Transition.run Tenure.step .none_ c.trace = some c.tenure)
      (fun {c label next} before fresh moved => ?_) ⟨initial_coherent, rfl⟩ fresh reached
    obtain ⟨coherent, events, trace, _, told⟩ := step_tells before.1 moved
    refine ⟨coherent, ?_⟩
    rw [trace, run_append, before.2]
    exact told fresh
  exact kept.2

/-- Between two campaigns and at the end of Run no tenure is half announced. -/
theorem tenure_at_rest (coherent : c.Coherent) (rest : c.point = .selecting ∨ c.point = .returned) :
    c.tenure = .none_ ∨ c.tenure = .leading := by
  obtain ⟨conn, wasLeader, tickRunning, cancelled, point, ticks, trace⟩ := c
  rcases rest with selecting | returned
  · cases selecting
    cases coherent
    cases conn
    · exact .inl rfl
    · exact .inr rfl
  · cases returned
    obtain ⟨rfl, rfl⟩ := coherent
    exact .inl rfl

theorem ticking_le_one (single : c.SingleFlight) : c.ticks.count .ticking ≤ 1 := by
  have among : c.ticks.count .ticking ≤ c.ticks.countP active :=
    List.countP_mono_left fun tick _ same => by rw [beq_iff_eq.mp same]; rfl
  have flying : (if c.tickRunning then 1 else 0) ≤ 1 := by split <;> omega
  unfold SingleFlight at single
  omega

end Coordinator

/-- `OnElected` and `OnLost` take turns and at most one Tick runs, in every run. If no campaign
acquires leadership right after it found it lost, every tenure is announced by callbacks of
its own: when a campaign is over, and when Run has returned, there was one `OnElected` for
each acquisition and one `OnLost` for each end. -/
theorem callbacks_follow_tenures (labels : List CoordinatorLabel) (final : Coordinator)
    (reached : Transition.run Coordinator.step {} labels = some final) :
    Alternates .onElected .onLost (final.trace.filter Event.isCallback) ∧
      final.ticks.count .ticking ≤ 1 ∧
      (Meets Coordinator.step Coordinator.NotRegained {} labels →
        (Transition.run Tenure.step .none_ final.trace).isSome ∧
          (final.point = .selecting ∨ final.point = .returned →
            final.trace.count .onElected = final.trace.count .acquired ∧
              final.trace.count .onLost = final.trace.count .released)) := by
  have inv := Coordinator.run_inv reached
  refine ⟨announce_alternates inv.alternates, Coordinator.ticking_le_one inv.single, fun fresh => ?_⟩
  have tenures := Coordinator.run_tenures fresh reached
  refine ⟨Option.isSome_iff_exists.mpr ⟨_, tenures⟩, fun rest => ?_⟩
  have counts := tenure_counts tenures
  rcases Coordinator.tenure_at_rest inv.coherent rest with none_ | leading
  · rw [none_] at counts
    simp only [Tenure.unannounced, Tenure.ended, Tenure.ending] at counts
    omega
  · rw [leading] at counts
    simp only [Tenure.unannounced, Tenure.ended, Tenure.ending] at counts
    omega

/-! ### Lost and won again -/

/-- The first campaign wins and starts a Tick. -/
def elected : List CoordinatorLabel :=
  [.run, .tryAcquire true, .run, .run, .run, .run]

/-- The second campaign is fenced, the third wins, and Run returns while a Tick runs. -/
def fencedOut : List CoordinatorLabel :=
  elected ++ [.tick 0, .ticker, .run, .isLeader .confirmed, .heartbeat .lost, .run, .run, .ticker,
    .run, .tryAcquire true, .run, .run, .run, .cancel, .stop, .tick 0, .tick 0, .tick 0, .run, .run,
    .run]

theorem fencedOut_follows :
    ∃ final, Transition.run Coordinator.step {} fencedOut = some final ∧
      (final.point = .returned ∧ final.trace.count .acquired = 2) ∧
      Alternates .onElected .onLost (final.trace.filter Event.isCallback) ∧
      final.ticks.count .ticking ≤ 1 ∧
      (Meets Coordinator.step Coordinator.NotRegained {} fencedOut →
        (Transition.run Tenure.step .none_ final.trace).isSome ∧
          (final.point = .selecting ∨ final.point = .returned →
            final.trace.count .onElected = final.trace.count .acquired ∧
              final.trace.count .onLost = final.trace.count .released)) ∧
      Meets Coordinator.step Coordinator.NotRegained {} fencedOut := by
  have ended : (Transition.run Coordinator.step {} fencedOut).map
      (fun c => (c.point, c.trace.count .acquired)) = some (.returned, 2) := by decide
  obtain ⟨final, reached, shape⟩ := Option.map_eq_some_iff.mp ended
  obtain ⟨alternates, single, follows⟩ := callbacks_follow_tenures fencedOut final reached
  exact ⟨final, reached, Prod.mk.inj shape, alternates, single, follows, by decide⟩

/-- The second campaign finds the lock gone and wins it again. -/
def regained : List CoordinatorLabel :=
  elected ++ [.ticker, .run, .isLeader .lost, .tryAcquire true, .run, .run, .run]

/-- A tenure has ended and another has begun, and nobody was called. -/
theorem regained_unannounced :
    ∃ final, Transition.run Coordinator.step {} regained = some final ∧
      final.point = .selecting ∧
      final.trace = [.acquired, .onElected, .released, .acquired] := by
  have ended : (Transition.run Coordinator.step {} regained).map (fun c => (c.point, c.trace)) =
      some (.selecting, [.acquired, .onElected, .released, .acquired]) := by decide
  obtain ⟨final, reached, shape⟩ := Option.map_eq_some_iff.mp ended
  exact ⟨final, reached, Prod.mk.inj shape⟩

end OctoMail.Ha
