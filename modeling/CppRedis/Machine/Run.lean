import Mathlib.Data.List.Basic

/-! # Finite runs of a deterministic labeled machine

A machine is a total step function; nondeterminism (which thread moves, what the network delivers,
what lies in memory nobody wrote) is carried by the labels. `Always` speaks about every state of a
run, `Along` about every step together with the state it is taken in, and `outputs` collects what
the steps emit. The rules below turn facts about one step into facts about whole runs. When a step
condition is exact at every single step, `always_iff_along` makes it exact for every run.
-/

namespace CppRedis.Machine

variable {σ ε ω : Type*}

/-- The state after a finite sequence of labels. -/
def run (step : σ → ε → σ) (source : σ) (events : List ε) : σ := events.foldl step source

/-- The property holds in the source and in every state reached on the way. -/
def Always (step : σ → ε → σ) (holds : σ → Prop) : σ → List ε → Prop
  | source, [] => holds source
  | source, event :: rest => holds source ∧ Always step holds (step source event) rest

instance decidableAlways (step : σ → ε → σ) (holds : σ → Prop) [DecidablePred holds] (source : σ) :
    (events : List ε) → Decidable (Always step holds source events)
  | [] => inferInstanceAs (Decidable (holds source))
  | event :: rest =>
      let _ := decidableAlways step holds (step source event) rest
      inferInstanceAs (Decidable (_ ∧ _))

/-- Every step meets the condition in the state in which it is taken. -/
def Along (step : σ → ε → σ) (meets : σ → ε → Prop) : σ → List ε → Prop
  | _, [] => True
  | source, event :: rest => meets source event ∧ Along step meets (step source event) rest

instance decidableAlong (step : σ → ε → σ) (meets : σ → ε → Prop)
    [∀ source event, Decidable (meets source event)] (source : σ) :
    (events : List ε) → Decidable (Along step meets source events)
  | [] => inferInstanceAs (Decidable True)
  | event :: rest =>
      let _ := decidableAlong step meets (step source event) rest
      inferInstanceAs (Decidable (_ ∧ _))

/-- Everything the steps emit, in order. -/
def outputs (step : σ → ε → σ) (emit : σ → ε → List ω) : σ → List ε → List ω
  | _, [] => []
  | source, event :: rest => emit source event ++ outputs step emit (step source event) rest

variable (step : σ → ε → σ)

@[simp] theorem run_nil (source : σ) : run step source [] = source := rfl

@[simp] theorem run_cons (source : σ) (event : ε) (rest : List ε) :
    run step source (event :: rest) = run step (step source event) rest := rfl

theorem outputs_map {υ : Type*} (emit : σ → ε → List ω) (view : ω → υ) (source : σ) (events : List ε) :
    outputs step (fun source event => (emit source event).map view) source events =
      (outputs step emit source events).map view := by
  induction events generalizing source with
  | nil => rfl
  | cons event rest ih => simp only [outputs, ih, List.map_append]

/-- What depends on the labels alone is emitted label by label. -/
theorem outputs_eq_flatMap (emit : ε → List ω) (source : σ) (events : List ε) :
    outputs step (fun _ => emit) source events = events.flatMap emit := by
  induction events generalizing source with
  | nil => rfl
  | cons event rest ih => rw [outputs, ih, List.flatMap_cons]

/-- `Always` quantifies over the states after all prefixes of the tape. -/
theorem always_iff_initial (holds : σ → Prop) (source : σ) (events : List ε) :
    Always step holds source events ↔
      ∀ first, first <+: events → holds (run step source first) := by
  induction events generalizing source with
  | nil => simp only [Always, List.prefix_nil, forall_eq, run_nil]
  | cons event rest ih =>
    simp only [Always, ih]
    constructor
    · rintro ⟨here, later⟩ first before
      cases first with
      | nil => exact here
      | cons head tail =>
        obtain ⟨rfl, within⟩ := List.cons_prefix_cons.mp before
        exact later tail within
    · intro all
      refine ⟨all [] (List.nil_prefix), fun first before => ?_⟩
      exact all (event :: first) (List.cons_prefix_cons.mpr ⟨rfl, before⟩)

theorem Always.head {step : σ → ε → σ} {holds : σ → Prop} {source : σ} {events : List ε}
    (always : Always step holds source events) : holds source := by
  cases events with
  | nil => exact always
  | cons _ _ => exact always.1

theorem Always.last {step : σ → ε → σ} {holds : σ → Prop} {source : σ} {events : List ε}
    (always : Always step holds source events) : holds (run step source events) :=
  (always_iff_initial step holds source events).mp always events (List.prefix_refl _)

/-- An inductive invariant holds after every run. -/
theorem run_invariant {step : σ → ε → σ} (inv : σ → Prop)
    (preserved : ∀ source event, inv source → inv (step source event))
    {source : σ} (initial : inv source) (events : List ε) : inv (run step source events) := by
  induction events generalizing source with
  | nil => exact initial
  | cons event rest ih => exact ih (preserved source event initial)

/-- What every step emits from a state of an invariant, a whole run emits. -/
theorem forall_mem_outputs {step : σ → ε → σ} (inv : σ → Prop) {emit : σ → ε → List ω} {good : ω → Prop}
    (preserved : ∀ source event, inv source → inv (step source event))
    (emits : ∀ source event, inv source → ∀ output ∈ emit source event, good output)
    {source : σ} (initial : inv source) (events : List ε) :
    ∀ output ∈ outputs step emit source events, good output := by
  induction events generalizing source with
  | nil => exact nofun
  | cons event rest ih =>
    intro output member
    rcases List.mem_append.mp member with now | later
    · exact emits source event initial output now
    · exact ih (preserved source event initial) output later

theorem along_of_forall {step : σ → ε → σ} {meets : σ → ε → Prop} (all : ∀ source event, meets source event)
    (source : σ) (events : List ε) : Along step meets source events := by
  induction events generalizing source with
  | nil => trivial
  | cons event rest ih => exact ⟨all source event, ih (step source event)⟩

/-- A machine that gives out at the front what it takes in at the back, in every step that meets a condition,
gives out over a whole run what it took in, less what it still holds. -/
theorem outputs_append_held_along {step : σ → ε → σ} (inv : σ → Prop) (held : σ → List ω)
    {give take : σ → ε → List ω} {meets : σ → ε → Prop}
    (preserved : ∀ source event, inv source → meets source event → inv (step source event))
    (balanced : ∀ source event, inv source → meets source event →
      give source event ++ held (step source event) = held source ++ take source event)
    {source : σ} (initial : inv source) {events : List ε} (along : Along step meets source events) :
    outputs step give source events ++ held (run step source events) =
      held source ++ outputs step take source events := by
  induction events generalizing source with
  | nil => simp only [outputs, run_nil, List.nil_append, List.append_nil]
  | cons event rest ih =>
    obtain ⟨here, later⟩ := along
    rw [outputs, outputs, run_cons, List.append_assoc, ih (preserved source event initial here) later,
      ← List.append_assoc, balanced source event initial here, List.append_assoc]

/-- The same when every step balances. -/
theorem outputs_append_held {step : σ → ε → σ} (inv : σ → Prop) (held : σ → List ω)
    {give take : σ → ε → List ω} (preserved : ∀ source event, inv source → inv (step source event))
    (balanced : ∀ source event, inv source →
      give source event ++ held (step source event) = held source ++ take source event)
    {source : σ} (initial : inv source) (events : List ε) :
    outputs step give source events ++ held (run step source events) =
      held source ++ outputs step take source events :=
  outputs_append_held_along inv held (fun source event here _ => preserved source event here)
    (fun source event here _ => balanced source event here) initial
    (along_of_forall (fun _ _ => trivial) source events : Along step (fun _ _ => True) source events)

/-- A step condition that preserves an invariant keeps it in every state of the run. -/
theorem always_of_along {step : σ → ε → σ} {inv : σ → Prop} {meets : σ → ε → Prop}
    (preserved : ∀ source event, inv source → meets source event → inv (step source event))
    {source : σ} (initial : inv source) {events : List ε} (along : Along step meets source events) :
    Always step inv source events := by
  induction events generalizing source with
  | nil => exact initial
  | cons event rest ih => exact ⟨initial, ih (preserved source event initial along.1) along.2⟩

/-- An inductive invariant holds in every state, and what every step does in its states, every step of the run
does. -/
theorem always_and_along {step : σ → ε → σ} {inv : σ → Prop} {meets : σ → ε → Prop}
    (preserved : ∀ source event, inv source → inv (step source event) ∧ meets source event)
    {source : σ} (initial : inv source) (events : List ε) :
    Always step inv source events ∧ Along step meets source events := by
  induction events generalizing source with
  | nil => exact ⟨initial, trivial⟩
  | cons event rest ih =>
    obtain ⟨next, here⟩ := preserved source event initial
    obtain ⟨always, along⟩ := ih next
    exact ⟨⟨initial, always⟩, here, along⟩

/-- A condition on the labels alone. -/
theorem along_iff_forall_mem (meets : ε → Prop) (source : σ) (events : List ε) :
    Along step (fun _ => meets) source events ↔ ∀ event ∈ events, meets event := by
  induction events generalizing source with
  | nil => exact iff_of_true trivial nofun
  | cons event rest ih => rw [Along, ih, List.forall_mem_cons]

theorem along_and (first second : σ → ε → Prop) (source : σ) (events : List ε) :
    Along step (fun source event => first source event ∧ second source event) source events ↔
      Along step first source events ∧ Along step second source events := by
  induction events generalizing source with
  | nil => exact ⟨fun _ => ⟨trivial, trivial⟩, fun _ => trivial⟩
  | cons event rest ih =>
    simp only [Along, ih]
    exact and_and_and_comm

/-- Two step conditions that agree on the states of an invariant agree along every run. -/
theorem along_congr {step : σ → ε → σ} (inv : σ → Prop) {first second : σ → ε → Prop}
    (preserved : ∀ source event, inv source → inv (step source event))
    (same : ∀ source event, inv source → (first source event ↔ second source event))
    {source : σ} (initial : inv source) (events : List ε) :
    Along step first source events ↔ Along step second source events := by
  induction events generalizing source with
  | nil => exact Iff.rfl
  | cons event rest ih =>
    exact and_congr (same source event initial) (ih (preserved source event initial))

theorem Always.mono {step : σ → ε → σ} {strong weak : σ → Prop}
    (weaken : ∀ source, strong source → weak source) {source : σ} {events : List ε}
    (always : Always step strong source events) : Always step weak source events := by
  induction events generalizing source with
  | nil => exact weaken source always
  | cons event rest ih => exact ⟨weaken source always.1, ih always.2⟩

/-- In a run whose steps are as given, a condition that is exact for one step, on the states of an
invariant that lasts while it is met, is exact for the run. -/
theorem always_iff_along_given {step : σ → ε → σ} (inv : σ → Prop) {holds : σ → Prop}
    {given meets : σ → ε → Prop}
    (preserved : ∀ source event, inv source → given source event → meets source event →
      inv (step source event))
    (exactly : ∀ source event, inv source → holds source → given source event →
      (holds (step source event) ↔ meets source event))
    {source : σ} (initial : inv source) (holdsInitially : holds source) {events : List ε}
    (along : Along step given source events) :
    Always step holds source events ↔ Along step meets source events := by
  induction events generalizing source with
  | nil => exact iff_of_true holdsInitially trivial
  | cons event rest ih =>
    obtain ⟨now, later⟩ := along
    have here := exactly source event initial holdsInitially now
    constructor
    · rintro ⟨-, always⟩
      have met := here.mp always.head
      exact ⟨met, (ih (preserved source event initial now met) always.head later).mp always⟩
    · rintro ⟨met, meeting⟩
      have stepInv := preserved source event initial now met
      exact ⟨holdsInitially, (ih stepInv (here.mpr met) later).mpr meeting⟩

/-- A condition that is exact for one step, on the states of an invariant that lasts while it is met, is
exact for every run. -/
theorem always_iff_along_while {step : σ → ε → σ} (inv : σ → Prop) {holds : σ → Prop}
    {meets : σ → ε → Prop}
    (preserved : ∀ source event, inv source → meets source event → inv (step source event))
    (exactly : ∀ source event, inv source → holds source →
      (holds (step source event) ↔ meets source event))
    {source : σ} (initial : inv source) (holdsInitially : holds source) (events : List ε) :
    Always step holds source events ↔ Along step meets source events :=
  always_iff_along_given inv (fun source event here _ met => preserved source event here met)
    (fun source event here now _ => exactly source event here now) initial holdsInitially
    (along_of_forall (fun _ _ => trivial) source events : Along step (fun _ _ => True) source events)

/-- A condition that is exact for one step, on the states of an invariant, is exact for every run. -/
theorem always_iff_along {step : σ → ε → σ} (inv : σ → Prop) {holds : σ → Prop}
    {meets : σ → ε → Prop} (preserved : ∀ source event, inv source → inv (step source event))
    (exactly : ∀ source event, inv source → holds source →
      (holds (step source event) ↔ meets source event))
    {source : σ} (initial : inv source) (holdsInitially : holds source) (events : List ε) :
    Always step holds source events ↔ Along step meets source events :=
  always_iff_along_while inv (fun source event here _ => preserved source event here) exactly initial
    holdsInitially events

end CppRedis.Machine
