import Mathlib.Order.Defs.Unbundled

/-! # Effects that survive a failure

Imperative code whose state outlives a failure, in exceptions over a state monad: what a run that fails did
before is still there. `Keeps` relates the states around every run, `Triple` tells what a run leads to, `Yields` what
it returns, and `Returns` says that it does.
-/

namespace CppRedis.Machine

/-- Code over states `σ` that returns a value or fails, and leaves a state in both cases. -/
abbrev Effect (σ ε α : Type) := ExceptT ε (StateM σ) α

namespace Effect

variable {σ ε α β : Type}

theorem bind_apply (first : Effect σ ε α) (next : α → Effect σ ε β) (source : σ) :
    (first >>= next) source =
      match first source with
      | (.ok value, middle) => next value middle
      | (.error fault, middle) => (.error fault, middle) := by
  change ExceptT.bindCont next (first source).1 (first source).2 = _
  rcases first source with ⟨fault | value, middle⟩ <;> rfl

theorem bind_of_ok {first : Effect σ ε α} {next : α → Effect σ ε β} {source middle : σ} {value : α}
    (ran : first source = (.ok value, middle)) : (first >>= next) source = next value middle := by
  rw [bind_apply, ran]

theorem get_apply (source : σ) : (get : Effect σ ε σ) source = (.ok source, source) := rfl

theorem modify_apply (change : σ → σ) (source : σ) :
    (modify change : Effect σ ε PUnit) source = (.ok PUnit.unit, change source) := rfl

/-- A statement that returned was followed by the rest. -/
theorem bind_eq_ok_iff {first : Effect σ ε α} {next : α → Effect σ ε β} {source target : σ} {result : β} :
    (first >>= next) source = (.ok result, target) ↔
      ∃ value middle, first source = (.ok value, middle) ∧ next value middle = (.ok result, target) := by
  rw [bind_apply]
  rcases first source with ⟨fault | value, middle⟩
  · exact iff_of_false (fun wrong => nomatch wrong) (fun ⟨_, _, wrong, _⟩ => nomatch wrong)
  · constructor
    · exact fun ran => ⟨value, middle, rfl, ran⟩
    · rintro ⟨_, _, same, ran⟩
      cases same
      exact ran

/-- Every run ends in a state related to the one it started in, also a run that fails. -/
def Keeps (relation : σ → σ → Prop) (program : Effect σ ε α) : Prop := ∀ source, relation source (program source).2

/-- From a state of `pre`, a run that returns ends in `post`, and a run that fails ends in `blame`. -/
def Triple (pre : σ → Prop) (program : Effect σ ε α) (post : α → σ → Prop) (blame : ε → σ → Prop) : Prop :=
  ∀ source, pre source →
    match program source with
    | (.ok value, target) => post value target
    | (.error fault, target) => blame fault target

section

variable {relation : σ → σ → Prop}

/-- The relation around one run. -/
theorem Keeps.run {program : Effect σ ε α} (keeps : Keeps relation program) {source target : σ} {result : Except ε α}
    (ran : program source = (result, target)) : relation source target := by
  have kept := keeps source
  rwa [ran] at kept

theorem Keeps.pure [Std.Refl relation] (value : α) : Keeps relation (Pure.pure value : Effect σ ε α) :=
  fun source => refl source

theorem Keeps.throw [Std.Refl relation] (fault : ε) : Keeps relation (MonadExcept.throw fault : Effect σ ε α) :=
  fun source => refl source

theorem Keeps.bind [IsTrans σ relation] {first : Effect σ ε α} {next : α → Effect σ ε β}
    (before : Keeps relation first) (after : ∀ value, Keeps relation (next value)) :
    Keeps relation (first >>= next) := by
  intro source
  have start := before source
  rw [bind_apply]
  rcases ran : first source with ⟨fault | value, middle⟩
  · rwa [ran] at start
  · rw [ran] at start
    exact IsTrans.trans _ _ _ start (after value middle)

/-- Every run returns. -/
def Returns (program : Effect σ ε α) : Prop := ∀ source, ∃ value target, program source = (.ok value, target)

theorem Returns.pure (value : α) : Returns (Pure.pure value : Effect σ ε α) := fun source => ⟨value, source, rfl⟩

theorem Returns.update (change : σ → σ) : Returns (modify change : Effect σ ε PUnit) :=
  fun source => ⟨PUnit.unit, change source, rfl⟩

theorem Returns.get_then {next : σ → Effect σ ε α} (after : ∀ value, Returns (next value)) :
    Returns (MonadState.get >>= next) := fun source => after source source

theorem Returns.bind {first : Effect σ ε α} {next : α → Effect σ ε β} (before : Returns first)
    (after : ∀ value, Returns (next value)) : Returns (first >>= next) := by
  intro source
  obtain ⟨value, middle, ran⟩ := before source
  obtain ⟨result, target, rest⟩ := after value middle
  exact ⟨result, target, (bind_of_ok ran).trans rest⟩

theorem Returns.ite {condition : Prop} [Decidable condition] {yes no : Effect σ ε α} (whenYes : Returns yes)
    (whenNo : Returns no) : Returns (if condition then yes else no) := by
  split
  · exact whenYes
  · exact whenNo

theorem Returns.forM {γ : Type} {body : γ → Effect σ ε PUnit} {items : List γ} (each : ∀ item, Returns (body item)) :
    Returns (items.forM body) := by
  induction items with
  | nil => exact .pure _
  | cons item items ih => exact (each item).bind fun _ => ih

/-- A run that returns, returns a value with a property. -/
def Yields (program : Effect σ ε α) (fact : α → Prop) : Prop :=
  ∀ source value target, program source = (.ok value, target) → fact value

theorem Yields.pure {value : α} {fact : α → Prop} (holds : fact value) :
    Yields (Pure.pure value : Effect σ ε α) fact := by
  intro source result target ran
  cases ran
  exact holds

theorem Yields.bind {first : Effect σ ε α} {next : α → Effect σ ε β} {fact : β → Prop}
    (after : ∀ value, Yields (next value) fact) : Yields (first >>= next) fact := by
  intro source result target ran
  obtain ⟨value, middle, _, rest⟩ := bind_eq_ok_iff.mp ran
  exact after value middle result target rest

theorem Yields.ite {condition : Prop} [Decidable condition] {yes no : Effect σ ε α} {fact : α → Prop}
    (whenYes : condition → Yields yes fact) (whenNo : ¬ condition → Yields no fact) :
    Yields (if condition then yes else no) fact := by
  split
  · exact whenYes ‹_›
  · exact whenNo ‹_›

theorem Keeps.bind_of [IsTrans σ relation] {first : Effect σ ε α} {next : α → Effect σ ε β} {fact : α → Prop}
    (before : Keeps relation first) (gives : Yields first fact)
    (after : ∀ value, fact value → Keeps relation (next value)) : Keeps relation (first >>= next) := by
  intro source
  have start := before source
  rw [bind_apply]
  rcases ran : first source with ⟨fault | value, middle⟩
  · rwa [ran] at start
  · rw [ran] at start
    exact IsTrans.trans _ _ _ start (after value (gives source value middle ran) middle)

/-- Where the state is read, the rest starts in the state that was read. -/
theorem Keeps.get_bind {next : σ → Effect σ ε α} (after : ∀ source, relation source (next source source).2) :
    Keeps relation (MonadState.get >>= next) := after

theorem Keeps.get_then {next : σ → Effect σ ε α} (after : ∀ value, Keeps relation (next value)) :
    Keeps relation (MonadState.get >>= next) := fun source => after source source

theorem Keeps.update {change : σ → σ} (related : ∀ source, relation source (change source)) :
    Keeps relation (modify change : Effect σ ε PUnit) := related

theorem Keeps.ite {condition : Prop} [Decidable condition] {yes no : Effect σ ε α}
    (whenYes : Keeps relation yes) (whenNo : Keeps relation no) : Keeps relation (if condition then yes else no) := by
  split
  · exact whenYes
  · exact whenNo

theorem Keeps.forM [Std.Refl relation] [IsTrans σ relation] {γ : Type} {body : γ → Effect σ ε PUnit} {items : List γ}
    (each : ∀ item ∈ items, Keeps relation (body item)) : Keeps relation (items.forM body) := by
  induction items with
  | nil => exact .pure _
  | cons item items ih =>
    exact (each item List.mem_cons_self).bind fun _ => ih fun other member => each other (List.mem_cons_of_mem _ member)

theorem Keeps.foldlM [Std.Refl relation] [IsTrans σ relation] {γ : Type} {body : α → γ → Effect σ ε α}
    {items : List γ} {start : α} (each : ∀ value, ∀ item ∈ items, Keeps relation (body value item)) :
    Keeps relation (items.foldlM body start) := by
  induction items generalizing start with
  | nil => exact .pure _
  | cons item items ih =>
    exact (each start item List.mem_cons_self).bind fun _ =>
      ih fun value other member => each value other (List.mem_cons_of_mem _ member)

end

section

variable {pre : σ → Prop} {post : α → σ → Prop} {blame : ε → σ → Prop}

theorem Triple.pure {value : α} (holds : ∀ source, pre source → post value source) :
    Triple pre (Pure.pure value : Effect σ ε α) post blame := holds

theorem Triple.throw {fault : ε} (holds : ∀ source, pre source → blame fault source) :
    Triple pre (MonadExcept.throw fault : Effect σ ε α) post blame := holds

theorem Triple.bind {first : Effect σ ε β} {next : β → Effect σ ε α} (middle : β → σ → Prop)
    (before : Triple pre first middle blame) (after : ∀ value, Triple (middle value) (next value) post blame) :
    Triple pre (first >>= next) post blame := by
  intro source here
  have start := before source here
  rw [bind_apply]
  rcases ran : first source with ⟨fault | value, between⟩
  · rwa [ran] at start
  · rw [ran] at start
    exact after value between start

theorem Triple.get_bind {next : σ → Effect σ ε α}
    (after : ∀ source, pre source → Triple (· = source) (next source) post blame) :
    Triple pre (MonadState.get >>= next) post blame :=
  fun source here => after source here source rfl

/-- Where nothing is needed of the state that was read. -/
theorem Triple.get_then {next : σ → Effect σ ε α} (after : ∀ value, Triple pre (next value) post blame) :
    Triple pre (MonadState.get >>= next) post blame := fun source here => after source source here

theorem Triple.update {change : σ → σ} {post : PUnit → σ → Prop}
    (holds : ∀ source, pre source → post PUnit.unit (change source)) :
    Triple pre (modify change : Effect σ ε PUnit) post blame := holds

theorem Triple.ite {condition : Prop} [Decidable condition] {yes no : Effect σ ε α}
    (whenYes : condition → Triple pre yes post blame) (whenNo : ¬ condition → Triple pre no post blame) :
    Triple pre (if condition then yes else no) post blame := by
  split
  · exact whenYes ‹_›
  · exact whenNo ‹_›

/-- What holds after one run. -/
theorem Triple.run {program : Effect σ ε α} (holds : Triple pre program post blame) {source target : σ} {value : α}
    (here : pre source) (ran : program source = (.ok value, target)) : post value target := by
  have after := holds source here
  rwa [ran] at after

/-- A fact apart from the state. -/
theorem Triple.given {fact : Prop} {program : Effect σ ε α} (holds : fact → Triple pre program post blame) :
    Triple (fun source => pre source ∧ fact) program post blame := fun source here => holds here.2 source here.1

/-- The consequence rule. -/
theorem Triple.weaken {weaker : σ → Prop} {stronger : α → σ → Prop} {sharper : ε → σ → Prop}
    {program : Effect σ ε α} (holds : Triple weaker program stronger sharper)
    (start : ∀ source, pre source → weaker source)
    (stop : ∀ value target, stronger value target → post value target)
    (blames : ∀ fault target, sharper fault target → blame fault target) : Triple pre program post blame := by
  intro source here
  have ran := holds source (start source here)
  rcases result : program source with ⟨fault | value, target⟩ <;> rw [result] at ran
  · exact blames fault target ran
  · exact stop value target ran

theorem Triple.strengthen_pre {weaker : σ → Prop} {program : Effect σ ε α} (holds : Triple weaker program post blame)
    (start : ∀ source, pre source → weaker source) : Triple pre program post blame :=
  holds.weaken start (fun _ _ => id) fun _ _ => id

theorem Triple.weaken_post {stronger : α → σ → Prop} {program : Effect σ ε α}
    (holds : Triple pre program stronger blame)
    (stop : ∀ value target, stronger value target → post value target) : Triple pre program post blame :=
  holds.weaken (fun _ => id) stop fun _ _ => id

/-- The facts about a value that is returned. -/
theorem Triple.yielding {program : Effect σ ε α} {fact : α → Prop} (holds : Triple pre program post blame)
    (gives : Yields program fact) : Triple pre program (fun value target => post value target ∧ fact value) blame := by
  intro source here
  have ran := holds source here
  rcases result : program source with ⟨fault | value, target⟩
  · rwa [result] at ran
  · rw [result] at ran
    exact ⟨ran, gives source value target result⟩

theorem Triple.and {program : Effect σ ε α} {also : α → σ → Prop} (first : Triple pre program post blame)
    (second : Triple pre program also blame) :
    Triple pre program (fun value target => post value target ∧ also value target) blame := by
  intro source here
  have one := first source here
  have two := second source here
  rcases result : program source with ⟨fault | value, target⟩ <;> rw [result] at one two
  · exact one
  · exact ⟨one, two⟩

/-- What follows from the relation that every run keeps. -/
theorem Keeps.triple {relation : σ → σ → Prop} {program : Effect σ ε α} {inv : σ → Prop}
    (keeps : Keeps relation program) (follows : ∀ source target, pre source → relation source target → inv target)
    (blames : ∀ fault target, inv target → blame fault target) : Triple pre program (fun _ => inv) blame := by
  intro source here
  have kept := follows _ _ here (keeps source)
  rcases result : program source with ⟨fault | value, target⟩ <;> rw [result] at kept
  · exact blames fault target kept
  · exact kept

/-- The frame rule. -/
theorem Triple.keeping {relation : σ → σ → Prop} {program : Effect σ ε α} {before after : σ → Prop}
    (holds : Triple pre program post blame) (keeps : Keeps relation program)
    (follows : ∀ source target, before source → relation source target → after target) :
    Triple (fun source => pre source ∧ before source) program (fun value target => post value target ∧ after target)
      blame := by
  rintro source ⟨here, framed⟩
  have ran := holds source here
  have kept := follows _ _ framed (keeps source)
  rcases result : program source with ⟨fault | value, target⟩ <;> rw [result] at ran kept
  · exact ran
  · exact ⟨ran, kept⟩

/-- A function that always returns blames nothing. -/
theorem Keeps.triple_of_returns {relation : σ → σ → Prop} {program : Effect σ ε α} {inv : σ → Prop}
    (keeps : Keeps relation program) (returns : Returns program)
    (follows : ∀ source target, pre source → relation source target → inv target) :
    Triple pre program (fun _ => inv) blame := by
  intro source here
  have kept := follows _ _ here (keeps source)
  obtain ⟨value, target, ran⟩ := returns source
  rw [ran] at kept ⊢
  exact kept

/-- What holds before a loop over a list, and is kept by its body, holds after it. -/
theorem Triple.forM {γ : Type} {body : γ → Effect σ ε PUnit} {items : List γ}
    (each : ∀ item ∈ items, Triple pre (body item) (fun _ => pre) blame) :
    Triple pre (items.forM body) (fun _ => pre) blame := by
  induction items with
  | nil => exact .pure fun _ here => here
  | cons item items ih =>
    exact .bind (fun _ => pre) (each item List.mem_cons_self) fun _ =>
      ih fun other member => each other (List.mem_cons_of_mem _ member)

theorem Triple.foldlM {γ : Type} {start : α} {body : α → γ → Effect σ ε α} {items : List γ}
    (each : ∀ value, ∀ item ∈ items, Triple pre (body value item) (fun _ => pre) blame) :
    Triple pre (items.foldlM body start) (fun _ => pre) blame := by
  induction items generalizing start with
  | nil => exact .pure fun _ here => here
  | cons item items ih =>
    exact .bind (fun _ => pre) (each start item List.mem_cons_self) fun _ =>
      ih fun value other member => each value other (List.mem_cons_of_mem _ member)

end

end Effect

end CppRedis.Machine
