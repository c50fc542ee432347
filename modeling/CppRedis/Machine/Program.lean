import Mathlib.Order.Defs.Unbundled

/-! # Programs that change a state and may fail

Imperative code over an explicit state, in the state monad over `Except`. `Ensures` is partial
correctness: nothing is said of a run that fails. `Obeys` and `Simulates` say also that a program returns.
The rules take a proof through a `do` block statement by statement.
-/

namespace CppRedis.Machine

/-- A program over states `σ` that returns a value or fails. -/
abbrev Program (σ ε : Type) := StateT σ (Except ε)

namespace Program

variable {σ ε α β : Type}

@[simp] theorem pure_apply (value : α) (source : σ) :
    (pure value : Program σ ε α) source = .ok (value, source) := rfl

theorem bind_apply (first : Program σ ε α) (next : α → Program σ ε β) (source : σ) :
    (first >>= next) source =
      match first source with
      | .ok (value, middle) => next value middle
      | .error fault => .error fault := by
  change (first source >>= fun result => next result.1 result.2) = _
  rcases first source with fault | ⟨value, middle⟩ <;> rfl

/-- A statement that returns hands its result on. -/
theorem bind_of_ok {first : Program σ ε α} {next : α → Program σ ε β} {source middle : σ} {value : α}
    (ran : first source = .ok (value, middle)) : (first >>= next) source = next value middle := by
  rw [bind_apply, ran]

theorem bind_of_error {first : Program σ ε α} {next : α → Program σ ε β} {source : σ} {fault : ε}
    (failed : first source = .error fault) : (first >>= next) source = .error fault := by
  rw [bind_apply, failed]

theorem bind_eq_ok_iff {first : Program σ ε α} {next : α → Program σ ε β} {source target : σ} {result : β} :
    (first >>= next) source = .ok (result, target) ↔
      ∃ value middle, first source = .ok (value, middle) ∧ next value middle = .ok (result, target) := by
  rw [bind_apply]
  rcases first source with fault | ⟨value, middle⟩
  · constructor
    · intro impossible
      cases impossible
    · rintro ⟨_, _, impossible, _⟩
      cases impossible
  · constructor
    · exact fun ran => ⟨value, middle, rfl, ran⟩
    · rintro ⟨_, _, same, ran⟩
      cases same
      exact ran

@[simp] theorem get_apply (source : σ) : (get : Program σ ε σ) source = .ok (source, source) := rfl

@[simp] theorem set_apply (source target : σ) :
    (set target : Program σ ε PUnit) source = .ok (PUnit.unit, target) := rfl

@[simp] theorem modify_apply (change : σ → σ) (source : σ) :
    (modify change : Program σ ε PUnit) source = .ok (PUnit.unit, change source) := rfl

@[simp] theorem throw_apply (fault : ε) (source : σ) :
    (throw fault : Program σ ε α) source = .error fault := rfl

/-- A run from a state of `pre` that returns ends in `post`. -/
def Ensures (pre : σ → Prop) (program : Program σ ε α) (post : α → σ → Prop) : Prop :=
  ∀ source, pre source → ∀ value target, program source = .ok (value, target) → post value target

/-- A run that returns ends in a state related to the one it started in. -/
def Follows (relation : σ → σ → Prop) (program : Program σ ε α) : Prop :=
  ∀ source value target, program source = .ok (value, target) → relation source target

/-- A run always returns, in a state related to the one it started in. -/
def Obeys (relation : σ → σ → Prop) (program : Program σ ε α) : Prop :=
  ∀ source, ∃ value target, program source = .ok (value, target) ∧ relation source target

/-- A run from a state of `pre` fails with none of these faults. -/
def Avoids (faults : ε → Prop) (pre : σ → Prop) (program : Program σ ε α) : Prop :=
  ∀ source, pre source → ∀ fault, program source = .error fault → ¬ faults fault

variable {pre : σ → Prop} {post : α → σ → Prop}

theorem Ensures.pure {value : α} (holds : ∀ source, pre source → post value source) :
    Ensures pre (Pure.pure value : Program σ ε α) post := by
  intro source here value target ran
  cases ran
  exact holds source here

theorem Ensures.bind {first : Program σ ε β} {next : β → Program σ ε α} (middle : β → σ → Prop)
    (before : Ensures pre first middle) (after : ∀ value, Ensures (middle value) (next value) post) :
    Ensures pre (first >>= next) post := by
  intro source here value target ran
  obtain ⟨between, state, ranFirst, ranNext⟩ := bind_eq_ok_iff.mp ran
  exact after between state (before source here between state ranFirst) value target ranNext

theorem Ensures.get : Ensures pre (MonadState.get : Program σ ε σ) fun value target => value = target ∧ pre target := by
  intro source here value target ran
  cases ran
  exact ⟨rfl, here⟩

/-- Where nothing is needed of the state that was read. -/
theorem Ensures.get_then {next : σ → Program σ ε α} (after : ∀ value, Ensures pre (next value) post) :
    Ensures pre (MonadState.get >>= next) post := fun source here => after source source here

theorem Ensures.update {change : σ → σ} {post : PUnit → σ → Prop}
    (holds : ∀ source, pre source → post PUnit.unit (change source)) :
    Ensures pre (modify change : Program σ ε PUnit) post := by
  intro source here value target ran
  cases ran
  exact holds source here

theorem Ensures.throw {fault : ε} : Ensures pre (MonadExcept.throw fault : Program σ ε α) post := by
  intro source _ value target ran
  cases ran

theorem Ensures.weaken {pre' : σ → Prop} {post' : α → σ → Prop} {program : Program σ ε α}
    (ensures : Ensures pre program post) (stronger : ∀ source, pre' source → pre source)
    (weaker : ∀ value target, post value target → post' value target) : Ensures pre' program post' :=
  fun source here value target ran =>
    weaker value target (ensures source (stronger source here) value target ran)

theorem Ensures.strengthen_pre {pre' : σ → Prop} {program : Program σ ε α} (ensures : Ensures pre program post)
    (stronger : ∀ source, pre' source → pre source) : Ensures pre' program post :=
  ensures.weaken stronger fun _ _ => id

/-- What does not depend on the state stays true. -/
theorem Ensures.and_fact {program : Program σ ε α} (ensures : Ensures pre program post) (fact : Prop) :
    Ensures (fun source => pre source ∧ fact) program fun value target => post value target ∧ fact :=
  fun source here value target ran => ⟨ensures source here.1 value target ran, here.2⟩

theorem Ensures.ite {condition : Prop} [Decidable condition] {yes no : Program σ ε α}
    (whenYes : condition → Ensures pre yes post) (whenNo : ¬ condition → Ensures pre no post) :
    Ensures pre (if condition then yes else no) post := by
  split
  · exact whenYes ‹_›
  · exact whenNo ‹_›

section

variable {relation : σ → σ → Prop}

theorem Follows.pure [Std.Refl relation] (value : α) : Follows relation (Pure.pure value : Program σ ε α) := by
  intro source value target ran
  cases ran
  exact refl source

theorem Follows.bind [IsTrans σ relation] {first : Program σ ε β} {next : β → Program σ ε α}
    (before : Follows relation first) (after : ∀ value, Follows relation (next value)) :
    Follows relation (first >>= next) := by
  intro source value target ran
  obtain ⟨between, middle, ranFirst, ranNext⟩ := bind_eq_ok_iff.mp ran
  exact IsTrans.trans _ _ _ (before source between middle ranFirst) (after between middle value target ranNext)

theorem Follows.get [Std.Refl relation] : Follows relation (MonadState.get : Program σ ε σ) := by
  intro source value target ran
  cases ran
  exact refl source

/-- Where the state is read to be written back, its value is the state. -/
theorem Follows.get_bind {next : σ → Program σ ε α}
    (after : ∀ source value target, next source source = .ok (value, target) → relation source target) :
    Follows relation (MonadState.get >>= next) := after

theorem Follows.update {change : σ → σ} (related : ∀ source, relation source (change source)) :
    Follows relation (modify change : Program σ ε PUnit) := by
  intro source value target ran
  cases ran
  exact related source

theorem Follows.throw {fault : ε} : Follows relation (MonadExcept.throw fault : Program σ ε α) := by
  intro source value target ran
  cases ran

theorem Follows.ite {condition : Prop} [Decidable condition] {yes no : Program σ ε α}
    (whenYes : Follows relation yes) (whenNo : Follows relation no) :
    Follows relation (if condition then yes else no) := by
  split
  · exact whenYes
  · exact whenNo

/-- A condition that the relation keeps is kept by the program. -/
theorem Follows.ensures {program : Program σ ε α} (follows : Follows relation program) {holds : σ → Prop}
    (stable : ∀ source target, relation source target → holds source → holds target) :
    Ensures holds program fun _ => holds :=
  fun source here value target ran => stable source target (follows source value target ran) here

theorem Follows.mono {weaker : σ → σ → Prop} {program : Program σ ε α} (follows : Follows relation program)
    (implies : ∀ source target, relation source target → weaker source target) : Follows weaker program :=
  fun source value target ran => implies source target (follows source value target ran)

end

section

variable {relation : σ → σ → Prop}

theorem Obeys.follows {program : Program σ ε α} (obeys : Obeys relation program) : Follows relation program := by
  intro source value target ran
  obtain ⟨_, _, does, related⟩ := obeys source
  cases does.symm.trans ran
  exact related

theorem Obeys.pure [Std.Refl relation] (value : α) : Obeys relation (Pure.pure value : Program σ ε α) :=
  fun source => ⟨value, source, rfl, refl source⟩

theorem Obeys.bind [IsTrans σ relation] {first : Program σ ε β} {next : β → Program σ ε α}
    (before : Obeys relation first) (after : ∀ value, Obeys relation (next value)) :
    Obeys relation (first >>= next) := by
  intro source
  obtain ⟨between, middle, ran, related⟩ := before source
  obtain ⟨value, target, done, later⟩ := after between middle
  exact ⟨value, target, (bind_of_ok ran).trans done, IsTrans.trans _ _ _ related later⟩

theorem Obeys.get [Std.Refl relation] : Obeys relation (MonadState.get : Program σ ε σ) :=
  fun source => ⟨source, source, rfl, refl source⟩

theorem Obeys.update {change : σ → σ} (related : ∀ source, relation source (change source)) :
    Obeys relation (modify change : Program σ ε PUnit) :=
  fun source => ⟨PUnit.unit, change source, rfl, related source⟩

theorem Obeys.ite {condition : Prop} [Decidable condition] {yes no : Program σ ε α}
    (whenYes : Obeys relation yes) (whenNo : Obeys relation no) : Obeys relation (if condition then yes else no) := by
  split
  · exact whenYes
  · exact whenNo

end

section

variable {faults : ε → Prop}

/-- What always returns fails with no fault. -/
theorem Obeys.avoids {relation : σ → σ → Prop} {program : Program σ ε α} (obeys : Obeys relation program)
    (pre : σ → Prop) : Avoids faults pre program := by
  intro source _ fault failed
  obtain ⟨_, _, does, _⟩ := obeys source
  cases does.symm.trans failed

theorem Avoids.bind {first : Program σ ε β} {next : β → Program σ ε α} (middle : β → σ → Prop)
    (ensures : Ensures pre first middle) (before : Avoids faults pre first)
    (after : ∀ value, Avoids faults (middle value) (next value)) : Avoids faults pre (first >>= next) := by
  intro source here fault failed
  rw [bind_apply] at failed
  cases ran : first source with
  | error earlier =>
    rw [ran] at failed
    cases failed
    exact before source here fault ran
  | ok result =>
    rw [ran] at failed
    exact after result.1 result.2 (ensures source here _ _ ran) fault failed

/-- Where the state is read to be written back, its value is the state. -/
theorem Avoids.get_bind {next : σ → Program σ ε α}
    (after : ∀ source, pre source → ∀ fault, next source source = .error fault → ¬ faults fault) :
    Avoids faults pre (MonadState.get >>= next) := after

theorem Avoids.pure {value : α} : Avoids faults pre (Pure.pure value : Program σ ε α) :=
  fun _ _ _ failed => nomatch failed

theorem Avoids.throw {fault : ε} (other : ¬ faults fault) :
    Avoids faults pre (MonadExcept.throw fault : Program σ ε α) := by
  intro _ _ _ failed
  cases failed
  exact other

theorem Avoids.ite {condition : Prop} [Decidable condition] {yes no : Program σ ε α}
    (whenYes : condition → Avoids faults pre yes) (whenNo : ¬ condition → Avoids faults pre no) :
    Avoids faults pre (if condition then yes else no) := by
  split
  · exact whenYes ‹_›
  · exact whenNo ‹_›

end

section

variable {τ : Type*} {stands : τ → σ → Prop}

/-- From every state that stands for `before` the program returns the value, in a state that stands for `after`. -/
def Simulates (stands : τ → σ → Prop) (program : Program σ ε α) (before : τ) (value : α) (after : τ) : Prop :=
  ∀ source, stands before source → ∃ target, program source = .ok (value, target) ∧ stands after target

theorem Simulates.pure (value : α) (before : τ) :
    Simulates stands (Pure.pure value : Program σ ε α) before value before :=
  fun source here => ⟨source, rfl, here⟩

theorem Simulates.bind {first : Program σ ε β} {next : β → Program σ ε α} {before middle after : τ} {between : β}
    {value : α} (simulates : Simulates stands first before between middle)
    (rest : Simulates stands (next between) middle value after) :
    Simulates stands (first >>= next) before value after := by
  intro source here
  obtain ⟨state, ran, there⟩ := simulates source here
  obtain ⟨target, done, last⟩ := rest state there
  exact ⟨target, (bind_of_ok ran).trans done, last⟩

/-- Where the state is read, all that counts is what every state that stands for `before` shows. -/
theorem Simulates.get_bind {next : σ → Program σ ε α} {before after : τ} {value : α}
    (rest : ∀ source, stands before source → ∃ target, next source source = .ok (value, target) ∧ stands after target) :
    Simulates stands (MonadState.get >>= next) before value after := rest

end

section

variable {source : σ} {blame : ε → Prop}

/-- A run that returns ends in `post`, and one that fails does so with a fault of `blame`. -/
def Leads (program : Program σ ε α) (source : σ) (post : α → σ → Prop) (blame : ε → Prop) : Prop :=
  match program source with
  | .ok (value, target) => post value target
  | .error fault => blame fault

theorem leads_modify {change : σ → σ} {post : PUnit → σ → Prop} :
    Leads (modify change : Program σ ε PUnit) source post blame ↔ post PUnit.unit (change source) := .rfl

theorem leads_get_bind {next : σ → Program σ ε α} :
    Leads (MonadState.get >>= next) source post blame ↔ Leads (next source) source post blame := .rfl

theorem leads_modify_bind {change : σ → σ} {next : PUnit → Program σ ε α} :
    Leads (modify change >>= next) source post blame ↔ Leads (next PUnit.unit) (change source) post blame := .rfl

theorem leads_set_bind {target : σ} {next : PUnit → Program σ ε α} :
    Leads (set target >>= next) source post blame ↔ Leads (next PUnit.unit) target post blame := .rfl

theorem leads_bind_of_ok {first : Program σ ε β} {next : β → Program σ ε α} {middle : σ} {value : β}
    (ran : first source = .ok (value, middle)) :
    Leads (first >>= next) source post blame ↔ Leads (next value) middle post blame := by
  rw [Leads, bind_of_ok ran]
  exact .rfl

theorem Leads.bind {first : Program σ ε β} {next : β → Program σ ε α} (middle : β → σ → Prop)
    (before : Leads first source middle blame)
    (after : ∀ value target, middle value target → Leads (next value) target post blame) :
    Leads (first >>= next) source post blame := by
  rw [Leads, bind_apply]
  rw [Leads] at before
  rcases ran : first source with fault | ⟨value, target⟩
  · rw [ran] at before
    exact before
  · rw [ran] at before
    exact after value target before

theorem Leads.mono {program : Program σ ε α} {post' : α → σ → Prop} {blame' : ε → Prop}
    (leads : Leads program source post blame) (weaker : ∀ value target, post value target → post' value target)
    (blamed : ∀ fault, blame fault → blame' fault) : Leads program source post' blame' := by
  rw [Leads] at leads ⊢
  rcases ran : program source with fault | ⟨value, target⟩
  · rw [ran] at leads
    exact blamed fault leads
  · rw [ran] at leads
    exact weaker value target leads

end

end Program

end CppRedis.Machine
