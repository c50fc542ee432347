import Mathlib.Data.List.Nodup
import Mathlib.Data.Finset.Card
import Mathlib.Logic.Function.Basic

/-! # Leases

Resources that are lent out one at a time: `idle` is the queue they are taken from and brought back to,
`holds` what every borrower has, `made` what was added since the queue was last cleared, and `retired` what was
cleared away. A `Move` is one of the things that may happen to them. In a `Sound` state nothing has two
borrowers, nothing borrowed is idle, and what was made is idle or borrowed.
-/

namespace CppRedis.Machine

variable {κ α : Type*}

structure Leases (κ α : Type*) where
  idle : List α
  holds : κ → Option α
  made : List α
  retired : List α

namespace Leases

/-- A borrower has at most one resource, gives back what it has, and nothing is cleared while one is borrowed. -/
inductive Move [DecidableEq κ] (leases : Leases κ α) : Leases κ α → Prop
  | stay : Move leases leases
  | take (borrower : κ) (resource : α) (rest : List α) (first : leases.idle = resource :: rest)
      (free : leases.holds borrower = none) :
      Move leases { leases with
        idle := rest, holds := Function.update leases.holds borrower (some resource) }
  | give (borrower : κ) (resource : α) (held : leases.holds borrower = some resource) :
      Move leases { leases with
        idle := leases.idle ++ [resource], holds := Function.update leases.holds borrower none }
  | add (resource : α) (unmade : resource ∉ leases.made) (unretired : resource ∉ leases.retired) :
      Move leases { leases with idle := leases.idle ++ [resource], made := leases.made ++ [resource] }
  | clear (free : ∀ borrower, leases.holds borrower = none) :
      Move leases { leases with idle := [], made := [], retired := leases.retired ++ leases.idle }

structure Sound (leases : Leases κ α) : Prop where
  idle_nodup : leases.idle.Nodup
  made_nodup : leases.made.Nodup
  retired_nodup : leases.retired.Nodup
  /-- Nothing borrowed is idle. -/
  apart : ∀ borrower resource, leases.holds borrower = some resource → resource ∉ leases.idle
  /-- Nothing has two borrowers. -/
  single : ∀ first second resource, leases.holds first = some resource →
    leases.holds second = some resource → first = second
  made_iff : ∀ resource, resource ∈ leases.made ↔
    resource ∈ leases.idle ∨ ∃ borrower, leases.holds borrower = some resource
  /-- Nothing that is made is retired. -/
  alive : ∀ resource ∈ leases.made, resource ∉ leases.retired

variable {leases next : Leases κ α}

theorem Sound.made_of_idle (sound : leases.Sound) {resource : α} (idle : resource ∈ leases.idle) :
    resource ∈ leases.made := (sound.made_iff resource).mpr (.inl idle)

theorem Sound.made_of_held (sound : leases.Sound) {borrower : κ} {resource : α}
    (held : leases.holds borrower = some resource) : resource ∈ leases.made :=
  (sound.made_iff resource).mpr (.inr ⟨borrower, held⟩)

theorem Sound.add (sound : leases.Sound) {resource : α} (unmade : resource ∉ leases.made)
    (unretired : resource ∉ leases.retired) :
    Sound { leases with idle := leases.idle ++ [resource], made := leases.made ++ [resource] } := by
  have appended : ∀ {known : List α}, known.Nodup → resource ∉ known → (known ++ [resource]).Nodup :=
    fun nodup new => List.nodup_append.mpr ⟨nodup, List.nodup_singleton _, fun first within second here =>
      fun same => new (List.mem_singleton.mp here ▸ same ▸ within)⟩
  refine ⟨appended sound.idle_nodup fun within => unmade (sound.made_of_idle within),
    appended sound.made_nodup unmade, sound.retired_nodup, ?_, sound.single, ?_, ?_⟩
  · intro other wanted held
    rw [List.mem_append, List.mem_singleton]
    rintro (within | rfl)
    · exact sound.apart other wanted held within
    · exact unmade (sound.made_of_held held)
  · intro wanted
    rw [List.mem_append, List.mem_append, sound.made_iff wanted]
    exact or_right_comm
  · intro wanted within
    rcases List.mem_append.mp within with before | here
    · exact sound.alive wanted before
    · exact List.mem_singleton.mp here ▸ unretired

theorem Sound.clear (sound : leases.Sound) (free : ∀ borrower, leases.holds borrower = none) :
    Sound { leases with idle := [], made := [], retired := leases.retired ++ leases.idle } := by
  have unheld : ∀ {borrower : κ} {resource : α}, leases.holds borrower ≠ some resource := by
    intro borrower resource held
    rw [free borrower] at held
    cases held
  refine ⟨List.nodup_nil, List.nodup_nil, ?_, fun _ _ held => absurd held unheld,
    fun _ _ _ held => absurd held unheld, fun resource => ?_, nofun⟩
  · exact List.nodup_append.mpr ⟨sound.retired_nodup, sound.idle_nodup, fun first before second within same =>
      sound.alive second (sound.made_of_idle within) (same ▸ before)⟩
  · refine iff_of_false nofun ?_
    rintro (within | ⟨borrower, held⟩)
    · nomatch within
    · exact unheld held

section Moves

variable [DecidableEq κ]

theorem Sound.take (sound : leases.Sound) {borrower : κ} {resource : α} {rest : List α}
    (first : leases.idle = resource :: rest) (free : leases.holds borrower = none) :
    Sound { leases with idle := rest, holds := Function.update leases.holds borrower (some resource) } := by
  have nodup : (resource :: rest).Nodup := first ▸ sound.idle_nodup
  have outside : ∀ {other : κ}, leases.holds other ≠ some resource := fun held =>
    sound.apart _ resource held (first ▸ List.mem_cons_self)
  have now : ∀ {other : κ} {wanted : α},
      Function.update leases.holds borrower (some resource) other = some wanted →
        other = borrower ∧ wanted = resource ∨ leases.holds other = some wanted := by
    intro other wanted held
    by_cases same : other = borrower
    · rw [same, Function.update_self] at held
      exact .inl ⟨same, (Option.some.inj held).symm⟩
    · exact .inr ((Function.update_of_ne same _ _).symm.trans held)
  refine ⟨(List.nodup_cons.mp nodup).2, sound.made_nodup, sound.retired_nodup, ?_, ?_, ?_, sound.alive⟩
  · intro other wanted held
    rcases now held with ⟨-, rfl⟩ | before
    · exact (List.nodup_cons.mp nodup).1
    · exact fun within => sound.apart other wanted before (first ▸ List.mem_cons_of_mem _ within)
  · intro left right wanted heldLeft heldRight
    rcases now heldLeft with ⟨rfl, rfl⟩ | beforeLeft
    · rcases now heldRight with ⟨rfl, -⟩ | beforeRight
      · rfl
      · exact absurd beforeRight outside
    · rcases now heldRight with ⟨-, rfl⟩ | beforeRight
      · exact absurd beforeLeft outside
      · exact sound.single left right wanted beforeLeft beforeRight
  · intro wanted
    rw [sound.made_iff wanted, first, List.mem_cons]
    constructor
    · rintro ((rfl | within) | ⟨other, held⟩)
      · exact .inr ⟨borrower, Function.update_self _ _ _⟩
      · exact .inl within
      · have elsewhere : other ≠ borrower := by
          rintro rfl
          rw [free] at held
          cases held
        exact .inr ⟨other, (Function.update_of_ne elsewhere _ _).trans held⟩
    · rintro (within | ⟨other, held⟩)
      · exact .inl (.inr within)
      · rcases now held with ⟨-, rfl⟩ | before
        · exact .inl (.inl rfl)
        · exact .inr ⟨other, before⟩

theorem Sound.give (sound : leases.Sound) {borrower : κ} {resource : α}
    (held : leases.holds borrower = some resource) :
    Sound { leases with
      idle := leases.idle ++ [resource], holds := Function.update leases.holds borrower none } := by
  have remains : ∀ {other : κ} {wanted : α}, Function.update leases.holds borrower none other = some wanted →
      other ≠ borrower ∧ leases.holds other = some wanted := by
    intro other wanted still
    by_cases same : other = borrower
    · rw [same, Function.update_self] at still
      cases still
    · exact ⟨same, (Function.update_of_ne same _ _).symm.trans still⟩
  refine ⟨?_, sound.made_nodup, sound.retired_nodup, ?_, ?_, ?_, sound.alive⟩
  · exact List.nodup_append.mpr ⟨sound.idle_nodup, List.nodup_singleton _, fun first idle second here =>
      fun same => sound.apart borrower resource held (List.mem_singleton.mp here ▸ same ▸ idle)⟩
  · intro other wanted still
    obtain ⟨elsewhere, before⟩ := remains still
    rw [List.mem_append, List.mem_singleton]
    rintro (within | rfl)
    · exact sound.apart other wanted before within
    · exact elsewhere (sound.single other borrower wanted before held)
  · intro left right wanted heldLeft heldRight
    exact sound.single left right wanted (remains heldLeft).2 (remains heldRight).2
  · intro wanted
    rw [sound.made_iff wanted, List.mem_append, List.mem_singleton]
    constructor
    · rintro (within | ⟨other, before⟩)
      · exact .inl (.inl within)
      · by_cases same : other = borrower
        · subst same
          exact .inl (.inr (Option.some.inj (before.symm.trans held)))
        · exact .inr ⟨other, (Function.update_of_ne same _ _).trans before⟩
    · rintro ((within | rfl) | ⟨other, still⟩)
      · exact .inl within
      · exact .inr ⟨borrower, held⟩
      · exact .inr ⟨other, (remains still).2⟩

theorem Sound.move (sound : leases.Sound) (move : Move leases next) : next.Sound := by
  cases move with
  | stay => exact sound
  | take borrower resource rest first free => exact sound.take first free
  | give borrower resource held => exact sound.give held
  | add resource unmade unretired => exact sound.add unmade unretired
  | clear free => exact sound.clear free

end Moves

/-- What is idle and what is borrowed was made, each once. -/
theorem Sound.idle_add_card_le (sound : leases.Sound) (borrowers : Finset κ)
    (hold : ∀ borrower ∈ borrowers, ∃ resource, leases.holds borrower = some resource) :
    leases.idle.length + borrowers.card ≤ leases.made.length := by
  classical
  obtain ⟨held, isHeld⟩ := Classical.axiomOfChoice (fun borrower : borrowers => hold borrower borrower.2)
  let lent : Finset α := borrowers.attach.image held
  have lentCard : lent.card = borrowers.card := by
    rw [Finset.card_image_of_injective, Finset.card_attach]
    exact fun first second same =>
      Subtype.ext (sound.single first second (held second) (same ▸ isHeld first) (isHeld second))
  have idleCard : leases.idle.toFinset.card = leases.idle.length :=
    List.toFinset_card_of_nodup sound.idle_nodup
  have disjoint : Disjoint leases.idle.toFinset lent := by
    rw [Finset.disjoint_right]
    intro resource within
    obtain ⟨borrower, -, rfl⟩ := Finset.mem_image.mp within
    exact fun idle => sound.apart borrower _ (isHeld borrower) (List.mem_toFinset.mp idle)
  have covered : leases.idle.toFinset ∪ lent ⊆ leases.made.toFinset := by
    intro resource within
    rw [List.mem_toFinset]
    rcases Finset.mem_union.mp within with idle | out
    · exact sound.made_of_idle (List.mem_toFinset.mp idle)
    · obtain ⟨borrower, -, rfl⟩ := Finset.mem_image.mp out
      exact sound.made_of_held (isHeld borrower)
  calc leases.idle.length + borrowers.card = (leases.idle.toFinset ∪ lent).card := by
        rw [Finset.card_union_of_disjoint disjoint, idleCard, lentCard]
    _ ≤ leases.made.toFinset.card := Finset.card_le_card covered
    _ ≤ leases.made.length := List.toFinset_card_le _

/-- When nothing is borrowed, what was made is idle. -/
theorem Sound.idle_perm_made (sound : leases.Sound) (free : ∀ borrower, leases.holds borrower = none) :
    leases.idle.Perm leases.made := by
  refine (List.perm_ext_iff_of_nodup sound.idle_nodup sound.made_nodup).mpr fun resource => ?_
  rw [sound.made_iff resource]
  refine ⟨.inl, fun within => within.resolve_right ?_⟩
  rintro ⟨borrower, held⟩
  rw [free borrower] at held
  cases held

end Leases

end CppRedis.Machine
