import CppRedis.Machine.Keyspace
import Mathlib.Data.List.Nodup

/-! # Hash tables with chains

A table of chains holds each entry in the chain where its key is at home, and no key twice. It stands for a keyspace.
A change of one chain is a change of the keyspace at the keys of the chain, and a table that is filled with the entries
of another one stands for the same keyspace, wherever the keys are at home in it.
-/

namespace CppRedis.Machine

variable {κ ε : Type*}

/-- Chains of entries. -/
abbrev Buckets (κ ε : Type*) := List (List (κ × ε))

/-- Every entry is at home in its chain, and no chain has a key twice. -/
structure Settled (home : κ → ℕ) (table : Buckets κ ε) : Prop where
  homed : ∀ index chain, table[index]? = some chain → ∀ entry ∈ chain, home entry.1 = index
  distinct : ∀ chain ∈ table, (chain.map Prod.fst).Nodup

/-- An entry in front of its chain. -/
def pushFront (home : κ → ℕ) (table : Buckets κ ε) (entry : κ × ε) : Buckets κ ε :=
  table.modify (home entry.1) (entry :: ·)

section

variable {home : κ → ℕ} {table : Buckets κ ε}

theorem settled_replicate (home : κ → ℕ) (size : ℕ) : Settled home (List.replicate size ([] : List (κ × ε))) := by
  refine ⟨fun index chain here entry member => ?_, fun chain member => ?_⟩
  · rw [(List.eq_of_mem_replicate (List.mem_of_getElem? here))] at member
    cases member
  · rw [List.eq_of_mem_replicate member]
    exact List.nodup_nil

/-- Keys of different chains have different homes. -/
theorem Settled.distinct_flatten (settled : Settled home table) : (table.flatten.map Prod.fst).Nodup := by
  rw [List.map_flatten, List.nodup_flatten]
  constructor
  · intro keys member
    obtain ⟨chain, here, rfl⟩ := List.mem_map.mp member
    exact settled.distinct chain here
  · rw [List.pairwise_map, List.pairwise_iff_getElem]
    intro first second bound bound' before key left right
    obtain ⟨entry, member, rfl⟩ := List.mem_map.mp left
    obtain ⟨other, member', same⟩ := List.mem_map.mp right
    have here := settled.homed first _ (List.getElem?_eq_getElem bound) entry member
    have there := settled.homed second _ (List.getElem?_eq_getElem bound') other member'
    rw [same] at there
    omega

theorem Settled.set (settled : Settled home table) {index : ℕ} {chain : List (κ × ε)}
    (homed : ∀ entry ∈ chain, home entry.1 = index) (distinct : (chain.map Prod.fst).Nodup) :
    Settled home (table.set index chain) := by
  constructor
  · intro other found here entry member
    rw [List.getElem?_set] at here
    split_ifs at here with same bound
    · cases here
      exact (homed entry member).trans same
    · exact settled.homed other found here entry member
  · intro found member
    rcases List.mem_or_eq_of_mem_set member with before | rfl
    · exact settled.distinct found before
    · exact distinct

theorem length_flatten_set {index : ℕ} {old : List (κ × ε)} (here : table[index]? = some old) (chain : List (κ × ε)) :
    (table.set index chain).flatten.length + old.length = table.flatten.length + chain.length := by
  induction table generalizing index with
  | nil => cases here
  | cons first table ih =>
    cases index with
    | zero =>
      cases here
      simp only [List.set_cons_zero, List.flatten_cons, List.length_append]
      omega
    | succ index =>
      have rest := ih here
      simp only [List.set_cons_succ, List.flatten_cons, List.length_append] at rest ⊢
      omega

theorem pushFront_eq {entry : κ × ε} {chain : List (κ × ε)} (here : table[home entry.1]? = some chain) :
    pushFront home table entry = table.set (home entry.1) (entry :: chain) := by
  rw [pushFront, List.modify_eq_set_getElem?, here]
  rfl

@[simp]
theorem length_pushFront (table : Buckets κ ε) (entry : κ × ε) : (pushFront home table entry).length = table.length :=
  List.length_modify ..

/-- One more entry. -/
theorem flatten_pushFront {entry : κ × ε} (bound : home entry.1 < table.length) :
    (pushFront home table entry).flatten.Perm (entry :: table.flatten) := by
  rw [pushFront]
  generalize home entry.1 = index at bound
  induction table generalizing index with
  | nil => simp at bound
  | cons first table ih =>
    cases index with
    | zero => rfl
    | succ index =>
      have rest := ih index (by simpa using bound)
      rw [List.modify_succ_cons, List.flatten_cons, List.flatten_cons]
      exact (rest.append_left first).trans List.perm_middle

theorem Settled.pushFront (settled : Settled home table) {entry : κ × ε}
    (bound : home entry.1 < table.length) (fresh : entry.1 ∉ table.flatten.map Prod.fst) :
    Settled home (pushFront home table entry) := by
  have here := List.getElem?_eq_getElem bound
  rw [pushFront_eq here]
  refine settled.set (fun other member => ?_) ?_
  · rcases List.mem_cons.mp member with rfl | before
    · rfl
    · exact settled.homed _ _ here other before
  · rw [List.map_cons, List.nodup_cons]
    refine ⟨fun member => fresh ?_, settled.distinct _ (List.getElem_mem bound)⟩
    obtain ⟨other, before, same⟩ := List.mem_map.mp member
    exact List.mem_map.mpr ⟨other, List.mem_flatten.mpr ⟨_, List.getElem_mem bound, before⟩, same⟩

/-- Entries with new keys fill a table. -/
theorem Settled.fill (settled : Settled home table) {entries : List (κ × ε)} (bound : ∀ key, home key < table.length)
    (distinct : ((entries ++ table.flatten).map Prod.fst).Nodup) :
    Settled home (entries.foldl (Machine.pushFront home) table) ∧
      (entries.foldl (Machine.pushFront home) table).flatten.Perm (entries ++ table.flatten) ∧
      (entries.foldl (Machine.pushFront home) table).length = table.length := by
  induction entries generalizing table with
  | nil => exact ⟨settled, .refl _, rfl⟩
  | cons entry entries ih =>
    have fresh : entry.1 ∉ table.flatten.map Prod.fst := by
      simp only [List.cons_append, List.map_cons, List.nodup_cons, List.map_append, List.mem_append] at distinct
      exact fun there => distinct.1 (.inr there)
    have perm : (Machine.pushFront home table entry).flatten.Perm _ := flatten_pushFront (bound entry.1)
    have middle : (entries ++ (Machine.pushFront home table entry).flatten).Perm (entry :: entries ++ table.flatten) :=
      (perm.append_left entries).trans List.perm_middle
    obtain ⟨settled', perm', same⟩ := ih (settled.pushFront (bound _) fresh)
      (fun key => (length_pushFront table entry).symm ▸ bound key) ((middle.map _).nodup_iff.mpr distinct)
    exact ⟨settled', perm'.trans middle, same.trans (length_pushFront table entry)⟩

end

section

variable [DecidableEq κ] {home : κ → ℕ} {table : Buckets κ ε}

/-- What a table holds for the keys. -/
def held (home : κ → ℕ) (table : Buckets κ ε) : Keyspace κ ε :=
  fun key => Keyspace.ofList (table[home key]?.getD []) key

theorem held_eq_some_iff (settled : Settled home table) {key : κ} {entry : ε} :
    held home table key = some entry ↔ (key, entry) ∈ table.flatten := by
  rw [held]
  constructor
  · intro found
    cases here : table[home key]? with
    | none => simp [here, Keyspace.ofList] at found
    | some chain =>
      rw [here] at found
      exact List.mem_flatten.mpr ⟨chain, List.mem_of_getElem? here, Keyspace.mem_of_ofList found⟩
  · intro member
    obtain ⟨chain, there, inside⟩ := List.mem_flatten.mp member
    obtain ⟨index, here⟩ := List.getElem?_of_mem there
    have same : home key = index := settled.homed index chain here _ inside
    rw [same, here]
    exact (Keyspace.ofList_eq_some_iff (settled.distinct chain there)).mpr inside

theorem held_eq_none_iff (settled : Settled home table) {key : κ} :
    held home table key = none ↔ key ∉ table.flatten.map Prod.fst := by
  rw [Option.eq_none_iff_forall_ne_some]
  constructor
  · intro nothing member
    obtain ⟨⟨_, entry⟩, inside, rfl⟩ := List.mem_map.mp member
    exact nothing entry ((held_eq_some_iff settled).mpr inside)
  · intro absent entry found
    exact absent (List.mem_map.mpr ⟨_, (held_eq_some_iff settled).mp found, rfl⟩)

/-- Tables with the same entries stand for the same keyspace. -/
theorem held_eq_of_perm {home' : κ → ℕ} {table' : Buckets κ ε} (settled : Settled home table)
    (settled' : Settled home' table') (perm : table.flatten.Perm table'.flatten) :
    held home table = held home' table' := by
  funext key
  apply Option.ext
  intro entry
  rw [held_eq_some_iff settled, held_eq_some_iff settled', perm.mem_iff]

theorem held_set {index : ℕ} (bound : index < table.length) (chain : List (κ × ε)) (key : κ) :
    held home (table.set index chain) key = if home key = index then Keyspace.ofList chain key
      else held home table key := by
  rw [held, List.getElem?_set]
  by_cases same : home key = index
  · rw [if_pos same.symm, if_pos same, if_pos bound, Option.getD_some]
  · rw [if_neg (Ne.symm same), if_neg same, held]

/-- A new chain that differs at one key. -/
theorem held_set_of_update {key : κ} (bound : home key < table.length) {chain : List (κ × ε)} {entry : Option ε}
    (changed : Keyspace.ofList chain = Function.update (Keyspace.ofList (table[home key]?.getD [])) key entry) :
    held home (table.set (home key) chain) = Function.update (held home table) key entry := by
  funext other
  rw [held_set bound, changed]
  by_cases same : other = key
  · subst same
    rw [if_pos rfl, Function.update_self, Function.update_self]
  · rw [Function.update_of_ne same, Function.update_of_ne same]
    split_ifs with home
    · rw [held, home]
    · rfl

theorem ofList_front (key : κ) (entry : ε) (chain : List (κ × ε)) :
    Keyspace.ofList ((key, entry) :: chain) = Function.update (Keyspace.ofList chain) key (some entry) := by
  funext other
  rw [Keyspace.ofList_cons, Function.update_apply]
  exact if_congr eq_comm rfl rfl

/-- Another value for the first entry of a key. -/
def assign (key : κ) (value : ε) : List (κ × ε) → List (κ × ε)
  | [] => []
  | (first, old) :: chain => if key = first then (first, value) :: chain else (first, old) :: assign key value chain

/-- The first entry of a key taken out. -/
def remove (key : κ) : List (κ × ε) → List (κ × ε)
  | [] => []
  | (first, old) :: chain => if key = first then chain else (first, old) :: remove key chain

@[simp]
theorem keys_assign (key : κ) (value : ε) (chain : List (κ × ε)) :
    (assign key value chain).map Prod.fst = chain.map Prod.fst := by
  induction chain with
  | nil => rfl
  | cons entry chain ih =>
    rw [assign]
    split_ifs
    · rfl
    · rw [List.map_cons, ih, List.map_cons]

theorem remove_sublist (key : κ) (chain : List (κ × ε)) : (remove key chain).Sublist chain := by
  induction chain with
  | nil => exact .refl _
  | cons entry chain ih =>
    rw [remove]
    split_ifs
    · exact List.sublist_cons_self _ _
    · exact ih.cons_cons _

theorem ofList_assign {key : κ} {chain : List (κ × ε)} (there : (Keyspace.ofList chain key).isSome) (value : ε) :
    Keyspace.ofList (assign key value chain) = Function.update (Keyspace.ofList chain) key (some value) := by
  induction chain with
  | nil => cases there
  | cons entry chain ih =>
    obtain ⟨first, old⟩ := entry
    rw [assign]
    by_cases same : key = first
    · subst first
      rw [if_pos rfl, ofList_front, ofList_front, Function.update_idem]
    · rw [Keyspace.ofList_cons, if_neg (Ne.symm same)] at there
      rw [if_neg same, ofList_front, ofList_front, ih there, Function.update_comm same]

theorem ofList_remove {key : κ} {chain : List (κ × ε)} (distinct : (chain.map Prod.fst).Nodup) :
    Keyspace.ofList (remove key chain) = Function.update (Keyspace.ofList chain) key none := by
  induction chain with
  | nil => exact (Function.update_eq_self key _).symm
  | cons entry chain ih =>
    obtain ⟨first, old⟩ := entry
    rw [List.map_cons, List.nodup_cons] at distinct
    rw [remove]
    by_cases same : key = first
    · subst first
      have gone : Keyspace.ofList chain key = none := by
        refine Option.eq_none_iff_forall_ne_some.mpr fun entry found => distinct.1 ?_
        exact List.mem_map.mpr ⟨_, Keyspace.mem_of_ofList found, rfl⟩
      rw [if_pos rfl, ofList_front, Function.update_idem, ← gone, Function.update_eq_self]
    · rw [if_neg same, ofList_front, ofList_front, ih distinct.2, Function.update_comm same]

theorem length_remove {key : κ} {chain : List (κ × ε)} (there : (Keyspace.ofList chain key).isSome) :
    (remove key chain).length + 1 = chain.length := by
  induction chain with
  | nil => cases there
  | cons entry chain ih =>
    obtain ⟨first, old⟩ := entry
    rw [remove]
    by_cases same : key = first
    · rw [if_pos same, List.length_cons]
    · rw [Keyspace.ofList_cons, if_neg (Ne.symm same)] at there
      rw [if_neg same, List.length_cons, List.length_cons, ih there]

end

end CppRedis.Machine
