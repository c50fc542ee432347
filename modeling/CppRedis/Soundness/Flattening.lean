import CppRedis.Model.RedisClient.Arguments
import CppRedis.Model.RedisClient.Commands

/-! # The words that commands are given

Each overload of `SetArgs` fills the arrays of a command with its words, or leaves it without words so that the request
is refused, except when two vectors of different lengths belong to a key and when the words are too many for an `int`.
-/

namespace CppRedis.Soundness.Flattening

open Machine Model.RedisClient

/-- The first places of arrays of this size have these words. -/
structure Filling (size : ℕ) (words : List CppString) (command : Arguments) : Prop where
  nArgs : command.nArgs.toInt = size
  nIdx : command.nIdx = words.length
  room : words.length ≤ size
  pszArgs : command.pszArgs = words.map some ++ List.replicate (size - words.length) none
  pnArgsLen : command.pnArgsLen = words.map (some ·.length) ++ List.replicate (size - words.length) none

/-- The arrays have these words and nothing else. -/
structure Holds (command : Arguments) (words : List CppString) : Prop where
  nArgs : command.nArgs.toInt = words.length
  nIdx : command.nIdx = words.length
  pszArgs : command.pszArgs = words.map some
  pnArgsLen : command.pnArgsLen = words.map (some ·.length)

variable {size : ℕ} {words : List CppString} {command : Arguments}

theorem Filling.holds (filling : Filling words.length words command) : Holds command words where
  nArgs := filling.nArgs
  nIdx := filling.nIdx
  pszArgs := by rw [filling.pszArgs, Nat.sub_self, List.replicate_zero, List.append_nil]
  pnArgsLen := by rw [filling.pnArgsLen, Nat.sub_self, List.replicate_zero, List.append_nil]

theorem set_next {α : Type} (filled : List (Option α)) (rest : ℕ) (value : α) :
    (filled ++ List.replicate (rest + 1) none).set filled.length (some value) =
      (filled ++ [some value]) ++ List.replicate rest none := by
  rw [List.set_append_right _ _ le_rfl, Nat.sub_self, List.replicate_succ, List.set_cons_zero, List.append_assoc,
    List.singleton_append]

theorem Filling.appendValue (filling : Filling size words command) (room : words.length < size) (strVal : CppString) :
    Filling size (words ++ [strVal]) (command.appendValue strVal) := by
  have free : ¬ command.nArgs.toInt ≤ command.nIdx := by
    rw [filling.nArgs, filling.nIdx]
    omega
  have length : (words ++ [strVal]).length = words.length + 1 := List.length_append
  have rest : size - words.length = (size - (words.length + 1)) + 1 := by omega
  rw [Arguments.appendValue, if_neg free]
  constructor
  · exact filling.nArgs
  · rw [length, ← filling.nIdx]
  · rw [length]
    exact room
  · have next := set_next (words.map some) (size - (words.length + 1)) strVal
    rw [List.length_map] at next
    rw [length, List.map_append, List.map_singleton, filling.pszArgs, filling.nIdx, rest, next]
  · have next := set_next (words.map (some ·.length)) (size - (words.length + 1)) strVal.length
    rw [List.length_map] at next
    rw [length, List.map_append, List.map_singleton, filling.pnArgsLen, filling.nIdx, rest, next]

theorem Filling.appendValues (filling : Filling size words command) {values : List CppString}
    (room : words.length + values.length ≤ size) : Filling size (words ++ values) (command.appendValues values) := by
  induction values generalizing words command with
  | nil => rwa [List.append_nil]
  | cons value values ih =>
    rw [List.length_cons] at room
    have next := ih (filling.appendValue (by omega) value) (by rw [List.length_append, List.length_singleton]; omega)
    rwa [List.append_assoc, List.singleton_append] at next

theorem initMemory_filling {strCmd : CppString} (initial : command.strCmd = strCmd) {count : ℕ} (positive : 0 < count)
    (bound : count < 2 ^ 31) :
    ∃ made, command.initMemory (Int32.ofNat count) = .ok made ∧ Filling count [strCmd] made := by
  have same : (Int32.ofNat count).toInt = count := Int32.toInt_ofNat_of_lt bound
  have natural : ¬ Int32.ofNat count < 0 := by
    rw [Int32.lt_iff_toInt_lt, same]
    exact not_lt.mpr (Int.natCast_nonneg count)
  rw [Arguments.initMemory, if_neg natural, same, Int.toNat_natCast]
  refine ⟨_, rfl, ?_⟩
  have empty : Filling count [] { command.clearArgs with
      nArgs := Int32.ofNat count
      pszArgs := List.replicate count none
      pnArgsLen := List.replicate count none } := ⟨same, rfl, Nat.zero_le count, rfl, rfl⟩
  have first := empty.appendValue positive strCmd
  rw [← initial] at first ⊢
  exact first

theorem appendMap_eq (command : Arguments) (mapArg : List (CppString × CppString)) :
    command.appendMap mapArg = command.appendValues (mapArg.flatMap fun kvPair => [kvPair.1, kvPair.2]) := by
  induction mapArg generalizing command with
  | nil => rfl
  | cons kvPair mapArg ih => exact ih _

theorem appendPairs_eq (command : Arguments) {vecArg1 vecArg2 : List CppString}
    (room : vecArg1.length ≤ vecArg2.length) :
    command.appendPairs vecArg1 vecArg2 = .ok (command.appendValues (interleave vecArg1 vecArg2)) := by
  induction vecArg1 generalizing vecArg2 command with
  | nil => cases vecArg2 <;> rfl
  | cons first vecArg1 ih =>
    rcases vecArg2 with _ | ⟨second, vecArg2⟩
    · cases room
    · exact ih _ (Nat.le_of_succ_le_succ room)

theorem appendPairs_short (command : Arguments) {vecArg1 vecArg2 : List CppString}
    (short : vecArg2.length < vecArg1.length) : command.appendPairs vecArg1 vecArg2 = .error .outOfRange := by
  induction vecArg1 generalizing vecArg2 command with
  | nil => cases short
  | cons first vecArg1 ih =>
    rcases vecArg2 with _ | ⟨second, vecArg2⟩
    · rfl
    · exact ih _ (Nat.lt_of_succ_lt_succ short)

theorem length_interleave {vecArg1 vecArg2 : List CppString} (room : vecArg1.length ≤ vecArg2.length) :
    (interleave vecArg1 vecArg2).length = vecArg1.length * 2 := by
  induction vecArg1 generalizing vecArg2 with
  | nil => cases vecArg2 <;> rfl
  | cons first vecArg1 ih =>
    rcases vecArg2 with _ | ⟨second, vecArg2⟩
    · cases room
    · rw [interleave, List.length_cons, List.length_cons, ih (Nat.le_of_succ_le_succ room), List.length_cons]
      omega

theorem length_pairs (mapArg : List (CppString × CppString)) :
    (mapArg.flatMap fun kvPair => [kvPair.1, kvPair.2]).length = mapArg.length * 2 := by
  induction mapArg with
  | nil => rfl
  | cons kvPair mapArg ih =>
    have longer : (kvPair :: mapArg).length = mapArg.length + 1 := rfl
    rw [List.flatMap_cons, List.length_append, ih, longer, Nat.succ_mul]
    exact Nat.add_comm _ _

theorem appendValue_nArgs (command : Arguments) (strVal : CppString) :
    (command.appendValue strVal).nArgs = command.nArgs := by
  rw [Arguments.appendValue]
  split_ifs <;> rfl

theorem appendValues_nArgs (command : Arguments) (values : List CppString) :
    (command.appendValues values).nArgs = command.nArgs := by
  induction values generalizing command with
  | nil => rfl
  | cons value values ih => exact (ih _).trans (appendValue_nArgs command value)

/-- Each overload declares as many words as it appends. -/
theorem setArgs_words (command : Arguments) {strCmd : CppString} {arguments : SetArgs}
    (set : arguments.words strCmd = .ok words) (filled : words ≠ []) :
    command.setArgs arguments = (do
      let command ← command.initMemory (Int32.ofNat words.length)
      return command.appendValues words.tail) := by
  cases arguments with
  | vecStr vecArg1 strArg2 =>
    cases Except.ok.inj set
    split_ifs at filled ⊢ with keyless
    · exact absurd rfl filled
    · have length : (strCmd :: (vecArg1 ++ [strArg2])).length = vecArg1.length + 2 := by
        rw [List.length_cons, List.length_append]
        rfl
      rw [Arguments.setArgs, if_neg keyless, length, List.tail_cons]
      congr 1
      funext made
      rw [Arguments.appendValues, Arguments.appendValues, List.foldl_append]
      rfl
  | vecVec vecArg1 vecArg2 =>
    cases Except.ok.inj set
    split_ifs at filled ⊢ with lengths
    · exact absurd rfl filled
    · have same := not_not.mp lengths
      rw [Arguments.setArgs, if_neg lengths, List.length_cons, length_interleave same.le, List.tail_cons]
      congr 1
      funext made
      exact appendPairs_eq made same.le
  | strVecVec strArg1 vecArg2 vecArg3 =>
    rw [SetArgs.words] at set
    split_ifs at set with short
    have room := not_lt.mp short
    cases Except.ok.inj set
    rw [Arguments.setArgs, List.length_cons, List.length_cons, length_interleave room, List.tail_cons]
    congr 1
    funext made
    exact appendPairs_eq _ room
  | map mapArg =>
    cases Except.ok.inj set
    rw [Arguments.setArgs, List.length_cons, length_pairs, List.tail_cons]
    congr 1
    funext made
    rw [appendMap_eq]
  | strMap strArg1 mapArg2 =>
    cases Except.ok.inj set
    rw [Arguments.setArgs, List.length_cons, List.length_cons, length_pairs, List.tail_cons]
    congr 1
    funext made
    rw [appendMap_eq]
    rfl
  | _ =>
    cases Except.ok.inj set
    simp only [Arguments.setArgs, Arguments.appendValues, List.tail_cons, List.foldl_cons, List.foldl_nil]
    rfl

theorem words_cons {strCmd : CppString} {arguments : SetArgs} (set : arguments.words strCmd = .ok words)
    (filled : words ≠ []) : words = strCmd :: words.tail := by
  cases arguments with
  | vecStr _ _ | vecVec _ _ =>
    cases Except.ok.inj set
    split_ifs at filled ⊢
    · exact absurd rfl filled
    · rfl
  | strVecVec _ _ _ =>
    rw [SetArgs.words] at set
    split_ifs at set
    cases Except.ok.inj set
    rfl
  | _ => cases Except.ok.inj set; rfl

/-- The arrays hold the words of the command, as many as an `int` counts. -/
theorem setArgs_holds {strCmd : CppString} {arguments : SetArgs} (set : arguments.words strCmd = .ok words)
    (filled : words ≠ []) (bound : words.length < 2 ^ 31) :
    ∃ command, Arguments.setArgs { strCmd := strCmd } arguments = .ok command ∧ Holds command words := by
  have begins := words_cons set filled
  have length : words.length = words.tail.length + 1 := congrArg List.length begins
  obtain ⟨made, ran, filling⟩ := @initMemory_filling { strCmd := strCmd } strCmd rfl words.length (by omega) bound
  refine ⟨made.appendValues words.tail, ?_, ?_⟩
  · rw [setArgs_words _ set filled, ran]
    rfl
  · have whole := @Filling.appendValues _ _ _ filling words.tail (by rw [List.length_singleton]; omega)
    rw [List.singleton_append, ← begins] at whole
    exact whole.holds

/-- The command and its arguments in order; none when two vectors that go together have different lengths, or when
there is no key. -/
def flattened (strCmd : CppString) : SetArgs → Option (List CppString)
  | .none => some [strCmd]
  | .str strArg => some [strCmd, strArg]
  | .vec vecArg => some (strCmd :: vecArg)
  | .strStr strArg1 strArg2 => some [strCmd, strArg1, strArg2]
  | .strVec strArg1 vecArg2 => some (strCmd :: strArg1 :: vecArg2)
  | .strSet strArg1 setArg2 => some (strCmd :: strArg1 :: setArg2)
  | .vecStr vecArg1 strArg2 => if vecArg1 = [] then none else some (strCmd :: (vecArg1 ++ [strArg2]))
  | .vecVec vecArg1 vecArg2 =>
      if vecArg1.length = vecArg2.length then some (strCmd :: interleave vecArg1 vecArg2) else none
  | .map mapArg => some (strCmd :: mapArg.flatMap fun kvPair => [kvPair.1, kvPair.2])
  | .strMap strArg1 mapArg2 => some (strCmd :: strArg1 :: mapArg2.flatMap fun kvPair => [kvPair.1, kvPair.2])
  | .strStrStr strArg1 strArg2 strArg3 => some [strCmd, strArg1, strArg2, strArg3]
  | .strStrVec strArg1 strArg2 vecArg3 => some (strCmd :: strArg1 :: strArg2 :: vecArg3)
  | .strVecVec strArg1 vecArg2 vecArg3 =>
      if vecArg2.length = vecArg3.length then some (strCmd :: strArg1 :: interleave vecArg2 vecArg3) else none
  | .strStrStrStr strArg1 strArg2 strArg3 strArg4 => some [strCmd, strArg1, strArg2, strArg3, strArg4]

theorem words_of_flattened {strCmd : CppString} {arguments : SetArgs} (flat : flattened strCmd arguments = some words) :
    arguments.words strCmd = .ok words ∧ words ≠ [] := by
  cases arguments with
  | vecStr vecArg1 strArg2 =>
    rw [flattened] at flat
    split_ifs at flat with keyless
    cases flat
    exact ⟨congrArg Except.ok (if_neg keyless), List.cons_ne_nil _ _⟩
  | vecVec vecArg1 vecArg2 =>
    rw [flattened] at flat
    split_ifs at flat with lengths
    cases flat
    exact ⟨congrArg Except.ok (if_neg (not_not.mpr lengths)), List.cons_ne_nil _ _⟩
  | strVecVec strArg1 vecArg2 vecArg3 =>
    rw [flattened] at flat
    split_ifs at flat with lengths
    cases flat
    exact ⟨if_neg lengths.not_gt, List.cons_ne_nil _ _⟩
  | _ => cases flat; exact ⟨rfl, List.cons_ne_nil _ _⟩

/-- What is asked of a command after `SetArgs`: it has the words, or it is refused by itself. -/
def Sound (strCmd : CppString) (arguments : SetArgs) : Prop :=
  ∃ command, Arguments.setArgs { strCmd := strCmd } arguments = .ok command ∧
    match flattened strCmd arguments with
    | some words => Holds command words
    | none => ∀ connected, command.handed connected = .inl .paramErr

/-- An `int` counts the words; and the vectors of a key have the same length, or the longer one is the second and the
number of words that is declared is zero as an `int`. -/
def Accepted (strCmd : CppString) (arguments : SetArgs) : Prop :=
  match flattened strCmd arguments, arguments with
  | some words, _ => words.length < 2 ^ 31
  | none, .strVecVec _ vecArg2 vecArg3 =>
      vecArg2.length < vecArg3.length ∧ Int32.ofNat (vecArg2.length * 2 + 2) = 0
  | none, _ => True

theorem handed_paramErr_iff (command : Arguments) :
    (∀ connected, command.handed connected = .inl .paramErr) ↔ command.nArgs ≤ 0 := by
  constructor
  · intro refused
    by_contra some
    have handed := refused false
    rw [Arguments.handed, if_neg some] at handed
    cases handed
  · intro none connected
    rw [Arguments.handed, if_pos none]

/-- Two vectors of different lengths are indexed past the end of the second, or what is left of it is dropped. -/
theorem strVecVec_sound_iff {strCmd strArg1 : CppString} {vecArg2 vecArg3 : List CppString}
    (lengths : vecArg2.length ≠ vecArg3.length) :
    Sound strCmd (.strVecVec strArg1 vecArg2 vecArg3) ↔
      vecArg2.length < vecArg3.length ∧ Int32.ofNat (vecArg2.length * 2 + 2) = 0 := by
  have flat : flattened strCmd (.strVecVec strArg1 vecArg2 vecArg3) = none := if_neg lengths
  rw [Sound, flat, Arguments.setArgs]
  simp only [handed_paramErr_iff]
  by_cases negative : Int32.ofNat (vecArg2.length * 2 + 2) < 0
  · rw [Arguments.initMemory, if_pos negative]
    constructor
    · rintro ⟨_, ran, _⟩
      cases ran
    · rintro ⟨_, zero⟩
      rw [zero] at negative
      exact absurd negative (by decide)
  · rw [Arguments.initMemory, if_neg negative]
    change (∃ command, Arguments.appendPairs _ vecArg2 vecArg3 = .ok command ∧ command.nArgs ≤ 0) ↔ _
    rcases Nat.lt_or_gt_of_ne lengths with shorter | longer
    · rw [appendPairs_eq _ shorter.le]
      constructor
      · rintro ⟨_, ran, none⟩
        cases ran
        rw [appendValues_nArgs, appendValue_nArgs, appendValue_nArgs] at none
        exact ⟨shorter, Int32.le_antisymm none (Int32.not_lt.mp negative)⟩
      · rintro ⟨_, zero⟩
        refine ⟨_, rfl, ?_⟩
        rw [appendValues_nArgs, appendValue_nArgs, appendValue_nArgs, zero]
        exact Int32.le_refl 0
    · rw [appendPairs_short _ longer]
      exact ⟨nofun, fun both => absurd both.1 (Nat.lt_asymm longer)⟩

theorem sound_of_flattened {strCmd : CppString} {arguments : SetArgs} (flat : flattened strCmd arguments = some words) :
    Sound strCmd arguments ↔ words.length < 2 ^ 31 := by
  rw [Sound, flat]
  constructor
  · rintro ⟨command, _, holds⟩
    have most := command.nArgs.toInt_lt
    rw [holds.nArgs] at most
    exact_mod_cast most
  · obtain ⟨set, filled⟩ := words_of_flattened flat
    exact setArgs_holds set filled

theorem sound_iff (strCmd : CppString) (arguments : SetArgs) : Sound strCmd arguments ↔ Accepted strCmd arguments := by
  unfold Accepted
  rcases flat : flattened strCmd arguments with _ | words
  · cases arguments with
    | vecStr vecArg1 strArg2 =>
      rw [flattened] at flat
      split_ifs at flat with keyless
      rw [Sound, flattened, if_pos keyless, Arguments.setArgs, if_pos keyless]
      exact iff_of_true ⟨_, rfl, fun _ => rfl⟩ trivial
    | vecVec vecArg1 vecArg2 =>
      rw [flattened] at flat
      split_ifs at flat with lengths
      rw [Sound, flattened, if_neg lengths, Arguments.setArgs, if_pos lengths]
      exact iff_of_true ⟨_, rfl, fun _ => rfl⟩ trivial
    | strVecVec strArg1 vecArg2 vecArg3 =>
      rw [flattened] at flat
      split_ifs at flat with lengths
      exact strVecVec_sound_iff lengths
    | _ => cases flat
  · exact sound_of_flattened flat

section

variable {σ : Type}

theorem queueSets_short (ppLine : CRedisPipeline) {vecKey vecVal : List CppString}
    (short : vecVal.length < vecKey.length) (source : World σ) :
    queueSets ppLine vecKey vecVal source = .error .outOfRange := by
  induction vecKey generalizing vecVal ppLine source with
  | nil => cases short
  | cons strKey vecKey ih =>
    rcases vecVal with _ | ⟨strVal, vecVal⟩
    · rfl
    · exact ih _ (Nat.lt_of_succ_lt_succ short) _

theorem queueSets_long (ppLine : CRedisPipeline) {vecKey vecVal : List CppString}
    (room : vecKey.length ≤ vecVal.length) (source : World σ) :
    ∃ result, queueSets ppLine vecKey vecVal source = .ok result := by
  induction vecKey generalizing vecVal ppLine source with
  | nil => exact ⟨(ppLine, source), rfl⟩
  | cons strKey vecKey ih =>
    rcases vecVal with _ | ⟨strVal, vecVal⟩
    · cases room
    · exact ih _ (Nat.le_of_succ_le_succ room) _

theorem queueSets_ok_iff (ppLine : CRedisPipeline) (vecKey vecVal : List CppString) (source : World σ) :
    (∃ result, queueSets ppLine vecKey vecVal source = .ok result) ↔ vecKey.length ≤ vecVal.length := by
  constructor
  · rintro ⟨result, ran⟩
    by_contra short
    rw [queueSets_short ppLine (not_le.mp short) source] at ran
    cases ran
  · exact fun room => queueSets_long ppLine room source

/-- With fewer values than keys, the loop of `Mset` takes a value past the end. -/
theorem mset_short (servers : Servers σ) {vecKey vecVal : List CppString} {source : World σ}
    (cluster : source.client.bCluster = true) (short : vecVal.length < vecKey.length) :
    mset servers vecKey vecVal source = .error .outOfRange := by
  rcases vecKey with _ | ⟨strKey, vecKey⟩
  · cases short
  · rw [mset, Program.bind_of_ok (Program.get_apply source), cluster, Bool.not_true, if_neg Bool.false_ne_true]
    exact Program.bind_of_error (queueSets_short {} short source)

end

/-- A command is given its words or refused, just when they are accepted; and the loop of `Mset` over several servers
stays within its values, just when there are as many as keys. -/
theorem arguments_sound_iff {σ : Type} (strCmd : CppString) (arguments : SetArgs) (servers : Servers σ)
    (vecKey vecVal : List CppString) (source : World σ) :
    (Sound strCmd arguments ↔ Accepted strCmd arguments) ∧
      ((∃ result, queueSets {} vecKey vecVal source = .ok result) ↔ vecKey.length ≤ vecVal.length) ∧
      (source.client.bCluster = true → vecVal.length < vecKey.length →
        mset servers vecKey vecVal source = .error .outOfRange) :=
  ⟨sound_iff strCmd arguments, queueSets_ok_iff {} vecKey vecVal source, mset_short servers⟩

theorem arguments_sound_iff_pair :
    Sound [104] (.strVecVec [107] [[97]] [[49]]) ∧
      mset ⟨id, fun _ _ => true, fun _ _ => pure .success, fun _ _ => pure .success, pure ()⟩ [[97], [98]] [[49]]
        ({ client := { bCluster := true }, servers := () } : World Unit) = .error .outOfRange := by
  obtain ⟨sound, _, short⟩ := arguments_sound_iff [104] (.strVecVec [107] [[97]] [[49]])
    (⟨id, fun _ _ => true, fun _ _ => pure .success, fun _ _ => pure .success, pure ()⟩ : Servers Unit) [[97], [98]]
    [[49]] { client := { bCluster := true }, servers := () }
  exact ⟨sound.mpr (by decide : (4 : ℕ) < 2 ^ 31), short rfl (by decide)⟩

/-- `Hmset` with two fields and one value takes a value past the end, and with one field and two values it drops one
and sends the rest. -/
theorem hmset_lengths :
    Arguments.setArgs { strCmd := [104] } (.strVecVec [107] [[97], [98]] [[49]]) = .error .outOfRange ∧
      Arguments.setArgs { strCmd := [104] } (.strVecVec [107] [[97]] [[49], [50]]) =
        .ok ⟨[104], 4, 4, [some [104], some [107], some [97], some [49]], [some 1, some 1, some 1, some 1]⟩ ∧
      ¬ Sound [104] (.strVecVec [107] [[97], [98]] [[49]]) := by
  refine ⟨by decide +kernel, by decide +kernel, ?_⟩
  rintro ⟨command, ran, _⟩
  cases ran

end CppRedis.Soundness.Flattening
