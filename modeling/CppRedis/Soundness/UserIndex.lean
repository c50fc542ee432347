import CppRedis.Machine.Run
import CppRedis.Model.GameServer.UserManager

/-! # The index of users

The pool of users, the dictionary of their ids and the counter say three times who is logged in. `AddUser`
writes the pool entry whatever it holds, adds to the dictionary what is not in it yet, and never counts;
`DeleteUserInfo` erases the id that the pool entry holds, also when nobody is logged in there. Pool and
dictionary agree as long as every id that is added is new and goes to a free entry, and no entry without an id
is deleted while somebody is logged in with the empty id.
-/

namespace CppRedis.Soundness.UserIndex

open Machine Model.GameServer

variable {maxUserCount : ℕ}

/-- A call with a valid index. -/
inductive Op (maxUserCount : ℕ) where
  | addUser (userId : CppString) (clientIndex : Fin maxUserCount)
  | deleteUserInfo (index : Fin maxUserCount)

def step (manager : UserManager) : Op maxUserCount → UserManager
  | .addUser userId clientIndex => manager.addUser userId clientIndex
  | .deleteUserInfo index => manager.deleteUserInfo index

def LoggedIn (manager : UserManager) (index : ℕ) : Prop :=
  (manager.mUserObjPool index).mCurDomainState ≠ .none

instance (manager : UserManager) : DecidablePred (LoggedIn manager) :=
  fun _ => inferInstanceAs (Decidable (_ ≠ _))

/-- The dictionary finds who is logged in, and ids are distinct. -/
structure Indexed (maxUserCount : ℕ) (manager : UserManager) : Prop where
  found : ∀ userId, ∀ index < maxUserCount,
    manager.findUserIndexByID userId = index ↔
      LoggedIn manager index ∧ (manager.mUserObjPool index).mUserID = userId
  distinct : ∀ index < maxUserCount, ∀ other < maxUserCount, index ≠ other → LoggedIn manager index →
    LoggedIn manager other → (manager.mUserObjPool index).mUserID ≠ (manager.mUserObjPool other).mUserID

/-- The counter counts who is logged in. -/
def Counted (maxUserCount : ℕ) (manager : UserManager) : Prop :=
  manager.mCurrentUserCnt = (List.range maxUserCount).countP fun index => LoggedIn manager index

instance (maxUserCount : ℕ) (manager : UserManager) : Decidable (Counted maxUserCount manager) :=
  inferInstanceAs (Decidable (_ = _))

def Consistent (maxUserCount : ℕ) (manager : UserManager) : Prop :=
  Indexed maxUserCount manager ∧ Counted maxUserCount manager

def Op.isAddUser : Op maxUserCount → Bool
  | .addUser _ _ => true
  | .deleteUserInfo _ => false

/-- An id is added to the entry that has it already, or it is new and the entry is free; and an entry that is
deleted is in use, unless nobody is logged in with the empty id. -/
def Orderly (manager : UserManager) : Op maxUserCount → Prop
  | .addUser userId clientIndex =>
      manager.findUserIndexByID userId = clientIndex ∨
        manager.findUserIndexByID userId = -1 ∧ ¬ LoggedIn manager clientIndex
  | .deleteUserInfo index => LoggedIn manager index ∨ manager.findUserIndexByID [] = -1

/-- What holds after all calls: the counter is never touched, the dictionary holds valid indexes, and an entry
that is not in use has no id. -/
structure Inv (maxUserCount : ℕ) (manager : UserManager) : Prop where
  uncounted : manager.mCurrentUserCnt = 0
  valid : ∀ userId index, manager.mUserIDDictionary userId = some index → index < maxUserCount
  blank : ∀ index, ¬ LoggedIn manager index → (manager.mUserObjPool index).mUserID = []

theorem inv_init (maxUserCount : ℕ) (allocated : ℕ → Bytes) :
    Inv maxUserCount (UserManager.init maxUserCount allocated) :=
  ⟨rfl, nofun, fun _ _ => rfl⟩

section

variable {manager : UserManager} {userId : CppString} {clientIndex index : Fin maxUserCount}

theorem loggedIn_addUser_self : LoggedIn (manager.addUser userId index) index := by
  rw [LoggedIn, UserManager.addUser_mUserObjPool, UserManager.modify_self]
  exact nofun

theorem loggedIn_addUser_other {other : ℕ} (different : other ≠ index) :
    LoggedIn (manager.addUser userId index) other ↔ LoggedIn manager other := by
  rw [LoggedIn, UserManager.addUser_mUserObjPool, UserManager.modify_other _ _ _ different, LoggedIn]

theorem not_loggedIn_deleteUserInfo_self : ¬ LoggedIn (manager.deleteUserInfo index) index := by
  rw [LoggedIn, UserManager.deleteUserInfo_self, not_not]
  rfl

theorem loggedIn_deleteUserInfo_other {other : ℕ} (different : other ≠ index) :
    LoggedIn (manager.deleteUserInfo index) other ↔ LoggedIn manager other := by
  rw [LoggedIn, UserManager.deleteUserInfo_other _ _ different, LoggedIn]

end

theorem Inv.step {manager : UserManager} (inv : Inv maxUserCount manager) (op : Op maxUserCount) :
    Inv maxUserCount (step manager op) := by
  obtain ⟨uncounted, valid, blank⟩ := inv
  cases op with
  | addUser userId clientIndex =>
    refine ⟨(UserManager.addUser_mCurrentUserCnt ..).trans uncounted, ?_, ?_⟩
    · intro other index entry
      simp only [UserIndex.step] at entry
      rw [UserManager.addUser_mUserIDDictionary] at entry
      split_ifs at entry
      · by_cases same : other = userId
        · rw [same, Function.update_self] at entry
          obtain rfl := Option.some.inj entry
          exact clientIndex.isLt
        · rw [Function.update_of_ne same] at entry
          exact valid other index entry
      · exact valid other index entry
    · intro other free
      by_cases same : other = clientIndex
      · rw [same] at free
        exact absurd loggedIn_addUser_self free
      · rw [UserIndex.step, loggedIn_addUser_other same] at free
        simp only [UserIndex.step]
        rw [UserManager.addUser_mUserObjPool, UserManager.modify_other _ _ _ same]
        exact blank other free
  | deleteUserInfo index =>
    refine ⟨uncounted, ?_, ?_⟩
    · intro userId other entry
      simp only [UserIndex.step, UserManager.deleteUserInfo, UserManager.modify] at entry
      by_cases same : userId = (manager.mUserObjPool index).mUserID
      · rw [same, Function.update_self] at entry
        cases entry
      · rw [Function.update_of_ne same] at entry
        exact valid userId other entry
    · intro other free
      simp only [UserIndex.step] at free ⊢
      by_cases same : other = index
      · rw [same, UserManager.deleteUserInfo_self]
        rfl
      · rw [loggedIn_deleteUserInfo_other same] at free
        rw [UserManager.deleteUserInfo_other _ _ same]
        exact blank other free

theorem Indexed.of_found {manager : UserManager}
    (found : ∀ userId, ∀ index < maxUserCount,
      manager.mUserIDDictionary userId = some index ↔
        LoggedIn manager index ∧ (manager.mUserObjPool index).mUserID = userId) :
    Indexed maxUserCount manager := by
  refine ⟨fun userId index valid => ?_, fun index valid other also different here there same => different ?_⟩
  · rw [UserManager.findUserIndexByID_eq_iff]
    exact found userId index valid
  · have first := (found _ index valid).mpr ⟨here, same⟩
    have second := (found _ other also).mpr ⟨there, rfl⟩
    exact Option.some.inj (first.symm.trans second)

theorem Indexed.entry {manager : UserManager} (indexed : Indexed maxUserCount manager) (userId : CppString) {index : ℕ}
    (valid : index < maxUserCount) :
    manager.mUserIDDictionary userId = some index ↔
      LoggedIn manager index ∧ (manager.mUserObjPool index).mUserID = userId := by
  rw [← UserManager.findUserIndexByID_eq_iff]
  exact indexed.found userId index valid

section AddUser

variable {manager : UserManager} {userId : CppString} {clientIndex : Fin maxUserCount}

theorem mUserID_addUser_self : ((manager.addUser userId clientIndex).mUserObjPool clientIndex).mUserID = userId := by
  rw [UserManager.addUser_mUserObjPool, UserManager.modify_self]
  rfl

theorem mUserID_addUser_other {other : ℕ} (different : other ≠ clientIndex) :
    ((manager.addUser userId clientIndex).mUserObjPool other).mUserID = (manager.mUserObjPool other).mUserID := by
  rw [UserManager.addUser_mUserObjPool, UserManager.modify_other _ _ _ different]

/-- An id that its entry has already changes nothing that counts. -/
theorem indexed_addUser_again (indexed : Indexed maxUserCount manager)
    (present : manager.mUserIDDictionary userId = some clientIndex) :
    Indexed maxUserCount (manager.addUser userId clientIndex) := by
  obtain ⟨here, name⟩ := (indexed.entry userId clientIndex.isLt).mp present
  refine .of_found fun other index valid => ?_
  rw [UserManager.addUser_mUserIDDictionary, if_neg (by rw [present]; exact nofun), indexed.entry other valid]
  by_cases same : index = clientIndex
  · rw [same, mUserID_addUser_self, name]
    exact and_congr_left fun _ => iff_of_true here loggedIn_addUser_self
  · rw [loggedIn_addUser_other same, mUserID_addUser_other same]

/-- A new id in a free entry is found there. -/
theorem indexed_addUser_new (indexed : Indexed maxUserCount manager)
    (new : manager.mUserIDDictionary userId = none) (free : ¬ LoggedIn manager clientIndex) :
    Indexed maxUserCount (manager.addUser userId clientIndex) := by
  refine .of_found fun other index valid => ?_
  rw [UserManager.addUser_mUserIDDictionary, if_pos new]
  by_cases same : index = clientIndex
  · rw [same, mUserID_addUser_self]
    by_cases name : other = userId
    · rw [name, Function.update_self]
      exact iff_of_true rfl ⟨loggedIn_addUser_self, rfl⟩
    · rw [Function.update_of_ne name, indexed.entry other clientIndex.isLt]
      exact iff_of_false (fun before => free before.1) (fun after => name after.2.symm)
  · rw [loggedIn_addUser_other same, mUserID_addUser_other same, ← indexed.entry other valid]
    by_cases name : other = userId
    · rw [name, Function.update_self, new]
      exact iff_of_false (fun found => same (Option.some.inj found).symm) nofun
    · rw [Function.update_of_ne name]

theorem indexed_addUser_iff (inv : Inv maxUserCount manager) (indexed : Indexed maxUserCount manager) :
    Indexed maxUserCount (manager.addUser userId clientIndex) ↔ Orderly manager (.addUser userId clientIndex) := by
  simp only [Orderly]
  rw [UserManager.findUserIndexByID_eq_iff, UserManager.findUserIndexByID_eq_neg_iff]
  constructor
  · intro after
    cases present : manager.mUserIDDictionary userId with
    | none =>
      refine Or.inr ⟨rfl, fun busy => ?_⟩
      -- The old id of the entry is still in the dictionary.
      have old := (indexed.entry _ clientIndex.isLt).mpr ⟨busy, rfl⟩
      have kept : (manager.addUser userId clientIndex).mUserIDDictionary
          (manager.mUserObjPool clientIndex).mUserID = some clientIndex.val := by
        rw [UserManager.addUser_mUserIDDictionary, if_pos present]
        by_cases same : (manager.mUserObjPool clientIndex).mUserID = userId
        · rw [same, Function.update_self]
        · rwa [Function.update_of_ne same]
      have name := ((after.entry _ clientIndex.isLt).mp kept).2
      rw [mUserID_addUser_self] at name
      rw [← name, present] at old
      cases old
    | some other =>
      have valid := inv.valid userId other present
      obtain ⟨there, name⟩ := (indexed.entry userId valid).mp present
      by_contra different
      have apart : other ≠ clientIndex := fun same => different (Or.inl (congrArg some same))
      refine after.distinct clientIndex clientIndex.isLt other valid apart.symm loggedIn_addUser_self
        ((loggedIn_addUser_other apart).mpr there) ?_
      rw [mUserID_addUser_self, mUserID_addUser_other apart, name]
  · rintro (present | ⟨new, free⟩)
    · exact indexed_addUser_again indexed present
    · exact indexed_addUser_new indexed new free

end AddUser

section DeleteUserInfo

variable {manager : UserManager} {index : Fin maxUserCount}

theorem deleteUserInfo_mUserIDDictionary :
    (manager.deleteUserInfo index).mUserIDDictionary =
      Function.update manager.mUserIDDictionary (manager.mUserObjPool index).mUserID none := rfl

/-- The erased id belongs to nobody else. -/
theorem erased_unshared (inv : Inv maxUserCount manager) (indexed : Indexed maxUserCount manager)
    (orderly : Orderly manager (.deleteUserInfo index)) {other : ℕ} (valid : other < maxUserCount)
    (different : other ≠ index) (there : LoggedIn manager other) :
    (manager.mUserObjPool other).mUserID ≠ (manager.mUserObjPool index).mUserID := by
  by_cases here : LoggedIn manager index
  · exact indexed.distinct other valid index index.isLt different there here
  · have unused := orderly.resolve_left here
    rw [UserManager.findUserIndexByID_eq_neg_iff] at unused
    rw [inv.blank index here]
    intro empty
    have found := (indexed.entry [] valid).mpr ⟨there, empty⟩
    rw [unused] at found
    cases found

theorem indexed_deleteUserInfo_iff (inv : Inv maxUserCount manager) (indexed : Indexed maxUserCount manager) :
    Indexed maxUserCount (manager.deleteUserInfo index) ↔ Orderly manager (.deleteUserInfo index) := by
  constructor
  · intro after
    by_cases here : LoggedIn manager index
    · exact Or.inl here
    · refine Or.inr ((UserManager.findUserIndexByID_eq_neg_iff ..).mpr ?_)
      cases present : manager.mUserIDDictionary [] with
      | none => rfl
      | some other =>
        have valid := inv.valid [] other present
        obtain ⟨there, empty⟩ := (indexed.entry [] valid).mp present
        have different : other ≠ index := fun same => here (same ▸ there)
        have found := (after.entry [] valid).mpr ⟨(loggedIn_deleteUserInfo_other different).mpr there, by
          rw [UserManager.deleteUserInfo_other _ _ different, empty]⟩
        rw [deleteUserInfo_mUserIDDictionary, inv.blank index here, Function.update_self] at found
        cases found
  · intro orderly
    refine .of_found fun userId other valid => ?_
    rw [deleteUserInfo_mUserIDDictionary]
    by_cases same : other = index
    · rw [same]
      refine iff_of_false (fun found => ?_) fun after => not_loggedIn_deleteUserInfo_self after.1
      by_cases name : userId = (manager.mUserObjPool index).mUserID
      · rw [name, Function.update_self] at found
        cases found
      · rw [Function.update_of_ne name, indexed.entry userId index.isLt] at found
        exact name found.2.symm
    · rw [loggedIn_deleteUserInfo_other same, UserManager.deleteUserInfo_other _ _ same]
      by_cases name : userId = (manager.mUserObjPool index).mUserID
      · rw [name, Function.update_self]
        exact iff_of_false nofun fun shared => erased_unshared inv indexed orderly valid same shared.1 shared.2
      · rw [Function.update_of_ne name, indexed.entry userId valid]

end DeleteUserInfo

theorem indexed_step_iff {manager : UserManager} (inv : Inv maxUserCount manager)
    (indexed : Indexed maxUserCount manager) (op : Op maxUserCount) :
    Indexed maxUserCount (step manager op) ↔ Orderly manager op := by
  cases op with
  | addUser userId clientIndex => exact indexed_addUser_iff inv indexed
  | deleteUserInfo index => exact indexed_deleteUserInfo_iff inv indexed

/-- The counter, which is never touched, is right as long as nobody is logged in. -/
theorem counted_iff {manager : UserManager} (inv : Inv maxUserCount manager) :
    Counted maxUserCount manager ↔ ∀ index < maxUserCount, ¬ LoggedIn manager index := by
  rw [Counted, inv.uncounted, eq_comm, List.countP_eq_zero]
  simp only [List.mem_range, decide_eq_true_eq]

/-- From a consistent state, an `AddUser` leaves the counter behind and nothing else does. -/
theorem consistent_step_iff {manager : UserManager} (inv : Inv maxUserCount manager)
    (consistent : Consistent maxUserCount manager) (op : Op maxUserCount) :
    Consistent maxUserCount (step manager op) ↔ op.isAddUser = false := by
  have nobody := (counted_iff inv).mp consistent.2
  cases op with
  | addUser userId clientIndex =>
    refine iff_of_false (fun after => ?_) nofun
    exact (counted_iff (inv.step _)).mp after.2 clientIndex clientIndex.isLt loggedIn_addUser_self
  | deleteUserInfo index =>
    refine iff_of_true ⟨(indexed_step_iff inv consistent.1 _).mpr (Or.inr ?_), ?_⟩ rfl
    · rw [UserManager.findUserIndexByID_eq_neg_iff]
      cases present : manager.mUserIDDictionary [] with
      | none => rfl
      | some other =>
        have valid := inv.valid [] other present
        exact absurd ((consistent.1.entry [] valid).mp present).1 (nobody other valid)
    · rw [counted_iff (inv.step _)]
      intro other valid
      by_cases same : other = index
      · rw [same]
        exact not_loggedIn_deleteUserInfo_self
      · rw [step, loggedIn_deleteUserInfo_other same]
        exact nobody other valid

/-- Over every sequence of calls: dictionary, pool and counter agree in every state if and only if no user is
ever added; dictionary and pool alone agree in every state if and only if every call is orderly. -/
theorem users_consistent_iff (maxUserCount : ℕ) (allocated : ℕ → Bytes) (ops : List (Op maxUserCount)) :
    (Always step (Consistent maxUserCount) (UserManager.init maxUserCount allocated) ops ↔
        ∀ op ∈ ops, op.isAddUser = false) ∧
      (Always step (Indexed maxUserCount) (UserManager.init maxUserCount allocated) ops ↔
        Along step Orderly (UserManager.init maxUserCount allocated) ops) := by
  have initial := inv_init maxUserCount allocated
  have indexed : Indexed maxUserCount (UserManager.init maxUserCount allocated) :=
    .of_found fun _ _ _ => iff_of_false nofun fun free => free.1 rfl
  have counted : Counted maxUserCount (UserManager.init maxUserCount allocated) :=
    (counted_iff initial).mpr fun _ _ free => free rfl
  rw [← along_iff_forall_mem step]
  exact ⟨always_iff_along (Inv maxUserCount) (fun _ op inv => inv.step op)
      (fun _ op inv consistent => consistent_step_iff inv consistent op) initial ⟨indexed, counted⟩ ops,
    always_iff_along (Inv maxUserCount) (fun _ op inv => inv.step op)
      (fun _ op inv indexed => indexed_step_iff inv indexed op) initial indexed ops⟩

/-- After one login the counter is still 0. -/
theorem consistent_one_login :
    ¬ Always step (Consistent 1) (UserManager.init 1 fun _ _ => 0) [Op.addUser [97] (0 : Fin 1)] := by
  intro always
  have counted := always.last.2
  revert counted
  decide

end CppRedis.Soundness.UserIndex
