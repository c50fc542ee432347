import CppRedis.Machine.Leases
import CppRedis.Machine.Run
import CppRedis.Model.RedisClient.Sharing

/-! # Who has a connection

The connections of a server are on loan: `FetchConnection` lends one out, `ReturnConnection` brings it back,
`Initialize` retires what is idle and adds what it opens. Every step of the threads is such a move or none, because
`CleanConn` runs only while the refresh thread has the lock, which a caller shares as long as it may have a
connection. So the loans are sound in every state of every run.
-/

namespace CppRedis.Soundness.Ownership

open Machine Model.RedisClient

/-- The connections as loans. -/
def leases (sharing : Sharing) : Leases Requester ℕ where
  idle := sharing.queIdleConn
  holds := sharing.holds
  made := sharing.made
  retired := sharing.deleted

/-- Who shares the lock. -/
structure Locked (sharing : Sharing) : Prop where
  shared_nodup : sharing.shared.Nodup
  mem_shared : ∀ thread, thread ∈ sharing.shared ↔ (sharing.caller thread).sharing = true
  exclusive : sharing.refresher.exclusive = true → sharing.shared = []

/-- The connections that the loop of `Initialize` may still open. -/
def toOpen : Refreshing → ℕ
  | .opening count => count
  | _ => 0

/-- How many connections there may be, and how they are numbered. -/
structure Numbered (nConnNum : ℕ) (sharing : Sharing) : Prop where
  limit : sharing.nConnNum = nConnNum
  room : sharing.made.length + toOpen sharing.refresher ≤ nConnNum
  made_lt : ∀ conn ∈ sharing.made, conn < sharing.allocated
  deleted_lt : ∀ conn ∈ sharing.deleted, conn < sharing.allocated

/-- What a step does. -/
structure Proceeds (nConnNum : ℕ) (source target : Sharing) : Prop where
  move : Leases.Move (leases source) (leases target)
  locked : Locked target
  numbered : Numbered nConnNum target

variable {nConnNum : ℕ} {sharing : Sharing}

theorem move_of_eq {source target : Leases Requester ℕ} (same : target = source) : Leases.Move source target :=
  same ▸ .stay

theorem proceeds_same (locked : Locked sharing) (numbered : Numbered nConnNum sharing) :
    Proceeds nConnNum sharing sharing := ⟨.stay, locked, numbered⟩

theorem holds_place (sharing : Sharing) (thread : ℕ) (position : Executing) :
    (sharing.place thread position).holds =
      Function.update sharing.holds (.caller thread) position.holds := by
  funext requester
  cases requester with
  | caller other =>
    by_cases same : other = thread
    · subst same
      simp only [Sharing.holds, Sharing.place, Function.update_self]
    · have different : Requester.caller other ≠ .caller thread := fun equal => same (Requester.caller.inj equal)
      simp only [Sharing.holds, Sharing.place, Function.update_of_ne same, Function.update_of_ne different]
  | refresher =>
    have different : Requester.refresher ≠ .caller thread := nofun
    rw [Function.update_of_ne different]
    rfl

theorem holds_refresher (sharing : Sharing) (position : Refreshing) :
    Sharing.holds { sharing with refresher := position } =
      Function.update sharing.holds .refresher position.holds := by
  funext requester
  cases requester with
  | caller thread =>
    have different : Requester.caller thread ≠ .refresher := nofun
    rw [Function.update_of_ne different]
    rfl
  | refresher => rw [Function.update_self]; rfl

section Placing

variable {thread : ℕ} {position : Executing}

theorem caller_place (other : ℕ) :
    (sharing.place thread position).caller other = if other = thread then position else sharing.caller other :=
  Function.update_apply _ _ _ _

theorem locked_place (locked : Locked sharing)
    (same : position.sharing = (sharing.caller thread).sharing) : Locked (sharing.place thread position) where
  shared_nodup := locked.shared_nodup
  mem_shared other := by
    rw [caller_place]
    split
    next here => rw [same, here]; exact locked.mem_shared thread
    next => exact locked.mem_shared other
  exclusive := locked.exclusive

theorem locked_enter (locked : Locked sharing) (outside : (sharing.caller thread).sharing = false)
    (inside : position.sharing = true) (granted : sharing.refresher.exclusive = false) :
    Locked { sharing.place thread position with shared := thread :: sharing.shared } where
  shared_nodup := by
    refine List.nodup_cons.mpr ⟨fun member => ?_, locked.shared_nodup⟩
    rw [(locked.mem_shared thread).mp member] at outside
    cases outside
  mem_shared other := by
    change other ∈ thread :: sharing.shared ↔ ((sharing.place thread position).caller other).sharing = true
    rw [caller_place, List.mem_cons]
    split
    next here => exact iff_of_true (.inl here) inside
    next elsewhere => rw [locked.mem_shared other]; exact or_iff_right elsewhere
  exclusive taken := by
    change sharing.refresher.exclusive = true at taken
    rw [granted] at taken
    cases taken

theorem locked_exit (locked : Locked sharing) (outside : position.sharing = false) :
    Locked { sharing.place thread position with shared := sharing.shared.erase thread } where
  shared_nodup := locked.shared_nodup.erase thread
  mem_shared other := by
    change other ∈ sharing.shared.erase thread ↔ ((sharing.place thread position).caller other).sharing = true
    rw [caller_place, locked.shared_nodup.mem_erase_iff]
    split
    next here => exact iff_of_false (fun member => member.1 here) (by rw [outside]; exact Bool.false_ne_true)
    next elsewhere => rw [locked.mem_shared other]; exact and_iff_right elsewhere
  exclusive taken := by
    change sharing.shared.erase thread = []
    rw [locked.exclusive taken]
    rfl

theorem leases_place (same : position.holds = (sharing.caller thread).holds) :
    leases (sharing.place thread position) = leases sharing := by
  have unchanged : (sharing.place thread position).holds = sharing.holds := by
    rw [holds_place, same]
    exact Function.update_eq_self (Requester.caller thread) sharing.holds
  unfold leases
  rw [unchanged]
  rfl

/-- A caller goes on without the lock or with it, and without a connection. -/
theorem proceeds_place (locked : Locked sharing) (numbered : Numbered nConnNum sharing)
    (sharesSame : position.sharing = (sharing.caller thread).sharing)
    (holdsSame : position.holds = (sharing.caller thread).holds) :
    Proceeds nConnNum sharing (sharing.place thread position) where
  move := move_of_eq (leases_place holdsSame)
  locked := locked_place locked sharesSame
  numbered := ⟨numbered.limit, numbered.room, numbered.made_lt, numbered.deleted_lt⟩

theorem proceeds_enter (locked : Locked sharing) (numbered : Numbered nConnNum sharing)
    (outside : (sharing.caller thread).sharing = false) (inside : position.sharing = true)
    (granted : sharing.refresher.exclusive = false) (holdsSame : position.holds = (sharing.caller thread).holds) :
    Proceeds nConnNum sharing { sharing.place thread position with shared := thread :: sharing.shared } where
  move := move_of_eq (leases_place holdsSame)
  locked := locked_enter locked outside inside granted
  numbered := ⟨numbered.limit, numbered.room, numbered.made_lt, numbered.deleted_lt⟩

theorem proceeds_exit (locked : Locked sharing) (numbered : Numbered nConnNum sharing)
    (outside : position.sharing = false) (holdsSame : position.holds = (sharing.caller thread).holds) :
    Proceeds nConnNum sharing { sharing.place thread position with shared := sharing.shared.erase thread } where
  move := move_of_eq (leases_place holdsSame)
  locked := locked_exit locked outside
  numbered := ⟨numbered.limit, numbered.room, numbered.made_lt, numbered.deleted_lt⟩

end Placing

/-- What a requester has when it is at a position of `ServRequest` or has its result. -/
def outcomeHolds : ServRequest ⊕ ReturnCode → Option ℕ := Sum.elim ServRequest.holds fun _ => none

/-- A step of `ServRequest` takes a connection, gives one back or does nothing to them. -/
theorem serve_move {requester : Requester} {request : ServRequest} (here : sharing.holds requester = request.holds)
    (nRet : ReturnCode) :
    ∃ rest, (sharing.serve nRet request).2 = { sharing with queIdleConn := rest } ∧
      Leases.Move (leases sharing) { leases sharing with
        idle := rest
        holds := Function.update sharing.holds requester (outcomeHolds (sharing.serve nRet request).1) } := by
  have unmoved : ∀ {outcome : ServRequest ⊕ ReturnCode}, outcomeHolds outcome = request.holds →
      Leases.Move (leases sharing) { leases sharing with
        holds := Function.update sharing.holds requester (outcomeHolds outcome) } := by
    intro outcome same
    rw [same, ← here, Function.update_eq_self]
    exact .stay
  cases request with
  | fetching nTry =>
    cases nTry with
    | zero => exact ⟨sharing.queIdleConn, rfl, unmoved rfl⟩
    | succ nTry =>
      cases queue : sharing.queIdleConn with
      | nil =>
        simp only [Sharing.serve, Sharing.fetchConnection, queue]
        exact ⟨[], by rw [← queue], queue ▸ unmoved rfl⟩
      | cons conn rest =>
        simp only [Sharing.serve, Sharing.fetchConnection, queue]
        exact ⟨rest, rfl, .take requester conn rest queue here⟩
  | requesting conn => exact ⟨sharing.queIdleConn, rfl, unmoved rfl⟩
  | returning conn nRet => exact ⟨sharing.queIdleConn ++ [conn], rfl, .give requester conn here⟩

theorem locked_queue (locked : Locked sharing) (rest : List ℕ) : Locked { sharing with queIdleConn := rest } :=
  ⟨locked.shared_nodup, locked.mem_shared, locked.exclusive⟩

theorem locked_refresher (locked : Locked sharing) {position : Refreshing}
    (granted : position.exclusive = true → sharing.shared = []) :
    Locked { sharing with refresher := position } := ⟨locked.shared_nodup, locked.mem_shared, granted⟩

theorem proceeds_serve_caller (locked : Locked sharing) (numbered : Numbered nConnNum sharing) {thread : ℕ}
    {again : Bool} {request : ServRequest} (here : sharing.caller thread = .serving again request)
    {position : Executing} {rest : List ℕ} (shares : position.sharing = true)
    (move : Leases.Move (leases sharing) { leases sharing with
      idle := rest, holds := Function.update sharing.holds (.caller thread) position.holds }) :
    Proceeds nConnNum sharing (Sharing.place { sharing with queIdleConn := rest } thread position) where
  move := by
    rw [← holds_place] at move
    exact move
  locked := by
    refine locked_place (locked_queue locked rest) ?_
    rw [shares, here]
    rfl
  numbered := ⟨numbered.limit, numbered.room, numbered.made_lt, numbered.deleted_lt⟩

theorem proceeds_serve_refresher (locked : Locked sharing) (numbered : Numbered nConnNum sharing)
    {request : ServRequest} (here : sharing.refresher = .asking request) {position : Refreshing} {rest : List ℕ}
    (opened : toOpen position = 0)
    (move : Leases.Move (leases sharing) { leases sharing with
      idle := rest, holds := Function.update sharing.holds .refresher position.holds }) :
    Proceeds nConnNum sharing { sharing with queIdleConn := rest, refresher := position } where
  move := by
    rw [← holds_refresher] at move
    exact move
  locked := by
    have alone : sharing.shared = [] := locked.exclusive (by rw [here]; rfl)
    exact locked_refresher (locked_queue locked rest) fun _ => alone
  numbered := by
    refine ⟨numbered.limit, ?_, numbered.made_lt, numbered.deleted_lt⟩
    rw [opened]
    exact Nat.le_of_add_right_le numbered.room

theorem servRequest_proceeds (locked : Locked sharing) (numbered : Numbered nConnNum sharing) (nRet : ReturnCode)
    (requester : Requester) : Proceeds nConnNum sharing (sharing.servRequest nRet requester) := by
  cases requester with
  | caller thread =>
    cases here : sharing.caller thread with
    | serving again request =>
      have held : sharing.holds (.caller thread) = request.holds := by rw [Sharing.holds, here]; rfl
      obtain ⟨rest, queue, move⟩ := serve_move held nRet
      cases result : sharing.serve nRet request with
      | mk outcome after =>
        rw [result] at queue move
        obtain rfl : after = { sharing with queIdleConn := rest } := queue
        simp only [Sharing.servRequest, here, result]
        cases outcome with
        | inl next => exact proceeds_serve_caller locked numbered here rfl move
        | inr nRet => exact proceeds_serve_caller locked numbered here rfl move
    | _ =>
      simp only [Sharing.servRequest, here]
      exact proceeds_same locked numbered
  | refresher =>
    cases here : sharing.refresher with
    | asking request =>
      have held : sharing.holds .refresher = request.holds := by rw [Sharing.holds, here]; rfl
      obtain ⟨rest, queue, move⟩ := serve_move held nRet
      cases result : sharing.serve nRet request with
      | mk outcome after =>
        rw [result] at queue move
        obtain rfl : after = { sharing with queIdleConn := rest } := queue
        simp only [Sharing.servRequest, here, result]
        cases outcome with
        | inl next => exact proceeds_serve_refresher locked numbered here rfl move
        | inr nRet => exact proceeds_serve_refresher locked numbered here rfl move
    | _ =>
      simp only [Sharing.servRequest, here]
      exact proceeds_same locked numbered

/-- A step of a caller outside of `ServRequest`. -/
theorem execute_proceeds (locked : Locked sharing) (numbered : Numbered nConnNum sharing) (thread : ℕ) :
    Proceeds nConnNum sharing (sharing.execute thread) := by
  cases here : sharing.caller thread with
  | outside =>
    simp only [Sharing.execute, here]
    split
    · exact proceeds_place locked numbered (by rw [here]; rfl) (by rw [here]; rfl)
    · exact proceeds_same locked numbered
  | _ =>
    simp only [Sharing.execute, here]
    exact proceeds_same locked numbered

theorem lockShared_proceeds (locked : Locked sharing) (numbered : Numbered nConnNum sharing) (thread : ℕ) :
    Proceeds nConnNum sharing (sharing.lockShared thread) := by
  cases here : sharing.caller thread with
  | entering again =>
    simp only [Sharing.lockShared, here]
    split
    · exact proceeds_same locked numbered
    next granted =>
      refine proceeds_enter locked numbered (by rw [here]; rfl) ?_ (Bool.eq_false_of_not_eq_true granted) ?_
      · cases sharing.bValid <;> rfl
      · rw [here]
        cases sharing.bValid <;> rfl
  | _ =>
    simp only [Sharing.lockShared, here]
    exact proceeds_same locked numbered

theorem unlockShared_proceeds (locked : Locked sharing) (numbered : Numbered nConnNum sharing) (thread : ℕ) :
    Proceeds nConnNum sharing (sharing.unlockShared thread) := by
  cases here : sharing.caller thread with
  | exiting again nRet =>
    simp only [Sharing.unlockShared, here]
    refine proceeds_exit locked numbered ?_ ?_
    · split <;> rfl
    · rw [here]
      split <;> rfl
  | _ =>
    simp only [Sharing.unlockShared, here]
    exact proceeds_same locked numbered

theorem tryLockShared_proceeds (locked : Locked sharing) (numbered : Numbered nConnNum sharing) (thread : ℕ)
    (granted : Bool) : Proceeds nConnNum sharing (sharing.tryLockShared thread granted) := by
  cases here : sharing.caller thread with
  | trying =>
    simp only [Sharing.tryLockShared, here]
    split
    next free => exact proceeds_enter locked numbered (by rw [here]; rfl) rfl free.2 (by rw [here]; rfl)
    next => exact proceeds_place locked numbered (by rw [here]; rfl) (by rw [here]; rfl)
  | _ =>
    simp only [Sharing.tryLockShared, here]
    exact proceeds_same locked numbered

/-- The refresh thread moves on without a connection. -/
theorem proceeds_refresher {source : Sharing} (proceeds : Proceeds nConnNum source sharing) {position : Refreshing}
    (granted : position.exclusive = true → sharing.shared = []) (opened : toOpen position = 0)
    (unheld : position.holds = sharing.refresher.holds) :
    Proceeds nConnNum source { sharing with refresher := position } where
  move := by
    have same : leases { sharing with refresher := position } = leases sharing := by
      unfold leases
      rw [holds_refresher, unheld]
      exact congrArg (fun holds => Leases.mk sharing.queIdleConn holds sharing.made sharing.deleted)
        (Function.update_eq_self Requester.refresher sharing.holds)
    rw [same]
    exact proceeds.move
  locked := locked_refresher proceeds.locked granted
  numbered := by
    refine ⟨proceeds.numbered.limit, ?_, proceeds.numbered.made_lt, proceeds.numbered.deleted_lt⟩
    rw [opened]
    exact Nat.le_of_add_right_le proceeds.numbered.room

theorem notifyAll_proceeds (locked : Locked sharing) (numbered : Numbered nConnNum sharing) (thread : ℕ) :
    Proceeds nConnNum sharing (sharing.notifyAll thread) := by
  cases here : sharing.caller thread with
  | notifying =>
    have exits : Proceeds nConnNum sharing { sharing.place thread (.polling waitRetryTimes) with
        shared := sharing.shared.erase thread } :=
      proceeds_exit locked numbered rfl (by rw [here]; rfl)
    simp only [Sharing.notifyAll, here]
    split
    next asleep =>
      refine proceeds_refresher exits nofun rfl ?_
      change none = sharing.refresher.holds
      rw [asleep]
      rfl
    next => exact exits
  | _ =>
    simp only [Sharing.notifyAll, here]
    exact proceeds_same locked numbered

theorem poll_proceeds (locked : Locked sharing) (numbered : Numbered nConnNum sharing) (thread : ℕ) :
    Proceeds nConnNum sharing (sharing.poll thread) := by
  cases here : sharing.caller thread with
  | polling nRetry =>
    cases nRetry with
    | zero =>
      simp only [Sharing.poll, here]
      exact proceeds_place locked numbered (by rw [here]; rfl) (by rw [here]; rfl)
    | succ nRetry =>
      simp only [Sharing.poll, here]
      refine proceeds_place locked numbered ?_ ?_ <;>
        · rw [here]
          cases sharing.bValid <;> rfl
  | _ =>
    simp only [Sharing.poll, here]
    exact proceeds_same locked numbered

theorem leave_proceeds (locked : Locked sharing) (numbered : Numbered nConnNum sharing) (thread : ℕ) :
    Proceeds nConnNum sharing (sharing.leave thread) := by
  cases here : sharing.caller thread with
  | leaving =>
    simp only [Sharing.leave, here]
    refine proceeds_place locked numbered ?_ ?_ <;>
      · rw [here]
        cases sharing.bValid <;> rfl
  | _ =>
    simp only [Sharing.leave, here]
    exact proceeds_same locked numbered

theorem initialized_proceeds (locked : Locked sharing) (numbered : Numbered nConnNum sharing) :
    Proceeds nConnNum sharing sharing.initialized := by
  unfold Sharing.initialized
  split
  · exact ⟨.stay, ⟨locked.shared_nodup, locked.mem_shared, locked.exclusive⟩,
      numbered.limit, numbered.room, numbered.made_lt, numbered.deleted_lt⟩
  · exact proceeds_same locked numbered

theorem lock_proceeds (locked : Locked sharing) (numbered : Numbered nConnNum sharing) :
    Proceeds nConnNum sharing sharing.lock := by
  cases here : sharing.refresher with
  | running =>
    simp only [Sharing.lock, here]
    split
    next free =>
      refine proceeds_refresher (proceeds_same locked numbered) (fun _ => free) ?_ ?_
      · cases sharing.bValid <;> rfl
      · rw [here]
        cases sharing.bValid <;> rfl
    next => exact proceeds_same locked numbered
  | _ =>
    simp only [Sharing.lock, here]
    exact proceeds_same locked numbered

theorem wake_proceeds (locked : Locked sharing) (numbered : Numbered nConnNum sharing) :
    Proceeds nConnNum sharing sharing.wake := by
  cases here : sharing.refresher with
  | waiting =>
    simp only [Sharing.wake, here]
    exact proceeds_refresher (proceeds_same locked numbered) nofun rfl (by rw [here]; rfl)
  | _ =>
    simp only [Sharing.wake, here]
    exact proceeds_same locked numbered

theorem relock_proceeds (locked : Locked sharing) (numbered : Numbered nConnNum sharing) :
    Proceeds nConnNum sharing sharing.relock := by
  cases here : sharing.refresher with
  | woken =>
    simp only [Sharing.relock, here]
    split
    next free => exact proceeds_refresher (proceeds_same locked numbered) (fun _ => free) rfl (by rw [here]; rfl)
    next => exact proceeds_same locked numbered
  | _ =>
    simp only [Sharing.relock, here]
    exact proceeds_same locked numbered

/-- While the refresh thread has the lock, no caller has a connection. -/
theorem caller_holds_none (locked : Locked sharing) (taken : sharing.refresher.exclusive = true) (thread : ℕ) :
    (sharing.caller thread).holds = none := by
  have apart : (sharing.caller thread).sharing ≠ true := by
    rw [ne_eq, ← locked.mem_shared thread, locked.exclusive taken]
    exact List.not_mem_nil
  cases here : sharing.caller thread with
  | serving again request =>
    rw [here] at apart
    exact absurd rfl apart
  | _ => rfl

/-- Nothing is deleted that anyone has. -/
theorem cleanConn_proceeds (locked : Locked sharing) (numbered : Numbered nConnNum sharing)
    (sound : (leases sharing).Sound) : Proceeds nConnNum sharing sharing.cleanConn := by
  cases here : sharing.refresher with
  | cleaning =>
    have taken : sharing.refresher.exclusive = true := by rw [here]; rfl
    have unheld : sharing.refresher.holds = none := by rw [here]; rfl
    have free : ∀ requester, sharing.holds requester = none := by
      intro requester
      cases requester with
      | caller thread => exact caller_holds_none locked taken thread
      | refresher => exact unheld
    have same : Sharing.holds { sharing with refresher := .opening sharing.nConnNum } = sharing.holds := by
      rw [holds_refresher]
      change Function.update sharing.holds .refresher none = sharing.holds
      rw [← free .refresher, Function.update_eq_self]
    have move : Leases.Move (leases sharing) { leases sharing with
        idle := [], holds := sharing.holds, made := [], retired := sharing.deleted ++ sharing.queIdleConn } :=
      .clear free
    simp only [Sharing.cleanConn, here]
    refine ⟨?_, ⟨locked.shared_nodup, locked.mem_shared, fun _ => locked.exclusive taken⟩,
      numbered.limit, ?_, nofun, fun conn member => ?_⟩
    · rw [← same] at move
      exact move
    · change 0 + sharing.nConnNum ≤ nConnNum
      rw [numbered.limit, Nat.zero_add]
    · rcases List.mem_append.mp member with before | idle
      · exact numbered.deleted_lt conn before
      · exact numbered.made_lt conn (sound.made_of_idle idle)
  | _ =>
    simp only [Sharing.cleanConn, here]
    exact proceeds_same locked numbered

/-- A round of the loop numbers a new connection, and the queue gets it if it is valid. -/
theorem openConnection_proceeds (locked : Locked sharing) (numbered : Numbered nConnNum sharing) (isValid : Bool) :
    Proceeds nConnNum sharing (sharing.openConnection isValid) := by
  cases here : sharing.refresher with
  | opening count =>
    have alone : sharing.shared = [] := locked.exclusive (by rw [here]; rfl)
    have room := numbered.room
    rw [here] at room
    cases count with
    | zero =>
      simp only [Sharing.openConnection, here]
      refine proceeds_refresher (proceeds_same locked numbered) (fun _ => alone) ?_ ?_
      · split <;> rfl
      · rw [here]
        split <;> rfl
    | succ count =>
      have unheld : sharing.holds .refresher = none := by rw [Sharing.holds, here]; rfl
      have same : Sharing.holds { sharing with refresher := .opening count } = sharing.holds := by
        rw [holds_refresher]
        change Function.update sharing.holds .refresher none = sharing.holds
        rw [← unheld, Function.update_eq_self]
      have older : ∀ {conns : List ℕ}, (∀ conn ∈ conns, conn < sharing.allocated) →
          ∀ conn ∈ conns, conn < sharing.allocated + 1 := fun below conn member => Nat.lt_succ_of_lt (below conn member)
      have moved : ∀ {queIdleConn made : List ℕ},
          Leases.Move (leases sharing)
              { leases sharing with idle := queIdleConn, holds := sharing.holds, made := made } →
          made.length + count ≤ nConnNum → (∀ conn ∈ made, conn < sharing.allocated + 1) →
          Proceeds nConnNum sharing { sharing with
            queIdleConn := queIdleConn, refresher := .opening count, allocated := sharing.allocated + 1,
            made := made } := by
        intro queIdleConn made move fits below
        rw [← same] at move
        exact ⟨move, ⟨locked.shared_nodup, locked.mem_shared, fun _ => alone⟩,
          numbered.limit, fits, below, older numbered.deleted_lt⟩
      simp only [Sharing.openConnection, here]
      cases isValid with
      | false =>
        exact moved .stay (Nat.le_trans (Nat.add_le_add_left (Nat.le_succ count) _) room) (older numbered.made_lt)
      | true =>
        refine moved (.add sharing.allocated ?_ ?_) ?_ fun conn member => ?_
        · exact fun member => Nat.lt_irrefl _ (numbered.made_lt _ member)
        · exact fun member => Nat.lt_irrefl _ (numbered.deleted_lt _ member)
        · rw [List.length_append, List.length_singleton, Nat.add_assoc, Nat.add_comm 1]
          exact room
        · rcases List.mem_append.mp member with before | new
          · exact older numbered.made_lt conn before
          · exact List.mem_singleton.mp new ▸ Nat.lt_succ_self _
  | _ =>
    simp only [Sharing.openConnection, here]
    exact proceeds_same locked numbered

theorem assign_proceeds (locked : Locked sharing) (numbered : Numbered nConnNum sharing) :
    Proceeds nConnNum sharing sharing.assign := by
  cases here : sharing.refresher with
  | assigning =>
    have proceeds : Proceeds nConnNum sharing { sharing with refresher := .running } :=
      proceeds_refresher (proceeds_same locked numbered) nofun rfl (by rw [here]; rfl)
    simp only [Sharing.assign, here]
    exact ⟨proceeds.move, ⟨locked.shared_nodup, locked.mem_shared, nofun⟩,
      numbered.limit, proceeds.numbered.room, numbered.made_lt, numbered.deleted_lt⟩
  | _ =>
    simp only [Sharing.assign, here]
    exact proceeds_same locked numbered

theorem step_proceeds (locked : Locked sharing) (numbered : Numbered nConnNum sharing)
    (sound : (leases sharing).Sound) (event : SharingEvent) : Proceeds nConnNum sharing (sharing.step event) := by
  cases event with
  | execute thread => exact execute_proceeds locked numbered thread
  | lockShared thread => exact lockShared_proceeds locked numbered thread
  | servRequest requester nRet => exact servRequest_proceeds locked numbered nRet requester
  | unlockShared thread => exact unlockShared_proceeds locked numbered thread
  | tryLockShared thread granted => exact tryLockShared_proceeds locked numbered thread granted
  | notifyAll thread => exact notifyAll_proceeds locked numbered thread
  | poll thread => exact poll_proceeds locked numbered thread
  | leave thread => exact leave_proceeds locked numbered thread
  | initialized => exact initialized_proceeds locked numbered
  | lock => exact lock_proceeds locked numbered
  | wake => exact wake_proceeds locked numbered
  | relock => exact relock_proceeds locked numbered
  | cleanConn => exact cleanConn_proceeds locked numbered sound
  | openConnection isValid => exact openConnection_proceeds locked numbered isValid
  | assign => exact assign_proceeds locked numbered

/-- The loans are sound, and the lock is where the threads have it. -/
structure Lent (nConnNum : ℕ) (sharing : Sharing) : Prop where
  sound : (leases sharing).Sound
  locked : Locked sharing
  numbered : Numbered nConnNum sharing

theorem lent_start (nConnNum : ℕ) (isValid : ℕ → Bool) : Lent nConnNum (Sharing.start nConnNum isValid) where
  sound :=
    have made : ((List.range nConnNum).filter isValid).Nodup := List.nodup_range.filter isValid
    { idle_nodup := List.nodup_rotate.mpr made
      made_nodup := made
      retired_nodup := List.nodup_nil
      apart := by rintro (thread | _) conn held <;> cases held
      single := by rintro (thread | _) second conn held <;> cases held
      made_iff := by
        intro conn
        change conn ∈ (List.range nConnNum).filter isValid ↔
          conn ∈ ((List.range nConnNum).filter isValid).rotate 2 ∨ _
        rw [List.mem_rotate, iff_self_or]
        rintro ⟨thread | _, held⟩ <;> cases held
      alive := fun _ _ => List.not_mem_nil }
  locked := ⟨List.nodup_nil, fun thread => iff_of_false List.not_mem_nil nofun, nofun⟩
  numbered := by
    refine ⟨rfl, ?_, fun conn member => ?_, nofun⟩
    · exact (List.length_filter_le isValid _).trans_eq List.length_range
    · exact List.mem_range.mp (List.mem_filter.mp member).1

/-- Who has which connection. The last part is about the moment when all requests have returned. -/
structure Owned (nConnNum : ℕ) (sharing : Sharing) : Prop where
  single : ∀ first second conn, sharing.holds first = some conn → sharing.holds second = some conn → first = second
  apart : ∀ requester conn, sharing.holds requester = some conn → conn ∉ sharing.queIdleConn
  alive : ∀ requester conn, sharing.holds requester = some conn → conn ∉ sharing.deleted
  bounded : ∀ requesters : Finset Requester,
    (∀ requester ∈ requesters, ∃ conn, sharing.holds requester = some conn) →
      sharing.queIdleConn.length + requesters.card ≤ nConnNum
  returned : (∀ requester, sharing.holds requester = none) → sharing.queIdleConn.Perm sharing.made

theorem Lent.owned (lent : Lent nConnNum sharing) : Owned nConnNum sharing where
  single := lent.sound.single
  apart := lent.sound.apart
  alive _ conn held := lent.sound.alive conn (lent.sound.made_of_held held)
  bounded requesters hold :=
    (lent.sound.idle_add_card_le requesters hold).trans (Nat.le_of_add_right_le lent.numbered.room)
  returned free := lent.sound.idle_perm_made free

/-- However the threads follow each other, every connection has one owner. -/
theorem connections_owned (nConnNum : ℕ) (isValid : ℕ → Bool) (events : List SharingEvent) :
    Owned nConnNum (run Sharing.step (Sharing.start nConnNum isValid) events) := by
  have preserved : ∀ source event, Lent nConnNum source → Lent nConnNum (source.step event) := by
    intro source event lent
    obtain ⟨move, locked, numbered⟩ := step_proceeds lent.locked lent.numbered lent.sound event
    exact ⟨lent.sound.move move, locked, numbered⟩
  exact (run_invariant (Lent nConnNum) preserved (lent_start nConnNum isValid) events).owned

/-- Two callers have both connections, and a third one waits. -/
example :
    let calls := [0, 1, 2].flatMap fun thread =>
      [.execute thread, .lockShared thread, .servRequest (.caller thread) .success]
    let sharing := run Sharing.step (Sharing.start 2 fun _ => true) calls
    [0, 1, 2].map (fun thread => sharing.holds (.caller thread)) = [some 0, some 1, none] ∧
      sharing.queIdleConn = [] := by decide

end CppRedis.Soundness.Ownership
