import CppRedis.Soundness.Sections
import CppRedis.Soundness.Slots

/-! # Servers in use

`SimpleExecute` shares the lock from the lookup of a server to the end of its request, so no refresh comes
between. `FlushPipeline` and `Keys` take no lock: a refresh that replaces the servers deletes the ones that
they have obtained.
-/

namespace CppRedis.Soundness.Lifetimes

open Machine Machine.Program Model.RedisClient Model.RedisCpp Requests Sections Slots

variable {ρ : Type}

section

variable (net : Network ρ)

/-- A server between two counts of allocated servers. -/
def Between (lower upper serv : ℕ) : Prop := lower ≤ serv ∧ serv < upper

/-- The loop of `LoadClusterSlots` collects servers that it has allocated, and gives the regions these. -/
theorem assignServers_fresh (nTimeout nConnNum : ℤ) (lower : ℕ) (regions : List SlotRegion) (vecRedisServ : List ℕ)
    {source target : World (Pool ρ)} {vecSlot : List SlotRegion} {all : List ℕ}
    (fresh : ∀ serv ∈ vecRedisServ, Between lower source.servers.servers serv) (begun : lower ≤ source.servers.servers)
    (ran : assignServers net nTimeout nConnNum vecRedisServ regions source = .ok (some (vecSlot, all), target)) :
    vecRedisServ ⊆ all ∧ (∀ serv ∈ all, Between lower target.servers.servers serv) ∧
      ∀ slotReg ∈ vecSlot, ∃ serv ∈ all, slotReg.pRedisServ = some serv := by
  induction regions generalizing vecRedisServ source vecSlot with
  | nil =>
    cases ran
    exact ⟨fun _ => id, fresh, nofun⟩
  | cons region regions ih =>
    rw [assignServers, bind_of_ok (get_apply source)] at ran
    dsimp only at ran
    cases found : findServerAt source.servers vecRedisServ region.strHost region.nPort with
    | some serv =>
      rw [found] at ran
      obtain ⟨result, last, ranRest, ran⟩ := bind_eq_ok_iff.mp ran
      cases result with
      | none => cases ran
      | some tables =>
        cases ran
        obtain ⟨inside, between, given⟩ := ih _ fresh begun ranRest
        refine ⟨inside, between, fun slotReg member => ?_⟩
        rcases List.mem_cons.mp member with rfl | later
        · exact ⟨serv, inside (List.mem_of_find?_eq_some found), rfl⟩
        · exact given slotReg later
    | none =>
      rw [found] at ran
      obtain ⟨serv, middle, ranNew, ran⟩ := bind_eq_ok_iff.mp ran
      have footprint := new_follows (S := ∅) (C := ∅) net _ _ _ _ _ _ _ ranNew
      obtain ⟨same, allocated, -⟩ := new_builtFor net _ _ _ _ ranNew
      rw [bind_of_ok (get_apply middle)] at ran
      split_ifs at ran with valid
      · obtain ⟨_, _, _, ran⟩ := bind_eq_ok_iff.mp ran
        cases ran
      · obtain ⟨result, last, ranRest, ran⟩ := bind_eq_ok_iff.mp ran
        cases result with
        | none => cases ran
        | some tables =>
          cases ran
          obtain ⟨inside, between, given⟩ := ih (vecRedisServ ++ [serv]) (fun other member => by
            rcases List.mem_append.mp member with earlier | here
            · exact ⟨(fresh other earlier).1, lt_of_lt_of_le (fresh other earlier).2 footprint.servers⟩
            · rw [List.mem_singleton.mp here]
              exact ⟨same ▸ begun, allocated⟩) (begun.trans footprint.servers) ranRest
          refine ⟨fun other member => inside (List.mem_append_left _ member), between, fun slotReg member => ?_⟩
          rcases List.mem_cons.mp member with rfl | later
          · exact ⟨serv, inside (List.mem_append_right _ (List.mem_singleton_self _)), rfl⟩
          · exact given slotReg later

/-- The servers of a client are allocated, and its slot table names no others. -/
structure Tabled (world : World (Pool ρ)) : Prop where
  allocated : ∀ serv ∈ world.client.vecRedisServ, serv < world.servers.servers
  listed : ∀ slotReg ∈ world.client.vecSlot, ∀ serv, slotReg.pRedisServ = some serv → serv ∈ world.client.vecRedisServ

/-- A refresh replaces the servers by new ones, or leaves the client with its servers. -/
structure Replaces (replaced : Prop) (source target : World (Pool ρ)) : Prop where
  servers : source.servers.servers ≤ target.servers.servers
  fresh : replaced → Tabled target ∧ ∀ serv ∈ target.client.vecRedisServ, source.servers.servers ≤ serv
  kept : ¬ replaced → target.client.vecSlot = source.client.vecSlot ∧
    target.client.vecRedisServ = source.client.vecRedisServ

theorem Replaces.of_footprint {S C : Set ℕ} {source middle target : World (Pool ρ)} {replaced : Prop}
    (footprint : Footprint S C source middle) (replaces : Replaces replaced middle target) :
    Replaces replaced source target := by
  refine ⟨footprint.servers.trans replaces.servers, fun yes => ?_, fun no => ?_⟩
  · exact ⟨(replaces.fresh yes).1, fun serv member => footprint.servers.trans ((replaces.fresh yes).2 serv member)⟩
  · rw [← footprint.client]
    exact replaces.kept no

theorem replaces_of_footprint {S C : Set ℕ} {source target : World (Pool ρ)} (footprint : Footprint S C source target) :
    Replaces (false = true) source target :=
  ⟨footprint.servers, nofun, fun _ => by rw [footprint.client]; exact ⟨rfl, rfl⟩⟩

theorem loadSlotsFrom_replaces (command : ℕ) (vecRedisServ : List ℕ) {source target : World (Pool ρ)} {loaded : Bool}
    (ran : loadSlotsFrom net command vecRedisServ source = .ok (loaded, target)) :
    Replaces (loaded = true) source target := by
  induction vecRedisServ generalizing source with
  | nil =>
    cases ran
    exact replaces_of_footprint (Footprint.rfl' (S := ∅) (C := ∅) _)
  | cons serv vecRedisServ ih =>
    rw [loadSlotsFrom, bind_of_ok (get_apply source)] at ran
    split_ifs at ran with valid
    · cases ran
      exact replaces_of_footprint (Footprint.rfl' (S := ∅) (C := ∅) _)
    obtain ⟨nRet, asked, ranRequest, ran⟩ := bind_eq_ok_iff.mp ran
    have request := servRequest_follows (S := {serv}) (C := {command}) net (Set.mem_singleton serv)
      (Set.mem_singleton command) _ _ _ ranRequest
    refine Replaces.of_footprint request ?_
    split_ifs at ran with success
    · rw [bind_of_ok (get_apply asked)] at ran
      cases stored : (asked.command command).pReply with
      | none =>
        rw [stored] at ran
        cases ran
      | some reply =>
        rw [stored] at ran
        dsimp only at ran
        cases fetched : fetchSlot reply with
        | error fault =>
          rw [fetched] at ran
          cases ran
        | ok found =>
          rw [fetched] at ran
          cases found with
          | none => exact ih ran
          | some vecSlot =>
            dsimp only at ran
            rw [bind_of_ok (get_apply asked)] at ran
            obtain ⟨result, assigned, ranAssign, ran⟩ := bind_eq_ok_iff.mp ran
            have assigns := assignServers_follows (C := ∅) net _ _ _ _ _ _ _ ranAssign
            cases result with
            | none =>
              cases ran
              exact replaces_of_footprint assigns
            | some tables =>
              obtain ⟨vecSlot', all⟩ := tables
              obtain ⟨_, deleted, ranDelete, ran⟩ := bind_eq_ok_iff.mp ran
              have deletes := deleteServers_follows (C := ∅) _ (fun _ _ => Set.mem_univ _) _ _ _ ranDelete
              obtain ⟨-, between, given⟩ :=
                assignServers_fresh net _ _ asked.servers.servers _ [] (by rintro _ ⟨⟩) (le_refl _) ranAssign
              cases ran
              refine ⟨assigns.servers.trans deletes.servers,
                fun _ => ⟨⟨fun other member => ?_, fun slotReg member other given' => ?_⟩,
                fun other member => (between other member).1⟩, fun no => absurd rfl no⟩
              · exact lt_of_lt_of_le (between other member).2 deletes.servers
              · obtain ⟨known, inAll, same⟩ := given slotReg ((List.mem_insertionSort _).mp member)
                cases same.symm.trans given'
                exact inAll
    · exact ih ran

/-- What the refresh thread does to the servers of the client. -/
theorem refreshRound_replaces {source target : World (Pool ρ)} (ran : refreshRound net source = .ok ((), target)) :
    Replaces (target.client.bCluster = true ∧ target.client.bValid = true) source target := by
  obtain ⟨_, noted, ranNote, ran⟩ := bind_eq_ok_iff.mp ran
  cases ranNote
  rw [bind_of_ok (get_apply _)] at ran
  dsimp only at ran
  split_ifs at ran with cluster
  · obtain ⟨bValid, middle, ranLoad, ran⟩ := bind_eq_ok_iff.mp ran
    cases ran
    obtain ⟨command, issued, ranNew, ranLoad⟩ := bind_eq_ok_iff.mp ranLoad
    cases ranNew
    rw [bind_of_ok (get_apply _)] at ranLoad
    have mode : middle.client.bCluster = true :=
      (loadSlotsFrom_follows net (Set.mem_singleton _) _ _ _ _ ranLoad).bCluster.trans cluster
    obtain ⟨servers, fresh, kept⟩ := loadSlotsFrom_replaces net _ _ ranLoad
    refine ⟨servers, fun replaced => ?_, fun not => kept fun valid => not ⟨mode, valid⟩⟩
    obtain ⟨tabled, new⟩ := fresh replaced.2
    exact ⟨⟨tabled.allocated, tabled.listed⟩, new⟩
  · cases listed : (World.note .refresh source).client.vecRedisServ with
    | nil =>
      rw [listed] at ran
      cases ran
    | cons serv vecRedisServ =>
      rw [listed] at ran
      obtain ⟨bValid, middle, ranInitialize, ran⟩ := bind_eq_ok_iff.mp ran
      cases ran
      have footprint := initializeServer_follows (C := ∅) net (Set.mem_univ _) _ _ _ ranInitialize
      refine ⟨footprint.servers, fun replaced => ?_, fun _ => ?_⟩
      · dsimp only at replaced
        rw [footprint.client] at replaced
        exact absurd replaced.1 cluster
      · dsimp only
        rw [footprint.client]
        exact ⟨rfl, rfl⟩

end

/-- No server that a caller has obtained, and may still use, has been deleted. -/
def Alive (threads : Threads ρ) : Prop :=
  ∀ thread, ∀ serv ∈ (threads.caller thread).obtained, serv ∉ threads.deleted

/-- A caller outside `SimpleExecute` has a server in its hands. -/
def Exposed (threads : Threads ρ) : Prop :=
  ∃ thread, (threads.caller thread).obtained ≠ [] ∧
    ∀ serv command, threads.caller thread ≠ .executing serv command

/-- A `LoadClusterSlots` that succeeds finds no caller of `FlushPipeline` or `Keys` with a server. -/
def Unexposed (net : Network ρ) (threads : Threads ρ) (event : ThreadEvent) : Prop :=
  event = .refresh → threads.crashed = false → threads.refresher = .locked →
    ∀ world, refreshRound net threads.world = .ok ((), world) →
      world.client.bCluster = true → world.client.bValid = true → ¬ Exposed threads

/-- The servers that callers use are those of the client, and what was deleted is not among them. -/
structure Current (threads : Threads ρ) : Prop extends Guarded threads, Tabled threads.world where
  obtained : ∀ thread, ∀ serv ∈ (threads.caller thread).obtained, serv ∈ threads.world.client.vecRedisServ
  deleted : ∀ serv ∈ threads.deleted, serv < threads.world.servers.servers ∧ serv ∉ threads.world.client.vecRedisServ

section

variable {net : Network ρ} {address : ℕ → ℕ} {threads : Threads ρ}

theorem Current.alive (current : Current threads) : Alive threads :=
  fun thread serv member gone => (current.deleted serv gone).2 (current.obtained thread serv member)

theorem mem_filterMap_insertCmd (pRedisServ : Option ℕ) (command serv : ℕ) (mapCmd : List (Option ℕ × List ℕ))
    (member : serv ∈ (insertCmd address pRedisServ command mapCmd).filterMap Prod.fst) :
    serv ∈ mapCmd.filterMap Prod.fst ∨ pRedisServ = some serv := by
  induction mapCmd with
  | nil =>
    simp only [insertCmd, List.mem_filterMap, List.mem_singleton, exists_eq_left] at member
    exact .inr member
  | cons entry mapCmd ih =>
    obtain ⟨key, vecCmd⟩ := entry
    simp only [insertCmd] at member
    split_ifs at member
    · simp only [List.mem_filterMap, List.mem_cons, exists_eq_or_imp] at member ⊢
      exact .inl member
    · simp only [List.mem_filterMap, List.mem_cons, exists_eq_or_imp] at member ⊢
      exact or_comm.mp member
    · simp only [List.mem_filterMap, List.mem_cons, exists_eq_or_imp] at member ih ⊢
      rcases member with here | later
      · exact .inl (.inl here)
      · exact (ih later).imp .inr id

/-- The lookup finds servers of the client only. -/
theorem matchedServer_mem (tabled : Tabled threads.world) {command serv : ℕ}
    (matched : matchedServer (net.servers address) threads.world command = some serv) :
    serv ∈ threads.world.client.vecRedisServ := by
  rw [matchedServer, CRedisClient.getMatchedServer] at matched
  split_ifs at matched
  · exact List.mem_of_head? matched
  · rw [findServer] at matched
    split_ifs at matched
    · obtain ⟨slotReg, found, given⟩ := Option.bind_eq_some_iff.mp matched
      exact tabled.listed slotReg (List.mem_of_getElem? found) serv given
  · exact List.mem_of_find?_eq_some matched

/-- What a caller obtains in a section it obtains from the client. -/
theorem obtained_of_advances (tabled : Tabled threads.world) {thread : ℕ} {event : ThreadEvent} {caller next : Caller}
    (advances : Advances net address threads thread event caller next) {serv : ℕ} (member : serv ∈ next.obtained) :
    serv ∈ caller.obtained ∨ serv ∈ threads.world.client.vecRedisServ := by
  cases advances with
  | execute free matched =>
    rw [List.mem_singleton.mp member]
    exact .inr (matchedServer_mem tabled matched)
  | lookUp command vecCmd mapCmd =>
    rcases mem_filterMap_insertCmd _ _ _ _ member with before | matched
    · exact .inl before
    · exact .inr (matchedServer_mem tabled matched)
  | grouped mapCmd => exact .inl member
  | request entry mapCmd =>
    obtain ⟨other, inRest, same⟩ := List.mem_filterMap.mp member
    exact .inl (List.mem_filterMap.mpr ⟨other, List.mem_cons_of_mem _ inRest, same⟩)
  | scan _ _ command found =>
    rw [List.mem_singleton.mp member]
    exact .inr (List.mem_of_getElem? found)
  | _ => cases member

theorem Current.of_movesTo {event : ThreadEvent} {target : Threads ρ} (current : Current threads)
    (moves : MovesTo net address event threads target) : Current target := by
  obtain ⟨quiet, moved, guarded⟩ := moves
  refine { guarded current.toGuarded with allocated := ?_, listed := ?_, obtained := ?_, deleted := ?_ }
  · rw [quiet.client]
    exact fun serv member => lt_of_lt_of_le (current.allocated serv member) quiet.servers
  · rw [quiet.client]
    exact current.listed
  · rw [quiet.client]
    rcases moved with same | ⟨thread, caller, advances, moved⟩
    · rw [same]
      exact current.obtained
    · intro other serv member
      rw [moved] at member
      by_cases own : other = thread
      · subst other
        rw [Function.update_self] at member
        exact (obtained_of_advances current.toTabled advances member).elim (current.obtained thread serv) id
      · rw [Function.update_of_ne own] at member
        exact current.obtained other serv member
  · rw [quiet.client, quiet.deleted]
    exact fun serv member => ⟨lt_of_lt_of_le (current.deleted serv member).1 quiet.servers,
      (current.deleted serv member).2⟩

/-- Nobody executes while the refresh thread has the lock. -/
theorem exposed_of_locked (guarded : Guarded threads) (locked : threads.refresher = .locked) {thread : ℕ}
    (holds : (threads.caller thread).obtained ≠ []) : Exposed threads := by
  refine ⟨thread, holds, fun serv command here => ?_⟩
  have shares := guarded.shares thread serv command here
  rw [guarded.alone locked] at shares
  cases shares

theorem Current.refreshed (current : Current threads) (locked : threads.refresher = .locked) {world : World (Pool ρ)}
    (ran : refreshRound net threads.world = .ok ((), world))
    (unexposed : world.client.bCluster = true → world.client.bValid = true → ¬ Exposed threads) :
    Current (refreshedBy threads world) := by
  obtain ⟨servers, fresh, kept⟩ := refreshRound_replaces net ran
  have guarded : Guarded (refreshedBy threads world) := ⟨nofun, current.shares⟩
  by_cases replaced : world.client.bCluster = true ∧ world.client.bValid = true
  · obtain ⟨tabled, new⟩ := fresh replaced
    refine { guarded, tabled with obtained := fun thread serv member => ?_, deleted := fun serv member => ?_ }
    · exact absurd (exposed_of_locked current.toGuarded locked (List.ne_nil_of_mem member))
        (unexposed replaced.1 replaced.2)
    · simp only [refreshedBy, if_pos replaced] at member ⊢
      have allocated : serv < threads.world.servers.servers := (List.mem_append.mp member).elim
        (fun earlier => (current.deleted serv earlier).1) (current.allocated serv)
      exact ⟨lt_of_lt_of_le allocated servers, fun here => absurd (new serv here) (by omega)⟩
  · obtain ⟨vecSlot, vecRedisServ⟩ := kept replaced
    refine { guarded with allocated := ?_, listed := ?_, obtained := ?_, deleted := ?_ }
    · simp only [refreshedBy, vecRedisServ]
      exact fun serv member => lt_of_lt_of_le (current.allocated serv member) servers
    · simp only [refreshedBy, vecRedisServ, vecSlot]
      exact current.listed
    · simp only [refreshedBy, vecRedisServ]
      exact current.obtained
    · simp only [refreshedBy, if_neg replaced, vecRedisServ]
      exact fun serv member => ⟨lt_of_lt_of_le (current.deleted serv member).1 servers, (current.deleted serv member).2⟩

/-- A section that finds no caller exposed keeps the servers in use. -/
theorem step_current (current : Current threads) (event : ThreadEvent) (unexposed : Unexposed net threads event) :
    Current (threads.step net address event) := by
  by_cases refresh : event = .refresh
  · subst event
    rcases refresh_cases net address threads with same | crash | ⟨runs, locked, world, ran, does⟩
    · rwa [same]
    · rw [crash]
      exact current.of_movesTo (movesTo_crashed net address .lock threads)
    · rw [does]
      exact current.refreshed locked ran (unexposed rfl runs locked world ran)
  · exact current.of_movesTo (step_movesTo net address threads event refresh)

/-- A refresh that replaces the servers under an exposed caller deletes what the caller holds. -/
theorem step_alive_iff (current : Current threads) (event : ThreadEvent) :
    Alive (threads.step net address event) ↔ Unexposed net threads event := by
  refine ⟨fun alive isRefresh runs locked world ran cluster valid => ?_,
    fun unexposed => (step_current current event unexposed).alive⟩
  rintro ⟨thread, holds, -⟩
  subst event
  obtain ⟨serv, member⟩ := List.exists_mem_of_ne_nil _ holds
  have does : threads.step net address .refresh = refreshedBy threads world := by
    simp only [Threads.step, runs, Bool.false_eq_true, ↓reduceIte, Threads.refresh, locked,
      Threads.after, ran, refreshedBy]
  rw [does] at alive
  refine alive thread serv member ?_
  simp only [refreshedBy, if_pos (And.intro cluster valid)]
  exact List.mem_append_right _ (current.obtained thread serv member)

end

/-- The client has been initialized, and its threads are about to start. -/
structure Started (threads : Threads ρ) : Prop extends Tabled threads.world where
  callers : ∀ thread, threads.caller thread = .idle
  refresher : threads.refresher = .running
  deleted : threads.deleted = []

theorem Started.current {threads : Threads ρ} (started : Started threads) : Current threads := by
  refine { started.toTabled with alone := ?_, shares := ?_, obtained := ?_, deleted := ?_ }
  · rw [started.refresher]
    exact nofun
  · intro thread serv command here
    rw [started.callers thread] at here
    cases here
  · intro thread serv member
    rw [started.callers thread] at member
    cases member
  · rw [started.deleted]
    exact nofun

/-- In every run, no caller's server is deleted before its request returns exactly as long as every
`LoadClusterSlots` that succeeds finds `FlushPipeline` and `Keys` without a server. -/
theorem run_alive_iff (net : Network ρ) (address : ℕ → ℕ) (threads : Threads ρ) (started : Started threads)
    (events : List ThreadEvent) :
    Always (Threads.step net address) Alive threads events ↔
      Along (Threads.step net address) (Unexposed net) threads events :=
  always_iff_along_while Current (fun _ event current unexposed => step_current current event unexposed)
    (fun _ event current _ => step_alive_iff current event) started.current started.current.alive events

/-- A cluster client with one server for all slots and a command to send, before its threads start. -/
def clustered : Threads Unit where
  world := {
    client := {
      bCluster := true, vecRedisServ := [0], nConnNum := 1
      vecSlot := [
        { nStartSlot := 0, nEndSlot := 16383, strHost := text "10.0.0.1", nPort := 7000, pRedisServ := some 0 }] }
    command := fun _ => { args := [text "get", text "k"], nSlot := 7629 }
    commands := 1
    servers := {
      server := fun _ => {
        strHost := text "10.0.0.1", nPort := 7000, nConnNum := 1, queIdleConn := [{}]
        vecHosts := [(text "10.0.0.1", 7000)] }
      servers := 1, redis := () } }

/-- Every server answers that one master has all slots. -/
def reporting : Network Unit where
  clock _ := 0
  connect _ _ := true
  append _ := true
  receive _ := none
  rounds _ := 0
  serve _ _ _ := (.array [.array [.integer 0, .integer 16383, .array [.string (text "10.0.0.1"), .integer 7000]]], ())

theorem clustered_started : Started clustered where
  allocated serv member := by
    rw [List.mem_singleton.mp member]
    decide
  listed slotReg member serv given := by
    rw [List.mem_singleton.mp member] at given
    cases given
    exact List.mem_singleton_self _
  callers _ := rfl
  refresher := rfl
  deleted := rfl

/-- A flush that comes after the refresh. -/
theorem run_alive_iff_later :
    Always (Threads.step reporting id) Alive clustered
      [.lock, .wake, .relock, .refresh, .flushCommand 0 [0], .getMatchedServer 0] := by
  refine (run_alive_iff reporting id clustered clustered_started _).mpr
    ⟨nofun, nofun, nofun, fun _ _ _ world _ _ _ => ?_, nofun, nofun, trivial⟩
  rintro ⟨thread, holds, -⟩
  exact holds rfl

/-- A flush has looked up its server when the refresh thread replaces the servers. -/
theorem run_deletes_server_of_flush :
    ¬ Always (Threads.step reporting id) Alive clustered
      [.flushCommand 0 [0], .getMatchedServer 0, .lock, .wake, .relock, .refresh] := by
  intro always
  have obtained : 0 ∈ ((run (Threads.step reporting id) clustered
      [.flushCommand 0 [0], .getMatchedServer 0, .lock, .wake, .relock, .refresh]).caller 0).obtained := by
        decide +kernel
  have deleted : 0 ∈ (run (Threads.step reporting id) clustered
      [.flushCommand 0 [0], .getMatchedServer 0, .lock, .wake, .relock, .refresh]).deleted := by decide +kernel
  exact always.last 0 0 obtained deleted

end CppRedis.Soundness.Lifetimes
