import CppRedis.Model.RedisClient.Threads
import CppRedis.Machine.Run
import CppRedis.Soundness.Requests

/-! # What a section does

Only the refresh thread changes the client, and a section of a caller changes nothing of the other
callers. `Advances` has all the ways a caller can go on; the invariants are cases over it.
-/

namespace CppRedis.Soundness.Sections

open Machine Machine.Program Model.RedisClient Model.RedisCpp Requests

variable {ρ : Type}

/-- How a section takes a caller from one place to another. -/
inductive Advances (net : Network ρ) (address : ℕ → ℕ) (threads : Threads ρ) (thread : ℕ) :
    ThreadEvent → Caller → Caller → Prop
  | rest (event : ThreadEvent) (caller : Caller) : Advances net address threads thread event caller .idle
  | execute {caller : Caller} {serv command : ℕ} (free : caller.free)
      (matched : matchedServer (net.servers address) threads.world command = some serv) :
      Advances net address threads thread (.simpleExecute thread command) caller (.executing serv command)
  | flush {caller : Caller} (free : caller.free) (vecCmd : List ℕ) :
      Advances net address threads thread (.flushCommand thread vecCmd) caller (.grouping vecCmd [])
  | lookUp (command : ℕ) (vecCmd : List ℕ) (mapCmd : List (Option ℕ × List ℕ)) :
      Advances net address threads thread (.getMatchedServer thread) (.grouping (command :: vecCmd) mapCmd)
        (.grouping vecCmd
          (insertCmd address (matchedServer (net.servers address) threads.world command) command mapCmd))
  | grouped (mapCmd : List (Option ℕ × List ℕ)) :
      Advances net address threads thread (.getMatchedServer thread) (.grouping [] mapCmd) (.flushing mapCmd)
  | request (entry : Option ℕ × List ℕ) (mapCmd : List (Option ℕ × List ℕ)) :
      Advances net address threads thread (.flushed thread) (.flushing (entry :: mapCmd)) (.flushing mapCmd)
  | scan (event : ThreadEvent) (caller : Caller) {position serv : ℕ} (command : ℕ)
      (found : threads.world.client.vecRedisServ[position]? = some serv) :
      Advances net address threads thread event caller (.scanning position serv command)
  | call {caller : Caller} (free : caller.free) (granted : Bool) (nRetry : ℕ) :
      Advances net address threads thread (.waitForRefresh thread granted) caller (.polling nRetry {
        bValid := threads.world.client.bValid, attempts := threads.attempts, refreshes := threads.refreshes })
  | poll (nRetry : ℕ) (call : RefreshCall) :
      Advances net address threads thread (.poll thread) (.polling (nRetry + 1) call) (.polling nRetry call)
  | stop (nRetry : ℕ) (call : RefreshCall) :
      Advances net address threads thread (.poll thread) (.polling nRetry call) (.leaving call)
  | leave (call : RefreshCall) :
      Advances net address threads thread (.leave thread) (.leaving call)
        (.refreshed threads.world.client.bValid call)

/-- A section of a caller leaves the client and the history of the refresh thread as they are. -/
structure Quiet (source target : Threads ρ) : Prop where
  client : target.world.client = source.world.client
  servers : source.world.servers.servers ≤ target.world.servers.servers
  deleted : target.deleted = source.deleted
  attempts : target.attempts = source.attempts
  refreshes : target.refreshes = source.refreshes

theorem Quiet.rfl' (threads : Threads ρ) : Quiet threads threads := ⟨rfl, le_refl _, rfl, rfl, rfl⟩

theorem Quiet.crashed (threads : Threads ρ) : Quiet threads { threads with crashed := true } :=
  ⟨rfl, le_refl _, rfl, rfl, rfl⟩

section

variable (net : Network ρ) (address : ℕ → ℕ) (threads : Threads ρ)

/-- A program crashes, or returns and changes no more than its footprint. -/
theorem after_cases {α : Type} {program : Action (Pool ρ) α} {S C : Set ℕ} (follows : Follows (Footprint S C) program)
    (next : α → Threads ρ → Threads ρ) :
    threads.after program next = { threads with crashed := true } ∨
      ∃ value world, threads.world.client = world.client ∧
        threads.world.servers.servers ≤ world.servers.servers ∧
        threads.after program next = next value { threads with world := world } := by
  rw [Threads.after]
  cases ran : program threads.world with
  | error fault => exact .inl rfl
  | ok result =>
    have footprint := follows _ _ _ ran
    exact .inr ⟨result.1, result.2, footprint.client.symm, footprint.servers, rfl⟩

theorem keysRequest_follows (serv command : ℕ) :
    Follows (Footprint Set.univ Set.univ) (Threads.keysRequest net serv command) := by
  refine .bind (servRequest_follows net (Set.mem_univ _) (Set.mem_univ _)) fun nRet => .ite (.bind ?_ fun _ => .pure _)
    (.pure _)
  refine .get_bind fun source value target ran => ?_
  cases fetched : fetchResult fetchStringArray (source.command command).funcConv (source.command command).pReply with
  | error fault =>
    rw [fetched] at ran
    cases ran
  | ok result =>
    rw [fetched] at ran
    cases ran
    exact Footprint.rfl' _

theorem newCommand_follows (redisCmd : CRedisCommand) :
    Follows (Footprint Set.univ Set.univ) (newCommand redisCmd : Action (Pool ρ) ℕ) := by
  intro source value target ran
  cases ran
  exact { (Footprint.rfl' source : Footprint Set.univ Set.univ source source) with
    toKept := kept_newCommand redisCmd source }

end

/-- The refresh thread has the lock for itself, and the callers of `SimpleExecute` share it. -/
structure Guarded (threads : Threads ρ) : Prop where
  alone : threads.refresher = .locked → threads.shared = []
  shares : ∀ thread serv command, threads.caller thread = .executing serv command → thread ∈ threads.shared

/-- At most one caller is in another place; the lock, and what callers see of the client, are as they should be. -/
structure MovesTo (net : Network ρ) (address : ℕ → ℕ) (event : ThreadEvent) (threads target : Threads ρ) : Prop where
  quiet : Quiet threads target
  moves : target.caller = threads.caller ∨ ∃ thread caller,
    Advances net address threads thread event (threads.caller thread) caller ∧
      target.caller = Function.update threads.caller thread caller
  guarded : Guarded threads → Guarded target

section

variable {source target : Threads ρ}

theorem Guarded.of_same (guarded : Guarded source) (caller : target.caller = source.caller)
    (shared : target.shared = source.shared) (locked : target.refresher = .locked → target.shared = []) :
    Guarded target := by
  refine ⟨locked, fun thread serv command here => ?_⟩
  rw [caller] at here
  rw [shared]
  exact guarded.shares thread serv command here

theorem Guarded.of_moved (guarded : Guarded source) {thread : ℕ} {caller : Caller}
    (moved : target.caller = Function.update source.caller thread caller)
    (shared : target.shared = source.shared) (locked : target.refresher = .locked → source.refresher = .locked)
    (unlocked : ∀ serv command, caller ≠ .executing serv command) : Guarded target := by
  refine ⟨fun here => by rw [shared]; exact guarded.alone (locked here), fun other serv command here => ?_⟩
  rw [moved] at here
  rw [shared]
  by_cases own : other = thread
  · subst other
    rw [Function.update_self] at here
    exact absurd here (unlocked serv command)
  · rw [Function.update_of_ne own] at here
    exact guarded.shares other serv command here

end

section

variable (net : Network ρ) (address : ℕ → ℕ) (event : ThreadEvent) (threads : Threads ρ)

/-- The section of a caller that has nothing to do with the lock. -/
theorem movesTo_place {source target : Threads ρ} (quiet : Quiet source target) {thread : ℕ} {caller : Caller}
    (advances : Advances net address source thread event (source.caller thread) caller)
    (unlocked : ∀ serv command, caller ≠ .executing serv command)
    (moved : target.caller = Function.update source.caller thread caller)
    (shared : target.shared = source.shared) (locked : target.refresher = .locked → source.refresher = .locked) :
    MovesTo net address event source target :=
  ⟨quiet, .inr ⟨thread, caller, advances, moved⟩, fun guarded => guarded.of_moved moved shared locked unlocked⟩

theorem movesTo_self : MovesTo net address event threads threads := ⟨Quiet.rfl' _, .inl rfl, id⟩

theorem movesTo_crashed : MovesTo net address event threads { threads with crashed := true } :=
  ⟨Quiet.crashed threads, .inl rfl, fun guarded => guarded.of_same rfl rfl guarded.alone⟩

theorem scan_movesTo {world : World (Pool ρ)} (client : threads.world.client = world.client)
    (servers : threads.world.servers.servers ≤ world.servers.servers) (thread position command : ℕ) :
    MovesTo net address event threads (Threads.scan { threads with world := world } thread position command) := by
  rw [Threads.scan]
  split
  · next serv found =>
    refine movesTo_place net address event ⟨client.symm, servers, rfl, rfl, rfl⟩ (.scan _ _ command ?_) nofun rfl rfl id
    rw [client]
    exact found
  · exact movesTo_place net address _ ⟨client.symm, servers, rfl, rfl, rfl⟩ (.rest _ _) nofun rfl rfl id

theorem place_movesTo {thread : ℕ} {caller : Caller}
    (advances : Advances net address threads thread event (threads.caller thread) caller)
    (unlocked : ∀ serv command, caller ≠ .executing serv command) :
    MovesTo net address event threads (threads.place thread caller) :=
  movesTo_place net address _ ⟨rfl, le_refl _, rfl, rfl, rfl⟩ advances unlocked rfl rfl id

end

section

variable (net : Network ρ) (address : ℕ → ℕ) (threads : Threads ρ)

theorem lock_movesTo : MovesTo net address .lock threads threads.lock := by
  simp only [Threads.lock]
  split_ifs with takes
  · exact ⟨⟨rfl, le_refl _, rfl, rfl, rfl⟩, .inl rfl, fun guarded => guarded.of_same rfl rfl nofun⟩
  · exact ⟨⟨rfl, le_refl _, rfl, rfl, rfl⟩, .inl rfl, fun guarded => guarded.of_same rfl rfl fun _ => takes.2⟩
  · exact movesTo_self net address _ threads

theorem wake_movesTo : MovesTo net address .wake threads threads.wake := by
  simp only [Threads.wake]
  split_ifs
  · exact ⟨⟨rfl, le_refl _, rfl, rfl, rfl⟩, .inl rfl, fun guarded => guarded.of_same rfl rfl nofun⟩
  · exact movesTo_self net address _ threads

theorem relock_movesTo : MovesTo net address .relock threads threads.relock := by
  simp only [Threads.relock]
  split_ifs with takes
  · exact ⟨⟨rfl, le_refl _, rfl, rfl, rfl⟩, .inl rfl, fun guarded => guarded.of_same rfl rfl fun _ => takes.2⟩
  · exact movesTo_self net address _ threads

/-- A caller that finds a server shares the lock. -/
theorem simpleExecute_movesTo (thread command : ℕ) :
    MovesTo net address (.simpleExecute thread command) threads (threads.simpleExecute net address thread command) := by
  simp only [Threads.simpleExecute]
  split_ifs with starts
  · exact place_movesTo net address _ threads (.rest _ _) nofun
  · split
    · exact place_movesTo net address _ threads (.rest _ _) nofun
    · next serv matched =>
      refine ⟨⟨rfl, le_refl _, rfl, rfl, rfl⟩, .inr ⟨thread, _, .execute starts.1 matched, rfl⟩, fun guarded => ?_⟩
      refine ⟨fun locked => absurd locked starts.2, fun other serv command here => ?_⟩
      by_cases own : other = thread
      · exact List.mem_cons.mpr (.inl own)
      · simp only [Threads.place, Function.update_of_ne own] at here
        exact List.mem_cons_of_mem _ (guarded.shares other serv command here)
  · exact movesTo_self net address _ threads

/-- A caller that has its reply gives up the lock. -/
theorem served_movesTo (thread : ℕ) : MovesTo net address (.served thread) threads (threads.served net thread) := by
  simp only [Threads.served]
  split
  · next serv command here =>
    rcases after_cases threads (servRequest_follows net (Set.mem_univ serv) (Set.mem_univ command)) _ with
      crash | ⟨nRet, world, client, servers, does⟩
    · rw [crash]
      exact movesTo_crashed net address _ threads
    · rw [does]
      refine ⟨⟨client.symm, servers, rfl, rfl, rfl⟩, .inr ⟨thread, _, .rest _ _, rfl⟩, fun guarded => ?_⟩
      refine ⟨fun locked => by dsimp only; rw [guarded.alone locked, List.erase_nil], fun other serv command here => ?_⟩
      by_cases own : other = thread
      · subst other
        simp only [Threads.place, Function.update_self, reduceCtorEq] at here
      · simp only [Threads.place, Function.update_of_ne own] at here
        exact (List.mem_erase_of_ne own).mpr (guarded.shares other serv command here)
  · exact movesTo_self net address _ threads

theorem flushCommand_movesTo (thread : ℕ) (vecCmd : List ℕ) :
    MovesTo net address (.flushCommand thread vecCmd) threads (threads.flushCommand thread vecCmd) := by
  simp only [Threads.flushCommand]
  split_ifs with free
  · exact place_movesTo net address _ threads (.flush free vecCmd) nofun
  · exact movesTo_self net address _ threads

theorem getMatchedServer_movesTo (thread : ℕ) :
    MovesTo net address (.getMatchedServer thread) threads (threads.getMatchedServer net address thread) := by
  simp only [Threads.getMatchedServer]
  split
  · next command vecCmd mapCmd here =>
      exact place_movesTo net address _ threads (by rw [here]; exact .lookUp command vecCmd mapCmd) nofun
  · next mapCmd here => exact place_movesTo net address _ threads (by rw [here]; exact .grouped mapCmd) nofun
  · exact movesTo_self net address _ threads

theorem flushed_movesTo (thread : ℕ) :
    MovesTo net address (.flushed thread) threads (threads.flushed net thread) := by
  simp only [Threads.flushed]
  split
  · next serv vecCmd mapCmd here =>
    rcases after_cases threads (servRequests_follows net (Set.mem_univ serv)
      (fun command (_ : command ∈ vecCmd) => Set.mem_univ command)) _ with crash | ⟨nRet, world, client, servers, does⟩
    · rw [crash]
      exact movesTo_crashed net address _ threads
    · rw [does]
      split_ifs
      · refine movesTo_place net address _ ⟨client.symm, servers, rfl, rfl, rfl⟩ ?_ ?_ rfl rfl id
        · rw [here]
          exact .request _ mapCmd
        · exact nofun
      · exact movesTo_place net address _ ⟨client.symm, servers, rfl, rfl, rfl⟩ (.rest _ _) nofun rfl rfl id
  · exact movesTo_crashed net address _ threads
  · exact place_movesTo net address _ threads (.rest _ _) nofun
  · exact movesTo_self net address _ threads

theorem keys_movesTo (thread : ℕ) (strPattern : CppString) :
    MovesTo net address (.keys thread strPattern) threads (threads.keys thread strPattern) := by
  simp only [Threads.keys]
  split_ifs with free
  · rcases after_cases threads (newCommand_follows _) _ with crash | ⟨command, world, client, servers, does⟩
    · rw [crash]
      exact movesTo_crashed net address _ threads
    · rw [does]
      exact scan_movesTo net address _ threads client servers thread 0 command
  · exact movesTo_self net address _ threads

theorem scanned_movesTo (thread : ℕ) :
    MovesTo net address (.scanned thread) threads (threads.scanned net thread) := by
  simp only [Threads.scanned]
  split
  · next position serv command here =>
    rcases after_cases threads (keysRequest_follows net serv command) _ with
      crash | ⟨found, world, client, servers, does⟩
    · rw [crash]
      exact movesTo_crashed net address _ threads
    · rw [does]
      split_ifs
      · exact scan_movesTo net address _ threads client servers thread (position + 1) command
      · exact movesTo_place net address _ ⟨client.symm, servers, rfl, rfl, rfl⟩ (.rest _ _) nofun rfl rfl id
  · exact movesTo_self net address _ threads

theorem waitForRefresh_movesTo (thread : ℕ) (granted : Bool) :
    MovesTo net address (.waitForRefresh thread granted) threads (threads.waitForRefresh thread granted) := by
  simp only [Threads.waitForRefresh]
  split_ifs with free
  · exact movesTo_place net address _ ⟨rfl, le_refl _, rfl, rfl, rfl⟩ (.call free _ _) nofun rfl rfl nofun
  · exact movesTo_place net address _ ⟨rfl, le_refl _, rfl, rfl, rfl⟩ (.call free _ _) nofun rfl rfl id
  · exact movesTo_self net address _ threads

theorem poll_movesTo (thread : ℕ) : MovesTo net address (.poll thread) threads (threads.poll thread) := by
  simp only [Threads.poll]
  split
  · next nRetry call here =>
    split_ifs
    · exact place_movesTo net address _ threads (by rw [here]; exact .stop _ call) nofun
    · exact place_movesTo net address _ threads (by rw [here]; exact .poll nRetry call) nofun
  · next call here => exact place_movesTo net address _ threads (by rw [here]; exact .stop _ call) nofun
  · exact movesTo_self net address _ threads

theorem leave_movesTo (thread : ℕ) : MovesTo net address (.leave thread) threads (threads.leave thread) := by
  simp only [Threads.leave]
  split
  · next call here => exact place_movesTo net address _ threads (by rw [here]; exact .leave call) nofun
  · exact movesTo_self net address _ threads

/-- Everything that a section other than the refresh does to the callers and to the lock. -/
theorem step_movesTo (event : ThreadEvent) (other : event ≠ .refresh) :
    MovesTo net address event threads (threads.step net address event) := by
  rw [Threads.step.eq_def]
  split_ifs
  · exact movesTo_self net address _ threads
  cases event with
  | refresh => exact absurd rfl other
  | lock => exact lock_movesTo net address threads
  | wake => exact wake_movesTo net address threads
  | relock => exact relock_movesTo net address threads
  | simpleExecute thread command => exact simpleExecute_movesTo net address threads thread command
  | served thread => exact served_movesTo net address threads thread
  | flushCommand thread vecCmd => exact flushCommand_movesTo net address threads thread vecCmd
  | getMatchedServer thread => exact getMatchedServer_movesTo net address threads thread
  | flushed thread => exact flushed_movesTo net address threads thread
  | keys thread strPattern => exact keys_movesTo net address threads thread strPattern
  | scanned thread => exact scanned_movesTo net address threads thread
  | waitForRefresh thread granted => exact waitForRefresh_movesTo net address threads thread granted
  | poll thread => exact poll_movesTo net address threads thread
  | leave thread => exact leave_movesTo net address threads thread

end

/-- What a refresh that does not crash leaves. -/
def refreshedBy (threads : Threads ρ) (world : World (Pool ρ)) : Threads ρ :=
  { threads with
    world := world
    refresher := .running
    deleted :=
      if world.client.bCluster ∧ world.client.bValid then threads.deleted ++ threads.world.client.vecRedisServ
      else threads.deleted
    attempts := threads.attempts + 1
    refreshes := if world.client.bValid then threads.refreshes + 1 else threads.refreshes }

/-- A refresh needs the lock; without it nothing is done. -/
theorem refresh_cases (net : Network ρ) (address : ℕ → ℕ) (threads : Threads ρ) :
    threads.step net address .refresh = threads ∨ threads.step net address .refresh = { threads with crashed := true } ∨
      threads.crashed = false ∧ threads.refresher = .locked ∧ ∃ world,
      refreshRound net threads.world = .ok ((), world) ∧
        threads.step net address .refresh = refreshedBy threads world := by
  rw [Threads.step.eq_def]
  split_ifs with crashed
  · exact .inl rfl
  simp only [Threads.refresh]
  split_ifs with locked
  · rw [Threads.after]
    cases ran : refreshRound net threads.world with
    | error fault => exact .inr (.inl rfl)
    | ok result => exact .inr (.inr ⟨Bool.not_eq_true _ ▸ crashed, locked, result.2, rfl, rfl⟩)
  · exact .inl rfl

end CppRedis.Soundness.Sections
