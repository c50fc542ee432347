import CppRedis.Model.RedisClient.Refresh
import CppRedis.Model.RedisClient.SetArgs

/-! # Threads that share the servers of a client

The sections of `ServRequest` in the order in which any number of threads get to them, with the refresh
thread between them. A thread that has fetched a connection holds it until it returns it; which requests
it makes with it is not restricted, so every run of the public methods is among the runs.
-/

namespace CppRedis.Model.RedisClient

open Machine

/-- The world, and the connection each thread holds. -/
structure Callers (ρ : Type) where
  world : World (Pool ρ)
  held : ℕ → Option CRedisConnection := fun _ => none
  /-- The commands that were issued with a pipeline. -/
  queued : List ℕ := []
  /-- A pointer or a position was followed that leads nowhere. -/
  crashed : Bool := false

/-- A section of one thread. -/
inductive CallerEvent where
  | execute (strCmd : CppString) (arguments : SetArgs) (nSlot : ℤ) (funcConv : Convert)
  | queueCommand (strCmd : CppString) (arguments : SetArgs) (nSlot : ℤ) (funcConv : Convert)
  | fetchConnection (thread serv : ℕ)
  | connRequest (thread serv command : ℕ)
  | connRequests (thread serv : ℕ) (vecRedisCmd : List ℕ)
  | returnConnection (thread serv : ℕ)
  | refresh

namespace Callers

variable {ρ : Type}

/-- What a program leaves to the threads. -/
def after {α : Type} (callers : Callers ρ) (program : Action (Pool ρ) α)
    (next : α → World (Pool ρ) → Callers ρ) : Callers ρ :=
  match program callers.world with
  | .ok (value, world) => next value world
  | .error _ => { callers with crashed := true }

/-- `new CRedisCommand` with `SetArgs`, `SetSlot` and `SetConvFunc`. -/
def issue (callers : Callers ρ) (strCmd : CppString) (arguments : SetArgs) (nSlot : ℤ) (funcConv : Convert)
    (next : ℕ → World (Pool ρ) → Callers ρ) : Callers ρ :=
  match arguments.words strCmd with
  | .ok args => callers.after (newCommand { args := args, nSlot := nSlot, funcConv := funcConv }) next
  | .error _ => { callers with crashed := true }

/-- A thread uses the connection that it holds. -/
def request (callers : Callers ρ) (thread : ℕ)
    (program : CRedisConnection → Action (Pool ρ) (ReturnCode × CRedisConnection)) : Callers ρ :=
  match callers.held thread with
  | none => callers
  | some conn => callers.after (program conn) fun result world =>
      { callers with world := world, held := Function.update callers.held thread (some result.2) }

def step (net : Network ρ) (callers : Callers ρ) (event : CallerEvent) : Callers ρ :=
  if callers.crashed then callers
  else
    match event with
    | .execute strCmd arguments nSlot funcConv =>
        callers.issue strCmd arguments nSlot funcConv fun _ world => { callers with world := world }
    | .queueCommand strCmd arguments nSlot funcConv =>
        if arguments.pipelined then
          callers.issue strCmd arguments nSlot funcConv fun command world =>
            { callers with world := world, queued := callers.queued ++ [command] }
        else callers
    | .fetchConnection thread serv =>
        if (callers.held thread).isSome then callers
        else callers.after (CRedisServer.fetchConnection serv) fun conn world =>
          { callers with world := world, held := Function.update callers.held thread conn }
    | .connRequest thread serv command => callers.request thread (CRedisConnection.connRequest net serv command)
    | .connRequests thread serv vecRedisCmd =>
        if ∀ command ∈ vecRedisCmd, command ∈ callers.queued then
          callers.request thread (CRedisConnection.connRequests net serv vecRedisCmd)
        else callers
    | .returnConnection thread serv =>
        match callers.held thread with
        | none => callers
        | some conn => callers.after (CRedisServer.returnConnection serv conn) fun _ world =>
            { callers with world := world, held := Function.update callers.held thread none }
    | .refresh => callers.after (refreshRound net) fun _ world => { callers with world := world }

end Callers

end CppRedis.Model.RedisClient
