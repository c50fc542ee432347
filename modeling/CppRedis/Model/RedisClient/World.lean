import CppRedis.Model.RedisClient.Reply

/-! # The state that the client's code runs over

Commands and servers live at addresses; the addresses of commands are given out in order and not reused.
The log has everything that the program asked of its surroundings and what it was answered, so whatever
these do next is a function of the log.
-/

namespace CppRedis.Model.RedisClient

open Machine RedisCpp

/-- `CRedisCommand`. `args` is `m_pszArgs` with `m_pnArgsLen`; its length is `m_nArgs`. -/
structure CRedisCommand where
  args : List CppString := []
  nSlot : ℤ := -1
  funcConv : Convert := .default
  pReply : Option RedisReply := none

/-- `CRedisClient`. The locks and the refresh thread are not part of it. -/
structure CRedisClient where
  bCluster : Bool := false
  bValid : Bool := true
  vecSlot : List SlotRegion := []
  vecRedisServ : List ℕ := []
  nTimeout : ℤ := -1
  nConnNum : ℤ := -1

/-- What the program asked for, and the answer. -/
inductive Event where
  | time (now : ℤ)
  | connect (host : CppString) (port : ℤ) (connected : Bool)
  | append (command : ℕ) (taken : Bool)
  | reply (command : ℕ) (answer : RedisReply)
  /-- A link broke while a reply was awaited, after the server had carried out some of the commands. -/
  | lost (executed : ℕ)
  | waitForRefresh
  /-- A round of the refresh thread. -/
  | refresh

/-- The client, its commands, its servers, and the log. -/
structure World (σ : Type) where
  client : CRedisClient
  command : ℕ → CRedisCommand := fun _ => {}
  /-- The number of commands allocated so far. -/
  commands : ℕ := 0
  servers : σ
  log : List Event := []

/-- Code that runs over the state and may follow a null pointer. -/
abbrev Action (σ : Type) := Program (World σ) Fault

section

variable {σ : Type}

def World.note (event : Event) (world : World σ) : World σ := { world with log := world.log ++ [event] }

def World.setReply (command : ℕ) (reply : Option RedisReply) (world : World σ) : World σ :=
  { world with
    command := Function.update world.command command { world.command command with pReply := reply } }

/-- `new CRedisCommand`. -/
def newCommand (command : CRedisCommand) : Action σ ℕ := do
  let world ← get
  set { world with
    command := Function.update world.command world.commands command
    commands := world.commands + 1 }
  return world.commands

end

end CppRedis.Model.RedisClient
