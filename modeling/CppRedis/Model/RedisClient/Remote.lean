import CppRedis.Model.RedisClient.Client

/-! # Servers behind links that fail

What a client sees of its servers when each request may fail: connections, and the retries within
`ConnRequest`, are left out, and what comes of a request is decided from all that happened before. A request
that fails may have been carried out, also more than once, and the refresh leaves the slots where they are.
-/

namespace CppRedis.Model.RedisClient

open Machine RedisCpp

/-- What comes of a request. -/
inductive Fate where
  /-- The reply arrives, after the command was carried out so many times without one. -/
  | answered (lost : ℕ)
  /-- No reply arrives, and the command was carried out so many times. -/
  | failed (lost : ℕ)
  /-- No connection is idle. -/
  | refused
deriving DecidableEq, Repr

/-- What the Redis servers hold, and the commands that they carried out. -/
structure Remote (ρ : Type) where
  redis : ρ
  executed : List ℕ := []

/-- What surrounds the program. -/
structure Links (ρ : Type) where
  /-- The node that a server stands for. -/
  node : ℕ → CppString × ℤ
  serve : ρ → CppString × ℤ → List CppString → RedisReply × ρ
  fate : List Event → Fate
  /-- Whether the refresh succeeded, where the refresh thread got through its loop. -/
  refreshed : List Event → Option Bool

variable {ρ : Type} (links : Links ρ)

/-- A command is carried out. -/
def Links.execute (serv command : ℕ) (source : World (Remote ρ)) : RedisReply × World (Remote ρ) :=
  let (reply, redis) := links.serve source.servers.redis (links.node serv) (source.command command).args
  (reply, { source with servers := { redis := redis, executed := source.servers.executed ++ [command] } })

def Links.executeTimes (serv command : ℕ) : ℕ → World (Remote ρ) → World (Remote ρ)
  | 0, source => source
  | count + 1, source => Links.executeTimes serv command count (links.execute serv command source).2

def Links.servRequest (serv command : ℕ) : Action (Remote ρ) ReturnCode := do
  let world ← get
  match links.fate world.log with
  | .refused =>
      set (world.note (.append command false))
      return .noResource
  | .failed lost =>
      set (((links.executeTimes serv command lost world).note (.lost lost)).setReply command none)
      return .rqstErr
  | .answered lost =>
      let (reply, world) := links.execute serv command (links.executeTimes serv command lost world)
      set ((world.note (.reply command reply)).setReply command (some reply))
      return .success

def Links.servRequests (serv : ℕ) : List ℕ → Action (Remote ρ) ReturnCode
  | [] => return .success
  | command :: vecRedisCmd => do
      let nRet ← links.servRequest serv command
      if nRet = .success then Links.servRequests serv vecRedisCmd
      else return nRet

def Links.refreshThread : Action (Remote ρ) Unit := do
  let refreshed := links.refreshed (← get).log
  modify (World.note .refresh)
  match refreshed with
  | none => return ()
  | some bValid => modify fun world => { world with client := { world.client with bValid := bValid } }

/-- The servers of a client over links that fail. -/
def Links.servers (address : ℕ → ℕ) : Servers (Remote ρ) where
  address := address
  isValid _ _ := true
  servRequest := links.servRequest
  servRequests := links.servRequests
  refreshThread := links.refreshThread

end CppRedis.Model.RedisClient
