import CppRedis.Model.RedisClient.Client
import CppRedis.Model.RedisClient.Connection

/-! # The refresh of the servers

`LoadClusterSlots` and the refresh thread of `RedisClient.cpp`, and the servers of a client as a pool of
connections.
-/

namespace CppRedis.Model.RedisClient

open Machine RedisCpp

variable {ρ : Type} (net : Network ρ)

/-- `FindServer` by host and port. -/
def findServerAt (pool : Pool ρ) (vecRedisServ : List ℕ) (strHost : CppString) (nPort : ℤ) : Option ℕ :=
  vecRedisServ.find? fun serv => strHost = (pool.server serv).strHost ∧ nPort = (pool.server serv).nPort

/-- `delete` on every server of a list. -/
def deleteServers : List ℕ → Action (Pool ρ) Unit
  | [] => return ()
  | serv :: vecRedisServ => do
      CRedisServer.cleanConn serv
      deleteServers vecRedisServ

/-- The loop of `LoadClusterSlots` over the regions; `none` when a server is not valid. -/
def assignServers (nTimeout nConnNum : ℤ) (vecRedisServ : List ℕ) :
    List SlotRegion → Action (Pool ρ) (Option (List SlotRegion × List ℕ))
  | [] => return some ([], vecRedisServ)
  | slotReg :: vecSlot => do
      match findServerAt (← get).servers vecRedisServ slotReg.strHost slotReg.nPort with
      | some pSlotServ =>
          let rest ← assignServers nTimeout nConnNum vecRedisServ vecSlot
          return rest.map fun (vecSlot, vecRedisServ) =>
            ({ slotReg with pRedisServ := some pSlotServ } :: vecSlot, vecRedisServ)
      | none =>
          let pSlotServ ← CRedisServer.new net slotReg.strHost slotReg.nPort nTimeout nConnNum
          if !((← get).servers.server pSlotServ).isValid then
            deleteServers vecRedisServ
            return none
          else
            let rest ← assignServers nTimeout nConnNum (vecRedisServ ++ [pSlotServ]) vecSlot
            return rest.map fun (vecSlot, vecRedisServ) =>
              ({ slotReg with pRedisServ := some pSlotServ } :: vecSlot, vecRedisServ)

/-- The loop of `LoadClusterSlots` over the servers it may ask. -/
def loadSlotsFrom (command : ℕ) : List ℕ → Action (Pool ρ) Bool
  | [] => return false
  | pRedisServ :: vecRedisServ => do
      if !((← get).servers.server pRedisServ).isValid then return false
      else if (← CRedisServer.servRequest net pRedisServ command) = .success then
        match ((← get).command command).pReply with
        | none => throw .nullReply
        | some reply =>
            match fetchSlot reply with
            | .error fault => throw fault
            | .ok none => loadSlotsFrom command vecRedisServ
            | .ok (some vecSlot) =>
                let client := (← get).client
                match ← assignServers net client.nTimeout client.nConnNum [] vecSlot with
                | none => return false
                | some (vecSlot, vecRedisServ) =>
                    deleteServers client.vecRedisServ
                    modify fun world => { world with client := world.client.install vecSlot vecRedisServ }
                    return true
      else loadSlotsFrom command vecRedisServ

def loadClusterSlots : Action (Pool ρ) Bool := do
  let command ← newCommand { args := [text "cluster", text "slots"] }
  loadSlotsFrom net command (← get).client.vecRedisServ

/-- One round of the loop of `operator()`, from the moment the thread has the lock. -/
def refreshRound : Action (Pool ρ) Unit := do
  modify (World.note .refresh)
  let client := (← get).client
  let bValid ←
    if client.bCluster then loadClusterSlots net
    else
      match client.vecRedisServ with
      | [] => throw .outOfRange
      | pRedisServ :: _ => CRedisServer.initializeServer net pRedisServ
  modify fun world => { world with client := { world.client with bValid := bValid } }

def refreshRounds : ℕ → Action (Pool ρ) Unit
  | 0 => return ()
  | count + 1 => do
      refreshRound net
      refreshRounds count

/-- `operator()` while the other threads leave it the lock. -/
def refreshThread : Action (Pool ρ) Unit := do
  refreshRounds net (net.rounds (← get).log)

/-- The servers of a client as a pool of connections; `address` has where they lie in memory. -/
def Network.servers (address : ℕ → ℕ) : Servers (Pool ρ) where
  address := address
  isValid pool serv := (pool.server serv).isValid
  servRequest := CRedisServer.servRequest net
  servRequests := CRedisServer.servRequests net
  refreshThread := refreshThread net

end CppRedis.Model.RedisClient
