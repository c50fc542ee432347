import CppRedis.Soundness.Attribution
import Mathlib.Data.List.Find

/-! # The slot table

`LoadClusterSlots` sorts the regions of a CLUSTER SLOTS reply and `FindServer` looks a slot up by two
comparisons. With disjoint regions this finds the one that contains the slot. Which server a region gets
is decided by the host that the servers so far are at, and a server that lost its host is taken for one
that was reported without a host.
-/

namespace CppRedis.Soundness.Slots

open Machine Machine.Program Model.RedisClient Model.RedisCpp Requests Attribution

/-- An entry of a CLUSTER SLOTS reply. `node` has what follows the port of the master, `replicas` what
follows the master; the client reads neither. -/
structure Region where
  nStartSlot : ℤ
  nEndSlot : ℤ
  strHost : CppString
  nPort : ℤ
  node : List RedisReply := []
  replicas : List RedisReply := []
  ordered : nStartSlot ≤ nEndSlot
  slots : 0 ≤ nStartSlot ∧ nEndSlot < 16384
  port : 0 ≤ nPort ∧ nPort < 65536
  terminated : cStr strHost = strHost

namespace Region

def Contains (region : Region) (nSlot : ℤ) : Prop := region.nStartSlot ≤ nSlot ∧ nSlot ≤ region.nEndSlot

def Disjoint (lReg rReg : Region) : Prop := ∀ nSlot, ¬ (lReg.Contains nSlot ∧ rReg.Contains nSlot)

def reply (region : Region) : RedisReply :=
  .array (.integer region.nStartSlot :: .integer region.nEndSlot ::
    .array (.string region.strHost :: .integer region.nPort :: region.node) :: region.replicas)

/-- What `FetchSlot` makes of it. -/
def slotReg (region : Region) : SlotRegion where
  nStartSlot := region.nStartSlot
  nEndSlot := region.nEndSlot
  strHost := region.strHost
  nPort := region.nPort

end Region

/-- The CLUSTER SLOTS reply with these regions. -/
def slotsReply (regions : List Region) : RedisReply := .array (regions.map Region.reply)

theorem fetchRegion_reply (region : Region) : fetchRegion region.reply = .ok (some region.slotReg) := by
  obtain ⟨lower, upper⟩ := region.slots
  obtain ⟨low, high⟩ := region.port
  have ordered := region.ordered
  have fits {value : ℤ} (lower : 0 ≤ value) (upper : value < 65536) : toInt value = value :=
    toInt_of_lt (by omega) (by omega)
  simp only [Region.reply, fetchRegion, RedisReply.str?, integerField, region.terminated, Region.slotReg,
    fits low high, fits lower (show region.nStartSlot < 65536 by omega),
    fits (show 0 ≤ region.nEndSlot by omega) (show region.nEndSlot < 65536 by omega)]

/-- `FetchSlot` reads the regions back. -/
theorem fetchSlot_slotsReply (regions : List Region) :
    fetchSlot (slotsReply regions) = .ok (some (regions.map Region.slotReg)) := by
  rw [slotsReply, fetchSlot]
  induction regions with
  | nil => rfl
  | cons region regions ih =>
    rw [List.map_cons, fetchRegions, fetchRegion_reply, ih]
    rfl

section

variable {vecSlot : List SlotRegion} {nSlot : ℤ}

/-- Every region starts after the ones before it have ended. -/
def Apart (vecSlot : List SlotRegion) : Prop :=
  vecSlot.Pairwise (fun lReg rReg => lReg.nEndSlot < rReg.nStartSlot) ∧
    ∀ slotReg ∈ vecSlot, slotReg.nStartSlot ≤ slotReg.nEndSlot

/-- In a table in order the search finds the region of a slot. -/
theorem findServer_of_mem (apart : Apart vecSlot) {slotReg : SlotRegion} (member : slotReg ∈ vecSlot)
    (starts : slotReg.nStartSlot ≤ nSlot) (ends : nSlot ≤ slotReg.nEndSlot) :
    findServer vecSlot nSlot = slotReg.pRedisServ := by
  obtain ⟨front, back, rfl⟩ := List.append_of_mem member
  obtain ⟨-, later, across⟩ := List.pairwise_append.mp apart.1
  have range := equalRange_of_mem (fun other : SlotRegion => decide (other.nEndSlot < nSlot))
    (fun other => decide (nSlot < other.nStartSlot)) front back slotReg ?_ ?_ ?_
  · simp only [findServer, range]
    rw [if_pos ⟨by simp only [List.length_append, List.length_cons]; omega, by omega⟩,
      List.getElem?_append_right (le_refl _), Nat.sub_self, List.getElem?_cons_zero, Option.bind_some]
  · intro other inFront
    have before := across other inFront slotReg List.mem_cons_self
    have proper := apart.2 other (List.mem_append_left _ inFront)
    simp only [decide_eq_true_eq]
    omega
  · simp only [decide_eq_true_eq]
    omega
  · intro other inBack
    have after := (List.pairwise_cons.mp later).1 other inBack
    have proper := apart.2 other (List.mem_append_right _ (List.mem_cons_of_mem _ inBack))
    simp only [decide_eq_true_eq]
    omega

/-- A slot outside the regions of a table in order parts it. -/
theorem exists_split (apart : Apart vecSlot)
    (outside : ∀ slotReg ∈ vecSlot, slotReg.nStartSlot ≤ nSlot → slotReg.nEndSlot < nSlot) :
    ∃ front back, vecSlot = front ++ back ∧ (∀ slotReg ∈ front, slotReg.nEndSlot < nSlot) ∧
      ∀ slotReg ∈ back, nSlot < slotReg.nStartSlot := by
  induction vecSlot with
  | nil => exact ⟨[], [], rfl, nofun, nofun⟩
  | cons slotReg rest ih =>
    obtain ⟨after, sorted⟩ := List.pairwise_cons.mp apart.1
    by_cases starts : slotReg.nStartSlot ≤ nSlot
    · obtain ⟨front, back, rfl, lower, upper⟩ := ih
        ⟨sorted, fun other member => apart.2 other (List.mem_cons_of_mem _ member)⟩
        fun other member => outside other (List.mem_cons_of_mem _ member)
      refine ⟨slotReg :: front, back, rfl, fun other member => ?_, upper⟩
      rcases List.mem_cons.mp member with rfl | member
      · exact outside other List.mem_cons_self starts
      · exact lower other member
    · refine ⟨[], slotReg :: rest, rfl, nofun, fun other member => ?_⟩
      rcases List.mem_cons.mp member with rfl | inRest
      · omega
      · have proper := apart.2 slotReg List.mem_cons_self
        have later := after other inRest
        omega

/-- In a table in order the search finds nothing for a slot that no region contains. -/
theorem findServer_of_not_mem (apart : Apart vecSlot)
    (outside : ∀ slotReg ∈ vecSlot, ¬ (slotReg.nStartSlot ≤ nSlot ∧ nSlot ≤ slotReg.nEndSlot)) :
    findServer vecSlot nSlot = none := by
  obtain ⟨front, back, rfl, lower, upper⟩ := @exists_split _ nSlot apart fun slotReg member starts => by
    have := outside slotReg member
    omega
  have range := equalRange_of_not_mem (fun other : SlotRegion => decide (other.nEndSlot < nSlot))
    (fun other => decide (nSlot < other.nStartSlot)) front back ?_ ?_
  · simp only [findServer, range, ne_eq, not_true_eq_false, and_false, ↓reduceIte]
  · intro other member
    have := lower other member
    have := apart.2 other (List.mem_append_left _ member)
    simp only [decide_eq_true_eq]
    omega
  · intro other member
    have := upper other member
    have := apart.2 other (List.mem_append_right _ member)
    simp only [decide_eq_true_eq]
    omega

/-- Sorting puts disjoint regions in order. -/
theorem apart_insertionSort (proper : ∀ slotReg ∈ vecSlot, slotReg.nStartSlot ≤ slotReg.nEndSlot)
    (disjoint : vecSlot.Pairwise fun lReg rReg =>
      lReg.nEndSlot < rReg.nStartSlot ∨ rReg.nEndSlot < lReg.nStartSlot) :
    Apart (vecSlot.insertionSort fun lReg rReg => lReg.nStartSlot ≤ rReg.nStartSlot) := by
  have total : Std.Total fun lReg rReg : SlotRegion => lReg.nStartSlot ≤ rReg.nStartSlot :=
    ⟨fun _ _ => le_total _ _⟩
  have transitive : IsTrans SlotRegion fun lReg rReg => lReg.nStartSlot ≤ rReg.nStartSlot :=
    ⟨fun _ _ _ => le_trans⟩
  have sorted := List.pairwise_insertionSort (fun lReg rReg : SlotRegion => lReg.nStartSlot ≤ rReg.nStartSlot) vecSlot
  have perm := List.perm_insertionSort (fun lReg rReg : SlotRegion => lReg.nStartSlot ≤ rReg.nStartSlot) vecSlot
  have still := (perm.pairwise_iff (R := fun lReg rReg : SlotRegion =>
    lReg.nEndSlot < rReg.nStartSlot ∨ rReg.nEndSlot < lReg.nStartSlot) Or.symm).mpr disjoint
  refine ⟨?_, fun slotReg member => proper slotReg (perm.mem_iff.mp member)⟩
  refine (List.pairwise_and_iff.mpr ⟨sorted, still⟩).imp_of_mem fun {lReg rReg} left right related => ?_
  have := proper lReg (perm.mem_iff.mp left)
  have := proper rReg (perm.mem_iff.mp right)
  omega

end

section

variable {ρ : Type} (net : Network ρ)

/-- A server was constructed for a host and a port, and may have lost its host since. -/
def BuiltFor (server : CRedisServer) (strHost : CppString) (nPort : ℤ) : Prop :=
  server.vecHosts = [(strHost, nPort)] ∧ server.nPort = nPort ∧ (server.strHost = strHost ∨ server.strHost = [])

/-- A new server lies behind all others. -/
theorem new_builtFor (strHost : CppString) (nPort nTimeout nConnNum : ℤ) {source target : World (Pool ρ)} {serv : ℕ}
    (ran : CRedisServer.new net strHost nPort nTimeout nConnNum source = .ok (serv, target)) :
    serv = source.servers.servers ∧ serv < target.servers.servers ∧
      BuiltFor (target.servers.server serv) strHost nPort := by
  obtain ⟨_, _, ranGet, ran⟩ := bind_eq_ok_iff.mp ran
  cases ranGet
  obtain ⟨_, allocated, ranAllocate, ran⟩ := bind_eq_ok_iff.mp ran
  cases ranAllocate
  obtain ⟨_, constructed, ranConstruct, ran⟩ := bind_eq_ok_iff.mp ran
  cases ranConstruct
  obtain ⟨_, last, ranInitialize, ran⟩ := bind_eq_ok_iff.mp ran
  cases ran
  have footprint := initializeServer_follows (S := {source.servers.servers}) (C := ∅) net (Set.mem_singleton _) _ _ _
    ranInitialize
  have drift := footprint.drift source.servers.servers (Nat.lt_succ_self _)
  refine ⟨rfl, lt_of_lt_of_le (Nat.lt_succ_self _) footprint.servers, ?_⟩
  simp only [Function.update_self] at drift
  refine ⟨drift.vecHosts, ?_⟩
  rcases drift.address with ⟨host, port⟩ | known | ⟨lost, port | ⟨host, known⟩⟩
  · exact ⟨port, .inl host⟩
  · obtain ⟨host, port⟩ := Prod.mk.inj (List.mem_singleton.mp known)
    exact ⟨port, .inl host⟩
  · exact ⟨port, .inr lost⟩
  · obtain ⟨-, port⟩ := Prod.mk.inj (List.mem_singleton.mp known)
    exact ⟨port, .inr lost⟩

/-- The first region with a port. -/
def leader (regions : List Region) (nPort : ℤ) : Option Region := regions.find? fun region => nPort = region.nPort

/-- The servers that the loop has built for the regions so far. The first one at a port is the one of the
first region with that port. -/
structure Built (done : List Region) (vecRedisServ : List ℕ) (world : World (Pool ρ)) : Prop where
  allocated : ∀ serv ∈ vecRedisServ, serv < world.servers.servers
  built : ∀ serv ∈ vecRedisServ, ∃ strHost nPort, BuiltFor (world.servers.server serv) strHost nPort
  leads : ∀ nPort : ℤ,
    (vecRedisServ.find? fun serv => nPort = (world.servers.server serv).nPort).map
        (fun serv => (world.servers.server serv).vecHosts) =
      (leader done nPort).map fun region => [(region.strHost, region.nPort)]

theorem Built.nil (world : World (Pool ρ)) : Built [] [] world := ⟨nofun, nofun, fun _ => rfl⟩

/-- What is done with other servers changes nothing. -/
theorem Built.of_footprint {done : List Region} {vecRedisServ : List ℕ} {source target : World (Pool ρ)} {C : Set ℕ}
    (built : Built done vecRedisServ source) (footprint : Footprint ∅ C source target) :
    Built done vecRedisServ target := by
  have same : ∀ serv ∈ vecRedisServ, target.servers.server serv = source.servers.server serv := fun serv member =>
    footprint.server serv (built.allocated serv member) (Set.notMem_empty serv)
  refine ⟨fun serv member => lt_of_lt_of_le (built.allocated serv member) footprint.servers, fun serv member => ?_,
    fun nPort => ?_⟩
  · rw [same serv member]
    exact built.built serv member
  · rw [← built.leads nPort]
    have finds : (vecRedisServ.find? fun serv => nPort = (target.servers.server serv).nPort) =
        vecRedisServ.find? fun serv => nPort = (source.servers.server serv).nPort :=
      List.find?_congr fun serv member => by rw [same serv member]
    rw [finds]
    cases found : vecRedisServ.find? fun serv => nPort = (source.servers.server serv).nPort with
    | none => rfl
    | some serv => rw [Option.map_some, Option.map_some, same serv (List.mem_of_find?_eq_some found)]

theorem leader_append (front back : List Region) (nPort : ℤ) :
    leader (front ++ back) nPort = (leader front nPort).or (leader back nPort) := List.find?_append

theorem leader_port {regions : List Region} {nPort : ℤ} {first : Region} (led : leader regions nPort = some first) :
    nPort = first.nPort := by
  rw [leader] at led
  have matched := List.find?_some led
  exact of_decide_eq_true matched

/-- A region for which there is a server at its port. -/
theorem Built.found {done : List Region} {vecRedisServ : List ℕ} {world : World (Pool ρ)}
    (built : Built done vecRedisServ world) {region : Region} {serv : ℕ} (member : serv ∈ vecRedisServ)
    (port : region.nPort = (world.servers.server serv).nPort) : Built (done ++ [region]) vecRedisServ world := by
  refine { built with leads := fun nPort => ?_ }
  rw [leader_append, built.leads nPort]
  cases led : leader done nPort with
  | some first => rfl
  | none =>
    by_cases same : nPort = region.nPort
    · have none := built.leads nPort
      rw [led, Option.map_none, Option.map_eq_none_iff, List.find?_eq_none] at none
      exact absurd (decide_eq_true (same.trans port)) (none serv member)
    · simp only [leader, List.find?_cons, same, decide_false, List.find?_nil, Option.or_none]

/-- A region for which a server was built. -/
theorem Built.snoc {done : List Region} {vecRedisServ : List ℕ} {world : World (Pool ρ)}
    (built : Built done vecRedisServ world) {region : Region} {serv : ℕ} (allocated : serv < world.servers.servers)
    (new : BuiltFor (world.servers.server serv) region.strHost region.nPort) :
    Built (done ++ [region]) (vecRedisServ ++ [serv]) world := by
  refine ⟨fun other member => ?_, fun other member => ?_, fun nPort => ?_⟩
  · rcases List.mem_append.mp member with earlier | here
    · exact built.allocated other earlier
    · rwa [List.mem_singleton.mp here]
  · rcases List.mem_append.mp member with earlier | here
    · exact built.built other earlier
    · rw [List.mem_singleton.mp here]
      exact ⟨_, _, new⟩
  · rw [leader_append, List.find?_append]
    have before := built.leads nPort
    cases led : leader done nPort with
    | some first =>
      rw [led] at before
      obtain ⟨lead, found, hosts⟩ := Option.map_eq_some_iff.mp before
      rw [found, Option.some_or, Option.some_or, Option.map_some, Option.map_some, hosts]
    | none =>
      rw [led, Option.map_none, Option.map_eq_none_iff] at before
      rw [before, Option.none_or, Option.none_or]
      by_cases same : nPort = region.nPort
      · simp only [leader, List.find?_cons, same, new.2.1, decide_true, Option.map_some, new.1]
      · simp only [leader, List.find?_cons, same, new.2.1, decide_false, List.find?_nil, Option.map_none]

/-- Of the regions with one port the first has no host, if any of them has none. -/
def HostlessFirst (regions : List Region) : Prop :=
  ∀ region ∈ regions, region.strHost = [] → ∀ first, leader regions region.nPort = some first → first.strHost = []

/-- The first element with one property that has a stronger one is the first element with that. -/
theorem find?_of_imp {α : Type} {elements : List α} {weak strong : α → Bool} {element : α}
    (implies : ∀ other, strong other → weak other) (found : elements.find? weak = some element)
    (holds : strong element) : elements.find? strong = some element := by
  obtain ⟨-, front, back, split, fails⟩ := List.find?_eq_some_iff_append.mp found
  refine List.find?_eq_some_iff_append.mpr ⟨holds, front, back, split, fun other member => ?_⟩
  have weakFails := fails other member
  simp only [Bool.not_eq_true', Bool.eq_false_iff] at weakFails ⊢
  exact fun here => weakFails (implies other here)

/-- The server that is found for a region was built for it. -/
theorem Built.vecHosts_of_found {regions done back : List Region} {region : Region} {vecRedisServ : List ℕ}
    {world : World (Pool ρ)} (built : Built done vecRedisServ world) (known : HostlessFirst regions)
    (whole : done ++ region :: back = regions) {serv : ℕ}
    (found : findServerAt world.servers vecRedisServ region.strHost region.nPort = some serv) :
    serv ∈ vecRedisServ ∧ region.nPort = (world.servers.server serv).nPort ∧
      (world.servers.server serv).vecHosts = [(region.strHost, region.nPort)] := by
  rw [findServerAt] at found
  have member := List.mem_of_find?_eq_some found
  have matched := List.find?_some found
  obtain ⟨host, port⟩ := of_decide_eq_true matched
  refine ⟨member, port, ?_⟩
  obtain ⟨strHost, nPort, hosts, builtPort, address⟩ := built.built serv member
  rcases address with same | lost
  · rw [hosts, host, same, port, builtPort]
  · -- The server lost its host, so the region has none, and the first server at the port is this one.
    have hostless : region.strHost = [] := host.trans lost
    cases leads : vecRedisServ.find? fun serv => region.nPort = (world.servers.server serv).nPort with
    | none => exact absurd (decide_eq_true port) (List.find?_eq_none.mp leads serv member)
    | some lead =>
      have before := built.leads region.nPort
      rw [leads, Option.map_some] at before
      obtain ⟨first, led, here⟩ := Option.map_eq_some_iff.mp before.symm
      have ledAll : leader regions region.nPort = some first := by
        rw [← whole, leader_append, led, Option.some_or]
      have none := known region (by rw [← whole]; exact List.mem_append_right _ List.mem_cons_self)
        hostless first ledAll
      have leadMatched := List.find?_some leads
      have leadPort := of_decide_eq_true leadMatched
      obtain ⟨leadHost, _, leadHosts, -, leadAddress⟩ := built.built lead (List.mem_of_find?_eq_some leads)
      have leadHostless : leadHost = [] := by
        rw [leadHosts, none] at here
        exact (Prod.mk.inj (List.singleton_inj.mp here)).1.symm
      have leadLost : (world.servers.server lead).strHost = [] := leadAddress.elim (·.trans leadHostless) id
      have same : findServerAt world.servers vecRedisServ region.strHost region.nPort = some lead :=
        find?_of_imp (fun other both => decide_eq_true (of_decide_eq_true both).2) leads
          (decide_eq_true ⟨hostless.trans leadLost.symm, leadPort⟩)
      rw [findServerAt, found] at same
      rw [Option.some.inj same, ← here, none, hostless, leader_port led]

/-- The region got a server that was built for it. -/
def Matched (vecRedisServ : List ℕ) (world : World (Pool ρ)) (region : Region) (slotReg : SlotRegion) : Prop :=
  ∃ serv ∈ vecRedisServ, slotReg = { region.slotReg with pRedisServ := some serv } ∧
    (world.servers.server serv).vecHosts = [(region.strHost, region.nPort)]

/-- When the loop gets to its end, every region has a server that was built for it. -/
theorem assignServers_matched {regions : List Region} (known : HostlessFirst regions) (nTimeout nConnNum : ℤ)
    (back done : List Region) (whole : done ++ back = regions) (vecRedisServ : List ℕ)
    {source target : World (Pool ρ)} {vecSlot : List SlotRegion} {all : List ℕ}
    (built : Built done vecRedisServ source)
    (ran : assignServers net nTimeout nConnNum vecRedisServ (back.map Region.slotReg) source =
      .ok (some (vecSlot, all), target)) :
    Footprint ∅ ∅ source target ∧ vecRedisServ ⊆ all ∧ Built regions all target ∧
      List.Forall₂ (Matched all target) back vecSlot := by
  induction back generalizing done vecRedisServ source vecSlot with
  | nil =>
    cases ran
    rw [List.append_nil] at whole
    exact ⟨Footprint.rfl' _, fun _ => id, by rwa [← whole], .nil⟩
  | cons region back ih =>
    have rest : done ++ [region] ++ back = regions := by rw [← whole, List.append_assoc, List.singleton_append]
    rw [List.map_cons, assignServers, bind_of_ok (get_apply source)] at ran
    dsimp only at ran
    cases found : findServerAt source.servers vecRedisServ region.slotReg.strHost region.slotReg.nPort with
    | some serv =>
      rw [found] at ran
      obtain ⟨member, port, hosts⟩ := built.vecHosts_of_found known whole found
      obtain ⟨result, last, ranRest, ran⟩ := bind_eq_ok_iff.mp ran
      cases result with
      | none => cases ran
      | some tables =>
        cases ran
        obtain ⟨footprint, inside, builtAll, matched⟩ := ih _ rest _ (built.found member port) ranRest
        refine ⟨footprint, inside, builtAll, .cons ⟨serv, inside member, rfl, ?_⟩ matched⟩
        rw [(footprint.drift serv (built.allocated serv member)).vecHosts, hosts]
    | none =>
      rw [found] at ran
      obtain ⟨serv, middle, ranNew, ran⟩ := bind_eq_ok_iff.mp ran
      have fresh := new_follows (S := ∅) (C := ∅) net _ _ _ _ _ _ _ ranNew
      obtain ⟨-, allocated, new⟩ := new_builtFor net _ _ _ _ ranNew
      rw [bind_of_ok (get_apply middle)] at ran
      split_ifs at ran with valid
      · obtain ⟨_, _, _, ran⟩ := bind_eq_ok_iff.mp ran
        cases ran
      · obtain ⟨result, last, ranRest, ran⟩ := bind_eq_ok_iff.mp ran
        cases result with
        | none => cases ran
        | some tables =>
          cases ran
          obtain ⟨footprint, inside, builtAll, matched⟩ :=
            ih _ rest _ ((built.of_footprint fresh).snoc allocated new) ranRest
          refine ⟨fresh.trans footprint, fun other member => inside (List.mem_append_left _ member), builtAll,
            .cons ⟨serv, inside (List.mem_append_right _ (List.mem_singleton_self _)), rfl, ?_⟩ matched⟩
          rw [(footprint.drift serv allocated).vecHosts, new.1]
          rfl

theorem mem_of_forall₂ {α β : Type} {related : α → β → Prop} {first : List α} {second : List β}
    (pairs : List.Forall₂ related first second) :
    (∀ element ∈ first, ∃ other ∈ second, related element other) ∧
      ∀ other ∈ second, ∃ element ∈ first, related element other := by
  induction pairs with
  | nil => exact ⟨nofun, nofun⟩
  | cons here _ ih =>
    simp only [List.mem_cons, exists_eq_or_imp, forall_eq_or_imp]
    exact ⟨⟨.inl here, fun element member => .inr (ih.1 element member)⟩,
      .inl here, fun other member => .inr (ih.2 other member)⟩

theorem pairwise_of_forall₂ {α β : Type} {related : α → β → Prop} {apart : α → α → Prop} {apart' : β → β → Prop}
    (carry : ∀ a a' b b', related a b → related a' b' → apart a a' → apart' b b') {first : List α} {second : List β}
    (pairs : List.Forall₂ related first second) (pairwise : first.Pairwise apart) : second.Pairwise apart' := by
  induction pairs with
  | nil => exact .nil
  | cons here rest ih =>
    obtain ⟨head, tail⟩ := List.pairwise_cons.mp pairwise
    refine .cons (fun other member => ?_) (ih tail)
    obtain ⟨element, inFirst, same⟩ := (mem_of_forall₂ rest).2 other member
    exact carry _ _ _ _ here same (head element inFirst)

/-- The client's table serves every slot by a server of the client that was built for its region. -/
def Serves (regions : List Region) (world : World (Pool ρ)) : Prop :=
  ∀ nSlot : ℤ, 0 ≤ nSlot → nSlot < 16384 →
    (∀ region ∈ regions, region.Contains nSlot → ∃ serv ∈ world.client.vecRedisServ,
      findServer world.client.vecSlot nSlot = some serv ∧
      (world.servers.server serv).vecHosts = [(region.strHost, region.nPort)]) ∧
    ((∀ region ∈ regions, ¬ region.Contains nSlot) → findServer world.client.vecSlot nSlot = none)

/-- The regions are in the table with some servers. -/
def Listed (region : Region) (slotReg : SlotRegion) : Prop :=
  ∃ pRedisServ, slotReg = { region.slotReg with pRedisServ := pRedisServ }

/-- The table of the regions with their servers, once sorted. -/
theorem apart_of_listed {regions : List Region} (disjoint : regions.Pairwise Region.Disjoint)
    {vecSlot : List SlotRegion} (listed : List.Forall₂ Listed regions vecSlot) :
    Apart (vecSlot.insertionSort fun lReg rReg => lReg.nStartSlot ≤ rReg.nStartSlot) := by
  refine apart_insertionSort (fun slotReg member => ?_) (pairwise_of_forall₂ ?_ listed disjoint)
  · obtain ⟨region, -, pRedisServ, rfl⟩ := (mem_of_forall₂ listed).2 slotReg member
    exact region.ordered
  · rintro lReg rReg _ _ ⟨_, rfl⟩ ⟨_, rfl⟩ never
    have ordered := lReg.ordered
    have ordered' := rReg.ordered
    have atLeft := never lReg.nStartSlot
    have atRight := never rReg.nStartSlot
    simp only [Region.Contains, Region.slotReg] at atLeft atRight ⊢
    omega

theorem serves_of_matched {regions : List Region} (disjoint : regions.Pairwise Region.Disjoint) {all : List ℕ}
    {source target : World (Pool ρ)} {vecSlot : List SlotRegion}
    (matched : List.Forall₂ (Matched all source) regions vecSlot)
    (table : target.client.vecSlot = vecSlot.insertionSort fun lReg rReg => lReg.nStartSlot ≤ rReg.nStartSlot)
    (list : target.client.vecRedisServ = all)
    (hosts : ∀ serv ∈ all, (target.servers.server serv).vecHosts = (source.servers.server serv).vecHosts) :
    Serves regions target := by
  have apart := apart_of_listed disjoint (matched.imp fun _ _ ⟨serv, _, same, _⟩ => ⟨some serv, same⟩)
  intro nSlot _ _
  rw [table, list]
  constructor
  · intro region member contains
    obtain ⟨slotReg, inTable, serv, known, rfl, built⟩ := (mem_of_forall₂ matched).1 region member
    refine ⟨serv, known, ?_, by rw [hosts serv known, built]⟩
    exact findServer_of_mem apart ((List.mem_insertionSort _).mpr inTable) contains.1 contains.2
  · intro outside
    refine findServer_of_not_mem apart fun slotReg inTable => ?_
    obtain ⟨region, member, serv, -, rfl, -⟩ :=
      (mem_of_forall₂ matched).2 slotReg ((List.mem_insertionSort _).mp inTable)
    exact outside region member

/-- What `LoadClusterSlots` promises for a reply: a table that serves it, or no change. -/
def Loaded (regions : List Region) (loaded : Bool) (source target : World (Pool ρ)) : Prop :=
  if loaded then Serves regions target
  else target.client.vecSlot = source.client.vecSlot ∧ target.client.vecRedisServ = source.client.vecRedisServ

theorem loadSlotsFrom_loaded {regions : List Region} (disjoint : regions.Pairwise Region.Disjoint)
    (known : HostlessFirst regions) (command : ℕ) (vecRedisServ : List ℕ) {source target : World (Pool ρ)}
    {loaded : Bool} (attributed : Attributed source)
    (ran : loadSlotsFrom net command vecRedisServ source = .ok (loaded, target))
    (answers : ∀ reply, .reply command reply ∈ target.log → reply = slotsReply regions) :
    Loaded regions loaded source target := by
  induction vecRedisServ generalizing source with
  | nil =>
    cases ran
    exact ⟨rfl, rfl⟩
  | cons serv vecRedisServ ih =>
    rw [loadSlotsFrom, bind_of_ok (get_apply source)] at ran
    split_ifs at ran with valid
    · cases ran
      exact ⟨rfl, rfl⟩
    obtain ⟨nRet, asked, ranRequest, ran⟩ := bind_eq_ok_iff.mp ran
    have client := (servRequest_follows (C := {command}) net (Set.mem_univ serv) (Set.mem_singleton command) _ _ _
      ranRequest).client
    have attributed := servRequest_attributed net serv command _ attributed _ _ ranRequest
    have later : ∀ {nRet : Bool}, Loaded regions nRet asked target → Loaded regions nRet source target := by
      intro nRet
      rw [Loaded, Loaded, client]
      exact id
    split_ifs at ran with success
    · rw [bind_of_ok (get_apply asked)] at ran
      cases stored : (asked.command command).pReply with
      | none =>
        rw [stored] at ran
        cases ran
      | some reply =>
        rw [stored] at ran
        dsimp only at ran
        have answered := attributed.replies command reply stored
        cases fetched : fetchSlot reply with
        | error fault =>
          rw [fetched] at ran
          cases ran
        | ok found =>
          rw [fetched] at ran
          have reads : asked.log <+: target.log → found = some (regions.map Region.slotReg) := by
            intro grows
            obtain ⟨front, back, log, -⟩ := answered
            have inLog : Event.reply command reply ∈ asked.log := by
              rw [log]
              exact List.mem_append_right _ List.mem_cons_self
            rw [answers reply (grows.subset inLog), fetchSlot_slotsReply] at fetched
            exact (Except.ok.inj fetched).symm
          cases found with
          | none => cases reads (loadSlotsFrom_follows net (Set.mem_singleton command) _ _ _ _ ran).log
          | some vecSlot =>
            dsimp only at ran
            rw [bind_of_ok (get_apply asked)] at ran
            obtain ⟨result, assigned, ranAssign, ran⟩ := bind_eq_ok_iff.mp ran
            have built := (assignServers_follows (C := ∅) net _ _ _ _ _ _ _ ranAssign)
            refine later ?_
            cases result with
            | none =>
              cases ran
              exact ⟨by rw [built.client], by rw [built.client]⟩
            | some tables =>
              obtain ⟨vecSlot', all⟩ := tables
              obtain ⟨_, deleted, ranDelete, ran⟩ := bind_eq_ok_iff.mp ran
              have deletes := deleteServers_follows (C := ∅) _ (fun _ _ => Set.mem_univ _) _ _ _ ranDelete
              cases ran
              cases reads (built.log.trans deletes.log)
              obtain ⟨-, -, builtAll, matched⟩ :=
                assignServers_matched net known _ _ regions [] rfl [] (Built.nil asked)
                ranAssign
              exact serves_of_matched disjoint matched rfl rfl fun serv member =>
                (deletes.drift serv (builtAll.allocated serv member)).vecHosts
    · exact later (ih attributed ran)

/-- For every state and network in which each answer to the command is this reply, `LoadClusterSlots` keeps
its promise. -/
def LoadsSlots (regions : List Region) : Prop :=
  ∀ (ρ : Type) (net : Network ρ) (source target : World (Pool ρ)) (loaded : Bool), Attributed source →
    loadClusterSlots net source = .ok (loaded, target) →
    (∀ reply, .reply source.commands reply ∈ target.log → reply = slotsReply regions) →
    Loaded regions loaded source target

end

theorem loadsSlots_of_hostlessFirst {regions : List Region} (disjoint : regions.Pairwise Region.Disjoint)
    (known : HostlessFirst regions) : LoadsSlots regions := by
  intro ρ net source target loaded attributed ran answers
  obtain ⟨command, issued, ranNew, ran⟩ := bind_eq_ok_iff.mp ran
  have fresh := newCommand_attributed rfl source attributed command issued ranNew
  cases ranNew
  rw [bind_of_ok (get_apply _)] at ran
  have loads := loadSlotsFrom_loaded net disjoint known _ _ fresh ran answers
  exact loads

/-- Whether a connect succeeds after these events: not right after a look at the clock, and not again when
one to some host failed there. -/
def reachable (log : List Event) : Bool :=
  match log.reverse with
  | .time _ :: _ => false
  | .connect strHost _ false :: .time _ :: _ => strHost = []
  | _ => true

theorem reachable_time (log : List Event) (now : ℤ) : reachable (log ++ [.time now]) = false := by
  simp only [reachable, List.reverse_append, List.reverse_singleton, List.singleton_append]

theorem reachable_connect (log : List Event) (now : ℤ) (strHost : CppString) (nPort : ℤ) :
    reachable (log ++ [.time now] ++ [.connect strHost nPort false]) = decide (strHost = []) := by
  simp only [reachable, List.reverse_append, List.reverse_singleton, List.singleton_append]

theorem reachable_connect_twice (log : List Event) (strHost strHost' : CppString) (nPort nPort' : ℤ) :
    reachable (log ++ [.connect strHost nPort false] ++ [.connect strHost' nPort' false]) = true := by
  simp only [reachable, List.reverse_append, List.reverse_singleton, List.singleton_append]

/-- A network in which every new server opens its connection and then loses it, with its host. -/
def losing (regions : List Region) : Network Unit where
  clock _ := 0
  connect log _ := reachable log
  append _ := true
  receive _ := none
  rounds _ := 0
  serve _ _ _ := (slotsReply regions, ())

/-- The log has no more replies than before. -/
def Unreplied (source target : World (Pool Unit)) : Prop :=
  ∀ command reply, .reply command reply ∈ target.log → .reply command reply ∈ source.log

/-- A new server is valid but without a host, and the next one can connect. -/
structure Lost (source : World (Pool Unit)) (serv : ℕ) (target : World (Pool Unit)) : Prop where
  unreplied : Unreplied source target
  ready : reachable target.log = true
  strHost : (target.servers.server serv).strHost = []
  valid : (target.servers.server serv).isValid = true

theorem new_losing (regions : List Region) (strHost : CppString) (nPort nTimeout : ℤ) (source : World (Pool Unit))
    (ready : reachable source.log = true) :
    ∃ serv target, CRedisServer.new (losing regions) strHost nPort nTimeout 1 source = .ok (serv, target) ∧
      Lost source serv target := by
  suffices ends : match CRedisServer.new (losing regions) strHost nPort nTimeout 1 source with
      | .ok (serv, target) => Unreplied source target ∧ reachable target.log = true ∧
          (target.servers.server serv).strHost = [] ∧ (target.servers.server serv).isValid = true
      | .error _ => False by
    cases ran : CRedisServer.new (losing regions) strHost nPort nTimeout 1 source with
    | error fault =>
      rw [ran] at ends
      exact ends.elim
    | ok result =>
      rw [ran] at ends
      exact ⟨result.1, result.2, rfl, ends.1, ends.2.1, ends.2.2.1, ends.2.2.2⟩
  by_cases hostless : strHost = []
  -- Without a host the one at construction is tried once more, else both are.
  all_goals
    simp only [CRedisServer.new, CRedisServer.initializeServer, CRedisServer.cleanConn, CRedisServer.openConnections,
      CRedisConnection.reconnect, CRedisConnection.connectToAny, CRedisConnection.connectToRedis, redisConnect, time,
      CRedisServer.returnConnection, modifyServer, bind_apply, get_apply, modify_apply, pure_apply,
      Function.update_self,
      Int.toNat_one, ↓reduceIte, losing, ready, World.note, Option.isSome_some, CRedisServer.isValid, List.nil_append,
      List.isEmpty_cons, Bool.not_false, CRedisServer.askTimeout, newCommand, CRedisServer.servRequest,
      CRedisServer.servRequestWith, CRedisServer.awaitConnection, CRedisServer.rqstRetryTimes,
      CRedisServer.fetchConnection, CRedisConnection.connRequest, CRedisConnection.refreshIdle, set_apply,
      Option.isNone_some, Bool.false_eq_true, false_or, Int.sub_self, ge_iff_le, le_refl, reachable_time,
      reachable_connect, reachable_connect_twice, hostless, decide_false, decide_true, and_true]
    simp only [Unreplied, List.mem_append, List.mem_singleton, reduceCtorEq, or_false, imp_self, implies_true]

/-- The region got the server of the first region with its port, if it has no host. -/
def Led (regions : List Region) (world : World (Pool Unit)) (region : Region) (slotReg : SlotRegion) : Prop :=
  ∃ serv, slotReg = { region.slotReg with pRedisServ := some serv } ∧
    (region.strHost = [] → ∀ first, leader regions region.nPort = some first →
      (world.servers.server serv).vecHosts = [(first.strHost, region.nPort)])

/-- Among servers that all lost their hosts, the one found for a region without a host leads its port. -/
theorem Built.leads_of_lost {done : List Region} {region : Region} {vecRedisServ : List ℕ}
    {world : World (Pool Unit)} (built : Built done vecRedisServ world)
    (lost : ∀ serv ∈ vecRedisServ, (world.servers.server serv).strHost = []) (hostless : region.strHost = []) :
    ((findServerAt world.servers vecRedisServ region.strHost region.nPort).map
        fun serv => (world.servers.server serv).vecHosts) =
      (leader done region.nPort).map fun first => [(first.strHost, first.nPort)] := by
  rw [← built.leads region.nPort, findServerAt]
  congr 1
  refine List.find?_congr fun serv member => ?_
  simp only [hostless, lost serv member, true_and]

/-- With servers that lose their hosts the loop gets to its end. -/
theorem assignServers_losing {regions : List Region} (nTimeout : ℤ) (back done : List Region)
    (whole : done ++ back = regions) (vecRedisServ : List ℕ) (source : World (Pool Unit))
    (built : Built done vecRedisServ source) (ready : reachable source.log = true)
    (lost : ∀ serv ∈ vecRedisServ, (source.servers.server serv).strHost = []) :
    ∃ vecSlot all target, assignServers (losing regions) nTimeout 1 vecRedisServ (back.map Region.slotReg) source =
        .ok (some (vecSlot, all), target) ∧
      Unreplied source target ∧ List.Forall₂ (Led regions target) back vecSlot := by
  induction back generalizing done vecRedisServ source with
  | nil => exact ⟨[], vecRedisServ, source, rfl, fun _ _ => id, .nil⟩
  | cons region back ih =>
    have rest : done ++ [region] ++ back = regions := by rw [← whole, List.append_assoc, List.singleton_append]
    rw [List.map_cons, assignServers, bind_of_ok (get_apply source)]
    dsimp only
    cases found : findServerAt source.servers vecRedisServ region.slotReg.strHost region.slotReg.nPort with
    | some serv =>
      have member := List.mem_of_find?_eq_some found
      have matched := List.find?_some found
      obtain ⟨host, port⟩ := of_decide_eq_true matched
      obtain ⟨vecSlot, all, target, ran, unreplied, led⟩ := ih _ rest _ _ (built.found member port) ready lost
      have footprint := assignServers_follows (C := ∅) (losing regions) _ _ _ _ _ _ _ ran
      refine ⟨_, all, target, by dsimp only; rw [bind_of_ok ran]; rfl, unreplied,
        .cons ⟨serv, rfl, fun hostless first leads => ?_⟩ led⟩
      rw [(footprint.drift serv (built.allocated serv member)).vecHosts]
      have hosts := built.leads_of_lost lost hostless
      have found' : findServerAt source.servers vecRedisServ region.strHost region.nPort = some serv := found
      rw [found', Option.map_some] at hosts
      obtain ⟨lead, ledDone, same⟩ := Option.map_eq_some_iff.mp hosts.symm
      rw [← whole, leader_append, ledDone, Option.some_or] at leads
      rw [← same, Option.some.inj leads, leader_port (ledDone.trans leads)]
    | none =>
      obtain ⟨serv, middle, ranNew, new⟩ := new_losing regions region.strHost region.nPort nTimeout source ready
      have fresh := new_follows (S := ∅) (C := ∅) (losing regions) _ _ _ _ _ _ _ ranNew
      obtain ⟨-, allocated, builtFor⟩ := new_builtFor (losing regions) _ _ _ _ ranNew
      obtain ⟨vecSlot, all, target, ran, unreplied, led⟩ := ih _ rest (vecRedisServ ++ [serv]) middle
        ((built.of_footprint fresh).snoc allocated builtFor) new.ready fun other member => by
          rcases List.mem_append.mp member with earlier | here
          · rw [fresh.server other (built.allocated other earlier) (Set.notMem_empty other)]
            exact lost other earlier
          · rw [List.mem_singleton.mp here]
            exact new.strHost
      have footprint := assignServers_follows (C := ∅) (losing regions) _ _ _ _ _ _ _ ran
      refine ⟨_, all, target, ?_, fun command reply member => new.unreplied _ _ (unreplied _ _ member),
        .cons ⟨serv, rfl, fun hostless first leads => ?_⟩ led⟩
      · have ranNew' : CRedisServer.new (losing regions) region.slotReg.strHost region.slotReg.nPort nTimeout 1 source =
          .ok (serv, middle) := ranNew
        dsimp only
        rw [bind_of_ok ranNew', bind_of_ok (get_apply middle), new.valid, if_neg (by decide), bind_of_ok ran]
        rfl
      · rw [(footprint.drift serv allocated).vecHosts, builtFor.1]
        have hosts := built.leads_of_lost lost hostless
        have found' : findServerAt source.servers vecRedisServ region.strHost region.nPort = none := found
        rw [found', Option.map_none, eq_comm, Option.map_eq_none_iff] at hosts
        have ledHere : leader (region :: back) region.nPort = some region := by
          simp only [leader, List.find?_cons, decide_true]
        rw [← whole, leader_append, hosts, Option.none_or, ledHere] at leads
        rw [Option.some.inj leads]

/-- A client whose server has a connection that works, before its first refresh. -/
def asking : World (Pool Unit) where
  client := { bCluster := true, vecRedisServ := [0], nTimeout := 1, nConnNum := 1 }
  servers := {
    server := fun _ => {
      strHost := text "10.0.0.1", nPort := 7000, nSerTimeout := 1, nConnNum := 1
      queIdleConn := [{ pContext := some { host := text "10.0.0.1", port := 7000 } }]
      vecHosts := [(text "10.0.0.1", 7000)] }
    servers := 1
    redis := () }

theorem asking_attributed : Attributed asking := by
  refine ⟨nofun, fun serv conn member context same => ?_⟩
  rw [List.mem_singleton.mp member] at same
  cases same
  exact .inr rfl

/-- The client after `LoadClusterSlots` has made its command. -/
def issued : World (Pool Unit) :=
  { asking with
    command := Function.update asking.command 0 { args := [text "cluster", text "slots"] }, commands := 1 }

/-- The refresh of that client succeeds, and the regions have the servers that lead their ports. -/
theorem loadClusterSlots_losing (regions : List Region) :
    ∃ vecSlot target, loadClusterSlots (losing regions) asking = .ok (true, target) ∧
      (∀ reply, .reply 0 reply ∈ target.log → reply = slotsReply regions) ∧
      target.client.vecSlot = vecSlot.insertionSort (fun lReg rReg => lReg.nStartSlot ≤ rReg.nStartSlot) ∧
      List.Forall₂ (Led regions target) regions vecSlot := by
  obtain ⟨asked, ranRequest, log, stored, client⟩ :
      ∃ asked, CRedisServer.servRequest (losing regions) 0 0 issued = .ok (.success, asked) ∧
        asked.log = [.time 0, .append 0 true, .reply 0 (slotsReply regions)] ∧
        (asked.command 0).pReply = some (slotsReply regions) ∧ asked.client = asking.client :=
    ⟨_, rfl, rfl, rfl, rfl⟩
  have ready : reachable asked.log = true := by
    rw [log]
    rfl
  obtain ⟨vecSlot, all, assigned, ranAssign, unreplied, led⟩ := @assignServers_losing regions
    asking.client.nTimeout regions [] (List.nil_append _) [] asked (Built.nil asked) ready nofun
  obtain ⟨deleted, ranDelete⟩ : ∃ deleted, deleteServers [0] assigned = .ok ((), deleted) := ⟨_, rfl⟩
  have sameLog : deleted.log = assigned.log := by
    cases ranDelete
    rfl
  have sameHosts : ∀ serv, (deleted.servers.server serv).vecHosts = (assigned.servers.server serv).vecHosts := by
    cases ranDelete
    intro serv
    by_cases first : serv = 0
    · subst serv
      simp only [Function.update_self]
    · simp only [Function.update_of_ne first]
  refine ⟨vecSlot, { deleted with client := deleted.client.install vecSlot all }, ?_, ?_, rfl, ?_⟩
  · rw [loadClusterSlots, bind_of_ok (show newCommand _ asking = .ok (0, issued) from rfl), bind_of_ok (get_apply _)]
    change loadSlotsFrom (losing regions) 0 [0] _ = _
    rw [loadSlotsFrom, bind_of_ok (get_apply _), if_neg (by decide), bind_of_ok ranRequest, if_pos rfl,
      bind_of_ok (get_apply asked), stored]
    dsimp only
    rw [fetchSlot_slotsReply]
    dsimp only
    rw [bind_of_ok (get_apply asked), client]
    have ranAssign' : assignServers (losing regions) asking.client.nTimeout asking.client.nConnNum []
        (regions.map Region.slotReg) asked = .ok (some (vecSlot, all), assigned) := ranAssign
    rw [bind_of_ok ranAssign']
    dsimp only
    have ranDelete' : deleteServers asking.client.vecRedisServ assigned = .ok ((), deleted) := ranDelete
    rw [bind_of_ok ranDelete']
    rfl
  · intro reply member
    have inAsked := unreplied 0 reply (by rw [← sameLog]; exact member)
    rw [log] at inAsked
    simpa using inAsked
  · refine led.imp fun region slotReg here => ?_
    obtain ⟨serv, same, hosts⟩ := here
    refine ⟨serv, same, fun hostless first leads => ?_⟩
    rw [← hosts hostless first leads]
    exact sameHosts serv

/-- A region without a host that is led by one with a host gets the wrong server. -/
theorem not_loadsSlots {regions : List Region} (disjoint : regions.Pairwise Region.Disjoint)
    (unknown : ¬ HostlessFirst regions) : ¬ LoadsSlots regions := by
  intro loads
  obtain ⟨vecSlot, target, ran, answers, table, led⟩ := loadClusterSlots_losing regions
  have serves : Serves regions target := loads Unit (losing regions) asking target true asking_attributed ran answers
  refine unknown fun region member hostless first leads => ?_
  have apart := apart_of_listed disjoint (led.imp fun _ _ ⟨serv, same, _⟩ => ⟨some serv, same⟩)
  obtain ⟨slotReg, inTable, serv, rfl, hosts⟩ := (mem_of_forall₂ led).1 region member
  have starts : region.Contains region.nStartSlot := ⟨le_refl _, region.ordered⟩
  have found := findServer_of_mem apart ((List.mem_insertionSort _).mpr inTable) starts.1 starts.2
  have ordered := region.ordered
  obtain ⟨serv', -, found', hosts'⟩ := (serves region.nStartSlot region.slots.1 (by have := region.slots; omega)).1
    region member starts
  rw [table, found] at found'
  cases found'
  rw [hosts hostless first leads, hostless] at hosts'
  exact (Prod.mk.inj (List.singleton_inj.mp hosts')).1

/-- A reply with disjoint regions is loaded as promised, whatever the network does, exactly when no region
without a host has its port from an earlier one with a host. -/
theorem loadsSlots_iff (regions : List Region) (disjoint : regions.Pairwise Region.Disjoint) :
    LoadsSlots regions ↔ HostlessFirst regions :=
  ⟨fun loads => by_contra fun unknown => not_loadsSlots disjoint unknown loads, loadsSlots_of_hostlessFirst disjoint⟩

/-- The lower half of the slots, at a master. -/
def lowerHalf (strHost : CppString) (nPort : ℤ) (port : 0 ≤ nPort ∧ nPort < 65536)
    (terminated : cStr strHost = strHost) :
    Region where
  nStartSlot := 0
  nEndSlot := 8191
  strHost := strHost
  nPort := nPort
  ordered := by decide
  slots := by decide
  port := port
  terminated := terminated

/-- The upper half of the slots, at a master. -/
def upperHalf (strHost : CppString) (nPort : ℤ) (port : 0 ≤ nPort ∧ nPort < 65536)
    (terminated : cStr strHost = strHost) :
    Region where
  nStartSlot := 8192
  nEndSlot := 16383
  strHost := strHost
  nPort := nPort
  ordered := by decide
  slots := by decide
  port := port
  terminated := terminated

theorem halves_disjoint {strHost strHost' : CppString} {nPort nPort' : ℤ} (port : 0 ≤ nPort ∧ nPort < 65536)
    (port' : 0 ≤ nPort' ∧ nPort' < 65536) (terminated : cStr strHost = strHost)
    (terminated' : cStr strHost' = strHost') :
    [upperHalf strHost nPort port terminated,
      lowerHalf strHost' nPort' port' terminated'].Pairwise Region.Disjoint := by
  rw [List.pairwise_pair]
  intro nSlot
  simp only [Region.Contains, upperHalf, lowerHalf]
  omega

/-- Two masters on one host, listed in descending order. -/
theorem loadsSlots_iff_halves :
    LoadsSlots [upperHalf (text "10.0.0.1") 7001 (by decide) (by decide),
      lowerHalf (text "10.0.0.1") 7000 (by decide) (by decide)] := by
  refine (loadsSlots_iff _ (halves_disjoint _ _ _ _)).mpr fun region member hostless => ?_
  simp only [List.mem_cons, List.not_mem_nil, or_false] at member
  rcases member with rfl | rfl
  · exact absurd hostless (by decide)
  · exact absurd hostless (by decide)

/-- A master with a host and one without, at the same port. -/
theorem hostless_master_misserved :
    ¬ LoadsSlots [upperHalf (text "10.0.0.1") 7000 (by decide) (by decide),
      lowerHalf [] 7000 (by decide) (by decide)] := by
  refine not_loadsSlots (halves_disjoint _ _ _ _) fun known => ?_
  have := known _ (List.mem_cons_of_mem _ (List.mem_singleton_self _)) rfl _ rfl
  exact absurd this (by decide)

end CppRedis.Soundness.Slots
