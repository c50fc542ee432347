import CppRedis.Model.RedisClient.Client

/-! # The groups of a flush

`m_mapCmd` has an entry for each server that some queued command goes to, in the order of the addresses.
An entry has the commands of its server in the order in which they were queued.
-/

namespace CppRedis.Soundness.Grouping

open Machine Model.RedisClient

variable {address : ℕ → ℕ}

theorem insertCmd_perm (pRedisServ : Option ℕ) (command : ℕ) (mapCmd : List (Option ℕ × List ℕ)) :
    ((insertCmd address pRedisServ command mapCmd).flatMap Prod.snd).Perm (command :: mapCmd.flatMap Prod.snd) := by
  induction mapCmd with
  | nil => exact .refl _
  | cons entry mapCmd ih =>
    obtain ⟨key, vecCmd⟩ := entry
    simp only [insertCmd]
    split_ifs
    · simp only [List.flatMap_cons, List.append_assoc, List.singleton_append]
      exact List.perm_middle
    · exact .refl _
    · simp only [List.flatMap_cons]
      exact (ih.append_left vecCmd).trans List.perm_middle

/-- The groups that commands make after others. -/
def groupFrom {σ : Type} (servers : Servers σ) (world : World σ) (mapCmd : List (Option ℕ × List ℕ))
    (vecCmd : List ℕ) : List (Option ℕ × List ℕ) :=
  vecCmd.foldl (fun mapCmd command =>
    insertCmd servers.address (matchedServer servers world command) command mapCmd) mapCmd

theorem groupFrom_perm {σ : Type} (servers : Servers σ) (world : World σ) (vecCmd : List ℕ)
    (mapCmd : List (Option ℕ × List ℕ)) :
    ((groupFrom servers world mapCmd vecCmd).flatMap Prod.snd).Perm (vecCmd ++ mapCmd.flatMap Prod.snd) := by
  induction vecCmd generalizing mapCmd with
  | nil => exact .refl _
  | cons command vecCmd ih =>
    refine (ih _).trans (((insertCmd_perm _ command mapCmd).append_left vecCmd).trans ?_)
    exact List.perm_middle

/-- Grouping loses no command and adds none. -/
theorem groupCmds_perm {σ : Type} (servers : Servers σ) (world : World σ) (vecCmd : List ℕ) :
    ((groupCmds servers world vecCmd).flatMap Prod.snd).Perm vecCmd := by
  have perm := groupFrom_perm servers world vecCmd []
  rwa [List.flatMap_nil, List.append_nil] at perm

theorem mem_groupCmds {σ : Type} (servers : Servers σ) (world : World σ) (vecCmd : List ℕ) (command : ℕ) :
    command ∈ (groupCmds servers world vecCmd).flatMap Prod.snd ↔ command ∈ vecCmd :=
  (groupCmds_perm servers world vecCmd).mem_iff

/-- The keys of a map in the order of the addresses, without repetition. -/
structure Ordered (address : ℕ → ℕ) (mapCmd : List (Option ℕ × List ℕ)) : Prop where
  sorted : mapCmd.Pairwise fun first second => before address second.1 first.1 = false
  nodup : (mapCmd.map Prod.fst).Nodup

theorem before_trans {first second third : Option ℕ} (left : before address first second = true)
    (right : before address second third = true) : before address first third = true := by
  rcases first with _ | first <;> rcases second with _ | second <;> rcases third with _ | third
  all_goals simp_all only [before, decide_eq_true_eq, Bool.false_eq_true]
  omega

theorem mem_insertCmd_keys (pRedisServ : Option ℕ) (command : ℕ) (mapCmd : List (Option ℕ × List ℕ)) (key : Option ℕ) :
    key ∈ (insertCmd address pRedisServ command mapCmd).map Prod.fst ↔ key = pRedisServ ∨
      key ∈ mapCmd.map Prod.fst := by
  induction mapCmd with
  | nil => simp only [insertCmd, List.map_cons, List.map_nil, List.mem_singleton, List.not_mem_nil, or_false]
  | cons entry mapCmd ih =>
    obtain ⟨first, vecCmd⟩ := entry
    simp only [insertCmd]
    split_ifs with same earlier
    · simp only [List.map_cons, List.mem_cons, same, or_self_left]
    · simp only [List.map_cons, List.mem_cons]
    · simp only [List.map_cons, List.mem_cons, ih]
      exact or_left_comm

theorem Ordered.insertCmd {mapCmd : List (Option ℕ × List ℕ)} (ordered : Ordered address mapCmd)
    (pRedisServ : Option ℕ) (command : ℕ) : Ordered address (insertCmd address pRedisServ command mapCmd) := by
  induction mapCmd with
  | nil => exact ⟨List.pairwise_singleton _ _, List.nodup_singleton _⟩
  | cons entry mapCmd ih =>
    obtain ⟨key, vecCmd⟩ := entry
    obtain ⟨⟨least, sorted⟩, ⟨new, nodup⟩⟩ :=
      (⟨List.pairwise_cons.mp ordered.sorted, List.nodup_cons.mp ordered.nodup⟩ :
      (_ ∧ _) ∧ _ ∧ _)
    have rest := ih ⟨sorted, nodup⟩
    simp only [Model.RedisClient.insertCmd]
    split_ifs with same earlier
    · exact ⟨List.pairwise_cons.mpr ⟨least, sorted⟩, List.nodup_cons.mpr ⟨new, nodup⟩⟩
    · have last : ∀ other ∈ (key, vecCmd) :: mapCmd, before address other.1 pRedisServ = false := by
        intro other member
        refine Bool.eq_false_iff.mpr fun before' => ?_
        have first := before_trans before' earlier
        rcases List.mem_cons.mp member with rfl | later
        · cases key <;> simp_all only [before, Bool.false_eq_true, lt_self_iff_false, decide_false]
        · rw [least other later] at first
          cases first
      refine ⟨List.pairwise_cons.mpr ⟨last, ordered.sorted⟩, List.nodup_cons.mpr ⟨fun member => ?_, ordered.nodup⟩⟩
      obtain ⟨other, inMap, isKey⟩ := List.mem_map.mp member
      rcases List.mem_cons.mp inMap with rfl | later
      · exact same isKey
      · have notBefore := least other later
        rw [isKey, earlier] at notBefore
        cases notBefore
    · have keys := @mem_insertCmd_keys address pRedisServ command mapCmd
      refine ⟨List.pairwise_cons.mpr ⟨fun other member => ?_, rest.sorted⟩,
        List.nodup_cons.mpr ⟨fun member => ?_, rest.nodup⟩⟩
      · rcases (keys other.1).mp (List.mem_map_of_mem member) with isNew | inMap
        · rw [isNew]
          exact Bool.eq_false_iff.mpr earlier
        · obtain ⟨old, inOld, isOld⟩ := List.mem_map.mp inMap
          rw [← isOld]
          exact least old inOld
      · exact ((keys key).mp member).elim same new

/-- The entries are the commands of each server, in order. -/
structure Grouped (address : ℕ → ℕ) (server : ℕ → Option ℕ) (vecCmd : List ℕ) (mapCmd : List (Option ℕ × List ℕ)) :
    Prop extends Ordered address mapCmd where
  entries : ∀ entry ∈ mapCmd, entry.2 = vecCmd.filter fun command => server command = entry.1
  keys : ∀ key, key ∈ mapCmd.map Prod.fst ↔ ∃ command ∈ vecCmd, server command = key

theorem Ordered.tail {entry : Option ℕ × List ℕ} {mapCmd : List (Option ℕ × List ℕ)}
    (ordered : Ordered address (entry :: mapCmd)) : Ordered address mapCmd :=
  ⟨(List.pairwise_cons.mp ordered.sorted).2, (List.nodup_cons.mp ordered.nodup).2⟩

/-- A key that would come before the first one is not there. -/
theorem Ordered.not_mem_keys {entry : Option ℕ × List ℕ} {mapCmd : List (Option ℕ × List ℕ)}
    (ordered : Ordered address (entry :: mapCmd)) {key : Option ℕ} (earlier : before address key entry.1 = true) :
    key ∉ mapCmd.map Prod.fst := by
  intro member
  obtain ⟨other, inMap, rfl⟩ := List.mem_map.mp member
  have notBefore := (List.pairwise_cons.mp ordered.sorted).1 other inMap
  rw [earlier] at notBefore
  cases notBefore

/-- What the insertion of a command leaves of an entry. -/
theorem mem_insertCmd {pRedisServ : Option ℕ} {command : ℕ} {mapCmd : List (Option ℕ × List ℕ)}
    (ordered : Ordered address mapCmd) {entry : Option ℕ × List ℕ}
    (member : entry ∈ insertCmd address pRedisServ command mapCmd) :
    entry.1 ≠ pRedisServ ∧ entry ∈ mapCmd ∨
      entry.1 = pRedisServ ∧ ((∃ vecCmd, (pRedisServ, vecCmd) ∈ mapCmd ∧ entry.2 = vecCmd ++ [command]) ∨
        pRedisServ ∉ mapCmd.map Prod.fst ∧ entry.2 = [command]) := by
  induction mapCmd with
  | nil =>
    rw [insertCmd, List.mem_singleton] at member
    subst entry
    exact .inr ⟨rfl, .inr ⟨List.not_mem_nil, rfl⟩⟩
  | cons first mapCmd ih =>
    obtain ⟨key, vecCmd⟩ := first
    have new := (List.nodup_cons.mp ordered.nodup).1
    simp only [insertCmd] at member
    split_ifs at member with same earlier
    · subst key
      rcases List.mem_cons.mp member with rfl | later
      · exact .inr ⟨rfl, .inl ⟨vecCmd, List.mem_cons_self, rfl⟩⟩
      · exact .inl ⟨fun isKey => new (List.mem_map.mpr ⟨entry, later, isKey⟩), List.mem_cons_of_mem _ later⟩
    · have absent : pRedisServ ∉ ((key, vecCmd) :: mapCmd).map Prod.fst := by
        rw [List.map_cons, List.mem_cons, not_or]
        exact ⟨Ne.symm same, ordered.not_mem_keys earlier⟩
      rcases List.mem_cons.mp member with rfl | later
      · exact .inr ⟨rfl, .inr ⟨absent, rfl⟩⟩
      · exact .inl ⟨fun isKey => absent (List.mem_map.mpr ⟨entry, later, isKey⟩), later⟩
    · rcases List.mem_cons.mp member with rfl | later
      · exact .inl ⟨same, List.mem_cons_self⟩
      · rcases ih ordered.tail later with ⟨other, inMap⟩ | ⟨isKey, ⟨cmds, inMap, added⟩ | ⟨absent, single⟩⟩
        · exact .inl ⟨other, List.mem_cons_of_mem _ inMap⟩
        · exact .inr ⟨isKey, .inl ⟨cmds, List.mem_cons_of_mem _ inMap, added⟩⟩
        · refine .inr ⟨isKey, .inr ⟨?_, single⟩⟩
          rw [List.map_cons, List.mem_cons, not_or]
          exact ⟨Ne.symm same, absent⟩

theorem Grouped.insertCmd {server : ℕ → Option ℕ} {vecCmd : List ℕ} {mapCmd : List (Option ℕ × List ℕ)}
    (grouped : Grouped address server vecCmd mapCmd) (command : ℕ) :
    Grouped address server (vecCmd ++ [command]) (insertCmd address (server command) command mapCmd) := by
  refine {
    grouped.toOrdered.insertCmd (server command) command with
    entries := fun entry member => ?_
    keys := fun key => ?_ }
  · rw [List.filter_append]
    rcases mem_insertCmd grouped.toOrdered member with ⟨other, inMap⟩ | ⟨isKey, ⟨cmds, inMap, added⟩ | ⟨absent, single⟩⟩
    · rw [grouped.entries entry inMap, List.filter_singleton, decide_eq_false (Ne.symm other)]
      exact (List.append_nil _).symm
    · have before := grouped.entries _ inMap
      rw [added, isKey, List.filter_singleton, decide_eq_true rfl]
      exact congrArg (· ++ [command]) before
    · have none : vecCmd.filter (fun other => server other = entry.1) = [] := by
        rw [List.filter_eq_nil_iff]
        intro other inCmd same
        rw [grouped.keys] at absent
        exact absent ⟨other, inCmd, (of_decide_eq_true same).trans isKey⟩
      rw [none, single, isKey, List.filter_singleton, decide_eq_true rfl]
      rfl
  · rw [mem_insertCmd_keys, grouped.keys]
    simp only [List.mem_append, List.mem_singleton, or_and_right, exists_or, exists_eq_left]
    rw [or_comm, eq_comm]

/-- A flush groups the queued commands by their servers. -/
theorem groupCmds_grouped {σ : Type} (servers : Servers σ) (world : World σ) (vecCmd : List ℕ) :
    Grouped servers.address (matchedServer servers world) vecCmd (groupCmds servers world vecCmd) := by
  have general : ∀ rest done mapCmd, Grouped servers.address (matchedServer servers world) done mapCmd →
      Grouped servers.address (matchedServer servers world) (done ++ rest) (groupFrom servers world mapCmd rest) := by
    intro rest
    induction rest with
    | nil =>
      intro done mapCmd grouped
      rwa [List.append_nil]
    | cons command rest ih =>
      intro done mapCmd grouped
      have next := ih _ _ (grouped.insertCmd command)
      rwa [List.append_assoc, List.singleton_append] at next
  refine general vecCmd [] [] ⟨⟨List.Pairwise.nil, List.nodup_nil⟩, nofun, fun key => ?_⟩
  simp only [List.map_nil, List.not_mem_nil, false_and, exists_false]

/-- Entries that are the commands of their servers have, of one server, the commands in order. -/
theorem filter_flatMap {server : ℕ → Option ℕ} {vecCmd : List ℕ} {chosen : ℕ → Bool} {pRedisServ : Option ℕ}
    (one : ∀ command ∈ vecCmd, chosen command = true → server command = pRedisServ)
    (mapCmd : List (Option ℕ × List ℕ)) (nodup : (mapCmd.map Prod.fst).Nodup)
    (entries : ∀ entry ∈ mapCmd, entry.2 = vecCmd.filter fun command => server command = entry.1) :
    (mapCmd.flatMap Prod.snd).filter chosen =
      if pRedisServ ∈ mapCmd.map Prod.fst then vecCmd.filter chosen else [] := by
  induction mapCmd with
  | nil => rfl
  | cons entry mapCmd ih =>
    obtain ⟨new, nodup⟩ := List.nodup_cons.mp nodup
    rw [List.flatMap_cons, List.filter_append,
      ih nodup fun other member => entries other (List.mem_cons_of_mem _ member),
      entries entry List.mem_cons_self, List.filter_filter]
    by_cases same : entry.1 = pRedisServ
    · have absent : pRedisServ ∉ mapCmd.map Prod.fst := by rwa [← same]
      have present : pRedisServ ∈ (entry :: mapCmd).map Prod.fst := by
        rw [List.map_cons, same]
        exact List.mem_cons_self
      rw [if_neg absent, if_pos present, List.append_nil]
      apply List.filter_congr
      intro command member
      cases isChosen : chosen command with
      | false => rfl
      | true => simp only [one command member isChosen, same, decide_true, Bool.and_self]
    · have none : vecCmd.filter (fun command => chosen command && decide (server command = entry.1)) = [] := by
        rw [List.filter_eq_nil_iff]
        intro command member both
        rw [Bool.and_eq_true, decide_eq_true_eq] at both
        exact same (both.2.symm.trans (one command member both.1))
      rw [none, List.nil_append, List.map_cons]
      simp only [List.mem_cons, Ne.symm same, false_or]

/-- Grouping keeps the order of commands of one server. -/
theorem groupCmds_filter {σ : Type} (servers : Servers σ) (world : World σ) (vecCmd : List ℕ) {chosen : ℕ → Bool}
    (one : ∀ command ∈ vecCmd, ∀ other ∈ vecCmd, chosen command = true → chosen other = true →
      matchedServer servers world command = matchedServer servers world other) :
    ((groupCmds servers world vecCmd).flatMap Prod.snd).filter chosen = vecCmd.filter chosen := by
  have grouped := groupCmds_grouped servers world vecCmd
  cases none : vecCmd.filter chosen with
  | nil =>
    rw [List.filter_eq_nil_iff] at none ⊢
    exact fun command member => none command ((mem_groupCmds servers world vecCmd command).mp member)
  | cons first rest =>
    have inBoth : first ∈ vecCmd.filter chosen := by
      rw [none]
      exact List.mem_cons_self
    obtain ⟨inCmd, isChosen⟩ := List.mem_filter.mp inBoth
    have filtered := filter_flatMap (fun command member other => one command member first inCmd other isChosen)
      (groupCmds servers world vecCmd) grouped.nodup grouped.entries
    rw [filtered, if_pos ((grouped.keys _).mpr ⟨first, inCmd, rfl⟩), none]

/-- A command without a server comes first. -/
theorem groupCmds_head {σ : Type} (servers : Servers σ) (world : World σ) {vecCmd : List ℕ} {command : ℕ}
    (member : command ∈ vecCmd) (unowned : matchedServer servers world command = none) :
    ∃ cmds rest, groupCmds servers world vecCmd = (none, cmds) :: rest := by
  have grouped := groupCmds_grouped servers world vecCmd
  have key := (grouped.keys none).mpr ⟨command, member, unowned⟩
  cases groups : groupCmds servers world vecCmd with
  | nil =>
    rw [groups] at key
    cases key
  | cons entry rest =>
    obtain ⟨first, cmds⟩ := entry
    rw [groups] at key grouped
    cases first with
    | none => exact ⟨cmds, rest, rfl⟩
    | some serv =>
      have absent := @Ordered.not_mem_keys _ _ _ grouped.toOrdered none rfl
      rw [List.map_cons, List.mem_cons] at key
      exact absurd key (not_or.mpr ⟨nofun, absent⟩)

end CppRedis.Soundness.Grouping
