import CppRedis.Model.RedisClient.Replication
import CppRedis.Soundness.Numerals

/-! # Replicas that a server reports

What `ConvertToMapInfo` and `LoadSlaveInfo` make of a report that lists the replicas of a server. The one stream of
`LoadSlaveInfo` fails at the end of the first line, and that line is a single word, so no address is ever found.
-/

namespace CppRedis.Soundness.Failover

open Machine Model.RedisClient Model.RedisCpp Numerals

structure Replica where
  host : CppString
  port : ℕ
  /-- What stands behind the port, such as `state=online,offset=1,lag=0`. -/
  attributes : CppString

def Replica.render (replica : Replica) : CppString :=
  text "ip=" ++ replica.host ++ text ",port=" ++ convertToString replica.port ++ text "," ++ replica.attributes

/-- Redis separates the attributes by commas and leaves no blank between them. -/
structure Replica.Formed (replica : Replica) : Prop where
  host : 0x2C ∉ replica.host
  attributes : ∀ byte ∈ replica.attributes, isSpace byte = false

/-- The lines of a report. -/
inductive InfoLine where
  | blank
  | section_ (title : CppString)
  | entry (key value : CppString)

def InfoLine.render : InfoLine → CppString
  | blank => []
  | section_ title => 0x23 :: title
  | entry key value => key ++ 0x3A :: value

structure InfoLine.Formed (line : InfoLine) : Prop where
  ends : 0x0A ∉ line.render
  key : ∀ key value, line = .entry key value →
    0x3A ∉ key ∧ key.head? ≠ some 0x0D ∧ key.head? ≠ some 0x23

def render (lines : List InfoLine) : CppString := lines.flatMap fun line => line.render ++ [0x0D, 0x0A]

def slaveKey (i : ℕ) : CppString := text "slave" ++ convertToString i

/-- The report has the number of these replicas and a line for each, and nothing else under these keys. -/
structure Reports (lines : List InfoLine) (replicas : List Replica) : Prop where
  count : ∀ value, .entry (text "connected_slaves") value ∈ lines ↔ value = convertToString replicas.length
  slave : ∀ (i : ℕ) (replica : Replica), replicas[i]? = some replica →
    ∀ value, .entry (slaveKey i) value ∈ lines ↔ value = replica.render

/-- The value of the first line with a key, with the carriage return that ends the line. -/
def valueOf (key : CppString) : List InfoLine → Option CppString
  | [] => none
  | .entry other value :: lines => if other = key then some (value ++ [0x0D]) else valueOf key lines
  | _ :: lines => valueOf key lines

theorem insert_or (mapVal : InfoMap) (key value : CppString) (lines : List InfoLine) :
    (fun other => ((mapVal.insert key (value ++ [0x0D])) other).or (valueOf other lines)) =
      fun other => (mapVal other).or (valueOf other (.entry key value :: lines)) := by
  funext other
  rw [InfoMap.insert, valueOf]
  by_cases same : key = other
  · subst same
    rcases held : mapVal key with _ | value'
    · dsimp only
      rw [Function.update_self, if_pos rfl, Option.none_or, Option.some_or]
    · dsimp only
      rw [held, Option.some_or, Option.some_or]
  · rw [if_neg same]
    rcases mapVal key with _ | value'
    · dsimp only
      rw [Function.update_of_ne (Ne.symm same)]
    · rfl

theorem insertLines_render {lines : List InfoLine} (formed : ∀ line ∈ lines, line.Formed) (mapVal : InfoMap) :
    insertLines mapVal (lines.map fun line => line.render ++ [0x0D]) =
      (true, fun key => (mapVal key).or (valueOf key lines)) := by
  induction lines generalizing mapVal with
  | nil => simp only [List.map_nil, insertLines, valueOf, Option.or_none]
  | cons line lines ih =>
    have rest := fun mapVal => ih (fun other member => formed other (List.mem_cons_of_mem _ member)) mapVal
    rw [List.map_cons, insertLines]
    cases line with
    | blank =>
      rw [if_pos (.inr (.inl rfl)), rest]
      rfl
    | section_ title =>
      rw [if_pos (.inr (.inr rfl)), rest]
      rfl
    | entry key value =>
      obtain ⟨plain, notReturn, notSection⟩ := (formed _ List.mem_cons_self).key key value rfl
      have whole : InfoLine.render (.entry key value) ++ [0x0D] = key ++ 0x3A :: (value ++ [0x0D]) :=
        List.append_assoc _ _ _
      have kept : ¬ ((key ++ 0x3A :: (value ++ [0x0D])).head? = none ∨
          (key ++ 0x3A :: (value ++ [0x0D])).head? = some 0x0D ∨
          (key ++ 0x3A :: (value ++ [0x0D])).head? = some 0x23) := by
        rcases key with _ | ⟨first, key⟩
        · rw [List.nil_append, List.head?_cons]
          decide
        · rw [List.cons_append, List.head?_cons]
          rintro (none | wrong | wrong)
          · cases none
          · exact notReturn wrong
          · exact notSection wrong
      rw [whole, if_neg kept, Delimited.dropWhile_mark plain]
      dsimp only
      rw [Delimited.takeWhile_mark plain, rest, insert_or]

theorem convertToMapInfo_render {lines : List InfoLine} (formed : ∀ line ∈ lines, line.Formed) :
    convertToMapInfo (render lines) (fun _ => none) = (true, fun key => valueOf key lines) := by
  have ended : render lines = (lines.map fun line => line.render ++ [0x0D]).flatMap fun line => line ++ [0x0A] := by
    rw [render, List.flatMap_map]
    simp only [List.append_assoc, List.singleton_append]
  have absent : ∀ line ∈ lines.map fun line => line.render ++ [0x0D], 0x0A ∉ line := by
    intro line member
    obtain ⟨source, there, rfl⟩ := List.mem_map.mp member
    intro wrong
    rcases List.mem_append.mp wrong with inside | last
    · exact (formed source there).ends inside
    · cases List.mem_singleton.mp last
  rw [convertToMapInfo, ended, StringStream.lines_flatMap absent, insertLines_render formed]
  simp only [Option.none_or]

theorem valueOf_eq {lines : List InfoLine} {key value : CppString}
    (only : ∀ other, .entry key other ∈ lines ↔ other = value) : valueOf key lines = some (value ++ [0x0D]) := by
  have there := (only value).mpr rfl
  have same := fun other => (only other).mp
  clear only
  induction lines with
  | nil => cases there
  | cons line lines ih =>
    have later := fun member => ih member fun other inside => same other (List.mem_cons_of_mem _ inside)
    cases line with
    | entry key' value' =>
      rw [valueOf]
      split_ifs with equal
      · subst equal
        rw [same value' List.mem_cons_self]
      · rcases List.mem_cons.mp there with here | member
        · cases here
          exact absurd rfl equal
        · exact later member
    | _ =>
      rcases List.mem_cons.mp there with here | member
      · cases here
      · exact later member

theorem loadSlaves_of_failed (mapInfo : InfoMap) (rounds i : ℕ) {ss : StringStream UInt8} (failed : ss.fail = true)
    (server : CRedisServer) : loadSlaves mapInfo rounds i ss server = server := by
  induction rounds generalizing i ss with
  | zero => rfl
  | succ rounds ih =>
    rw [loadSlaves, StringStream.write_of_failed failed, StringStream.write_of_failed failed]
    rcases mapInfo ss.text with _ | value
    · exact ih (i + 1) failed
    · have reset : (ss.setText value).fail = true := failed
      dsimp only
      rw [StringStream.readAll, StringStream.readWords_of_failed reset]
      exact ih (i + 1) reset

/-- What the words of the first replica come to. -/
def firstFound (value : CppString) : CppString × ℤ :=
  ((StringStream.readAll isSpace { text := value }).1).foldl readItem ([], -1)

/-- The stream fails behind the last word of the first replica. -/
theorem loadSlaves_first {mapInfo : InfoMap} {value : CppString} (held : mapInfo (slaveKey 0) = some value)
    (rounds : ℕ) (server : CRedisServer) :
    loadSlaves mapInfo (rounds + 1) 0 {} server =
      if (firstFound value).1 ≠ [] ∧ (firstFound value).2 ≠ -1 then
        server.setSlave (firstFound value).1 (firstFound value).2
      else server := by
  have key : ((({} : StringStream UInt8).write (text "slave")).write (convertToString (0 : ℕ))).text = slaveKey 0 := rfl
  rw [loadSlaves, key, held, firstFound]
  dsimp only
  rcases read : StringStream.readAll isSpace { text := value } with ⟨items, ss⟩
  have same : StringStream.setText value ((({} : StringStream UInt8).write (text "slave")).write
      (convertToString (0 : ℕ))) = { text := value } := rfl
  rw [same, read]
  dsimp only
  have failed := (StringStream.readWords_spec (Nat.lt_succ_self _) read).1
  split_ifs
  · rw [loadSlaves_of_failed mapInfo rounds _ failed]
  · rw [loadSlaves_of_failed mapInfo rounds _ failed]

theorem foldl_readItem_plain {items : List CppString} (plain : ∀ item ∈ items, ∀ byte ∈ item, isSpace byte = false)
    {found : CppString × ℤ} (before : ∀ byte ∈ found.1, isSpace byte = false) :
    ∀ byte ∈ (items.foldl readItem found).1, isSpace byte = false := by
  induction items generalizing found with
  | nil => exact before
  | cons item items ih =>
    refine ih (fun other member => plain other (List.mem_cons_of_mem _ member)) ?_
    rw [readItem]
    split_ifs
    · exact fun byte member => plain item List.mem_cons_self byte (List.mem_of_mem_drop member)
    · exact before
    · exact before

theorem firstFound_plain (value : CppString) : ∀ byte ∈ (firstFound value).1, isSpace byte = false := by
  rcases read : StringStream.readAll isSpace { text := value } with ⟨items, ss⟩
  have plain := (StringStream.readWords_spec (Nat.lt_succ_self _) read).2
  rw [firstFound, read]
  exact foldl_readItem_plain plain nofun

theorem isSpace_of_digit {byte : UInt8} (digit : isDigit byte = true) : isSpace byte = false := by
  simp only [isDigit, Bool.and_eq_true, decide_eq_true_eq, UInt8.le_iff_toNat_le] at digit
  simp only [isSpace, Bool.or_eq_false_iff, Bool.and_eq_false_iff, decide_eq_false_iff_not, UInt8.le_iff_toNat_le,
    ← UInt8.toNat_inj]
  have low : (48 : UInt8).toNat = 48 := rfl
  have blank : (32 : UInt8).toNat = 32 := rfl
  have high : (13 : UInt8).toNat = 13 := rfl
  omega

/-- Without a blank the whole line is one word, and it is taken for the host. -/
theorem firstFound_render {replica : Replica} (formed : replica.Formed)
    (plain : ∀ byte ∈ replica.host, isSpace byte = false) : (firstFound (replica.render ++ [0x0D])).2 = -1 := by
  have digits : ∀ byte ∈ convertToString replica.port, isSpace byte = false := fun byte member =>
    isSpace_of_digit ((digits_convertToString replica.port).2.1 byte member)
  have word : ∀ byte ∈ replica.render, isSpace byte = false := by
    simp only [Replica.render, List.forall_mem_append]
    exact ⟨⟨⟨⟨⟨by decide +kernel, plain⟩, by decide +kernel⟩, digits⟩, by decide +kernel⟩, formed.attributes⟩
  have single := @StringStream.readWords_single _ isSpace { text := replica.render ++ [0x0D] } replica.render [0x0D]
    (List.cons_ne_nil _ _) word (by decide +kernel) rfl rfl replica.render.length
  have rounds : (replica.render ++ [0x0D]).length + 1 = replica.render.length + 2 := by
    rw [List.length_append]
    rfl
  rw [firstFound, StringStream.readAll, rounds, single]
  rfl

/-- The addresses that are found are those of the replicas just when there are no replicas. -/
theorem replicas_added_iff {lines : List InfoLine} {replicas : List Replica} (formed : ∀ line ∈ lines, line.Formed)
    (listed : ∀ replica ∈ replicas, replica.Formed) (reports : Reports lines replicas) (server : CRedisServer) :
    ∃ mapInfo, convertToMapInfo (render lines) (fun _ => none) = (true, mapInfo) ∧
      ((loadSlaveInfo mapInfo server).vecHosts =
          server.vecHosts ++ replicas.map (fun replica => (replica.host, (replica.port : ℤ))) ↔ replicas = []) := by
  refine ⟨_, convertToMapInfo_render formed, ?_⟩
  rw [loadSlaveInfo, valueOf_eq reports.count]
  dsimp only
  rcases replicas with _ | ⟨replica, replicas⟩
  · have none := @atoi_convertToString_append 0 (by omega) [0x0D] (by decide +kernel)
    rw [List.length_nil, none]
    exact iff_of_true (List.append_nil _).symm rfl
  · refine iff_of_false (fun same => ?_) (List.cons_ne_nil _ _)
    have held := valueOf_eq (reports.slave 0 replica rfl)
    -- A count that no `int` holds may come out as zero.
    generalize (atoi (convertToString (replica :: replicas).length ++ [0x0D])).toNat = count at same
    have longer : ∀ hosts, hosts = server.vecHosts ++ (replica :: replicas).map (fun replica =>
        (replica.host, (replica.port : ℤ))) → hosts ≠ server.vecHosts := by
      rintro _ rfl unchanged
      exact List.cons_ne_nil _ _ (List.append_right_eq_self.mp unchanged)
    rcases count with _ | count
    · exact longer _ same rfl
    · rw [loadSlaves_first held] at same
      split_ifs at same with found
      · obtain ⟨here, -⟩ := List.cons.inj (List.append_cancel_left same)
        have plain := firstFound_plain (replica.render ++ [0x0D])
        rw [(Prod.mk.inj here).1] at plain
        exact found.2 (firstFound_render (listed replica List.mem_cons_self) plain)
      · exact longer _ same rfl

-- The rest of the word is taken for a part of the host.
example : firstFound (text "ip=a,port=1") = (text "a,port=1", -1) := by decide +kernel

theorem replicas_added_iff_one :
    ∃ mapInfo, convertToMapInfo (render [.section_ (text "Replication"), .entry (text "connected_slaves") (text "1"),
        .entry (text "slave0") (text "ip=10.0.0.2,port=6380,state=online"), .blank]) (fun _ => none) = (true, mapInfo) ∧
      (loadSlaveInfo mapInfo {}).vecHosts ≠ [(text "10.0.0.2", 6380)] := by
  obtain ⟨mapInfo, ran, iff⟩ := @replicas_added_iff
    [.section_ (text "Replication"), .entry (text "connected_slaves") (text "1"),
      .entry (text "slave0") (text "ip=10.0.0.2,port=6380,state=online"), .blank]
    [⟨text "10.0.0.2", 6380, text "state=online"⟩] (by
      simp only [List.forall_mem_cons]
      refine ⟨⟨by decide, nofun⟩, ⟨by decide, ?_⟩, ⟨by decide, ?_⟩, ⟨by decide, nofun⟩, nofun⟩
      · rintro _ _ ⟨⟩
        decide
      · rintro _ _ ⟨⟩
        decide) (by
      simp only [List.forall_mem_cons]
      exact ⟨⟨by decide +kernel, by decide +kernel⟩, nofun⟩) (by
      have other : text "connected_slaves" ≠ text "slave0" := by decide
      constructor
      · intro value
        have one : convertToString ([(⟨text "10.0.0.2", 6380, text "state=online"⟩ : Replica)]).length = text "1" := rfl
        simp only [List.mem_cons, InfoLine.entry.injEq, List.not_mem_nil, reduceCtorEq, other, one, true_and, false_and,
          or_false, false_or]
      · rintro (_ | i) replica found value
        · cases found
          have key : slaveKey 0 = text "slave0" := rfl
          have line : text "ip=10.0.0.2,port=6380,state=online" =
            Replica.render ⟨text "10.0.0.2", 6380, text "state=online"⟩ := rfl
          simp only [List.mem_cons, InfoLine.entry.injEq, List.not_mem_nil, reduceCtorEq, key, other.symm, line,
            true_and, false_and, or_false, false_or]
        · cases found) {}
  exact ⟨mapInfo, ran, fun same => List.cons_ne_nil _ _ (iff.mp same)⟩

/-- A report of one replica. -/
def oneReplica : CppString :=
  text "# Replication\r\nrole:master\r\nconnected_slaves:1\r\n" ++
    text "slave0:ip=10.0.0.2,port=6380,state=online,offset=1,lag=0\r\n"

/-- The address of the replica is not found. -/
theorem replica_not_found :
    (loadSlaveInfo (convertToMapInfo oneReplica (fun _ => none)).2 { vecHosts := [(text "10.0.0.1", 6379)] }).vecHosts =
      [(text "10.0.0.1", 6379)] := by
  decide +kernel

end CppRedis.Soundness.Failover
