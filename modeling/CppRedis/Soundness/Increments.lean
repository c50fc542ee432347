import CppRedis.Model.Redis.Scripting
import CppRedis.Soundness.Answers
import CppRedis.Soundness.Markers
import CppRedis.Soundness.Numerals
import CppRedis.Soundness.Prompt

/-! # Several increments under a marker

The script of `hmincrby` sets its marker first and then makes one increment after the other. When one of them fails,
those before it stay and so does the marker: the call throws, and a repeated call is stopped. All or none of the
increments are made exactly when they can all be made, or when the marker cannot be set.
-/

namespace CppRedis.Soundness.Increments

open Machine Model Model.R3c Model.RedisCpp Machine.Effect Answers Rounds
open Model.RedisClient (convertToString)

/-- The words of a command that may run the script. -/
inductive Carries (luaScripts key : CppString) (parameters : List CppString) : List CppString → Prop where
  | eval : Carries luaScripts key parameters (evalArgs luaScripts key parameters)
  | evalsha (sha1 : CppString) : Carries luaScripts key parameters (evalshaArgs sha1 key parameters)

section

variable {env : Env} {strsha1 : CppString → CppString} {rounds : ℕ} {key : CppString} {numRetries : ℤ}
  {source target : Session}

/-- One command is sent, and the answer that ends it comes last. -/
theorem send_final {script : Script} {parameters : List CppString} {outcome : Outcome}
    (keeps : ∀ shastr1 session, (script.setShastr1 shastr1 session).sent = session.sent)
    (ran : script.send env strsha1 rounds key numRetries parameters source = (.ok (some outcome), target)) :
    ∃ args answers, Carries script.luaScripts key parameters args ∧
      target.sent = source.sent ++ answers.map (fun answer => (args, answer)) ∧ Final answers outcome := by
  rw [Script.send, bind_of_ok (get_apply source)] at ran
  split at ran
  · obtain ⟨answers, sent, final, _⟩ := sendCommand_final ran
    exact ⟨_, answers, .evalsha _, sent, final⟩
  · obtain ⟨found, middle, evaluated, rest⟩ := bind_eq_ok_iff.mp ran
    rcases found with _ | reply | errinfo
    · cases rest
    · dsimp only at rest
      rw [bind_of_ok (modify_apply _ _)] at rest
      cases rest
      obtain ⟨answers, sent, final, _⟩ := sendCommand_final evaluated
      exact ⟨_, answers, .eval, (keeps _ _).trans sent, final⟩
    · cases rest
      obtain ⟨answers, sent, final, _⟩ := sendCommand_final evaluated
      exact ⟨_, answers, .eval, sent, final⟩

/-- What the call makes of a reply. -/
inductive Concludes (newvalues : Option (List ℤ)) : RedisReply → MultiIncremented → Prop where
  | nil : Concludes newvalues .nil (.returned false newvalues)
  | array (element : List RedisReply) :
      Concludes newvalues (.array element) (.returned true (getIntegers newvalues element))
  | otherwise (value : RedisReply) : value ≠ .nil → (∀ str, value ≠ .error str) →
      Concludes newvalues value (.returned true newvalues)
  | thrown (str : CppString) (errinfo : ErrorInfo) : Concludes newvalues (.error str) (.thrown errinfo)

/-- What the call makes of the end of a command. -/
inductive Gives (newvalues : Option (List ℤ)) : Outcome → MultiIncremented → Prop where
  | returned (value : RedisReply) (result : MultiIncremented) :
      ((∀ str, value ≠ .error str) → Concludes newvalues value result) →
      Gives newvalues (.returned (some value)) result
  | thrown (errinfo : ErrorInfo) : Gives newvalues (.thrown errinfo) (.thrown errinfo)

theorem hmincrbyReturn_gives {newvalues : Option (List ℤ)} {reply : Option RedisReply} {result : MultiIncremented}
    {source target : Session}
    (ran : (do return some (← hmincrbyReturn newvalues reply) : SessionAction (Option MultiIncremented)) source =
      (.ok (some result), target)) : Gives newvalues (.returned reply) result ∧ target = source := by
  rcases reply with _ | value
  · cases ran
  · cases value with
    | nil =>
      cases ran
      exact ⟨.returned _ _ fun _ => .nil, rfl⟩
    | array element =>
      cases ran
      exact ⟨.returned _ _ fun _ => .array element, rfl⟩
    | _ =>
      cases ran
      exact ⟨.returned _ _ fun clean => .otherwise _ nofun clean, rfl⟩

theorem Gives.concludes {newvalues : Option (List ℤ)} {outcome : Outcome} {result : MultiIncremented}
    {value : RedisReply} (gives : Gives newvalues outcome result) (ends : Ends value outcome) :
    Concludes newvalues value result := by
  cases ends with
  | returned _ clean =>
    cases gives with
    | returned _ _ concludes => exact concludes clean
  | thrown str code errinfo _ _ =>
    cases gives
    exact .thrown str errinfo

/-- A call sends one command, or a second one after the script was missing. -/
inductive Course (luaScripts key : CppString) (parameters : List CppString) (newvalues : Option (List ℤ)) :
    List (List CppString × Answer) → MultiIncremented → Prop where
  | once (args : List CppString) (answers : List Answer) (outcome : Outcome) (result : MultiIncremented) :
      Carries luaScripts key parameters args → Final answers outcome → Gives newvalues outcome result →
      Course luaScripts key parameters newvalues (answers.map fun answer => (args, answer)) result
  | again (args others : List CppString) (answers more : List Answer) (errinfo : ErrorInfo) (outcome : Outcome)
      (result : MultiIncremented) :
      Carries luaScripts key parameters args → Final answers (.thrown errinfo) → errinfo.errtype = text "NOSCRIPT" →
      Carries luaScripts key parameters others → Final more outcome → Gives newvalues outcome result →
      Course luaScripts key parameters newvalues
        ((answers.map fun answer => (args, answer)) ++ more.map fun answer => (others, answer)) result

theorem hmincrby_course {increments : List (CppString × Int64)} {uid : CppString} {expiredSeconds : UInt32}
    {newvalues : Option (List ℤ)} {result : MultiIncremented}
    (ran : hmincrby env strsha1 rounds key numRetries increments uid expiredSeconds newvalues source =
      (.ok (some result), target)) :
    ∃ sent, target.sent = source.sent ++ sent ∧
      Course hmincrbyScript key (hmincrbyParameters increments uid expiredSeconds) newvalues sent result := by
  have keeps : ∀ shastr1 session, (hmincrbyMember.setShastr1 shastr1 session).sent = session.sent := fun _ _ => rfl
  have named : hmincrbyMember.luaScripts = hmincrbyScript := by rw [hmincrbyMember]
  rw [← named]
  obtain ⟨outcome, middle, sending, rest⟩ := bind_eq_ok_iff.mp ran
  rcases outcome with _ | reply | errinfo
  · cases rest
  · obtain ⟨args, answers, carries, sent, final⟩ := send_final keeps sending
    obtain ⟨gives, rfl⟩ := hmincrbyReturn_gives rest
    exact ⟨_, sent, .once args answers _ result carries final gives⟩
  · obtain ⟨args, answers, carries, sent, final⟩ := send_final keeps sending
    dsimp only at rest
    split at rest
    · cases rest
      exact ⟨_, sent, .once args answers _ _ carries final (.thrown errinfo)⟩
    · next missing =>
      rw [ne_eq, not_not] at missing
      rw [bind_of_ok (modify_apply _ _)] at rest
      obtain ⟨outcome, last, resending, rest⟩ := bind_eq_ok_iff.mp rest
      rcases outcome with _ | reply | errinfo
      · cases rest
      · obtain ⟨others, more, carriesToo, sentMore, finalMore⟩ := send_final keeps resending
        obtain ⟨gives, rfl⟩ := hmincrbyReturn_gives rest
        refine ⟨_, ?_, .again args others answers more _ _ result carries final missing carriesToo finalMore gives⟩
        rw [sentMore, sent, List.append_assoc]
      · obtain ⟨others, more, carriesToo, sentMore, finalMore⟩ := send_final keeps resending
        cases rest
        refine ⟨_, ?_, .again args others answers more _ _ _ carries final missing carriesToo finalMore (.thrown _)⟩
        rw [sentMore, sent, List.append_assoc]

end

/-- The call returns true at the results of the script only. -/
theorem Concludes.isTrue_iff {newvalues : Option (List ℤ)} {value : RedisReply} {result : MultiIncremented}
    (concludes : Concludes newvalues value result) :
    (∃ values, result = .returned true values) ↔ value ≠ .nil ∧ ∀ str, value ≠ .error str := by
  cases concludes with
  | nil => exact iff_of_false (by rintro ⟨_, ⟨⟩⟩) fun filled => filled.1 rfl
  | array element => exact iff_of_true ⟨_, rfl⟩ ⟨nofun, nofun⟩
  | otherwise value filled clean => exact iff_of_true ⟨_, rfl⟩ ⟨filled, clean⟩
  | thrown str errinfo => exact iff_of_false (by rintro ⟨_, ⟨⟩⟩) fun filled => filled.2 str rfl

/-- A reply that ends the call, since no script was missing. -/
def Decisive (value : RedisReply) : Prop :=
  Stops value ∧ ∀ str, value = .error str → ¬ Coded (text "NOSCRIPT") str

section

variable {luaScripts key : CppString} {parameters args : List CppString} {newvalues : Option (List ℤ)}
  {sent first last : List (List CppString × Answer)} {result : MultiIncremented} {value : RedisReply}

theorem Course.carries (course : Course luaScripts key parameters newvalues sent result) :
    ∀ command ∈ sent, Carries luaScripts key parameters command.1 := by
  have all : ∀ {args : List CppString} {answers : List Answer}, Carries luaScripts key parameters args →
      ∀ command ∈ answers.map fun answer => (args, answer), Carries luaScripts key parameters command.1 := by
    rintro args answers carries command member
    obtain ⟨answer, _, rfl⟩ := List.mem_map.mp member
    exact carries
  cases course with
  | once args answers outcome _ carries => exact all carries
  | again args others answers more errinfo outcome _ carries _ _ also =>
    exact List.forall_mem_append.mpr ⟨all carries, all also⟩

/-- A split of the answers to one command, from a split of what is sent. -/
theorem answers_split {answers : List Answer} {words : List CppString} {answer : Answer}
    (split : answers.map (fun answer => (args, answer)) = first ++ (words, answer) :: last) :
    answers = first.map Prod.snd ++ answer :: last.map Prod.snd := by
  have seconds := congrArg (List.map Prod.snd) split
  rwa [List.map_map, List.map_append, List.map_cons,
    show (Prod.snd ∘ fun answer : Answer => (args, answer)) = id from rfl, List.map_id] at seconds

/-- The call is decided by the reply that ends it. -/
theorem Course.concludes (course : Course luaScripts key parameters newvalues sent result) (decisive : Decisive value)
    (split : sent = first ++ (args, .reply value) :: last) : Concludes newvalues value result := by
  cases course with
  | once words answers outcome _ _ final gives =>
    exact gives.concludes (final _ value _ (answers_split split) decisive.1).2
  | again words others answers more errinfo outcome _ _ final missing _ finalMore gives =>
    have unsplit : ∀ {after}, answers.map (fun answer => (words, answer)) ≠ first ++ (args, .reply value) :: after := by
      intro after within
      cases (final _ value _ (answers_split within) decisive.1).2 with
      | thrown str code _ coded own => exact decisive.2 str rfl (missing ▸ own ▸ coded)
    rcases List.append_eq_append_iff.mp split with ⟨beyond, rfl, tail⟩ | ⟨beyond, within, tail⟩
    · exact gives.concludes (finalMore _ value _ (answers_split tail) decisive.1).2
    · cases beyond with
      | nil =>
        have whole : more.map (fun answer => (others, answer)) = [] ++ (args, .reply value) :: last := tail.symm
        exact gives.concludes (finalMore _ value _ (answers_split whole) decisive.1).2
      | cons entry beyond =>
        obtain ⟨rfl, _⟩ := List.cons.inj tail
        exact absurd within unsplit

end

/-- The increments in their order, by `HINCRBY`, if all of them can be made. -/
def increased : List (CppString × Int64) → Option Redis.Holding → Option (Option Redis.Holding)
  | [], holding => some holding
  | (field, increment) :: rest, holding =>
      match Redis.hincrby field (convertToString increment.toInt) holding with
      | .error _ => none
      | .ok (_, after) => increased rest (some after)

/-- The sum of the increments of a field. -/
def total (field : CppString) : List (CppString × Int64) → ℤ
  | [] => 0
  | (other, increment) :: rest => (if other = field then increment.toInt else 0) + total field rest

/-- Every field holds a number or nothing, and no sum leaves the range. -/
def Fits (fields : Keyspace CppString CppString) (increments : List (CppString × Int64)) : Prop :=
  ∀ before field increment after, increments = before ++ (field, increment) :: after →
    ∃ value, Redis.fieldValue (fields field) = some value ∧
      Redis.inRange (value + total field (before ++ [(field, increment)])) = true

/-- The increments can be made in what a key holds. -/
def Applicable (increments : List (CppString × Int64)) (holding : Option Redis.Holding) : Prop :=
  increments = [] ∨ ∃ fields, Redis.fieldsOf holding = some fields ∧ Fits fields increments

theorem inRange_iff (value : ℤ) :
    Redis.inRange value = true ↔ -9223372036854775808 ≤ value ∧ value < 9223372036854775808 := by
  rw [Redis.inRange, Bool.and_eq_true, decide_eq_true_iff, decide_eq_true_iff]

theorem string2ll_increment (increment : Int64) : string2ll (convertToString increment.toInt) = some increment.toInt :=
  Numerals.string2ll_convertToString increment.le_toInt increment.toInt_lt

section

variable {fields : Keyspace CppString CppString} {field : CppString} {increment : Int64} {value : ℤ}
  {holding : Option Redis.Holding} {increments rest : List (CppString × Int64)}

/-- What an increment leaves in any field. -/
theorem fieldValue_put (held : Redis.fieldValue (fields field) = some value)
    (fits : Redis.inRange (value + increment.toInt) = true) (other : CppString) :
    Redis.fieldValue (fields.put field (convertToString (value + increment.toInt)) other) =
      (Redis.fieldValue (fields other)).map (· + if field = other then increment.toInt else 0) := by
  by_cases same : field = other
  · subst same
    obtain ⟨low, high⟩ := (inRange_iff _).mp fits
    rw [Keyspace.put_self, held, if_pos rfl]
    exact Numerals.string2ll_convertToString low high
  · rw [Keyspace.put_of_ne _ (Ne.symm same), if_neg same]
    cases Redis.fieldValue (fields other) with
    | none => rfl
    | some value => exact congrArg some (Int.add_zero value).symm

theorem fits_cons : Fits fields ((field, increment) :: rest) ↔
    ∃ value, Redis.fieldValue (fields field) = some value ∧ Redis.inRange (value + increment.toInt) = true ∧
      Fits (fields.put field (convertToString (value + increment.toInt))) rest := by
  have moved : ∀ {value : ℤ}, Redis.fieldValue (fields field) = some value →
      Redis.inRange (value + increment.toInt) = true → ∀ (other : CppString) (list : List (CppString × Int64)),
        (∃ sum, Redis.fieldValue (fields.put field (convertToString (value + increment.toInt)) other) = some sum ∧
            Redis.inRange (sum + total other list) = true) ↔
          ∃ sum, Redis.fieldValue (fields other) = some sum ∧
            Redis.inRange (sum + total other ((field, increment) :: list)) = true := by
    intro value held fits other list
    rw [fieldValue_put held fits other]
    simp only [Option.map_eq_some_iff, total, exists_exists_and_eq_and, Int.add_assoc]
  constructor
  · intro fits
    obtain ⟨value, held, first⟩ := fits [] field increment rest rfl
    rw [List.nil_append, total, if_pos rfl, total, Int.add_zero] at first
    refine ⟨value, held, first, fun before other more after split => ?_⟩
    exact (moved held first other _).mpr (fits (_ :: before) other more after (congrArg _ split))
  · rintro ⟨value, held, first, fits⟩ before other more after split
    cases before with
    | nil =>
      cases split
      refine ⟨value, held, ?_⟩
      rwa [List.nil_append, total, if_pos rfl, total, Int.add_zero]
    | cons _ before =>
      obtain ⟨rfl, tail⟩ := List.cons.inj split
      exact (moved held first other _).mp (fits before other more after tail)

/-- The errors of the commands have one of two codes. -/
def ErrorCoded (str : CppString) : Prop := Coded (text "ERR") str ∨ Coded (text "WRONGTYPE") str

/-- An increment can be made, and leaves these fields. -/
def Increases (field : CppString) (increment : Int64) (holding : Option Redis.Holding)
    (after : Keyspace CppString CppString) : Prop :=
  ∃ fields value, Redis.fieldsOf holding = some fields ∧ Redis.fieldValue (fields field) = some value ∧
    Redis.inRange (value + increment.toInt) = true ∧
      after = fields.put field (convertToString (value + increment.toInt))

/-- `HINCRBY` makes the increment if it can be made. -/
theorem hincrby_spec (field : CppString) (increment : Int64) (holding : Option Redis.Holding) :
    (∃ result after, Increases field increment holding after ∧
      Redis.hincrby field (convertToString increment.toInt) holding = .ok (result, .hash after)) ∨
    ∃ str, ErrorCoded str ∧ (¬ ∃ after, Increases field increment holding after) ∧
      Redis.hincrby field (convertToString increment.toInt) holding = .error str := by
  rw [Redis.hincrby, string2ll_increment]
  dsimp only
  rcases known : Redis.fieldsOf holding with _ | fields
  · refine .inr ⟨_, .inr ⟨by decide, by decide, _, rfl⟩, ?_, rfl⟩
    rintro ⟨after, fields, value, same, _⟩
    cases known.symm.trans same
  · dsimp only
    rcases held : Redis.fieldValue (fields field) with _ | value
    · refine .inr ⟨_, .inl ⟨by decide, by decide, _, rfl⟩, ?_, rfl⟩
      rintro ⟨after, others, value, same, holds, _⟩
      cases known.symm.trans same
      cases held.symm.trans holds
    · dsimp only
      split
      next fits => exact .inl ⟨_, _, ⟨fields, value, known, held, fits, rfl⟩, rfl⟩
      next outside =>
        refine .inr ⟨_, .inl ⟨by decide, by decide, _, rfl⟩, ?_, rfl⟩
        rintro ⟨after, others, sum, same, holds, fits, _⟩
        cases known.symm.trans same
        cases held.symm.trans holds
        exact outside fits

theorem applicable_cons : Applicable ((field, increment) :: rest) holding ↔
    ∃ after, Increases field increment holding after ∧ Fits after rest := by
  rw [Applicable, or_iff_right (List.cons_ne_nil _ _)]
  constructor
  · rintro ⟨fields, known, fits⟩
    obtain ⟨value, held, first, later⟩ := fits_cons.mp fits
    exact ⟨_, ⟨fields, value, known, held, first, rfl⟩, later⟩
  · rintro ⟨after, ⟨fields, value, known, held, first, rfl⟩, later⟩
    exact ⟨fields, known, fits_cons.mpr ⟨value, held, first, later⟩⟩

theorem increases_unique {after other : Keyspace CppString CppString}
    (increases : Increases field increment holding after)
    (also : Increases field increment holding other) : after = other := by
  obtain ⟨fields, value, known, held, _, rfl⟩ := increases
  obtain ⟨others, sum, same, holds, _, rfl⟩ := also
  cases known.symm.trans same
  cases held.symm.trans holds
  rfl

end

theorem applicable_hash {fields : Keyspace CppString CppString} {increments : List (CppString × Int64)} :
    Applicable increments (some (.hash fields)) ↔ Fits fields increments := by
  constructor
  · rintro (rfl | ⟨others, same, fits⟩)
    · intro before _ _ _ split
      cases before <;> cases split
    · cases same
      exact fits
  · exact fun fits => .inr ⟨fields, rfl, fits⟩

/-- The increments can be made exactly when no field and no sum is in the way. -/
theorem increased_iff (increments : List (CppString × Int64)) (holding : Option Redis.Holding) :
    (∃ after, increased increments holding = some after) ↔ Applicable increments holding := by
  induction increments generalizing holding with
  | nil => exact iff_of_true ⟨holding, rfl⟩ (.inl rfl)
  | cons first rest ih =>
    obtain ⟨field, increment⟩ := first
    rw [applicable_cons, increased]
    rcases hincrby_spec field increment holding with ⟨result, after, increases, made⟩ | ⟨str, _, impossible, failed⟩
    · rw [made]
      dsimp only
      rw [ih, applicable_hash]
      refine ⟨fun fits => ⟨after, increases, fits⟩, ?_⟩
      rintro ⟨other, also, fits⟩
      rwa [increases_unique increases also]
    · rw [failed]
      refine iff_of_false (by rintro ⟨_, ⟨⟩⟩) ?_
      rintro ⟨after, increases, _⟩
      exact impossible ⟨after, increases⟩

/-- The loop of the script makes all increments, or fails at one of them. -/
theorem hincrbyLoop_spec (increments : List (CppString × Int64)) (holding : Option Redis.Holding) :
    (∃ results after, increased increments holding = some after ∧
      Redis.hincrbyLoop (increments.flatMap fun increment => [increment.1, convertToString increment.2.toInt]) holding =
        (.ok results, after)) ∨
    ∃ str last, ErrorCoded str ∧ increased increments holding = none ∧
      Redis.hincrbyLoop (increments.flatMap fun increment => [increment.1, convertToString increment.2.toInt]) holding =
        (.error str, last) := by
  induction increments generalizing holding with
  | nil => exact .inl ⟨[], holding, rfl, rfl⟩
  | cons first rest ih =>
    obtain ⟨field, increment⟩ := first
    rw [List.flatMap_cons, List.cons_append, List.cons_append, List.nil_append, Redis.hincrbyLoop, increased]
    rcases hincrby_spec field increment holding with ⟨result, after, _, made⟩ | ⟨str, coded, _, failed⟩
    · rw [made]
      dsimp only
      rcases ih (some (.hash after)) with ⟨results, last, all, loop⟩ | ⟨str, last, coded, none, loop⟩
      · rw [loop]
        exact .inl ⟨result :: results, last, all, rfl⟩
      · rw [loop]
        exact .inr ⟨str, last, coded, none, rfl⟩
    · rw [failed]
      exact .inr ⟨str, holding, coded, rfl, rfl⟩

section

variable (lua : Redis.Lua) (key uid : CppString) (expiredSeconds : UInt32) (increments : List (CppString × Int64))
  (store : Redis.Hashes)

/-- The script with the words that `hmincrby` sends. -/
def scriptRun : RedisReply × Redis.Hashes :=
  Redis.hmincrbyRun lua key (hmincrbyParameters increments uid expiredSeconds) store

/-- The store when the marker has been set and the key holds something else. -/
def marked (holding : Option Redis.Holding) : Redis.Hashes :=
  Function.update (store.put (markerKey key uid) .other) key holding

/-- What the script does to the store, and its reply. -/
inductive Runs : RedisReply × Redis.Hashes → Prop where
  | refused (str : CppString) : expiredSeconds = 0 → ErrorCoded str → Runs (.error (lua.raised str), store)
  | found : expiredSeconds ≠ 0 → store (markerKey key uid) ≠ none → Runs (.nil, store)
  | applied (results : List RedisReply) (after : Option Redis.Holding) :
      expiredSeconds ≠ 0 → store (markerKey key uid) = none → increased increments (store key) = some after →
      Runs (.array results, marked key uid store after)
  | failed (str : CppString) (last : Option Redis.Holding) :
      expiredSeconds ≠ 0 → store (markerKey key uid) = none → increased increments (store key) = none →
      ErrorCoded str → Runs (.error (lua.raised str), marked key uid store last)

theorem marked_key (holding : Option Redis.Holding) : marked key uid store holding key = holding :=
  Function.update_self _ _ _

theorem marked_marker (holding : Option Redis.Holding) :
    marked key uid store holding (markerKey key uid) = some .other := by
  rw [marked, Function.update_of_ne (Markers.markerKey_ne key uid), Keyspace.put_self]

theorem scriptRun_runs :
    Runs lua key uid expiredSeconds increments store (scriptRun lua key uid expiredSeconds increments store) := by
  have small := expiredSeconds.toNat_lt
  have seconds : string2ll (convertToString expiredSeconds.toNat) = some (expiredSeconds.toNat : ℤ) :=
    Numerals.string2ll_convertToString (by omega) (by omega)
  rw [scriptRun, hmincrbyParameters, Redis.hmincrbyRun, Redis.setMarker, seconds]
  dsimp only
  by_cases zero : expiredSeconds = 0
  · rw [if_pos (by rw [zero]; rfl)]
    exact .refused _ zero (.inl ⟨by decide, by decide, _, rfl⟩)
  · have positive : ¬ (expiredSeconds.toNat : ℤ) ≤ 0 := fun none =>
      zero (UInt32.toNat_inj.mp (Nat.le_zero.mp (Int.ofNat_le.mp none)))
    rw [if_neg positive]
    cases marker : store (markerKey key uid) with
    | some _ =>
      refine .found zero ?_
      rw [marker]
      exact Option.some_ne_none _
    | none =>
      have same : store.put (markerKey key uid) .other key = store key :=
        Keyspace.put_of_ne _ (Ne.symm (Markers.markerKey_ne key uid))
      rw [if_neg (by rw [Option.isSome_none]; exact Bool.false_ne_true)]
      dsimp only
      rw [same]
      rcases hincrbyLoop_spec increments (store key) with ⟨results, after, all, loop⟩ | ⟨str, last, coded, none, loop⟩
      · rw [loop]
        exact .applied _ after zero marker all
      · rw [loop]
        exact .failed str last zero marker none coded

variable {lua key uid expiredSeconds increments store}

/-- Where no marker is, a later call makes the increments if they can be made. -/
theorem unmarked_applies {after : Option Redis.Holding} (positive : expiredSeconds ≠ 0)
    (absent : store (markerKey key uid) = none) (made : increased increments (store key) = some after) :
    ∃ results, scriptRun lua key uid expiredSeconds increments store =
      (.array results, marked key uid store after) := by
  generalize ran : scriptRun lua key uid expiredSeconds increments store = run
  have runs := scriptRun_runs lua key uid expiredSeconds increments store
  rw [ran] at runs
  cases runs with
  | refused _ zero => exact absurd zero positive
  | found _ there => exact absurd absent there
  | applied results other _ _ all =>
    cases all.symm.trans made
    exact ⟨results, rfl⟩
  | failed _ _ _ _ none => cases none.symm.trans made

/-- Where a marker is, no call makes them. -/
theorem marked_stops (there : store (markerKey key uid) ≠ none) :
    (scriptRun lua key uid expiredSeconds increments store).2 = store := by
  generalize ran : scriptRun lua key uid expiredSeconds increments store = run
  have runs := scriptRun_runs lua key uid expiredSeconds increments store
  rw [ran] at runs
  cases runs with
  | refused => rfl
  | found => rfl
  | applied _ _ _ absent => exact absurd absent there
  | failed _ _ _ absent => exact absurd absent there

end

/-- A call of `hmincrby` with a unique id. -/
structure Call where
  env : Env
  strsha1 : CppString → CppString
  source : Session
  rounds : ℕ
  numRetries : ℤ
  key : CppString
  increments : List (CppString × Int64)
  uid : CppString
  expiredSeconds : UInt32
  newvalues : Option (List ℤ) := none

namespace Call

variable (call : Call)

def run : Except R3c.Fault (Option MultiIncremented) × Session :=
  hmincrby call.env call.strsha1 call.rounds call.key call.numRetries call.increments call.uid call.expiredSeconds
    call.newvalues call.source

/-- The script has run once: of the commands that were sent all but one were refused with an error, and this one was
answered with the reply of the script. -/
def RanOnce (lua : Redis.Lua) (sha1 : CppString → CppString) (before after : Redis.Hashes) : Prop :=
  ∃ first args script last,
    call.run.2.sent = call.source.sent ++ (first ++ (args, .reply (script before).1) :: last) ∧
      Redis.hmincrbyCommand lua sha1 args = some script ∧ after = (script before).2 ∧
      ∀ other ∈ first ++ last, ∃ str, other.2 = .reply (.error str)

/-- All increments have been made and the call has returned true, or none has been made and no marker stops a later
call. -/
def AllOrNothing (result : MultiIncremented) (before after : Redis.Hashes) : Prop :=
  (increased call.increments (before call.key) = some (after call.key) ∧
      ∃ newvalues, result = .returned true newvalues) ∨
    after call.key = before call.key ∧ after (markerKey call.key call.uid) = none

end Call

/-- The words of such a command run the script for the key. -/
theorem carries_script {lua : Redis.Lua} {sha1 : CppString → CppString} {luaScripts key : CppString}
    {parameters args : List CppString} {script : Redis.Hashes → RedisReply × Redis.Hashes}
    (carries : Carries luaScripts key parameters args) (runs : Redis.hmincrbyCommand lua sha1 args = some script) :
    script = Redis.hmincrbyRun lua key parameters := by
  cases carries with
  | eval =>
    rw [evalArgs, List.cons_append, List.cons_append, List.cons_append, List.cons_append, List.nil_append,
      Redis.hmincrbyCommand] at runs
    split at runs
    · exact (Option.some.inj runs).symm
    · cases runs
  | evalsha other =>
    rw [evalshaArgs, List.cons_append, List.cons_append, List.cons_append, List.cons_append, List.nil_append,
      Redis.hmincrbyCommand] at runs
    split at runs
    · exact (Option.some.inj runs).symm
    · cases runs

theorem decisive_of_clean {value : RedisReply} (clean : ∀ str, value ≠ .error str) : Decisive value :=
  ⟨.inl clean, fun str same => absurd same (clean str)⟩

theorem decisive_of_coded {str : CppString} (coded : ErrorCoded str) : Decisive (.error str) := by
  have decided : ∀ {code : CppString}, Coded code str → errtypeResult code = .error → code ≠ text "NOSCRIPT" →
      Decisive (.error str) := by
    intro code coded plain other
    refine ⟨.inr ⟨str, code, rfl, coded, plain⟩, ?_⟩
    rintro _ ⟨⟩ missing
    exact other ((extractErrtype_coded coded []).symm.trans (extractErrtype_coded missing []))
  rcases coded with general | wrong
  · exact decided general (by decide) (by decide)
  · exact decided wrong (by decide) (by decide)

/-- What a call returns whose script has run once. -/
theorem ranOnce_concludes {lua : Redis.Lua} (raises : ∀ str, ErrorCoded str → ErrorCoded (lua.raised str))
    {sha1 : CppString → CppString} {call : Call} {result : MultiIncremented} {before after : Redis.Hashes}
    (ended : call.run.1 = .ok (some result)) (once : call.RanOnce lua sha1 before after) :
    ∃ value, Runs lua call.key call.uid call.expiredSeconds call.increments before (value, after) ∧
      Concludes call.newvalues value result := by
  obtain ⟨first, args, script, last, whole, runs, rfl, _⟩ := once
  have ran : call.run = (.ok (some result), call.run.2) := Prod.ext ended rfl
  obtain ⟨sent, grown, course⟩ := hmincrby_course ran
  have split := List.append_cancel_left (grown.symm.trans whole)
  have carries := course.carries _ (split ▸ List.mem_append_right first List.mem_cons_self)
  obtain rfl : script = scriptRun lua call.key call.uid call.expiredSeconds call.increments :=
    carries_script carries runs
  have effect := scriptRun_runs lua call.key call.uid call.expiredSeconds call.increments before
  have decisive : Decisive (scriptRun lua call.key call.uid call.expiredSeconds call.increments before).1 := by
    generalize scriptRun lua call.key call.uid call.expiredSeconds call.increments before = run at effect
    cases effect with
    | refused str _ coded => exact decisive_of_coded (raises str coded)
    | found => exact decisive_of_clean nofun
    | applied => exact decisive_of_clean nofun
    | failed str _ _ _ _ coded => exact decisive_of_coded (raises str coded)
  exact ⟨_, effect, course.concludes decisive split⟩

/-- For every call whose script has run once: all or none of the increments are made in the end if and only if no marker
was there, and the marker could not be set or all increments could be made. -/
theorem all_or_nothing_iff {lua : Redis.Lua} (raises : ∀ str, ErrorCoded str → ErrorCoded (lua.raised str))
    {sha1 : CppString → CppString} {call : Call} {result : MultiIncremented} {before after : Redis.Hashes}
    (ended : call.run.1 = .ok (some result)) (once : call.RanOnce lua sha1 before after) :
    call.AllOrNothing result before after ↔ before (markerKey call.key call.uid) = none ∧
      (call.expiredSeconds = 0 ∨ Applicable call.increments (before call.key)) := by
  obtain ⟨value, runs, concludes⟩ := ranOnce_concludes raises ended once
  rw [Call.AllOrNothing, ← increased_iff, concludes.isTrue_iff]
  cases runs with
  | refused str zero =>
    constructor
    · rintro (⟨_, _, clean⟩ | ⟨_, absent⟩)
      · exact absurd rfl (clean _)
      · exact ⟨absent, .inl zero⟩
    · exact fun holds => .inr ⟨rfl, holds.1⟩
  | found positive there =>
    refine iff_of_false ?_ fun holds => there holds.1
    rintro (⟨_, filled, _⟩ | ⟨_, absent⟩)
    · exact filled rfl
    · exact there absent
  | applied results last positive absent made =>
    refine iff_of_true (.inl ⟨?_, nofun, nofun⟩) ⟨absent, .inr ⟨last, made⟩⟩
    rw [made, marked_key]
  | failed str last positive absent none =>
    refine iff_of_false ?_ ?_
    · rintro (⟨_, _, clean⟩ | ⟨_, unmarked⟩)
      · exact clean _ rfl
      · rw [marked_marker] at unmarked
        cases unmarked
    · rintro ⟨_, zero | ⟨after, made⟩⟩
      · exact positive zero
      · cases none.symm.trans made

/-- A call on a single server that answers with a reply. -/
def answeredCall (reply : RedisReply) (increments : List (CppString × Int64)) : Call where
  env := plainEnv (fun _ => true) fun _ _ _ => .reply reply
  strsha1 := id
  source := { world := { client := lossyClient } }
  rounds := 1
  numRetries := 0
  key := text "k"
  increments := increments
  uid := text "u"
  expiredSeconds := 60

/-- Redis 7, with the numbers as they are. -/
def plainLua : Redis.Lua where
  number := id
  raised str := str

/-- A call that has sent the script as a whole. -/
theorem ranOnce_eval {lua : Redis.Lua} {sha1 : CppString → CppString} {call : Call} {before : Redis.Hashes}
    (unsent : call.source.sent = [])
    (sent : call.run.2.sent =
      [(evalArgs hmincrbyScript call.key (hmincrbyParameters call.increments call.uid call.expiredSeconds),
        .reply (scriptRun lua call.key call.uid call.expiredSeconds call.increments before).1)]) :
    call.RanOnce lua sha1 before (scriptRun lua call.key call.uid call.expiredSeconds call.increments before).2 := by
  refine ⟨[], evalArgs hmincrbyScript call.key (hmincrbyParameters call.increments call.uid call.expiredSeconds),
    scriptRun lua call.key call.uid call.expiredSeconds call.increments, [], ?_, ?_, rfl, nofun⟩
  · rw [sent, unsent]
    rfl
  · rw [evalArgs, List.cons_append, List.cons_append, List.cons_append, List.cons_append, List.nil_append,
      Redis.hmincrbyCommand]
    exact if_pos ⟨.inl ⟨rfl, rfl⟩, rfl⟩

/-- A script whose SHA-1 is not known goes out as a whole, once. -/
theorem send_single {script : Script} (unknown : ∀ world, script.shastr1 { world := world } = [])
    (keeps : ∀ shastr1 session, (script.setShastr1 shastr1 session).sent = session.sent) {reply : RedisReply}
    (stops : Stops reply) (parameters : List CppString) :
    ∃ outcome target, script.send (answeredCall reply []).env id 1 (text "k") 0 parameters
        { world := { client := lossyClient } } = (.ok (some outcome), target) ∧
      target.sent = [(evalArgs script.luaScripts (text "k") parameters, .reply reply)] ∧ Ends reply outcome := by
  obtain ⟨outcome, world, ran, ends, _, events, log, answers⟩ :=
    @Prompt.Single.redisCommand (answeredCall reply []).env reply
      { client := lossyClient } Prompt.lossyClient_single stops
      (fun _ _ => rfl) 0 false 0 (text "k")
  have sent : eval (answeredCall reply []).env 1 (text "k") 0 script.luaScripts parameters
      { world := { client := lossyClient } } = (.ok (some outcome),
        { world := world, sent := [(evalArgs script.luaScripts (text "k") parameters, .reply reply)] }) := by
    rw [eval, sendCommand, ran]
    dsimp only
    rw [log, List.drop_left, answers]
    rfl
  rw [Script.send, bind_of_ok (get_apply _), if_neg (not_not.mpr (unknown _)), bind_of_ok sent]
  cases ends with
  | returned _ clean => exact ⟨_, _, rfl, keeps _ _, .returned reply clean⟩
  | thrown str code errinfo coded errtype => exact ⟨_, _, rfl, rfl, .thrown str code errinfo coded errtype⟩

theorem send_hmincrby {reply : RedisReply} (stops : Stops reply) (parameters : List CppString) :
    ∃ outcome target, hmincrbyMember.send (answeredCall reply []).env id 1 (text "k") 0 parameters
        { world := { client := lossyClient } } = (.ok (some outcome), target) ∧
      target.sent = [(evalArgs hmincrbyScript (text "k") parameters, .reply reply)] ∧ Ends reply outcome := by
  have named : hmincrbyMember.luaScripts = hmincrbyScript := by rw [hmincrbyMember]
  rw [← named]
  exact send_single (fun _ => rfl) (fun _ _ => rfl) stops parameters

theorem answered_returns (element : List RedisReply) (increments : List (CppString × Int64)) :
    (answeredCall (.array element) increments).run.1 = .ok (some (.returned true none)) ∧
      (answeredCall (.array element) increments).run.2.sent =
        [(evalArgs hmincrbyScript (text "k") (hmincrbyParameters increments (text "u") 60),
          .reply (.array element))] := by
  have stops : Stops (.array element) := .inl nofun
  obtain ⟨outcome, target, sending, sent, ends⟩ := send_hmincrby stops (hmincrbyParameters increments (text "u") 60)
  cases ends with
  | returned =>
    have ran : (answeredCall (.array element) increments).run = (.ok (some (.returned true none)), target) :=
      bind_of_ok sending
    rw [ran]
    exact ⟨rfl, sent⟩

theorem answered_throws {str : CppString} (decisive : Decisive (.error str)) (increments : List (CppString × Int64)) :
    (∃ errinfo, (answeredCall (.error str) increments).run.1 = .ok (some (.thrown errinfo))) ∧
      (answeredCall (.error str) increments).run.2.sent =
        [(evalArgs hmincrbyScript (text "k") (hmincrbyParameters increments (text "u") 60), .reply (.error str))] := by
  obtain ⟨outcome, target, sending, sent, ends⟩ :=
    send_hmincrby decisive.1 (hmincrbyParameters increments (text "u") 60)
  cases ends with
  | returned _ clean => exact absurd rfl (clean str)
  | thrown _ code errinfo coded errtype =>
    have other : errinfo.errtype ≠ text "NOSCRIPT" := by
      rw [errtype]
      rintro rfl
      exact decisive.2 str rfl coded
    have ran : (answeredCall (.error str) increments).run = (.ok (some (.thrown errinfo)), target) := by
      rw [Call.run, hmincrby]
      refine (bind_of_ok sending).trans ?_
      dsimp only
      rw [if_pos other]
      rfl
    rw [ran]
    exact ⟨⟨errinfo, rfl⟩, sent⟩

/-- Increments of two fields. -/
def twoIncrements : List (CppString × Int64) := [(text "f", 5), (text "g", 7)]

def twoCall : Call := answeredCall (.array [.integer 5, .integer 7]) twoIncrements

def twoRun : RedisReply × Redis.Hashes := scriptRun plainLua (text "k") (text "u") 60 twoIncrements fun _ => none

/-- The reply of the script to both. -/
def repliesTwo : RedisReply → Bool
  | .array [.integer 5, .integer 7] => true
  | _ => false

theorem of_repliesTwo {reply : RedisReply} (replies : repliesTwo reply = true) :
    reply = .array [.integer 5, .integer 7] := by
  unfold repliesTwo at replies
  split at replies
  · rfl
  · cases replies

theorem all_or_nothing_iff_two :
    twoCall.AllOrNothing (.returned true none) (fun _ => none) twoRun.2 := by
  have reply : twoRun.1 = .array [.integer 5, .integer 7] := of_repliesTwo (by decide +kernel)
  obtain ⟨ended, sent⟩ := answered_returns [.integer 5, .integer 7] twoIncrements
  rw [← reply] at sent
  have once : twoCall.RanOnce plainLua id (fun _ => none) twoRun.2 := ranOnce_eval rfl sent
  refine (all_or_nothing_iff (fun _ coded => coded) ended once).mpr ⟨rfl, .inr (.inr ⟨fun _ => none, rfl, ?_⟩)⟩
  refine fits_cons.mpr ⟨0, rfl, by decide, fits_cons.mpr ⟨0, by decide, by decide, fun before _ _ _ split => ?_⟩⟩
  cases before <;> cases split

/-- Two increments, the second one of a field that holds no number. -/
def halfwayCall : Call :=
  answeredCall (.error (text "ERR hash value is not an integer")) [(text "a", 1), (text "b", 1)]

def halfwayStore : Redis.Hashes := fun key =>
  if key = text "k" then some (.hash fun field => if field = text "b" then some (text "x") else none) else none

def halfwayRun : RedisReply × Redis.Hashes :=
  scriptRun plainLua (text "k") (text "u") 60 [(text "a", 1), (text "b", 1)] halfwayStore

/-- The script ends with an error, and leaves the marker and the first increment. -/
def stopsHalfway : RedisReply × Redis.Hashes → Bool
  | (.error str, after) =>
      str = text "ERR hash value is not an integer" ∧ (after (markerKey (text "k") (text "u"))).isSome ∧
        (Redis.fieldsOf (after (text "k"))).map (fun fields => fields (text "a")) = some (some (text "1"))
  | _ => false

theorem of_stopsHalfway {script : RedisReply × Redis.Hashes} (stops : stopsHalfway script = true) :
    script.1 = .error (text "ERR hash value is not an integer") ∧
      script.2 (markerKey (text "k") (text "u")) ≠ none := by
  unfold stopsHalfway at stops
  split at stops
  · obtain ⟨rfl, marked, _⟩ := of_decide_eq_true stops
    exact ⟨rfl, Option.isSome_iff_ne_none.mp marked⟩
  · cases stops

/-- The first increment is made, the second one fails, and the marker stops a later call. -/
theorem increments_halfway : ∃ result, halfwayCall.run.1 = .ok (some result) ∧
    halfwayCall.RanOnce plainLua id halfwayStore halfwayRun.2 ∧
      ¬ halfwayCall.AllOrNothing result halfwayStore halfwayRun.2 := by
  obtain ⟨reply, marker⟩ := of_stopsHalfway (by decide +kernel : stopsHalfway halfwayRun = true)
  have coded : ErrorCoded (text "ERR hash value is not an integer") := .inl ⟨by decide, by decide +kernel, _, rfl⟩
  obtain ⟨⟨errinfo, ended⟩, sent⟩ := answered_throws (decisive_of_coded coded) [(text "a", 1), (text "b", 1)]
  rw [← reply] at sent
  refine ⟨.thrown errinfo, ended, ranOnce_eval rfl sent, ?_⟩
  rintro (⟨_, _, ⟨⟩⟩ | ⟨_, absent⟩)
  exact marker absent

end CppRedis.Soundness.Increments
