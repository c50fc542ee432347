import CppRedis.Model.RedisCpp.Database

/-! # Values that are read back

What is written through a link arrives in the database up to its first zero, under keys and fields that are cut
in the same way. A value is read back as it was written exactly when it has no zero, and another key or field is
left exactly when it differs before the first zero, or the write changes nothing.
-/

namespace CppRedis.Soundness.ReadBack

open Machine Model.RedisCpp

variable {α : Type} {conn : CRedisConn} {source target : Database}

/-- A link with a connection. -/
def Linked (conn : CRedisConn) : Prop := conn.connected = true ∧ conn.redCtx = true

/-- The words that a method sends are executed. -/
theorem executes_command (linked : Linked conn) {words : Command} {before value : α}
    {unpack : Option HiReply → CRedisConn → Returned α} (strict : ∀ conn, unpack none conn = none)
    {result : Bool × α × CRedisConn} :
    Executes (fun hiredis => conn.command hiredis words before value unpack) source result target ↔
      conn.received (some (source.execute words).1.fields) value (unpack (some (source.execute words).1.fields)) =
        some result ∧ target = (source.execute words).2 := by
  have passes : ¬ (!conn.connected || !conn.redCtx) = true := by
    rw [linked.1, linked.2]
    exact nofun
  have replied : replying words (source.execute words).1 words = some (source.execute words).1.fields := if_pos rfl
  constructor
  · rintro ⟨sent, ran, rfl⟩
    dsimp only at ran
    rw [CRedisConn.command, if_neg passes] at ran
    by_cases same : words = sent
    · subst same
      rw [replied] at ran
      exact ⟨ran, rfl⟩
    · -- The reply is null where other words were replied to.
      have lost : replying sent (source.execute sent).1 words = none := if_neg same
      rw [lost] at ran
      cases ran.symm.trans (strict _)
  · rintro ⟨ran, rfl⟩
    refine ⟨words, ?_, rfl⟩
    dsimp only
    rw [CRedisConn.command, if_neg passes, replied]
    exact ran

/-- The words of a command are executed on what its key holds. -/
theorem executes_query (linked : Linked conn) {words : Command} {before value : α}
    {unpack : Option HiReply → CRedisConn → Returned α} (strict : ∀ conn, unpack none conn = none) {key : CppString}
    {query : Query} (parsed : parseQuery words = some (key, query)) {reply : RedisReply} {content : Option Content}
    (acts : query.act (source key) = (reply, content)) {result : Bool × α × CRedisConn} :
    Executes (fun hiredis => conn.command hiredis words before value unpack) source result target ↔
      conn.received (some reply.fields) value (unpack (some reply.fields)) = some result ∧
        target = Function.update source key content := by
  have executed : source.execute words = (reply, Function.update source key content) := by
    rw [Database.execute, parsed]
    dsimp only
    rw [Keyspace.atKey, acts]
  rw [executes_command linked strict, executed]

/-- A link after a reply that is no error. -/
def quiet (conn : CRedisConn) : CRedisConn := { conn with errStr := ErrorNo.noError.description }

theorem Linked.quiet (linked : Linked conn) : Linked (quiet conn) := linked

/-- A link after a write to a value of another type. -/
def refused (conn : CRedisConn) : CRedisConn :=
  { conn with errStr := cStr (text "WRONGTYPE Operation against a key holding the wrong kind of value") }

variable {key field value : CppString}

theorem setKey_executes (linked : Linked conn) {retval : ℤ} {result : Bool × ℤ × CRedisConn} :
    Executes (conn.setKey · key value retval) source result target ↔
      result = (true, 0, quiet conn) ∧ target = source.put (cStr key) (.string (cStr value)) := by
  have acts : (Query.set (cStr value)).act (source (cStr key)) =
    (.status (text "OK"), some (.string (cStr value))) := rfl
  refine (executes_query linked (fun _ => rfl) rfl acts).trans (and_congr_left' ?_)
  exact Option.some_inj.trans eq_comm

theorem getKey_executes (linked : Linked conn) {held : CppString} (there : source.under key = some (.string held))
    {result : Bool × CppString × CRedisConn} :
    Executes (conn.getKey · key value) source result target ↔ result = (true, cStr held, quiet conn) ∧
      target = source := by
  have acts : Query.get.act (source (cStr key)) = (.string held, source (cStr key)) := by
    rw [Database.under] at there
    rw [there]
    rfl
  refine (executes_query linked (fun _ => rfl) rfl acts).trans (and_congr ?_ ?_)
  · exact Option.some_inj.trans eq_comm
  · rw [Function.update_eq_self]

/-- The fields that a key holds, or will hold, unless it holds a value of another type. -/
def fieldsOf : Option Content → Option (Keyspace CppString CppString)
  | none => some fun _ => none
  | some (.hash fields) => some fields
  | _ => none

theorem hset_act (content : Option Content) :
    (Query.hset field value).act content =
      match fieldsOf content with
      | some fields => (.integer (if (fields field).isSome then 0 else 1), some (.hash (fields.put field value)))
      | none => (wrongType, content) := by
  rcases content with _ | (held | fields | ⟨first, rest⟩) <;> rfl

theorem hset_executes (linked : Linked conn) {fields : Keyspace CppString CppString}
    (there : fieldsOf (source.under key) = some fields) {retval : ℤ} {result : Bool × ℤ × CRedisConn} :
    Executes (conn.hset · key field value retval) source result target ↔
      result = (true, (if (fields (cStr field)).isSome then 0 else 1) % 4294967296, quiet conn) ∧
        target = source.put (cStr key) (.hash (fields.put (cStr field) (cStr value))) := by
  have acts := @hset_act (cStr field) (cStr value) (source (cStr key))
  rw [Database.under] at there
  rw [there] at acts
  refine (executes_query linked (fun _ => rfl) rfl acts).trans (and_congr_left' ?_)
  exact Option.some_inj.trans eq_comm

theorem hset_refused (linked : Linked conn) (foreign : fieldsOf (source.under key) = none) {retval : ℤ}
    {result : Bool × ℤ × CRedisConn} :
    Executes (conn.hset · key field value retval) source result target ↔
      result = (false, retval, refused conn) ∧ target = source := by
  have acts := @hset_act (cStr field) (cStr value) (source (cStr key))
  rw [Database.under] at foreign
  rw [foreign] at acts
  refine (executes_query linked (fun _ => rfl) rfl acts).trans (and_congr ?_ ?_)
  · exact Option.some_inj.trans eq_comm
  · rw [Function.update_eq_self]

theorem hget_executes (linked : Linked conn) {held : CppString} (there : source.fieldUnder key field = some held)
    {result : Bool × CppString × CRedisConn} :
    Executes (conn.hget · key field value) source result target ↔
      result = (true, cStr held, quiet conn) ∧ target = source := by
  have acts : (Query.hget (cStr field)).act (source (cStr key)) = (.string held, source (cStr key)) := by
    rw [Database.fieldUnder, Database.under] at there
    split at there
    · next fields found =>
      rw [found, Query.act, there]
      rfl
    · cases there
  refine (executes_query linked (fun _ => rfl) rfl acts).trans (and_congr ?_ ?_)
  · exact Option.some_inj.trans eq_comm
  · rw [Function.update_eq_self]

/-- The elements that a key holds, unless it holds a value of another type. -/
def elementsOf : Option Content → Option (List CppString)
  | none => some []
  | some (.list first rest) => some (first :: rest)
  | _ => none

theorem lpush_act (content : Option Content) :
    (Query.lpush value).act content =
      match elementsOf content with
      | some elements => (.integer (elements.length + 1), some (.list value elements))
      | none => (wrongType, content) := by
  rcases content with _ | (held | fields | ⟨first, rest⟩) <;> rfl

theorem lpush_executes (linked : Linked conn) {elements : List CppString}
    (there : elementsOf (source.under key) = some elements) {retval : ℤ} {result : Bool × ℤ × CRedisConn} :
    Executes (conn.lpush · key value retval) source result target ↔
      result = (true, ((elements.length : ℤ) + 1) % 18446744073709551616, quiet conn) ∧
        target = source.put (cStr key) (.list (cStr value) elements) := by
  have acts := @lpush_act (cStr value) (source (cStr key))
  rw [Database.under] at there
  rw [there] at acts
  refine (executes_query linked (fun _ => rfl) rfl acts).trans (and_congr_left' ?_)
  exact Option.some_inj.trans eq_comm

theorem lpush_refused (linked : Linked conn) (foreign : elementsOf (source.under key) = none) {retval : ℤ}
    {result : Bool × ℤ × CRedisConn} :
    Executes (conn.lpush · key value retval) source result target ↔
      result = (false, 0, refused conn) ∧ target = source := by
  have acts := @lpush_act (cStr value) (source (cStr key))
  rw [Database.under] at foreign
  rw [foreign] at acts
  refine (executes_query linked (fun _ => rfl) rfl acts).trans (and_congr ?_ ?_)
  · exact Option.some_inj.trans eq_comm
  · rw [Function.update_eq_self]

theorem lpop_executes (linked : Linked conn) {first : CppString} {rest : List CppString}
    (there : source.under key = some (.list first rest)) {result : Bool × CppString × CRedisConn} :
    Executes (conn.lpop · key value) source result target ↔
      result = (true, cStr first, quiet conn) ∧
        target = Function.update source (cStr key) (Query.lpop.act (some (.list first rest))).2 := by
  have acts : Query.lpop.act (source (cStr key)) =
      (.string first, (Query.lpop.act (some (.list first rest))).2) := by
    rw [Database.under] at there
    rw [there]
    cases rest <;> rfl
  refine (executes_query linked (fun _ => rfl) rfl acts).trans (and_congr_left' ?_)
  exact Option.some_inj.trans eq_comm

/-- Either the write fails, or what is read afterwards is the value. -/
def ReadsBack (write : Hiredis → Returned ℤ) (read : CRedisConn → Hiredis → Returned CppString) (value : CppString)
    (source : Database) : Prop :=
  ∃ written middle, Executes write source written middle ∧
    (written.1 = true → ∃ found target, Executes (read written.2.2) middle found target ∧
      found.1 = true ∧ found.2.1 = value)

/-- The write does not change what is in a place. -/
def Leaves {β : Type} (write : Hiredis → Returned ℤ) (place : Database → β) (source : Database) : Prop :=
  ∀ written target, Executes write source written target → place target = place source

theorem cStr_eq_self_iff : cStr value = value ↔ 0 ∉ value := by
  rw [cStr, List.takeWhile_eq_self_iff]
  constructor
  · intro nonzero zero
    exact absurd (nonzero 0 zero) (by decide)
  · exact fun nonzero byte member => decide_eq_true fun zero => nonzero (zero ▸ member)

/-- Where the write succeeds, and the value is read up to its first zero. -/
theorem readsBack_iff {write : Hiredis → Returned ℤ} {read : CRedisConn → Hiredis → Returned CppString} {retval : ℤ}
    {middle : Database} {last : Database}
    (writes : ∀ {written target}, Executes write source written target ↔
      written = (true, retval, quiet conn) ∧ target = middle)
    (reads : ∀ {found target}, Executes (read (quiet conn)) middle found target ↔
      found = (true, cStr (cStr value), quiet (quiet conn)) ∧ target = last) :
    ReadsBack write read value source ↔ 0 ∉ value := by
  rw [← cStr_eq_self_iff, ReadsBack]
  constructor
  · rintro ⟨written, between, wrote, back⟩
    obtain ⟨rfl, rfl⟩ := writes.mp wrote
    obtain ⟨found, target, ran, -, same⟩ := back rfl
    obtain ⟨rfl, rfl⟩ := reads.mp ran
    exact (cStr_cStr value).symm.trans same
  · intro whole
    refine ⟨_, _, writes.mpr ⟨rfl, rfl⟩, fun _ => ⟨_, _, reads.mpr ⟨rfl, rfl⟩, rfl, ?_⟩⟩
    exact (cStr_cStr value).trans whole

theorem get_set_iff (linked : Linked conn) (retval : ℤ) (out : CppString) :
    ReadsBack (conn.setKey · key value retval) (fun conn => (conn.getKey · key out)) value source ↔ 0 ∉ value :=
  readsBack_iff (setKey_executes linked) (getKey_executes linked.quiet (Keyspace.put_self ..))

/-- A hash that is not there, or is one. -/
theorem fieldUnder_of_fieldsOf {fields : Keyspace CppString CppString}
    (there : fieldsOf (source.under key) = some fields) : source.fieldUnder key field = fields (cStr field) := by
  rw [Database.fieldUnder]
  rcases found : source.under key with _ | (held | inside | ⟨first, rest⟩) <;> rw [found] at there <;>
    cases there <;> rfl

theorem fieldUnder_put (source : Database) (key : CppString) (content : Keyspace CppString CppString) :
    Database.fieldUnder key field (Keyspace.put source (cStr key) (.hash content)) = content (cStr field) := by
  have there : Database.under key (Keyspace.put source (cStr key) (.hash content)) = some (.hash content) :=
    Keyspace.put_self ..
  rw [Database.fieldUnder, there]

theorem hget_hset_iff (linked : Linked conn) (retval : ℤ) (out : CppString) :
    ReadsBack (conn.hset · key field value retval) (fun conn => (conn.hget · key field out)) value source ↔
      0 ∉ value ∨ fieldsOf (source.under key) = none := by
  rcases there : fieldsOf (source.under key) with _ | fields
  · exact iff_of_true ⟨_, _, (hset_refused linked there).mpr ⟨rfl, rfl⟩, nofun⟩ (.inr rfl)
  · have held : Database.fieldUnder key field (Keyspace.put source (cStr key)
        (.hash (fields.put (cStr field) (cStr value)))) = some (cStr value) := by
      rw [fieldUnder_put, Keyspace.put_self]
    refine (readsBack_iff (hset_executes linked there) (hget_executes linked.quiet held)).trans ?_
    exact (or_iff_left nofun).symm

theorem lpop_lpush_iff (linked : Linked conn) (retval : ℤ) (out : CppString) :
    ReadsBack (conn.lpush · key value retval) (fun conn => (conn.lpop · key out)) value source ↔
      0 ∉ value ∨ elementsOf (source.under key) = none := by
  rcases there : elementsOf (source.under key) with _ | elements
  · exact iff_of_true ⟨_, _, (lpush_refused linked there).mpr ⟨rfl, rfl⟩, nofun⟩ (.inr rfl)
  · refine (readsBack_iff (lpush_executes linked there) (lpop_executes linked.quiet (Keyspace.put_self ..))).trans ?_
    exact (or_iff_left nofun).symm

variable {other otherField : CppString}

theorem under_put (content : Content) :
    Database.under other (Keyspace.put source (cStr key) content) = source.under other ↔
      cStr other ≠ cStr key ∨ source.under key = some content := by
  by_cases same : cStr other = cStr key
  · rw [Database.under, Database.under, Database.under, same, Keyspace.put_self]
    exact eq_comm.trans (or_iff_right (not_not_intro rfl)).symm
  · exact iff_of_true (Keyspace.put_of_ne _ same) (.inl same)

theorem setKey_leaves_iff (linked : Linked conn) (retval : ℤ) :
    Leaves (conn.setKey · key value retval) (Database.under other) source ↔
      cStr other ≠ cStr key ∨ source.under key = some (.string (cStr value)) := by
  rw [← under_put]
  constructor
  · exact fun leaves => leaves _ _ ((setKey_executes linked).mpr ⟨rfl, rfl⟩)
  · rintro same written target ran
    obtain ⟨_, rfl⟩ := (setKey_executes linked).mp ran
    exact same

theorem hset_leaves (linked : Linked conn) (retval : ℤ)
    (apart : cStr other ≠ cStr key ∨ fieldsOf (source.under key) = none) :
    Leaves (conn.hset · key field value retval) (Database.under other) source := by
  intro written target ran
  rcases there : fieldsOf (source.under key) with _ | fields
  · rw [((hset_refused linked there).mp ran).2]
  · rw [((hset_executes linked there).mp ran).2, under_put]
    exact .inl (apart.resolve_right fun foreign => nomatch foreign.symm.trans there)

theorem lpush_leaves (linked : Linked conn) (retval : ℤ)
    (apart : cStr other ≠ cStr key ∨ elementsOf (source.under key) = none) :
    Leaves (conn.lpush · key value retval) (Database.under other) source := by
  intro written target ran
  rcases there : elementsOf (source.under key) with _ | elements
  · rw [((lpush_refused linked there).mp ran).2]
  · rw [((lpush_executes linked there).mp ran).2, under_put]
    exact .inl (apart.resolve_right fun foreign => nomatch foreign.symm.trans there)

theorem hset_leaves_field_iff (linked : Linked conn) (retval : ℤ) :
    Leaves (conn.hset · key field value retval) (Database.fieldUnder key otherField) source ↔
      cStr otherField ≠ cStr field ∨ fieldsOf (source.under key) = none ∨
        source.fieldUnder key field = some (cStr value) := by
  rcases there : fieldsOf (source.under key) with _ | fields
  · refine iff_of_true ?_ (.inr (.inl rfl))
    intro written target ran
    rw [((hset_refused linked there).mp ran).2]
  · have kept : Leaves (conn.hset · key field value retval) (Database.fieldUnder key otherField) source ↔
        fields.put (cStr field) (cStr value) (cStr otherField) = fields (cStr otherField) := by
      rw [← fieldUnder_put source key (fields.put (cStr field) (cStr value)),
        ← fieldUnder_of_fieldsOf there]
      constructor
      · exact fun leaves => leaves _ _ ((hset_executes linked there).mpr ⟨rfl, rfl⟩)
      · rintro same written target ran
        obtain ⟨_, rfl⟩ := (hset_executes linked there).mp ran
        exact same
    rw [kept, fieldUnder_of_fieldsOf there]
    by_cases same : cStr otherField = cStr field
    · rw [same, Keyspace.put_self]
      exact eq_comm.trans ⟨fun held => .inr (.inr held),
        fun apart => (apart.resolve_left (not_not_intro rfl)).resolve_left
        nofun⟩
    · exact iff_of_true (Keyspace.put_of_ne _ same) (.inl same)

/-- The three writes of a value are read back, and leave another key and another field. -/
structure Lawful (conn : CRedisConn) (key field value other otherField : CppString) (source : Database) : Prop where
  get_set : ∀ retval out,
    ReadsBack (conn.setKey · key value retval) (fun conn => (conn.getKey · key out)) value source
  hget_hset : ∀ retval out,
    ReadsBack (conn.hset · key field value retval) (fun conn => (conn.hget · key field out)) value source
  lpop_lpush : ∀ retval out,
    ReadsBack (conn.lpush · key value retval) (fun conn => (conn.lpop · key out)) value source
  set_key : other ≠ key → ∀ retval, Leaves (conn.setKey · key value retval) (Database.under other) source
  hset_key : other ≠ key → ∀ retval, Leaves (conn.hset · key field value retval) (Database.under other) source
  lpush_key : other ≠ key → ∀ retval, Leaves (conn.lpush · key value retval) (Database.under other) source
  hset_field : otherField ≠ field → ∀ retval,
    Leaves (conn.hset · key field value retval) (Database.fieldUnder key otherField) source

/-- The value has no zero, and what is different is different before the first zero, or the write changes nothing. -/
structure Apart (key field value other otherField : CppString) (source : Database) : Prop where
  whole : 0 ∉ value
  keys : other ≠ key → cStr other ≠ cStr key ∨ source.under key = some (.string (cStr value))
  fields : otherField ≠ field → cStr otherField ≠ cStr field ∨ fieldsOf (source.under key) = none ∨
    source.fieldUnder key field = some (cStr value)

/-- For all keys, fields and values, whatever the database holds. -/
theorem writes_lawful_iff {conn : CRedisConn} (linked : Linked conn) (key field value other otherField : CppString)
    (source : Database) :
    Lawful conn key field value other otherField source ↔ Apart key field value other otherField source := by
  constructor
  · intro lawful
    exact {
      whole := (get_set_iff linked 0 []).mp (lawful.get_set 0 [])
      keys := fun different => (setKey_leaves_iff linked 0).mp (lawful.set_key different 0)
      fields := fun different => (hset_leaves_field_iff linked 0).mp (lawful.hset_field different 0) }
  · intro apart
    -- Where another key is not told apart, a string is in the way of the other two writes.
    have foreign : other ≠ key → cStr other ≠ cStr key ∨
        fieldsOf (source.under key) = none ∧ elementsOf (source.under key) = none := by
      intro different
      apply (apart.keys different).imp_right
      intro there
      rw [there]
      exact ⟨rfl, rfl⟩
    exact {
      get_set := fun retval out => (get_set_iff linked retval out).mpr apart.whole
      hget_hset := fun retval out => (hget_hset_iff linked retval out).mpr (.inl apart.whole)
      lpop_lpush := fun retval out => (lpop_lpush_iff linked retval out).mpr (.inl apart.whole)
      set_key := fun different retval => (setKey_leaves_iff linked retval).mpr (apart.keys different)
      hset_key := fun different retval => hset_leaves linked retval ((foreign different).imp_right And.left)
      lpush_key := fun different retval => lpush_leaves linked retval ((foreign different).imp_right And.right)
      hset_field := fun different retval => (hset_leaves_field_iff linked retval).mpr (apart.fields different) }

/-- A link to a server. -/
def link : CRedisConn := { redCtx := true, connected := true }

theorem writes_lawful_texts :
    Lawful link (text "key") (text "field") (text "value") (text "other") (text "otherField") fun _ => none := by
  refine (writes_lawful_iff ⟨rfl, rfl⟩ _ _ _ _ _ _).mpr ⟨by decide, fun _ => .inl ?_, fun _ => .inl ?_⟩
  · decide
  · decide

/-- A value with a zero is cut. -/
theorem writes_lawful_zero :
    ¬ Lawful link (text "key") (text "field") [97, 0, 98] (text "other") (text "otherField") fun _ => none := by
  intro lawful
  have cut := (get_set_iff ⟨rfl, rfl⟩ 0 []).mp (lawful.get_set 0 [])
  exact cut (by decide)

end CppRedis.Soundness.ReadBack
