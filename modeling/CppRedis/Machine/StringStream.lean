import CppRedis.Machine.Delimited

/-! # String streams

A text with a position for reading and one for writing, and the state of the stream. Nothing is read or written in a
state that is not good, and a new text does not change the state.
-/

namespace CppRedis.Machine

structure StringStream (α : Type*) where
  text : List α := []
  reading : ℕ := 0
  writing : ℕ := 0
  eof : Bool := false
  fail : Bool := false

namespace StringStream

variable {α : Type*} (blank : α → Bool)

def good (stream : StringStream α) : Bool := !stream.eof && !stream.fail

/-- A new text, read and written from its start. -/
def setText (text : List α) (stream : StringStream α) : StringStream α :=
  { stream with text := text, reading := 0, writing := 0 }

/-- Writes over what is there. -/
def write (more : List α) (stream : StringStream α) : StringStream α :=
  if stream.good then
    { stream with
      text := stream.text.take stream.writing ++ more ++ stream.text.drop (stream.writing + more.length)
      writing := stream.writing + more.length }
  else { stream with fail := true }

def unread (stream : StringStream α) : List α := stream.text.drop stream.reading

/-- The next word, behind what is blank. -/
def readWord (stream : StringStream α) : Option (List α) × StringStream α :=
  if stream.good then
    let rest := stream.unread.dropWhile blank
    if rest.isEmpty then (none, { stream with reading := stream.text.length, eof := true, fail := true })
    else
      let behind := rest.dropWhile (!blank ·)
      (some (rest.takeWhile (!blank ·)),
        { stream with reading := stream.text.length - behind.length, eof := behind.isEmpty })
  else (none, { stream with fail := true })

/-- The words up to the first that is not read, at most so many. -/
def readWords : ℕ → StringStream α → List (List α) × StringStream α
  | 0, stream => ([], stream)
  | count + 1, stream =>
      match stream.readWord blank with
      | (none, stream) => ([], stream)
      | (some word, stream) =>
          let (words, stream) := readWords count stream
          (word :: words, stream)

/-- The words up to the first that is not read; a text does not have more than this. -/
def readAll (stream : StringStream α) : List (List α) × StringStream α :=
  stream.readWords blank (stream.text.length + 1)

/-- The lines of a text, without their ends. -/
def lines [DecidableEq α] (newline : α) (text : List α) : List (List α) :=
  let pieces := text.splitOn newline
  if pieces.getLast? = some [] then pieces.dropLast else pieces

section

variable {blank} {stream : StringStream α}

theorem write_of_failed (failed : stream.fail = true) (more : List α) : stream.write more = stream := by
  rw [write, good, failed, Bool.not_true, Bool.and_false, if_neg Bool.false_ne_true]
  rw [← failed]

theorem readWord_of_failed (failed : stream.fail = true) : stream.readWord blank = (none, stream) := by
  rw [readWord, good, failed, Bool.not_true, Bool.and_false, if_neg Bool.false_ne_true]
  rw [← failed]

theorem readWords_of_failed (failed : stream.fail = true) (count : ℕ) :
    stream.readWords blank count = ([], stream) := by
  cases count with
  | zero => rfl
  | succ count => rw [readWords, readWord_of_failed failed]

/-- A stream that gives no word has failed. -/
theorem fail_of_none {last : StringStream α} (ran : stream.readWord blank = (none, last)) : last.fail = true := by
  rw [readWord] at ran
  dsimp only at ran
  split_ifs at ran
  · cases ran
    rfl
  · cases ran
  · cases ran
    rfl

/-- A word has nothing blank, and it is read. -/
theorem readWord_some {next : StringStream α} {word : List α} (ran : stream.readWord blank = (some word, next)) :
    (∀ letter ∈ word, blank letter = false) ∧ next.unread.length < stream.unread.length := by
  rw [readWord] at ran
  dsimp only at ran
  split_ifs at ran with good none
  · cases ran
  · obtain ⟨first, rfl⟩ := Prod.mk.inj ran
    cases first
    have within : (stream.unread.dropWhile blank).dropWhile (!blank ·) <:+ stream.text :=
      ((List.dropWhile_suffix _).trans (List.dropWhile_suffix _)).trans (List.drop_suffix _ _)
    refine ⟨fun letter member => ?_, ?_⟩
    · have kept := List.mem_takeWhile_imp member
      rwa [Bool.not_eq_true'] at kept
    · have left := (List.suffix_iff_eq_drop.mp within).symm
      rw [unread, left]
      refine lt_of_lt_of_le ?_ (List.dropWhile_suffix blank).length_le
      rcases rest : stream.unread.dropWhile blank with _ | ⟨first, others⟩
      · rw [rest] at none
        exact absurd rfl none
      · have filled : (!blank first) = true := by
          have head := List.head?_dropWhile_not blank stream.unread
          rw [rest] at head
          exact (Bool.not_eq_true' _).mpr head
        rw [@List.dropWhile_cons_of_pos _ (!blank ·) first others filled]
        exact Nat.lt_succ_of_le (List.dropWhile_suffix _).length_le
  · cases ran

theorem readWords_spec {count : ℕ} (enough : stream.unread.length < count) {words : List (List α)}
    {last : StringStream α} (ran : stream.readWords blank count = (words, last)) :
    last.fail = true ∧ ∀ word ∈ words, ∀ letter ∈ word, blank letter = false := by
  induction count generalizing stream words with
  | zero => cases enough
  | succ count ih =>
    rw [readWords] at ran
    rcases read : stream.readWord blank with ⟨_ | word, next⟩
    · rw [read] at ran
      cases ran
      exact ⟨fail_of_none read, nofun⟩
    · obtain ⟨plain, fewer⟩ := readWord_some read
      rcases rest : next.readWords blank count with ⟨others, final⟩
      rw [read] at ran
      dsimp only at ran
      rw [rest] at ran
      cases ran
      obtain ⟨failed, all⟩ := ih (by omega) rest
      exact ⟨failed, List.forall_mem_cons.mpr ⟨plain, all⟩⟩

theorem readWord_of_blank (empty : ∀ letter ∈ stream.unread, blank letter = true) :
    ∃ last, stream.readWord blank = (none, last) := by
  rw [readWord, List.dropWhile_eq_nil_iff.mpr empty]
  by_cases good : stream.good = true
  · exact ⟨_, if_pos good⟩
  · exact ⟨_, if_neg good⟩

/-- The first word of a text. -/
theorem readWord_append {word gap : List α} (filled : word ≠ []) (plain : ∀ letter ∈ word, blank letter = false)
    (empty : ∀ letter ∈ gap, blank letter = true) (good : stream.good = true) (unread : stream.unread = word ++ gap) :
    ∃ next, stream.readWord blank = (some word, next) ∧ next.unread = gap := by
  have solid : ∀ letter ∈ word, (!blank letter) = true :=
    fun letter member => (Bool.not_eq_true' _).mpr (plain letter member)
  have start : (word ++ gap).dropWhile blank = word ++ gap := by
    rcases word with _ | ⟨first, others⟩
    · exact absurd rfl filled
    · exact List.dropWhile_cons_of_neg (by rw [plain first List.mem_cons_self]; exact Bool.false_ne_true)
  have stop : ∀ letter ∈ gap.head?, ¬ (!blank letter) = true := fun letter member => by
    rw [empty letter (List.mem_of_head? member)]
    exact Bool.false_ne_true
  have kept : (word ++ gap).takeWhile (!blank ·) = word := by
    rw [List.takeWhile_append_of_pos solid]
    rcases gap with _ | ⟨first, others⟩
    · exact List.append_nil word
    · rw [@List.takeWhile_cons_of_neg _ (!blank ·) first others (stop first rfl), List.append_nil]
  have behind : (word ++ gap).dropWhile (!blank ·) = gap := by
    rw [List.dropWhile_append_of_pos solid]
    rcases gap with _ | ⟨first, others⟩
    · rfl
    · exact List.dropWhile_cons_of_neg (stop first rfl)
  have some : (word ++ gap).isEmpty = false := by
    rw [List.isEmpty_eq_false_iff]
    exact List.append_ne_nil_of_left_ne_nil filled gap
  have within : gap <:+ stream.text := (unread ▸ List.suffix_append word gap).trans (List.drop_suffix _ _)
  refine ⟨{ stream with reading := stream.text.length - gap.length, eof := gap.isEmpty }, ?_, ?_⟩
  · rw [readWord, if_pos good, unread]
    dsimp only
    rw [start, some, if_neg Bool.false_ne_true, kept, behind]
  · exact (List.suffix_iff_eq_drop.mp within).symm

/-- A text that is one word and what is blank behind it. -/
theorem readWords_single {word gap : List α} (filled : word ≠ []) (plain : ∀ letter ∈ word, blank letter = false)
    (empty : ∀ letter ∈ gap, blank letter = true) (good : stream.good = true) (unread : stream.unread = word ++ gap)
    (count : ℕ) : (stream.readWords blank (count + 2)).1 = [word] := by
  obtain ⟨next, first, left⟩ := readWord_append filled plain empty good unread
  obtain ⟨last, second⟩ := @readWord_of_blank _ blank next (by rwa [left])
  rw [readWords, first]
  dsimp only
  rw [readWords, second]

variable [DecidableEq α] {newline : α}

theorem lines_flatMap {pieces : List (List α)} (absent : ∀ piece ∈ pieces, newline ∉ piece) :
    lines newline (pieces.flatMap fun piece => piece ++ [newline]) = pieces := by
  rw [lines, Delimited.splitOn_flatMap absent, List.getLast?_concat, if_pos rfl, List.dropLast_concat]

end

end StringStream

end CppRedis.Machine
