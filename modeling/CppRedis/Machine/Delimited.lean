import Mathlib.Data.List.TakeWhile

/-! # Delimited text

The text between the first opening mark and the first closing mark after it, where a text has both, and the
part of a text that counts when such a tag stands for the whole. Pieces that a mark separates or ends, and what is
found in them.
-/

namespace CppRedis.Machine.Delimited

variable {α : Type*} [DecidableEq α] (opening closing : α)

/-- A tag is what stands between the first opening mark and the first closing mark after it. -/
def Tagged (text tag : List α) : Prop :=
  ∃ before after, text = before ++ opening :: (tag ++ closing :: after) ∧ opening ∉ before ∧ closing ∉ tag

def tag? (text : List α) : Option (List α) :=
  match text.dropWhile (· ≠ opening) with
  | [] => none
  | _ :: rest =>
      match rest.dropWhile (· ≠ closing) with
      | [] => none
      | _ :: _ => some (rest.takeWhile (· ≠ closing))

/-- The tag where there is one and it is not empty, and the whole text otherwise. -/
def effective (text : List α) : List α :=
  match tag? opening closing text with
  | some (first :: tag) => first :: tag
  | _ => text

section

variable {opening closing} {text before after : List α} {mark : α}

theorem takeWhile_mark (absent : mark ∉ before) : (before ++ mark :: after).takeWhile (· ≠ mark) = before := by
  have all : ∀ other ∈ before, decide (other ≠ mark) = true := by
    intro other member
    exact decide_eq_true (ne_of_mem_of_not_mem member absent)
  rw [List.takeWhile_append_of_pos all, List.takeWhile_cons_of_neg
    (by simp only [ne_eq, not_true_eq_false, decide_false,
    Bool.false_eq_true, not_false_eq_true]), List.append_nil]

theorem dropWhile_mark (absent : mark ∉ before) :
    (before ++ mark :: after).dropWhile (· ≠ mark) = mark :: after := by
  have all : ∀ other ∈ before, decide (other ≠ mark) = true := by
    intro other member
    exact decide_eq_true (ne_of_mem_of_not_mem member absent)
  rw [List.dropWhile_append_of_pos all, List.dropWhile_cons_of_neg
    (by simp only [ne_eq, not_true_eq_false, decide_false,
    Bool.false_eq_true, not_false_eq_true])]

theorem takeWhile_absent (absent : mark ∉ text) : text.takeWhile (· ≠ mark) = text := by
  apply List.takeWhile_eq_self_iff.mpr
  intro other member
  exact decide_eq_true (ne_of_mem_of_not_mem member absent)

theorem dropWhile_absent (absent : mark ∉ text) : text.dropWhile (· ≠ mark) = [] := by
  apply List.dropWhile_eq_nil_iff.mpr
  intro other member
  exact decide_eq_true (ne_of_mem_of_not_mem member absent)

theorem tag?_of_tagged {tag : List α} (tagged : Tagged opening closing text tag) :
    tag? opening closing text = some tag := by
  obtain ⟨before, after, rfl, first, second⟩ := tagged
  rw [tag?, dropWhile_mark first]
  dsimp only
  rw [dropWhile_mark second, takeWhile_mark second]

theorem tag?_of_unopened (absent : opening ∉ text) : tag? opening closing text = none := by
  rw [tag?, dropWhile_absent absent]

theorem tag?_of_unclosed (first : opening ∉ before) (absent : closing ∉ after) :
    tag? opening closing (before ++ opening :: after) = none := by
  rw [tag?, dropWhile_mark first]
  dsimp only
  rw [dropWhile_absent absent]

/-- A text has no opening mark, or none that is closed, or a tag. -/
theorem shape (opening closing : α) (text : List α) :
    opening ∉ text ∨
      (∃ before after, text = before ++ opening :: after ∧ opening ∉ before ∧ closing ∉ after) ∨
      ∃ tag, Tagged opening closing text tag := by
  by_cases opened : opening ∈ text
  · obtain ⟨before, rest, rfl, first⟩ := List.eq_append_cons_of_mem opened
    by_cases closed : closing ∈ rest
    · obtain ⟨tag, after, rfl, second⟩ := List.eq_append_cons_of_mem closed
      exact .inr (.inr ⟨tag, before, after, rfl, first, second⟩)
    · exact .inr (.inl ⟨before, rest, rfl, first, closed⟩)
  · exact .inl opened

theorem effective_of_tagged {tag : List α} (tagged : Tagged opening closing text tag) :
    effective opening closing text = if tag = [] then text else tag := by
  rw [effective, tag?_of_tagged tagged]
  cases tag with
  | nil => rfl
  | cons first tag => rfl

theorem effective_of_untagged (untagged : ∀ tag, ¬ Tagged opening closing text tag) :
    effective opening closing text = text := by
  rcases shape opening closing text with unopened | ⟨before, after, rfl, first, unclosed⟩ | ⟨tag, tagged⟩
  · rw [effective, tag?_of_unopened unopened]
  · rw [effective, tag?_of_unclosed first unclosed]
  · exact absurd tagged (untagged tag)

/-- Without a closing mark the whole text counts. -/
theorem effective_of_unclosed (absent : closing ∉ text) : effective opening closing text = text := by
  apply effective_of_untagged
  rintro tag ⟨before, after, rfl, -, -⟩
  simp only [List.mem_append, List.mem_cons, true_or, or_true, not_true_eq_false] at absent

/-- What two loops compute that stop at the first opening mark and at the first closing mark after it, or at
the end. -/
theorem effective_scan (opening closing : α) (text : List α) {start stop : ℕ}
    (opens : start = (text.takeWhile (· ≠ opening)).length)
    (closes : stop = start + 1 + ((text.drop (start + 1)).takeWhile (· ≠ closing)).length) :
    effective opening closing text =
      if start = text.length then text
      else if stop = text.length ∨ stop = start + 1 then text
      else (text.drop (start + 1)).take (stop - start - 1) := by
  have behind : ∀ before after : List α, (before ++ opening :: after).drop (before.length + 1) = after := by
    intro before after
    rw [List.drop_append, List.drop_of_length_le (Nat.le_succ _), Nat.add_sub_cancel_left]
    rfl
  rcases shape opening closing text with unopened | ⟨before, after, rfl, first, unclosed⟩ | ⟨tag, tagged⟩
  · rw [takeWhile_absent unopened] at opens
    rw [if_pos opens, effective, tag?_of_unopened unopened]
  · rw [takeWhile_mark first] at opens
    subst opens
    rw [behind, takeWhile_absent unclosed] at closes
    have inside : ¬ before.length = (before ++ opening :: after).length := by
      rw [List.length_append, List.length_cons]
      omega
    have last : stop = (before ++ opening :: after).length := by
      rw [closes, List.length_append, List.length_cons]
      omega
    rw [if_neg inside, if_pos (Or.inl last), effective, tag?_of_unclosed first unclosed]
  · rw [effective_of_tagged tagged]
    obtain ⟨before, after, rfl, first, second⟩ := tagged
    rw [takeWhile_mark first] at opens
    subst opens
    rw [behind, takeWhile_mark second] at closes
    have inside : ¬ before.length = (before ++ opening :: (tag ++ closing :: after)).length := by
      rw [List.length_append, List.length_cons]
      omega
    have early : ¬ stop = (before ++ opening :: (tag ++ closing :: after)).length := by
      rw [closes, List.length_append, List.length_cons, List.length_append, List.length_cons]
      omega
    have span : stop - before.length - 1 = tag.length := by omega
    rw [if_neg inside, behind, span, List.take_left]
    by_cases empty : tag = []
    · have next : stop = before.length + 1 := by
        rw [closes, empty, List.length_nil]
      rw [if_pos empty, if_pos (.inr next)]
    · have next : ¬ stop = before.length + 1 := by
        have longer := List.length_pos_iff.mpr empty
        omega
      rw [if_neg empty, if_neg (not_or.mpr ⟨early, next⟩)]

end

section

variable {mark : α} {pattern : List α}

/-- Pieces that end with a mark, and nothing behind the last one. -/
theorem splitOn_flatMap {pieces : List (List α)} (absent : ∀ piece ∈ pieces, mark ∉ piece) :
    (pieces.flatMap fun piece => piece ++ [mark]).splitOn mark = pieces ++ [[]] := by
  induction pieces with
  | nil => rfl
  | cons piece pieces ih =>
    rw [List.flatMap_cons, List.append_assoc, List.singleton_append,
      List.splitOn_append_cons_self_of_not_mem (absent piece List.mem_cons_self),
      ih fun other member => absent other (List.mem_cons_of_mem _ member)]
    rfl

omit [DecidableEq α] in
/-- A pattern without the mark does not reach across it. -/
theorem infix_append_cons (absent : mark ∉ pattern) {before after : List α} :
    pattern <:+: before ++ mark :: after ↔ pattern <:+: before ∨ pattern <:+: after := by
  have starts : ∀ {start rest : List α}, start ++ rest = pattern ∨ rest ++ start = pattern →
      start <+: mark :: after → start = [] := by
    intro start rest part within
    rcases List.prefix_cons_iff.mp within with empty | ⟨others, rfl, _⟩
    · exact empty
    · refine absurd ?_ absent
      rcases part with rfl | rfl
      · exact List.mem_cons_self
      · exact List.mem_append_right _ List.mem_cons_self
  rw [List.infix_append_iff]
  constructor
  · rintro (early | late | ⟨front, back, rfl, ends, begins⟩)
    · exact .inl early
    · rcases List.infix_cons_iff.mp late with here | later
      · rw [starts (.inl (List.append_nil _)) here]
        exact .inl (List.nil_infix)
      · exact .inr later
    · rw [starts (.inr rfl) begins, List.append_nil]
      exact .inl ends.isInfix
  · rintro (early | late)
    · exact .inl early
    · exact .inr (.inl (List.infix_cons late))

omit [DecidableEq α] in
theorem infix_intercalate (absent : mark ∉ pattern) (filled : pattern ≠ []) {pieces : List (List α)} :
    pattern <:+: [mark].intercalate pieces ↔ ∃ piece ∈ pieces, pattern <:+: piece := by
  induction pieces with
  | nil =>
    refine iff_of_false (fun wrong => filled (List.infix_nil.mp wrong)) ?_
    rintro ⟨piece, member, _⟩
    cases member
  | cons piece pieces ih =>
    rcases pieces with _ | ⟨next, pieces⟩
    · simp only [List.intercalate_singleton, List.mem_singleton, exists_eq_left]
    · rw [List.intercalate_cons_cons, List.append_assoc, List.singleton_append, infix_append_cons absent, ih]
      simp only [List.mem_cons, exists_eq_or_imp]

end

end CppRedis.Machine.Delimited
