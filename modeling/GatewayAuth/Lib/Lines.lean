import GatewayAuth.Lib.Runs

/-!
A text as the lines it has been written in: the lines that end in a separator, and what comes after
the last of them.
-/

namespace GatewayAuth.Lib.Lines

open GatewayAuth.Lib.Runs

variable {α : Type*} [DecidableEq α] (sep : α)

/-- Put an element in front of the first line, or of the rest when there is no line. -/
def push (a : α) : List (List α) × List α → List (List α) × List α
  | ([], rest) => ([], a :: rest)
  | (line :: lines, rest) => ((a :: line) :: lines, rest)

def cut : List α → List (List α) × List α
  | [] => ([], [])
  | a :: l => if a = sep then ([] :: (cut l).1, (cut l).2) else push a (cut l)

/-- The lines that are complete, without their separators. -/
def lines (l : List α) : List (List α) := (cut sep l).1

/-- What comes after the last separator. -/
def leftover (l : List α) : List α := (cut sep l).2

@[simp] lemma lines_nil : lines sep ([] : List α) = [] := rfl
@[simp] lemma leftover_nil : leftover sep ([] : List α) = [] := rfl

variable {sep} {l t r : List α}

lemma lines_cons_sep (l : List α) : lines sep (sep :: l) = [] :: lines sep l := by
  simp [lines, cut]

lemma leftover_cons_sep (l : List α) : leftover sep (sep :: l) = leftover sep l := by
  simp [leftover, cut]

lemma cut_cons {a : α} (ha : a ≠ sep) (l : List α) : cut sep (a :: l) = push a (cut sep l) := by
  simp [cut, ha]

lemma lines_cons_of_nil {a : α} (ha : a ≠ sep) (h : lines sep l = []) :
    lines sep (a :: l) = [] ∧ leftover sep (a :: l) = a :: leftover sep l := by
  unfold lines leftover at *
  rw [cut_cons ha]
  rcases hcut : cut sep l with ⟨ls, tail⟩
  rw [hcut] at h
  cases h
  exact ⟨rfl, rfl⟩

lemma lines_cons_of_cons {a : α} (ha : a ≠ sep) {line : List α} {ls : List (List α)}
    (h : lines sep l = line :: ls) :
    lines sep (a :: l) = (a :: line) :: ls ∧ leftover sep (a :: l) = leftover sep l := by
  unfold lines leftover at *
  rw [cut_cons ha]
  rcases hcut : cut sep l with ⟨ls', tail⟩
  rw [hcut] at h
  cases h
  exact ⟨rfl, rfl⟩

lemma lines_of_plain (ht : sep ∉ t) (r : List α) :
    lines sep (t ++ sep :: r) = t :: lines sep r := by
  induction t with
  | nil => exact lines_cons_sep r
  | cons a t ih =>
    have ha : a ≠ sep := fun h => ht (h ▸ List.mem_cons_self)
    have htail := ih fun h => ht (List.mem_cons_of_mem a h)
    exact (lines_cons_of_cons ha htail).1

lemma lines_eq_nil (ht : sep ∉ t) : lines sep t = [] := by
  induction t with
  | nil => rfl
  | cons a t ih =>
    have ha : a ≠ sep := fun h => ht (h ▸ List.mem_cons_self)
    exact (lines_cons_of_nil ha (ih fun h => ht (List.mem_cons_of_mem a h))).1

/-- **A line that is written goes after what was left without a separator.** -/
lemma lines_append_line (ht : sep ∉ t) (l r : List α) :
    lines sep (l ++ t ++ sep :: r) = lines sep l ++ (leftover sep l ++ t) :: lines sep r := by
  induction l with
  | nil => exact lines_of_plain ht r
  | cons a l ih =>
    rw [List.cons_append, List.cons_append]
    by_cases ha : a = sep
    · subst ha
      rw [lines_cons_sep, lines_cons_sep, leftover_cons_sep, ih, List.cons_append]
    · rcases hl : lines sep l with _ | ⟨line, ls⟩
      · rw [hl, List.nil_append] at ih
        obtain ⟨hlines, hrest⟩ := lines_cons_of_nil ha hl
        rw [(lines_cons_of_cons ha ih).1, hlines, hrest, List.nil_append, List.cons_append]
      · rw [hl, List.cons_append] at ih
        obtain ⟨hlines, hrest⟩ := lines_cons_of_cons ha hl
        rw [(lines_cons_of_cons ha ih).1, hlines, hrest, List.cons_append]

lemma lines_append (l r : List α) : lines sep l <+: lines sep (l ++ r) := by
  induction l with
  | nil => exact List.nil_prefix
  | cons a l ih =>
    rw [List.cons_append]
    by_cases ha : a = sep
    · subst ha
      rw [lines_cons_sep, lines_cons_sep]
      exact (List.prefix_cons_inj []).mpr ih
    · rcases hl : lines sep l with _ | ⟨line, ls⟩
      · rw [(lines_cons_of_nil ha hl).1]
        exact List.nil_prefix
      · obtain ⟨more, hmore⟩ := ih
        rw [hl, List.cons_append] at hmore
        rw [(lines_cons_of_cons ha hl).1, (lines_cons_of_cons ha hmore.symm).1]
        exact ⟨more, List.cons_append⟩

lemma leftover_cons_eq_nil {a : α} (hl : l ≠ []) :
    leftover sep (a :: l) = [] ↔ leftover sep l = [] := by
  by_cases ha : a = sep
  · rw [ha, leftover_cons_sep]
  · rcases hlines : lines sep l with _ | ⟨line, ls⟩
    · -- without a line, what is left is everything
      rw [(lines_cons_of_nil ha hlines).2]
      refine iff_of_false (List.cons_ne_nil _ _) fun hrest => hl ?_
      cases l with
      | nil => rfl
      | cons b l =>
        by_cases hb : b = sep
        · rw [hb, lines_cons_sep] at hlines
          cases hlines
        · rcases hlines' : lines sep l with _ | ⟨line, ls⟩
          · rw [(lines_cons_of_nil hb hlines').2] at hrest
            cases hrest
          · rw [(lines_cons_of_cons hb hlines').1] at hlines
            cases hlines
    · rw [(lines_cons_of_cons ha hlines).2]

/-- **Nothing is left when the last piece that is not empty leaves nothing.** -/
lemma leftover_append_eq_nil (l : List α) (hr : r ≠ []) :
    leftover sep (l ++ r) = [] ↔ leftover sep r = [] := by
  induction l with
  | nil => rfl
  | cons a l ih =>
    rw [List.cons_append, leftover_cons_eq_nil (List.append_ne_nil_of_right_ne_nil l hr), ih]

lemma leftover_eq_nil_iff : leftover sep l = [] ↔ l = [] ∨ l.getLast? = some sep := by
  induction l using List.reverseRecOn with
  | nil => simp
  | append_singleton l a _ =>
    rw [leftover_append_eq_nil l (List.cons_ne_nil a []), List.getLast?_concat]
    by_cases ha : a = sep
    · simp [ha, leftover_cons_sep]
    · have hrest := (lines_cons_of_nil ha (lines_nil sep)).2
      simp [hrest, ha]

/-- Something is left of the pieces when one of them is left with something, and nothing comes
after it. -/
lemma leftover_flatten_ne_nil {ls : List (List α)} : leftover sep ls.flatten ≠ [] ↔
    ∃ before piece after, ls = before ++ piece :: after ∧ leftover sep piece ≠ [] ∧
      ∀ p ∈ after, p = [] := by
  induction ls using List.reverseRecOn with
  | nil => simp
  | append_singleton ls piece ih =>
    rw [List.flatten_append, List.flatten_singleton]
    by_cases hpiece : piece = []
    · rw [hpiece, List.append_nil, ih]
      refine ⟨?_, ?_⟩
      · rintro ⟨before, p, after, rfl, hp, hafter⟩
        refine ⟨before, p, after ++ [[]], by simp, hp, fun q hq => ?_⟩
        rcases List.mem_append.mp hq with hq | hq
        · exact hafter q hq
        · exact List.mem_singleton.mp hq
      · rintro ⟨before, p, after, heq, hp, hafter⟩
        rcases snoc_eq_append_cons.mp heq with ⟨-, rfl, -⟩ | ⟨init, rfl, rfl⟩
        · exact absurd (leftover_nil sep) hp
        · exact ⟨before, p, init, rfl, hp, fun q hq => hafter q (by simp [hq])⟩
    · rw [ne_eq, leftover_append_eq_nil _ hpiece]
      refine ⟨fun h => ⟨ls, piece, [], rfl, h, by simp⟩, ?_⟩
      rintro ⟨before, p, after, heq, hp, hafter⟩
      rcases snoc_eq_append_cons.mp heq with ⟨-, rfl, -⟩ | ⟨init, rfl, -⟩
      · exact hp
      · exact absurd (hafter piece (by simp)) hpiece

end GatewayAuth.Lib.Lines
