import Mathlib.Data.List.Basic

/-!
The words of a list cut at separators: its maximal runs of other elements. Words put together with
any gaps between them are read back.
-/

namespace GatewayAuth.Lib.Words

variable {α : Type*} (sep : α → Bool)

def words (l : List α) : List (List α) := (l.splitOnP sep).filter fun w => !w.isEmpty

/-- A word: some elements, none of them a separator. -/
structure IsWord (w : List α) : Prop where
  ne_nil : w ≠ []
  plain : ∀ a ∈ w, sep a = false

def Blank (l : List α) : Prop := ∀ a ∈ l, sep a = true

/-- The words in order, with a gap of at least one separator between any two. -/
inductive Joined : List (List α) → List α → Prop
  | none : Joined [] []
  | one (w : List α) : Joined [w] w
  | more {w w' gap l : List α} {ws : List (List α)} : gap ≠ [] → Blank sep gap →
      Joined (w' :: ws) l → Joined (w :: w' :: ws) (w ++ gap ++ l)

/-- `w` is a word of `l` that could not be longer at either end. -/
def MaximalRun (l w : List α) : Prop :=
  IsWord sep w ∧ ∃ pre post, l = pre ++ w ++ post ∧
    (pre = [] ∨ ∃ pre' a, pre = pre' ++ [a] ∧ sep a = true) ∧
    (post = [] ∨ ∃ a post', post = a :: post' ∧ sep a = true)

variable {sep} {l l' w : List α} {a : α}

@[simp] lemma words_nil : words sep [] = [] := rfl

lemma words_append_cons (l l' : List α) (ha : sep a = true) :
    words sep (l ++ a :: l') = words sep l ++ words sep l' := by
  unfold words
  rw [List.splitOnP_append_cons l l' ha, List.filter_append]

lemma words_of_isWord (hw : IsWord sep w) : words sep w = [w] := by
  unfold words
  rw [List.splitOnP_eq_singleton hw.plain]
  simp [hw.ne_nil]

lemma words_blank_append (h : Blank sep l) : words sep (l ++ l') = words sep l' := by
  induction l with
  | nil => rfl
  | cons a l ih =>
    have hcons := words_append_cons [] (l ++ l') (h a List.mem_cons_self)
    rw [List.nil_append] at hcons
    rw [List.cons_append, hcons]
    exact ih fun b hb => h b (List.mem_cons_of_mem _ hb)

lemma words_blank (h : Blank sep l) : words sep l = [] := by
  rw [← List.append_nil l, words_blank_append h, words_nil]

lemma words_append_blank (h : Blank sep l') : words sep (l ++ l') = words sep l := by
  cases l' with
  | nil => rw [List.append_nil]
  | cons a l' =>
    rw [words_append_cons _ _ (h a List.mem_cons_self),
      words_blank fun b hb => h b (List.mem_cons_of_mem _ hb), List.append_nil]

lemma words_joined {ws : List (List α)} (hws : ∀ w ∈ ws, IsWord sep w) (h : Joined sep ws l) :
    words sep l = ws := by
  induction h with
  | none => rfl
  | one w => exact words_of_isWord (hws w List.mem_cons_self)
  | @more w w' gap l ws hne hblank _ ih =>
    cases gap with
    | nil => exact absurd rfl hne
    | cons a gap =>
      rw [List.append_assoc, List.cons_append, words_append_cons _ _ (hblank a List.mem_cons_self),
        words_of_isWord (hws w List.mem_cons_self),
        words_blank_append fun b hb => hblank b (List.mem_cons_of_mem _ hb),
        ih fun v hv => hws v (List.mem_cons_of_mem _ hv)]
      rfl

/-- **Words joined by any gaps are read back**, whatever separators stand around them. -/
theorem words_spaced {lead trail : List α} {ws : List (List α)} (hws : ∀ w ∈ ws, IsWord sep w)
    (h : Joined sep ws l) (hlead : Blank sep lead) (htrail : Blank sep trail) :
    words sep (lead ++ l ++ trail) = ws := by
  rw [words_append_blank htrail, words_blank_append hlead, words_joined hws h]

lemma MaximalRun.mem_words (h : MaximalRun sep l w) : w ∈ words sep l := by
  obtain ⟨hw, pre, post, rfl, hpre, hpost⟩ := h
  have hright : w ∈ words sep (w ++ post) := by
    rcases hpost with rfl | ⟨a, post, rfl, ha⟩
    · rw [List.append_nil, words_of_isWord hw]
      exact List.mem_singleton_self w
    · rw [words_append_cons _ _ ha, words_of_isWord hw]
      exact List.mem_append_left _ (List.mem_singleton_self w)
  rcases hpre with rfl | ⟨pre, a, rfl, ha⟩
  · exact hright
  · rw [List.append_assoc, List.append_assoc, List.singleton_append, words_append_cons _ _ ha]
    exact List.mem_append_right _ hright

/-- A run that is maximal behind a separator is maximal in the whole list. -/
lemma MaximalRun.append_cons (h : MaximalRun sep l' w) (ha : sep a = true) :
    MaximalRun sep (l ++ a :: l') w := by
  obtain ⟨hw, pre, post, rfl, hpre, hpost⟩ := h
  refine ⟨hw, l ++ a :: pre, post, by simp, .inr ?_, hpost⟩
  rcases hpre with rfl | ⟨pre, b, rfl, hb⟩
  · exact ⟨l, a, rfl, ha⟩
  · exact ⟨l ++ a :: pre, b, by simp, hb⟩

lemma exists_cut (l : List α) : (∀ a ∈ l, sep a = false) ∨
    ∃ first a rest, l = first ++ a :: rest ∧ (∀ b ∈ first, sep b = false) ∧ sep a = true := by
  induction l with
  | nil => exact .inl (by simp)
  | cons b l ih =>
    by_cases hb : sep b = true
    · exact .inr ⟨[], b, l, rfl, by simp, hb⟩
    · have hb' : sep b = false := by simpa using hb
      rcases ih with h | ⟨first, a, rest, rfl, hfirst, ha⟩
      · exact .inl (List.forall_mem_cons.mpr ⟨hb', h⟩)
      · exact .inr ⟨b :: first, a, rest, rfl, List.forall_mem_cons.mpr ⟨hb', hfirst⟩, ha⟩

lemma maximalRun_of_mem_words (h : w ∈ words sep l) : MaximalRun sep l w := by
  induction hn : l.length using Nat.strongRecOn generalizing l with
  | _ n ih =>
    rcases @exists_cut _ sep l with hplain | ⟨first, a, rest, rfl, hfirst, ha⟩
    · cases l with
      | nil => cases h
      | cons b l =>
        have hword : IsWord sep (b :: l) := ⟨by simp, hplain⟩
        rw [words_of_isWord hword] at h
        cases List.mem_singleton.mp h
        exact ⟨hword, [], [], by simp, .inl rfl, .inl rfl⟩
    · rw [words_append_cons _ _ ha] at h
      rcases List.mem_append.mp h with h | h
      · cases first with
        | nil => cases h
        | cons b first =>
          have hword : IsWord sep (b :: first) := ⟨by simp, hfirst⟩
          rw [words_of_isWord hword] at h
          cases List.mem_singleton.mp h
          exact ⟨hword, [], a :: rest, by simp, .inl rfl, .inr ⟨a, rest, rfl, ha⟩⟩
      · have hlt : rest.length < n := by
          rw [← hn, List.length_append, List.length_cons]
          omega
        exact (ih _ hlt h rfl).append_cons ha

/-- **The words of a list are its maximal runs.** -/
theorem mem_words_iff : w ∈ words sep l ↔ MaximalRun sep l w :=
  ⟨maximalRun_of_mem_words, MaximalRun.mem_words⟩

end GatewayAuth.Lib.Words
