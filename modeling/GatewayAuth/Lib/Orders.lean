import Mathlib.Data.List.Perm.Basic

/-!
Sequences of lists each of which may come in any order, as the iterations over unordered maps do.
What a function of the concatenation gives in every order, for functions that collect and for
functions that search.
-/

namespace GatewayAuth.Lib.Orders

variable {α β : Type*}

/-- The same sequence, each list in an order of its own. -/
def Shuffled (ls' ls : List (List α)) : Prop := List.Forall₂ List.Perm ls' ls

lemma shuffled_refl (ls : List (List α)) : Shuffled ls ls := by
  induction ls with
  | nil => exact .nil
  | cons l ls ih => exact .cons (List.Perm.refl l) ih

lemma shuffled_head {l' l : List α} (h : l'.Perm l) (ls : List (List α)) :
    Shuffled (l' :: ls) (l :: ls) := .cons h (shuffled_refl ls)

lemma shuffled_cons {ls' : List (List α)} {l : List α} {ls : List (List α)} :
    Shuffled ls' (l :: ls) ↔ ∃ l' rest, l'.Perm l ∧ Shuffled rest ls ∧ ls' = l' :: rest :=
  List.forall₂_cons_right_iff

lemma flatten_shuffled {ls' ls : List (List α)} (h : Shuffled ls' ls) :
    ls'.flatten.Perm ls.flatten := List.Perm.flatten_congr h

/-- A reordering of images is the image of a reordering. -/
lemma exists_map_of_perm {f : α → β} {l : List α} {bs : List β} (h : bs.Perm (l.map f)) :
    ∃ l' : List α, l'.Perm l ∧ bs = l'.map f := by
  have himage : List.Forall₂ (fun b a => b = f a) (l.map f) l :=
    List.forall₂_map_left_iff.mpr (List.forall₂_same.mpr fun _ _ => rfl)
  obtain ⟨l', hl', hperm⟩ := List.perm_comp_forall₂ h himage
  have heq : List.Forall₂ (· = ·) bs (l'.map f) := List.forall₂_map_right_iff.mpr hl'
  rw [List.forall₂_eq_eq_eq] at heq
  exact ⟨l', hperm, heq⟩

/-- Every element of a list can come first. -/
lemma exists_perm_cons {a : α} {l : List α} (h : a ∈ l) : ∃ t, (a :: t).Perm l := by
  obtain ⟨s, t, rfl⟩ := List.append_of_mem h
  exact ⟨s ++ t, List.perm_middle.symm⟩

/-! ### Collecting -/

/-- The images of the elements can be appended in either order. -/
def AllCommute (f : α → List β) (l : List α) : Prop :=
  ∀ a ∈ l, ∀ b ∈ l, f a ++ f b = f b ++ f a

lemma flatMap_perm {f : α → List β} {l' l : List α} (h : l'.Perm l) (hf : AllCommute f l) :
    l'.flatMap f = l.flatMap f := by
  induction h with
  | nil => rfl
  | cons a h ih =>
    rw [List.flatMap_cons, List.flatMap_cons]
    rw [ih fun b hb c hc => hf b (List.mem_cons_of_mem _ hb) c (List.mem_cons_of_mem _ hc)]
  | swap a b l =>
    have hab : f b ++ f a = f a ++ f b := hf b (by simp) a (by simp)
    simp only [List.flatMap_cons]
    rw [← List.append_assoc, hab, List.append_assoc]
  | trans h₁ h₂ ih₁ ih₂ =>
    rw [ih₁ fun b hb c hc => hf b (h₂.mem_iff.mp hb) c (h₂.mem_iff.mp hc), ih₂ hf]

lemma allCommute_of_flatMap {f : α → List β} {l : List α}
    (h : ∀ l' : List α, l'.Perm l → l'.flatMap f = l.flatMap f) : AllCommute f l := by
  intro a ha b hb
  obtain ⟨t, ht⟩ := exists_perm_cons ha
  rcases List.mem_cons.mp (ht.mem_iff.mpr hb) with rfl | hbt
  · rfl
  · obtain ⟨u, hu⟩ := exists_perm_cons hbt
    have hab : (a :: b :: u).Perm l := (hu.cons a).trans ht
    have hba : (b :: a :: u).Perm l := (List.Perm.swap a b u).trans hab
    have heq := (h _ hab).trans (h _ hba).symm
    simp only [List.flatMap_cons, ← List.append_assoc] at heq
    exact List.append_cancel_right heq

/-- **What is collected from the lists is the same in every order exactly when, in each list, the
images commute.** -/
lemma flatMap_shuffled {f : α → List β} {ls : List (List α)} :
    (∀ ls', Shuffled ls' ls → ls'.flatten.flatMap f = ls.flatten.flatMap f) ↔
      ∀ l ∈ ls, AllCommute f l := by
  induction ls with
  | nil =>
    refine iff_of_true (fun ls' h => ?_) (by simp)
    cases h
    rfl
  | cons l ls ih =>
    rw [List.forall_mem_cons, ← ih]
    refine ⟨fun h => ⟨?_, fun ls' hls' => ?_⟩, ?_⟩
    · refine allCommute_of_flatMap fun l' hl' => ?_
      have heq := h (l' :: ls) (shuffled_head hl' ls)
      simpa using heq
    · have heq := h (l :: ls') (.cons (List.Perm.refl l) hls')
      simpa using heq
    · rintro ⟨hl, hls⟩ ls' hls'
      obtain ⟨l', rest, hl', hrest, rfl⟩ := shuffled_cons.mp hls'
      simp only [List.flatten_cons, List.flatMap_append]
      rw [flatMap_perm hl' hl, hls rest hrest]

/-! ### Searching -/

/-- At most one result can be found in the list. -/
def OneResult (f : α → Option β) (l : List α) : Prop :=
  ∀ a ∈ l, ∀ b ∈ l, ∀ x y, f a = some x → f b = some y → x = y

lemma findSome?_none_perm {f : α → Option β} {l' l : List α} (h : l'.Perm l)
    (hnone : l.findSome? f = none) : l'.findSome? f = none := by
  rw [List.findSome?_eq_none_iff] at hnone ⊢
  exact fun a ha => hnone a (h.mem_iff.mp ha)

lemma findSome?_perm {f : α → Option β} {l' l : List α} (h : l'.Perm l) (hf : OneResult f l) :
    l'.findSome? f = l.findSome? f := by
  rcases hl : l.findSome? f with _ | x
  · exact findSome?_none_perm h hl
  · rcases hl' : l'.findSome? f with _ | y
    · rw [findSome?_none_perm h.symm hl'] at hl
      cases hl
    · obtain ⟨a, ha, hax⟩ := List.exists_of_findSome?_eq_some hl
      obtain ⟨b, hb, hby⟩ := List.exists_of_findSome?_eq_some hl'
      rw [hf a ha b (h.mem_iff.mp hb) x y hax hby]

lemma oneResult_of_findSome? {f : α → Option β} {l : List α}
    (h : ∀ l' : List α, l'.Perm l → l'.findSome? f = l.findSome? f) : OneResult f l := by
  have hfirst : ∀ a ∈ l, ∀ x, f a = some x → l.findSome? f = some x := by
    intro a ha x hx
    obtain ⟨t, ht⟩ := exists_perm_cons ha
    rw [← h _ ht, List.findSome?_cons, hx]
  intro a ha b hb x y hx hy
  exact Option.some.inj ((hfirst a ha x hx).symm.trans (hfirst b hb y hy))

/-- **What is found first in the lists is the same in every order exactly when only one result can
be found in the first list that has one.** -/
lemma findSome?_shuffled {f : α → Option β} {ls : List (List α)} :
    (∀ ls', Shuffled ls' ls → ls'.flatten.findSome? f = ls.flatten.findSome? f) ↔
      ∀ l, ls.find? (fun l => (l.findSome? f).isSome) = some l → OneResult f l := by
  induction ls with
  | nil =>
    refine iff_of_true (fun ls' h => ?_) (by simp)
    cases h
    rfl
  | cons l ls ih =>
    rcases hl : l.findSome? f with _ | x
    · rw [List.find?_cons_of_neg (by simp [hl]), ← ih]
      refine ⟨fun h ls' hls' => ?_, fun h ls' hls' => ?_⟩
      · have heq := h (l :: ls') (.cons (List.Perm.refl l) hls')
        simpa [hl] using heq
      · obtain ⟨l', rest, hl', hrest, rfl⟩ := shuffled_cons.mp hls'
        simp [hl, findSome?_none_perm hl' hl, h rest hrest]
    · rw [List.find?_cons_of_pos (by simp [hl])]
      simp only [Option.some.injEq, forall_eq']
      refine ⟨fun h => ?_, fun h ls' hls' => ?_⟩
      · refine oneResult_of_findSome? fun l' hl' => ?_
        have heq := h (l' :: ls) (shuffled_head hl' ls)
        rcases hl'' : l'.findSome? f with _ | y
        · rw [findSome?_none_perm hl'.symm hl''] at hl
          cases hl
        · simpa [hl, hl''] using heq
      · obtain ⟨l', rest, hl', -, rfl⟩ := shuffled_cons.mp hls'
        simp [findSome?_perm hl' h, hl]

end GatewayAuth.Lib.Orders
