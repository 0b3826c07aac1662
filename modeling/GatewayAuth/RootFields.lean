import Mathlib.Algebra.BigOperators.Group.List.Basic
import GatewayAuth.Classify

/-!
The fragment walk finds exactly the root fields.

The walk marks a fragment before it descends into it, so while it runs a marked fragment may
not have contributed all its fields. What a call guarantees on return is about the fragments
it has marked itself: everything at their root has been collected or marked. Started from
nothing, every marked fragment is one of these.
-/

namespace GatewayAuth.RootFields

open GatewayAuth.Document GatewayAuth.Classify

variable (fragments : Fragments)

/-! ### Termination -/

/-- The nested calls the fragments not yet visited may still need. -/
def pending (visited : List String) (entries : List (Sigma fun _ : String => FragmentDefinition)) :
    ℕ :=
  ((entries.filter fun e => e.1 ∉ visited).map fun e => setDepth e.2.selectionSet).sum

lemma pending_mono {visited visited' : List String} (h : visited ⊆ visited')
    (entries : List (Sigma fun _ : String => FragmentDefinition)) :
    pending visited' entries ≤ pending visited entries := by
  induction entries with
  | nil => simp [pending]
  | cons e entries ih =>
    unfold pending at ih ⊢
    by_cases h' : e.1 ∈ visited'
    · by_cases hv : e.1 ∈ visited
      · simpa [hv, h'] using ih
      · simp only [List.filter_cons, h', hv, not_true, not_false_iff, decide_true, decide_false,
          if_true, Bool.false_eq_true, if_false, List.map_cons, List.sum_cons]
        omega
    · have hv : e.1 ∉ visited := fun hv => h' (h hv)
      simpa [hv, h'] using ih

/-- Marking a defined fragment pays for entering it. -/
lemma pending_visit {visited : List String} {name : String} {frag : FragmentDefinition}
    {entries : List (Sigma fun _ : String => FragmentDefinition)} (hn : name ∉ visited)
    (hf : ⟨name, frag⟩ ∈ entries) :
    setDepth frag.selectionSet + pending (name :: visited) entries ≤ pending visited entries := by
  induction entries with
  | nil => simp at hf
  | cons e entries ih =>
    have hrest := pending_mono (List.subset_cons_self name visited) entries
    rcases List.mem_cons.mp hf with rfl | hf
    · simp only [pending, List.filter_cons, List.mem_cons, true_or, not_true, decide_false,
        Bool.false_eq_true, if_false, hn, not_false_iff, decide_true, if_true, List.map_cons,
        List.sum_cons] at hrest ⊢
      omega
    · have ih := ih hf
      unfold pending at ih ⊢
      by_cases h1 : e.1 ∈ visited
      · simpa [h1] using ih
      · by_cases h2 : e.1 = name
        · simp only [List.filter_cons, List.mem_cons, h2, true_or, not_true, decide_false,
            Bool.false_eq_true, if_false, hn, not_false_iff, decide_true, if_true, List.map_cons,
            List.sum_cons]
          simp only [List.mem_cons] at ih
          omega
        · simp only [List.filter_cons, List.mem_cons, h1, h2, or_self, not_false_iff,
            decide_true, if_true, List.map_cons, List.sum_cons]
          simp only [List.mem_cons] at ih
          omega

lemma setDepth_pos (set : SelectionSet) : 0 < setDepth set := by
  cases set <;> simp [setDepth]

/-- **Enough nested calls end the walk**, and marks are never taken back. -/
lemma walk_terminates (k : ℕ) (set : SelectionSet) (w : Walk)
    (h : setDepth set + pending w.visited fragments.entries ≤ k) :
    ∃ w', collectTopFieldsWithin fragments k set w = some w' ∧ w.visited ⊆ w'.visited := by
  induction k generalizing set w with
  | zero => have := setDepth_pos set; omega
  | succ k ih =>
    simp only [collectTopFieldsWithin]
    induction set generalizing w with
    | nil => exact ⟨w, rfl, List.Subset.refl _⟩
    | cons item set ihs =>
      simp only [setDepth] at h
      -- the first selection, then the rest from where it ends
      obtain ⟨w₁, h₁, hsub⟩ : ∃ w₁, walkItem fragments (collectTopFieldsWithin fragments k) w item
          = some w₁ ∧ w.visited ⊆ w₁.visited := by
        cases item with
        | field a n s =>
          refine ⟨w.push n, rfl, ?_⟩
          unfold Walk.push
          split_ifs <;> exact List.Subset.refl _
        | inlineFragment s =>
          simp only [itemDepth] at h
          exact ih s w (by omega)
        | fragmentSpread f =>
          simp only [walkItem]
          split_ifs with hv
          · exact ⟨w, rfl, List.Subset.refl _⟩
          · rcases hl : fragments.lookup f with _ | frag
            · exact ⟨w.visit f, rfl, List.subset_cons_self _ _⟩
            · have hp := pending_visit hv (AList.mem_lookup_iff.mp hl)
              have hpos := setDepth_pos set
              obtain ⟨w₁, h₁, hsub⟩ := ih frag.selectionSet (w.visit f)
                (by simp only [Walk.visit]; omega)
              exact ⟨w₁, h₁, List.Subset.trans (List.subset_cons_self _ _) hsub⟩
      have hp := pending_mono hsub fragments.entries
      obtain ⟨w₂, h₂, hsub₂⟩ := ihs w₁ (by omega)
      exact ⟨w₂, by rw [List.foldlM_cons, h₁]; exact h₂, List.Subset.trans hsub hsub₂⟩

/-! ### What a walk collects -/

/-- Everything at the root of `set` has been collected or marked. -/
inductive Covered (w : Walk) : SelectionSet → Prop where
  | mk {set : SelectionSet}
    (field : ∀ a n s, Selection.field a n s ∈ set → n ∈ w.out)
    (spread : ∀ f, Selection.fragmentSpread f ∈ set → f ∈ w.visited)
    (inline : ∀ s, Selection.inlineFragment s ∈ set → Covered w s) : Covered w set

/-- Nothing is taken back. -/
structure Walk.Le (w w' : Walk) : Prop where
  out : w.out ⊆ w'.out
  visited : w.visited ⊆ w'.visited

lemma Walk.Le.refl (w : Walk) : Walk.Le w w := ⟨List.Subset.refl _, List.Subset.refl _⟩

lemma Walk.Le.trans {w₁ w₂ w₃ : Walk} (h : Walk.Le w₁ w₂) (h' : Walk.Le w₂ w₃) :
    Walk.Le w₁ w₃ :=
  ⟨List.Subset.trans h.out h'.out, List.Subset.trans h.visited h'.visited⟩

lemma Covered.mono {w w' : Walk} (h : Walk.Le w w') {set : SelectionSet} (hc : Covered w set) :
    Covered w' set := by
  induction hc with
  | mk field spread _ ih =>
    exact ⟨fun a n s hn => h.out (field a n s hn), fun f hf => h.visited (spread f hf), ih⟩

/-- What a call guarantees on return. -/
structure Post (w w' : Walk) (set : SelectionSet) : Prop where
  le : Walk.Le w w'
  covered : Covered w' set
  entered : ∀ f ∈ w'.visited, f ∉ w.visited → ∀ frag, fragments.lookup f = some frag →
    Covered w' frag.selectionSet
  sound : ∀ n ∈ w'.out, n ∈ w.out ∨ RootField fragments set n

variable {fragments}

lemma Post.nil (w : Walk) : Post fragments w w [] where
  le := .refl w
  covered := ⟨by simp, by simp, by simp⟩
  entered f hf hn := absurd hf hn
  sound n hn := .inl hn

/-- Guarantees compose along a selection set. -/
lemma Post.cons {w w₁ w₂ : Walk} {item : Selection} {set : SelectionSet}
    (h₁ : Post fragments w w₁ [item]) (h₂ : Post fragments w₁ w₂ set) :
    Post fragments w w₂ (item :: set) where
  le := h₁.le.trans h₂.le
  covered := by
    obtain ⟨f₁, s₁, i₁⟩ := h₁.covered.mono h₂.le
    obtain ⟨f₂, s₂, i₂⟩ := h₂.covered
    refine ⟨fun a n s hn => ?_, fun f hf => ?_, fun s hs => ?_⟩
    · rcases List.mem_cons.mp hn with rfl | hn
      · exact f₁ a n s (by simp)
      · exact f₂ a n s hn
    · rcases List.mem_cons.mp hf with rfl | hf
      · exact s₁ f (by simp)
      · exact s₂ f hf
    · rcases List.mem_cons.mp hs with rfl | hs
      · exact i₁ s (by simp)
      · exact i₂ s hs
  entered f hf hn frag hl := by
    by_cases hm : f ∈ w₁.visited
    · exact (h₁.entered f hm hn frag hl).mono h₂.le
    · exact h₂.entered f hf hm frag hl
  sound n hn := by
    rcases h₂.sound n hn with hn | hn
    · rcases h₁.sound n hn with hn | hn
      · exact .inl hn
      · exact .inr (hn.mono (by simp))
    · exact .inr (hn.mono (by simp))

lemma visited_push (w : Walk) (name : String) : (w.push name).visited = w.visited := by
  unfold Walk.push
  split_ifs <;> rfl

lemma mem_out_push (w : Walk) (name m : String) :
    m ∈ (w.push name).out ↔ m ∈ w.out ∨ m = name := by
  unfold Walk.push
  split_ifs with h
  · exact ⟨.inl, by rintro (h | rfl) <;> assumption⟩
  · simp

lemma post_field (w : Walk) (a : Option String) (n : String) (s : SelectionSet) :
    Post fragments w (w.push n) [.field a n s] := by
  have hv := visited_push w n
  have hout := mem_out_push w n
  refine ⟨⟨fun m hm => (hout m).mpr (.inl hm), by rw [hv]; exact List.Subset.refl _⟩,
    ⟨?_, by simp, by simp⟩, fun f hf hn => absurd (hv ▸ hf) hn, fun m hm => ?_⟩
  · rintro a' n' s' h
    simp only [List.mem_singleton, Selection.field.injEq] at h
    exact (hout n').mpr (.inr h.2.1)
  · rcases (hout m).mp hm with hm | rfl
    · exact .inl hm
    · exact .inr (.field (List.mem_singleton_self _))

lemma post_spread_visited {w : Walk} {f : String} (h : f ∈ w.visited) :
    Post fragments w w [.fragmentSpread f] where
  le := .refl w
  covered := ⟨by simp, by simpa using h, by simp⟩
  entered g hg hn := absurd hg hn
  sound n hn := .inl hn

lemma le_visit (w : Walk) (f : String) : Walk.Le w (w.visit f) :=
  ⟨List.Subset.refl _, List.subset_cons_self _ _⟩

lemma post_spread_undefined {w : Walk} {f : String} (h : fragments.lookup f = none) :
    Post fragments w (w.visit f) [.fragmentSpread f] where
  le := le_visit w f
  covered := ⟨by simp, by simp [Walk.visit], by simp⟩
  entered g hg hn frag hl := by
    rcases List.mem_cons.mp hg with rfl | hg
    · rw [h] at hl; cases hl
    · exact absurd hg hn
  sound n hn := .inl hn

lemma post_spread_defined {w w' : Walk} {f : String} {frag : FragmentDefinition}
    (hl : fragments.lookup f = some frag)
    (h : Post fragments (w.visit f) w' frag.selectionSet) :
    Post fragments w w' [.fragmentSpread f] where
  le := (le_visit w f).trans h.le
  covered := ⟨by simp, by simpa using h.le.visited (by simp [Walk.visit]), by simp⟩
  entered g hg hn frag' hl' := by
    by_cases hgf : g = f
    · subst hgf
      rw [hl] at hl'
      cases hl'
      exact h.covered
    · exact h.entered g hg (by simp [Walk.visit, hgf, hn]) frag' hl'
  sound n hn := by
    rcases h.sound n hn with hn | hn
    · exact .inl hn
    · exact .inr (.fragmentSpread (List.mem_singleton_self _) hl hn)

lemma post_inline {w w' : Walk} {s : SelectionSet} (h : Post fragments w w' s) :
    Post fragments w w' [.inlineFragment s] where
  le := h.le
  covered := ⟨by simp, by simp, by
    intro s' hs
    simp only [List.mem_singleton, Selection.inlineFragment.injEq] at hs
    exact hs ▸ h.covered⟩
  entered := h.entered
  sound n hn := (h.sound n hn).imp_right (.inlineFragment (List.mem_singleton_self _))

lemma walk_post {k : ℕ} {set : SelectionSet} {w w' : Walk}
    (h : collectTopFieldsWithin fragments k set w = some w') : Post fragments w w' set := by
  induction k generalizing set w w' with
  | zero => cases h
  | succ k ih =>
    simp only [collectTopFieldsWithin] at h
    induction set generalizing w with
    | nil => cases h; exact .nil _
    | cons item set ihs =>
      rw [List.foldlM_cons] at h
      obtain ⟨w₁, h₁, h⟩ := Option.bind_eq_some_iff.mp h
      refine Post.cons ?_ (ihs h)
      cases item with
      | field a n s => cases h₁; exact post_field _ a n s
      | inlineFragment s => exact post_inline (ih h₁)
      | fragmentSpread f =>
        simp only [walkItem] at h₁
        split_ifs at h₁ with hv
        · cases h₁; exact post_spread_visited hv
        · rcases hl : fragments.lookup f with _ | frag
          · rw [hl] at h₁; cases h₁; exact post_spread_undefined hl
          · rw [hl] at h₁; exact post_spread_defined hl (ih h₁)

/-! ### The walk of an operation -/

lemma collectTopFields_eq (fragments : Fragments) (set : SelectionSet) :
    ∃ w, collectTopFieldsWithin fragments (callLimit fragments set) set ⟨[], []⟩ = some w ∧
      collectTopFields fragments set = w.out := by
  obtain ⟨w, h, -⟩ := walk_terminates fragments (callLimit fragments set) set ⟨[], []⟩
    (by simp [callLimit, pending])
  exact ⟨w, h, by rw [collectTopFields, h]⟩

lemma mem_out_of_rootField {w : Walk}
    (hclosed : ∀ f ∈ w.visited, ∀ frag, fragments.lookup f = some frag →
      Covered w frag.selectionSet)
    {set : SelectionSet} {n : String} (hn : RootField fragments set n) (hc : Covered w set) :
    n ∈ w.out := by
  induction hn with
  | field hm => obtain ⟨field, -, -⟩ := hc; exact field _ _ _ hm
  | inlineFragment hm _ ih => obtain ⟨-, -, inline⟩ := hc; exact ih (inline _ hm)
  | fragmentSpread hm hl _ ih =>
    obtain ⟨-, spread, -⟩ := hc
    exact ih (hclosed _ (spread _ hm) _ hl)

/-- **The walk finds exactly the root fields.** -/
lemma mem_collectTopFields {set : SelectionSet} {n : String} :
    n ∈ collectTopFields fragments set ↔ RootField fragments set n := by
  obtain ⟨w, h, he⟩ := collectTopFields_eq fragments set
  have hpost := walk_post h
  rw [he]
  refine ⟨?_, ?_⟩
  · intro hn
    simpa using hpost.sound n hn
  · intro hn
    exact mem_out_of_rootField (fun f hf => hpost.entered f hf (by simp)) hn hpost.covered

end GatewayAuth.RootFields
