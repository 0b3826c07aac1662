import Mathlib.Data.List.Basic

/-!
Depth-first search with a limit on nested calls, over a graph given by the successors of each
vertex in order.

A vertex is marked when it is met, so a call goes down only from the first place at which its
vertex is met. What has been marked when a call begins is told by reachability alone: the vertices
whose calls are open, and those reachable from what was listed before without going through an
open one. So the depth of the calls is the length of the longest chain of vertices each met first
inside the one before.
-/

namespace GatewayAuth.Lib.DepthFirst

variable {V : Type*} (succ : V → List V)

/-- `v` can be reached from the vertices of `l` without going through one of `opened`. -/
inductive Reach (opened : List V) : List V → V → Prop
  | mem {l : List V} {v : V} : v ∈ l → Reach opened l v
  | step {l : List V} {u v : V} : u ∈ l → u ∉ opened → Reach opened (succ u) v →
      Reach opened l v

variable {succ} {opened l l' : List V} {u v : V}

/-! ### Reachability -/

lemma reach_subset (hl : l ⊆ l') (h : Reach succ opened l v) : Reach succ opened l' v := by
  cases h with
  | mem hm => exact .mem (hl hm)
  | step hm hu h => exact .step (hl hm) hu h

@[simp] lemma not_reach_nil : ¬Reach succ opened [] v := by
  rintro (h | ⟨h, -, -⟩) <;> cases h

lemma reach_append :
    Reach succ opened (l ++ l') v ↔ Reach succ opened l v ∨ Reach succ opened l' v := by
  refine ⟨?_, ?_⟩
  · rintro (hm | ⟨hm, hu, h⟩)
    · exact (List.mem_append.mp hm).imp .mem .mem
    · exact (List.mem_append.mp hm).imp (.step · hu h) (.step · hu h)
  · rintro (h | h)
    · exact reach_subset (List.subset_append_left l l') h
    · exact reach_subset (List.subset_append_right l l') h

lemma reach_singleton :
    Reach succ opened [u] v ↔ v = u ∨ (u ∉ opened ∧ Reach succ opened (succ u) v) := by
  refine ⟨?_, ?_⟩
  · rintro (hm | ⟨hm, hu, h⟩)
    · exact .inl (List.mem_singleton.mp hm)
    · cases List.mem_singleton.mp hm
      exact .inr ⟨hu, h⟩
  · rintro (rfl | ⟨hu, h⟩)
    · exact .mem (List.mem_singleton_self _)
    · exact .step (List.mem_singleton_self _) hu h

lemma reach_trans (h : Reach succ opened l u) (hu : u ∉ opened)
    (h' : Reach succ opened (succ u) v) : Reach succ opened l v := by
  induction h with
  | mem hm => exact .step hm hu h'
  | step hm hw _ ih => exact .step hm hw (ih hu h')

lemma reach_of_cons (h : Reach succ (u :: opened) l v) : Reach succ opened l v := by
  induction h with
  | mem hm => exact .mem hm
  | step hm hw _ ih => exact .step hm (fun h => hw (List.mem_cons_of_mem _ h)) ih

/-- A path is cut at the last place where it goes through `u`. -/
lemma reach_cons_or (h : Reach succ opened l v) :
    Reach succ (u :: opened) l v ∨ Reach succ (u :: opened) (succ u) v := by
  induction h with
  | mem hm => exact .inl (.mem hm)
  | @step l w v hm hw _ ih =>
    by_cases hwu : w = u
    · subst hwu
      exact .inr (ih.elim id id)
    · exact ih.imp_left (.step hm (by simp [hwu, hw]))

/-- Paths from `l` do not go through what cannot be reached from it. -/
lemma reach_cons_iff (hu : ¬Reach succ opened l u) :
    Reach succ (u :: opened) l v ↔ Reach succ opened l v := by
  refine ⟨reach_of_cons, fun h => ?_⟩
  induction h with
  | mem hm => exact .mem hm
  | @step l w v hm hw _ ih =>
    have hwu : w ≠ u := by
      rintro rfl
      exact hu (.mem hm)
    exact .step hm (by simp [hwu, hw]) (ih fun h => hu (.step hm hw h))

/-! ### Marks -/

variable {before seen : List V}

/-- What has been marked when the calls of `opened` are open and `before` has been listed. -/
def Marked (succ : V → List V) (opened before seen : List V) : Prop :=
  ∀ v, v ∈ seen ↔ v ∈ opened ∨ Reach succ opened before v

lemma marked_start : Marked succ [] [] [] := by
  intro v
  simp

lemma marked_skip (hm : Marked succ opened before seen) (hv : v ∈ seen) :
    Marked succ opened (before ++ [v]) seen := by
  intro w
  rw [hm w, reach_append, reach_singleton]
  refine ⟨fun h => h.imp_right .inl, ?_⟩
  rintro (h | h | rfl | ⟨hopened, h⟩)
  · exact .inl h
  · exact .inr h
  · exact (hm w).mp hv
  · exact .inr (reach_trans (((hm v).mp hv).resolve_left hopened) hopened h)

lemma marked_open (hm : Marked succ opened before seen) (hv : v ∉ seen) :
    Marked succ (v :: opened) before (v :: seen) := by
  intro w
  have hreach : ¬Reach succ opened before v := fun h => hv ((hm v).mpr (.inr h))
  rw [List.mem_cons, List.mem_cons, hm w, reach_cons_iff hreach, or_assoc]

lemma marked_close (hm : Marked succ opened before seen) (hv : v ∉ seen) {seen' : List V}
    (hm' : Marked succ (v :: opened) (before ++ succ v) seen') :
    Marked succ opened (before ++ [v]) seen' := by
  intro w
  have hreach : ¬Reach succ opened before v := fun h => hv ((hm v).mpr (.inr h))
  have hopened : v ∉ opened := fun h => hv ((hm v).mpr (.inl h))
  have hinside : Reach succ (v :: opened) (succ v) w ↔ Reach succ opened (succ v) w :=
    ⟨reach_of_cons, fun h => (reach_cons_or h).elim id id⟩
  rw [hm' w, reach_append, reach_append, reach_cons_iff hreach, hinside, reach_singleton]
  simp only [List.mem_cons, hopened, not_false_iff, true_and]
  tauto

/-- `vs` are vertices each met first inside the one before, and the first of them in `l`, when the
calls of `opened` are open and `before` has been listed. -/
inductive Chain (succ : V → List V) : List V → List V → List V → List V → Prop
  | nil {opened before l : List V} : Chain succ opened before l []
  | cons {opened before post vs : List V} {v : V} (pre : List V) : v ∉ opened →
      ¬Reach succ opened (before ++ pre) v → Chain succ (v :: opened) (before ++ pre) (succ v) vs →
      Chain succ opened before (pre ++ v :: post) (v :: vs)

/-- A chain further on in the list. -/
lemma Chain.later {vs : List V} (h : Chain succ opened (before ++ [v]) l vs) :
    Chain succ opened before (v :: l) vs := by
  cases h with
  | nil => exact .nil
  | cons pre hw hr hc =>
    rw [List.append_assoc] at hr hc
    exact .cons (v :: pre) hw hr hc

/-! ### The search -/

variable [DecidableEq V]

variable (succ) in
/-- One vertex, `descend` being the nested call. -/
def visit (descend : List V → List V → Option (List V)) (seen : List V) (v : V) :
    Option (List V) :=
  if v ∈ seen then some seen else descend (succ v) (v :: seen)

variable (succ) in
/-- The search from `l`, with at most `k` nested calls; `none` when it needs more. -/
def search : ℕ → List V → List V → Option (List V)
  | 0, _, _ => none
  | k + 1, l, seen => l.foldlM (visit succ (search k)) seen

lemma search_cons {k : ℕ} {seen : List V} :
    search succ (k + 1) (v :: l) seen =
      (visit succ (search succ k) seen v).bind (search succ (k + 1) l) := rfl

lemma search_append {k : ℕ} {seen : List V} :
    search succ (k + 1) (l ++ l') seen =
      (search succ (k + 1) l seen).bind (search succ (k + 1) l') :=
  List.foldlM_append

/-- **What a search has marked** is what can be reached, the open calls apart. -/
lemma search_marked {k : ℕ} {seen' : List V} (hm : Marked succ opened before seen)
    (h : search succ k l seen = some seen') : Marked succ opened (before ++ l) seen' := by
  induction k generalizing opened before l seen seen' with
  | zero => cases h
  | succ k ih =>
    induction l generalizing before seen with
    | nil =>
      cases h
      rwa [List.append_nil]
    | cons v l ihl =>
      rw [search_cons] at h
      obtain ⟨seen₁, h₁, h⟩ := Option.bind_eq_some_iff.mp h
      have hm₁ : Marked succ opened (before ++ [v]) seen₁ := by
        unfold visit at h₁
        split_ifs at h₁ with hv
        · cases h₁
          exact marked_skip hm hv
        · exact marked_close hm hv (ih (marked_open hm hv) h₁)
      have hrest := ihl hm₁ h
      rwa [List.append_assoc] at hrest

lemma search_mono {k k' : ℕ} (hk : k ≤ k') {seen' : List V}
    (h : search succ k l seen = some seen') : search succ k' l seen = some seen' := by
  induction k generalizing k' l seen seen' with
  | zero => cases h
  | succ k ih =>
    obtain ⟨k', rfl⟩ : ∃ m, k' = m + 1 := ⟨k' - 1, by omega⟩
    induction l generalizing seen with
    | nil => exact h
    | cons v l ihl =>
      rw [search_cons] at h ⊢
      obtain ⟨seen₁, h₁, h⟩ := Option.bind_eq_some_iff.mp h
      have h₁' : visit succ (search succ k') seen v = some seen₁ := by
        unfold visit at h₁ ⊢
        split_ifs at h₁ ⊢
        · exact h₁
        · exact ih (by omega) h₁
      rw [h₁']
      exact ihl h

/-! ### Its depth -/

/-- A search that ends has gone deeper than every chain. -/
lemma chain_lt {vs : List V} (hc : Chain succ opened before l vs) {k : ℕ} {seen seen' : List V}
    (hm : Marked succ opened before seen) (h : search succ k l seen = some seen') :
    vs.length < k := by
  induction hc generalizing k seen seen' with
  | nil =>
    cases k with
    | zero => cases h
    | succ k => exact Nat.succ_pos k
  | @cons opened before post vs v pre hopened hreach _ ih =>
    cases k with
    | zero => cases h
    | succ k =>
      rw [search_append] at h
      obtain ⟨seen₁, h₁, h⟩ := Option.bind_eq_some_iff.mp h
      rw [search_cons] at h
      obtain ⟨seen₂, h₂, -⟩ := Option.bind_eq_some_iff.mp h
      have hm₁ := search_marked hm h₁
      have hv : v ∉ seen₁ := fun hv => ((hm₁ v).mp hv).elim hopened hreach
      unfold visit at h₂
      rw [if_neg hv] at h₂
      exact Nat.succ_lt_succ (ih (marked_open hm₁ hv) h₂)

/-- A search as deep as the chains ends. -/
lemma exists_search {k : ℕ} (hm : Marked succ opened before seen)
    (hc : ∀ vs, Chain succ opened before l vs → vs.length < k) :
    ∃ seen', search succ k l seen = some seen' := by
  induction k generalizing opened before l seen with
  | zero => exact absurd (hc [] .nil) (Nat.lt_irrefl 0)
  | succ k ih =>
    induction l generalizing before seen with
    | nil => exact ⟨seen, rfl⟩
    | cons v l ihl =>
      rw [search_cons]
      obtain ⟨seen₁, h₁, hm₁⟩ : ∃ seen₁, visit succ (search succ k) seen v = some seen₁ ∧
          Marked succ opened (before ++ [v]) seen₁ := by
        unfold visit
        split_ifs with hv
        · exact ⟨seen, rfl, marked_skip hm hv⟩
        · have hopened : v ∉ opened := fun h => hv ((hm v).mpr (.inl h))
          have hreach : ¬Reach succ opened (before ++ []) v := by
            rw [List.append_nil]
            exact fun h => hv ((hm v).mpr (.inr h))
          have hinside : ∀ vs, Chain succ (v :: opened) before (succ v) vs → vs.length < k := by
            intro vs hvs
            rw [← List.append_nil before] at hvs
            exact Nat.lt_of_succ_lt_succ (hc _ (.cons [] hopened hreach hvs))
          obtain ⟨seen₁, h₁⟩ := ih (marked_open hm hv) hinside
          exact ⟨seen₁, h₁, marked_close hm hv (search_marked (marked_open hm hv) h₁)⟩
      rw [h₁]
      exact ihl hm₁ fun vs hvs => hc vs hvs.later

/-- **A search ends exactly within as many nested calls as are more than every chain has
vertices.** -/
theorem search_ends_iff {k : ℕ} :
    (∃ seen, search succ k l [] = some seen) ↔ ∀ vs, Chain succ [] [] l vs → vs.length < k := by
  refine ⟨?_, exists_search marked_start⟩
  rintro ⟨seen, h⟩ vs hvs
  exact chain_lt hvs marked_start h

end GatewayAuth.Lib.DepthFirst
