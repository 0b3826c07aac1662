import GatewayAuth.RootFields

/-!
The fragment walk as an account of its own steps: the same walk, with a log of the fragments it
descends into. No fragment is entered twice, and no field is listed twice.
-/

namespace GatewayAuth.FragmentWalk

open GatewayAuth.Document GatewayAuth.Classify GatewayAuth.RootFields

/-- A walk and the fragments it has descended into so far. -/
structure Logged where
  walk : Walk
  expanded : List String

/-- One selection, as `walkItem` takes it. -/
def logItem (fragments : Fragments) (descend : SelectionSet → Logged → Option Logged)
    (s : Logged) : Selection → Option Logged
  | .field _ name _ => some ⟨s.walk.push name, s.expanded⟩
  | .fragmentSpread name =>
    if name ∈ s.walk.visited then some s
    else
      match fragments.lookup name with
      | some frag => descend frag.selectionSet ⟨s.walk.visit name, s.expanded ++ [name]⟩
      | none => some ⟨s.walk.visit name, s.expanded⟩
  | .inlineFragment set => descend set s

def logWithin (fragments : Fragments) : ℕ → SelectionSet → Logged → Option Logged
  | 0, _, _ => none
  | k + 1, set, s => set.foldlM (logItem fragments (logWithin fragments k)) s

variable {fragments : Fragments}

/-! ### The log changes nothing -/

variable (fragments) in
lemma map_logItem {descend : SelectionSet → Logged → Option Logged}
    {descend' : SelectionSet → Walk → Option Walk}
    (h : ∀ set s, (descend set s).map Logged.walk = descend' set s.walk) (s : Logged)
    (item : Selection) :
    (logItem fragments descend s item).map Logged.walk =
      walkItem fragments descend' s.walk item := by
  cases item with
  | field a name set => rfl
  | inlineFragment set => exact h set s
  | fragmentSpread name =>
    simp only [logItem, walkItem]
    split_ifs with hv
    · rfl
    · rcases fragments.lookup name with _ | frag
      · rfl
      · exact h _ _

variable (fragments) in
lemma map_logWithin (k : ℕ) (set : SelectionSet) (s : Logged) :
    (logWithin fragments k set s).map Logged.walk =
      collectTopFieldsWithin fragments k set s.walk := by
  induction k generalizing set s with
  | zero => rfl
  | succ k ih =>
    simp only [logWithin, collectTopFieldsWithin]
    induction set generalizing s with
    | nil => rfl
    | cons item set ihs =>
      have hitem := map_logItem fragments ih s item
      rw [List.foldlM_cons, List.foldlM_cons]
      rcases hs : logItem fragments (logWithin fragments k) s item with _ | s'
      · rw [hs] at hitem
        rw [← hitem]
        rfl
      · rw [hs] at hitem
        rw [← hitem]
        exact ihs s'

/-! ### What a step keeps -/

/-- A fragment entered is marked, and nothing is there twice. -/
structure Once (s : Logged) : Prop where
  expanded : s.expanded.Nodup
  marked : s.expanded ⊆ s.walk.visited
  out : s.walk.out.Nodup

lemma once_push {s : Logged} (h : Once s) (name : String) :
    Once ⟨s.walk.push name, s.expanded⟩ := by
  unfold Walk.push
  split_ifs with hmem
  · exact h
  · refine ⟨h.expanded, h.marked, ?_⟩
    exact List.nodup_append.mpr ⟨h.out, List.nodup_singleton _, fun n hn m hm hnm => hmem (by
      rwa [hnm, List.mem_singleton.mp hm] at hn)⟩

lemma once_visit {s : Logged} (h : Once s) (name : String) :
    Once ⟨s.walk.visit name, s.expanded⟩ :=
  ⟨h.expanded, fun _ hf => List.mem_cons_of_mem _ (h.marked hf), h.out⟩

/-- A fragment that is not marked has not been entered. -/
lemma once_enter {s : Logged} (h : Once s) {name : String} (hv : name ∉ s.walk.visited) :
    Once ⟨s.walk.visit name, s.expanded ++ [name]⟩ where
  expanded := by
    refine List.nodup_append.mpr ⟨h.expanded, by simp, ?_⟩
    intro f hf g hg hfg
    rw [hfg, List.mem_singleton.mp hg] at hf
    exact hv (h.marked hf)
  marked f hf := by
    rcases List.mem_append.mp hf with hf | hf
    · exact List.mem_cons_of_mem _ (h.marked hf)
    · rw [List.mem_singleton.mp hf]
      exact List.mem_cons_self
  out := h.out

lemma once_item {descend : SelectionSet → Logged → Option Logged}
    (hd : ∀ set s s', Once s → descend set s = some s' → Once s') {s s' : Logged} (h : Once s)
    {item : Selection} (hs : logItem fragments descend s item = some s') : Once s' := by
  cases item with
  | field a name set =>
    cases hs
    exact once_push h name
  | inlineFragment set => exact hd set s s' h hs
  | fragmentSpread name =>
    simp only [logItem] at hs
    split_ifs at hs with hv
    · cases hs
      exact h
    · rcases hl : fragments.lookup name with _ | frag
      · rw [hl] at hs
        cases hs
        exact once_visit h name
      · rw [hl] at hs
        exact hd _ _ _ (once_enter h hv) hs

/-- **Each fragment is entered at most once**, in a whole walk. -/
lemma once_within (k : ℕ) (set : SelectionSet) (s s' : Logged) (h : Once s)
    (hs : logWithin fragments k set s = some s') : Once s' := by
  induction k generalizing set s s' with
  | zero => cases hs
  | succ k ih =>
    simp only [logWithin] at hs
    induction set generalizing s with
    | nil =>
      cases hs
      exact h
    | cons item set ihs =>
      rw [List.foldlM_cons] at hs
      obtain ⟨s₁, h₁, hs⟩ := Option.bind_eq_some_iff.mp hs
      exact ihs s₁ (once_item ih h h₁) hs

/-! ### More nested calls than needed -/

lemma logItem_mono {descend descend' : SelectionSet → Logged → Option Logged}
    (hd : ∀ set s s', descend set s = some s' → descend' set s = some s') {s s' : Logged}
    {item : Selection} (hs : logItem fragments descend s item = some s') :
    logItem fragments descend' s item = some s' := by
  cases item with
  | field a name set => exact hs
  | inlineFragment set => exact hd set s s' hs
  | fragmentSpread name =>
    simp only [logItem] at hs ⊢
    split_ifs at hs ⊢ with hv
    · exact hs
    · rcases hl : fragments.lookup name with _ | frag
      · rw [hl] at hs
        exact hs
      · rw [hl] at hs
        exact hd _ _ _ hs

/-- A walk that ends ends alike with more nested calls. -/
lemma logWithin_mono {k k' : ℕ} (hk : k ≤ k') {set : SelectionSet} {s s' : Logged}
    (hs : logWithin fragments k set s = some s') : logWithin fragments k' set s = some s' := by
  induction k generalizing k' set s s' with
  | zero => cases hs
  | succ k ih =>
    obtain ⟨k', rfl⟩ : ∃ m, k' = m + 1 := ⟨k' - 1, by omega⟩
    simp only [logWithin] at hs ⊢
    induction set generalizing s with
    | nil => exact hs
    | cons item set ihs =>
      rw [List.foldlM_cons] at hs ⊢
      obtain ⟨s₁, h₁, hs⟩ := Option.bind_eq_some_iff.mp hs
      rw [logItem_mono (fun set s s' h => ih (by omega) h) h₁]
      exact ihs hs

/-! ### A walk from nothing -/

/-- **The walk finds exactly the root fields.** Over any selection set and any table of fragments
the walk that starts from nothing ends, and alike for any number of nested calls it is given from
a certain one on; it enters no fragment twice; and what it lists is, each once, the real names of
the fields at the root of the set. -/
theorem walk_exact (fragments : Fragments) (set : SelectionSet) :
    ∃ s, (∃ limit, ∀ k ≥ limit, logWithin fragments k set ⟨⟨[], []⟩, []⟩ = some s ∧
        collectTopFieldsWithin fragments k set ⟨[], []⟩ = some s.walk) ∧
      collectTopFields fragments set = s.walk.out ∧ s.expanded.Nodup ∧
      (collectTopFields fragments set).Nodup ∧
      ∀ n, n ∈ collectTopFields fragments set ↔ RootField fragments set n := by
  obtain ⟨w, hw, hout⟩ := collectTopFields_eq fragments set
  have hmap := map_logWithin fragments (callLimit fragments set) set
    ⟨⟨[], []⟩, []⟩
  rw [hw] at hmap
  obtain ⟨s, hs, rfl⟩ := Option.map_eq_some_iff.mp hmap
  have honce := once_within _ set ⟨⟨[], []⟩, []⟩ s
    ⟨List.nodup_nil, List.nil_subset _, List.nodup_nil⟩ hs
  refine ⟨s, ⟨callLimit fragments set, fun k hk => ?_⟩, hout, honce.expanded, hout ▸ honce.out,
    fun n => mem_collectTopFields⟩
  have hk := logWithin_mono hk hs
  refine ⟨hk, ?_⟩
  rw [← map_logWithin fragments k set ⟨⟨[], []⟩, []⟩, hk]
  rfl

/-- Fragments that spread each other are entered once each. -/
example : logWithin ⟨[⟨"A", ⟨[.field none "fieldA" [], .fragmentSpread "B"]⟩⟩,
      ⟨"B", ⟨[.field (some "fieldA") "fieldB" [], .fragmentSpread "A"]⟩⟩],
      by simp [List.NodupKeys]⟩ 3 [.fragmentSpread "A", .fragmentSpread "B"] ⟨⟨[], []⟩, []⟩ =
    some ⟨⟨["fieldA", "fieldB"], ["B", "A"]⟩, ["A", "B"]⟩ := rfl

end GatewayAuth.FragmentWalk
