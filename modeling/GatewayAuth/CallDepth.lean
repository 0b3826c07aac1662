import GatewayAuth.Lib.DepthFirst
import GatewayAuth.FragmentWalk

/-!
How deep the calls of the fragment walk nest. The parser bounds how deep selection sets nest in
the text, and the walk is a depth-first search of the graph of spreads besides: its calls nest as
deep as fragments are spread one inside another, wherever the walk first meets them.
-/

namespace GatewayAuth.CallDepth

open GatewayAuth.Lib.DepthFirst GatewayAuth.Document GatewayAuth.Classify GatewayAuth.RootFields

/-! ### Nesting in the text -/

mutual

/-- The selection sets nested in a selection. A field without one has the empty set. -/
def itemNesting : Selection → ℕ
  | .field _ _ s => if s.isEmpty then 0 else setNesting s
  | .fragmentSpread _ => 0
  | .inlineFragment s => setNesting s

/-- How deep selection sets nest, this one included. -/
def setNesting : List Selection → ℕ
  | [] => 1
  | item :: set => max (itemNesting item + 1) (setNesting set)

end

/-- The selection sets of the document nest at most `n` deep. -/
structure NestsWithin (n : ℕ) (doc : ExecutableDocument) : Prop where
  operations : ∀ op ∈ doc.operations.iter, setNesting op.2.selectionSet ≤ n
  fragments : ∀ e ∈ doc.fragments.entries, setNesting e.2.selectionSet ≤ n

/-- The walk of no operation of the document needs more than `k` nested calls. -/
def WithinLimit (k : ℕ) (doc : ExecutableDocument) : Prop :=
  ∀ op ∈ doc.operations.iter,
    ∃ w, collectTopFieldsWithin doc.fragments k op.2.selectionSet ⟨[], []⟩ = some w

lemma setDepth_le (set : SelectionSet) : setDepth set ≤ setNesting set := by
  induction set using setDepth.induct (fun item => itemDepth item ≤ itemNesting item) with
  | case1 a name s => exact Nat.zero_le _
  | case2 name => exact Nat.zero_le _
  | case3 s ih =>
    simp only [itemDepth, itemNesting]
    exact ih
  | case4 => exact le_refl _
  | case5 item set ih ihs =>
    simp only [setDepth, setNesting]
    omega

/-! ### The graph of spreads -/

mutual

def itemSpreads : Selection → List String
  | .field _ _ _ => []
  | .fragmentSpread name => [name]
  | .inlineFragment s => spreads s

/-- The fragments spread at the root of a selection set, in the order of the walk. -/
def spreads : List Selection → List String
  | [] => []
  | item :: set => itemSpreads item ++ spreads set

end

/-- The fragments spread by a fragment; an undefined one spreads none. -/
def spreadsOf (fragments : Fragments) (name : String) : List String :=
  match fragments.lookup name with
  | some frag => spreads frag.selectionSet
  | none => []

variable {fragments : Fragments}

/-- **A walk that ends is a search that ends**, which may look into an undefined fragment in one
call more. -/
lemma search_of_walk {k : ℕ} {set : SelectionSet} {w w' : Walk}
    (h : collectTopFieldsWithin fragments k set w = some w') :
    search (spreadsOf fragments) (k + 1) (spreads set) w.visited = some w'.visited := by
  induction k generalizing set w w' with
  | zero => cases h
  | succ k ih =>
    simp only [collectTopFieldsWithin] at h
    induction set generalizing w with
    | nil =>
      cases h
      rfl
    | cons item set ihs =>
      rw [List.foldlM_cons] at h
      obtain ⟨w₁, h₁, h⟩ := Option.bind_eq_some_iff.mp h
      have hitem : search (spreadsOf fragments) (k + 2) (itemSpreads item) w.visited =
          some w₁.visited := by
        cases item with
        | field a name s =>
          cases h₁
          rw [visited_push]
          rfl
        | inlineFragment s => exact search_mono (Nat.le_succ _) (ih h₁)
        | fragmentSpread name =>
          simp only [walkItem] at h₁
          simp only [itemSpreads, search_cons, visit]
          split_ifs at h₁ ⊢ with hv
          · cases h₁
            rfl
          · unfold spreadsOf
            rcases hl : fragments.lookup name with _ | frag
            · rw [hl] at h₁
              cases h₁
              rfl
            · rw [hl] at h₁
              have := ih h₁
              simp only [Walk.visit] at this
              unfold spreadsOf at this
              rw [this]
              rfl
      rw [spreads, search_append, hitem]
      exact ihs h

/-- **A search that ends is a walk that ends**, in as many nested calls for each of its own as
selection sets nest. -/
lemma walk_of_search {n : ℕ} (hn : ∀ e ∈ fragments.entries, setDepth e.2.selectionSet ≤ n) {m : ℕ}
    {set : SelectionSet} {w : Walk} {seen : List String}
    (h : search (spreadsOf fragments) (m + 1) (spreads set) w.visited = some seen) {k : ℕ}
    (hk : setDepth set + m * n ≤ k) :
    ∃ w', collectTopFieldsWithin fragments k set w = some w' ∧ w'.visited = seen := by
  induction m using Nat.strong_induction_on generalizing set w seen k with
  | _ m ihm =>
    -- what a fragment costs is paid by a call of the search
    have henter : ∀ {name frag k} {w : Walk} {seen : List String},
        fragments.lookup name = some frag → m * n ≤ k →
        search (spreadsOf fragments) m (spreadsOf fragments name) (name :: w.visited) =
          some seen →
        ∃ w', collectTopFieldsWithin fragments k frag.selectionSet (w.visit name) = some w' ∧
          w'.visited = seen := by
      intro name frag k w seen hl hk h
      rcases m with _ | m
      · cases h
      · have hfrag := hn _ (AList.mem_lookup_iff.mp hl)
        rw [Nat.succ_mul] at hk
        have hspreads : spreadsOf fragments name = spreads frag.selectionSet := by
          simp only [spreadsOf, hl]
        rw [hspreads] at h
        exact ihm m (Nat.lt_succ_self m) h (by simp only at hfrag; omega)
    induction k generalizing set w seen with
    | zero =>
      have := setDepth_pos set
      omega
    | succ k ihk =>
      simp only [collectTopFieldsWithin]
      induction set generalizing w with
      | nil =>
        cases h
        exact ⟨w, rfl, rfl⟩
      | cons item set ihs =>
        simp only [setDepth] at hk
        rw [spreads, search_append] at h
        obtain ⟨seen₁, h₁, h⟩ := Option.bind_eq_some_iff.mp h
        obtain ⟨w₁, hw₁, rfl⟩ : ∃ w₁, walkItem fragments (collectTopFieldsWithin fragments k) w item
            = some w₁ ∧ w₁.visited = seen₁ := by
          cases item with
          | field a name s =>
            cases h₁
            exact ⟨_, rfl, visited_push w name⟩
          | inlineFragment s =>
            simp only [itemDepth] at hk
            exact ihk h₁ (by omega)
          | fragmentSpread name =>
            simp only [itemSpreads, search_cons, visit] at h₁
            obtain ⟨seen₂, h₂, h₁⟩ := Option.bind_eq_some_iff.mp h₁
            cases h₁
            simp only [walkItem]
            split_ifs at h₂ ⊢ with hv
            · cases h₂
              exact ⟨w, rfl, rfl⟩
            · rcases hl : fragments.lookup name with _ | frag
              · have hspreads : spreadsOf fragments name = [] := by
                  simp only [spreadsOf, hl]
                rw [hspreads] at h₂
                rcases m with _ | m
                · cases h₂
                · cases h₂
                  exact ⟨_, rfl, rfl⟩
              · exact henter hl (by omega) h₂
        obtain ⟨w₂, hw₂, hseen⟩ := ihs h (by omega)
        exact ⟨w₂, by rw [List.foldlM_cons, hw₁]; exact hw₂, hseen⟩

/-! ### How deep the walk goes -/

/-- `names` are fragments each spread first inside the one before, and the first of them inside
the operation. -/
def SpreadChain (doc : ExecutableDocument) (op : OperationDefinition) (names : List String) :
    Prop :=
  Chain (spreadsOf doc.fragments) [] [] (spreads op.selectionSet) names

/-- No operation of the document spreads more than `m` fragments one inside another. -/
def ChainsWithin (m : ℕ) (doc : ExecutableDocument) : Prop :=
  ∀ op ∈ doc.operations.iter, ∀ names, SpreadChain doc op.2 names → names.length ≤ m

lemma chainsWithin_of_withinLimit {k : ℕ} {doc : ExecutableDocument} (h : WithinLimit k doc) :
    ChainsWithin k doc := by
  intro op hop names hc
  obtain ⟨w, hw⟩ := h op hop
  exact Nat.le_of_lt_succ (chain_lt hc marked_start (search_of_walk hw))

lemma withinLimit_of_chainsWithin {n m : ℕ} {doc : ExecutableDocument} (hn : NestsWithin n doc)
    (hc : ChainsWithin m doc) : WithinLimit (n + m * n) doc := by
  intro op hop
  obtain ⟨seen, hseen⟩ := search_ends_iff.mpr fun names hnames =>
    Nat.lt_succ_of_le (hc op hop names hnames)
  have hfragments : ∀ e ∈ doc.fragments.entries, setDepth e.2.selectionSet ≤ n :=
    fun e he => (setDepth_le _).trans (hn.fragments e he)
  have hset := (setDepth_le op.2.selectionSet).trans (hn.operations op hop)
  obtain ⟨w, hw, -⟩ := walk_of_search (w := ⟨[], []⟩) hfragments hseen
    (Nat.add_le_add_right hset (m * n))
  exact ⟨w, hw⟩

/-- **The call depth is bounded exactly when the spread chains are.** For documents whose selection
sets nest at most `n` deep there is a limit that the walk of none of their operations exceeds if
and only if there is a bound on the fragments spread one inside another, each where the walk first
meets it; the nesting of the text alone bounds nothing. Of each document the limit bounds these
chains, and a bound on the chains gives a limit. -/
theorem call_depth_bounded_iff (n : ℕ) (docs : ExecutableDocument → Prop)
    (hn : ∀ doc, docs doc → NestsWithin n doc) :
    ((∃ k, ∀ doc, docs doc → WithinLimit k doc) ↔ ∃ m, ∀ doc, docs doc → ChainsWithin m doc) ∧
    ∀ doc, docs doc → ∀ m, (WithinLimit m doc → ChainsWithin m doc) ∧
      (ChainsWithin m doc → WithinLimit (n + m * n) doc) := by
  refine ⟨⟨?_, ?_⟩, fun doc hdoc m => ?_⟩
  · rintro ⟨k, hk⟩
    exact ⟨k, fun doc hdoc => chainsWithin_of_withinLimit (hk doc hdoc)⟩
  · rintro ⟨m, hm⟩
    exact ⟨n + m * n, fun doc hdoc => withinLimit_of_chainsWithin (hn doc hdoc) (hm doc hdoc)⟩
  · exact ⟨chainsWithin_of_withinLimit, withinLimit_of_chainsWithin (hn doc hdoc)⟩

/-! ### A chain of fragments -/

def fragmentName (i : ℕ) : String := String.ofList ('F' :: List.replicate i '_')

def chainFragment : ℕ → FragmentDefinition
  | 0 => ⟨[.field none "indexingRules" []]⟩
  | i + 1 => ⟨[.fragmentSpread (fragmentName i)]⟩

lemma fragmentName_injective : Function.Injective fragmentName := by
  intro i j h
  have hlength := congrArg (fun s : String => s.toList.length) h
  simpa [fragmentName] using hlength

def chainFragments (k : ℕ) : Fragments where
  entries := (List.range (k + 1)).map fun i => ⟨fragmentName i, chainFragment i⟩
  nodupKeys := by
    unfold List.NodupKeys List.keys
    rw [List.map_map]
    exact List.nodup_range.map fragmentName_injective

/-- A query that spreads a fragment, which spreads another, and so on down to a field. -/
def chainDocument (k : ℕ) : ExecutableDocument :=
  ⟨.single ⟨.query, [.fragmentSpread (fragmentName k)]⟩, chainFragments k⟩

lemma nestsWithin_chain (k : ℕ) : NestsWithin 1 (chainDocument k) where
  operations op hop := by
    rw [List.mem_singleton.mp hop]
    exact le_refl 1
  fragments e he := by
    obtain ⟨i, -, rfl⟩ := List.mem_map.mp he
    cases i with
    | zero => exact le_refl 1
    | succ i => exact le_refl 1

lemma spreadsOf_chain {k i : ℕ} (hi : i + 1 ≤ k) :
    spreadsOf (chainFragments k) (fragmentName (i + 1)) = [fragmentName i] := by
  have hl : (chainFragments k).lookup (fragmentName (i + 1)) = some (chainFragment (i + 1)) := by
    refine AList.mem_lookup_iff.mpr ?_
    exact List.mem_map.mpr ⟨i + 1, List.mem_range.mpr (by omega), rfl⟩
  unfold spreadsOf
  rw [hl]
  rfl

/-- Each fragment of the document is spread first inside the one before. -/
lemma exists_chain {k i : ℕ} (hi : i ≤ k) {opened : List String}
    (ho : ∀ j ≤ i, fragmentName j ∉ opened) :
    ∃ names, names.length = i + 1 ∧
      Chain (spreadsOf (chainFragments k)) opened [] [fragmentName i] names := by
  induction i generalizing opened with
  | zero => exact ⟨[fragmentName 0], rfl, .cons [] (ho 0 le_rfl) (by simp) .nil⟩
  | succ i ih =>
    have ho' : ∀ j ≤ i, fragmentName j ∉ fragmentName (i + 1) :: opened := by
      intro j hj hmem
      rcases List.mem_cons.mp hmem with h | h
      · have := fragmentName_injective h
        omega
      · exact ho j (by omega) h
    obtain ⟨names, hlength, hc⟩ := ih (by omega) ho'
    refine ⟨fragmentName (i + 1) :: names, by simp [hlength], ?_⟩
    refine .cons [] (ho (i + 1) le_rfl) (by simp) ?_
    rw [spreadsOf_chain hi]
    exact hc

/-- Documents without any nesting need any number of nested calls. -/
theorem fragment_chain_exceeds :
    ¬∀ n, ∃ k, ∀ doc, NestsWithin n doc → WithinLimit k doc := by
  intro h
  obtain ⟨k, hk⟩ := h 1
  obtain ⟨names, hlength, hc⟩ := @exists_chain k k le_rfl [] (by simp)
  have hle := chainsWithin_of_withinLimit (hk _ (nestsWithin_chain k)) _
    (List.mem_singleton_self _) names hc
  omega

theorem call_depth_bounded_iff_chain : ¬WithinLimit 3 (chainDocument 3) := by
  have hnests : ∀ doc, doc = chainDocument 3 → NestsWithin 1 doc := by
    rintro doc rfl
    exact nestsWithin_chain 3
  intro h
  obtain ⟨names, hlength, hc⟩ := @exists_chain 3 3 le_rfl [] (by simp)
  have hle := ((call_depth_bounded_iff 1 (· = chainDocument 3) hnests).2 (chainDocument 3) rfl 3).1 h
    _ (List.mem_singleton_self _) names hc
  omega

end GatewayAuth.CallDepth
