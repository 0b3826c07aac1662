import Mathlib.Data.Finset.Lattice.Basic
import GatewayAuth.Authz

/-!
What tightens an authorization decision and what loosens it. Overrides, operations and a higher
scope only add to what is required, scopes of the principal only to what is held, and a denial
says exactly what would turn it.
-/

namespace GatewayAuth.Tightening

open GatewayAuth.Lib.Sorted GatewayAuth.Classify GatewayAuth.Authz

/-- Every constraint the override sets holds of this one operation, and it sets one. -/
def Applies (ov : Override) (op : OperationInfo) : Prop :=
  (ov.field.isSome ∨ ov.operation.isSome) ∧ (∀ f, ov.field = some f → f ∈ op.topLevelFields) ∧
    ∀ o, ov.operation = some o → op.name = some o

/-- The list is that of the scopes required: the base scope and the scopes of each override that
applies to an operation, in order and each once. -/
structure IsRequired (c : Classification) (policy : Policy) (l : List String) : Prop where
  sorted : l.Pairwise (· < ·)
  mem_iff : ∀ s, s ∈ l ↔ s = baseScope c.scope ∨
    ∃ op ∈ c.operations, ∃ ov ∈ policy.overrides, Applies ov op ∧ s ∈ ov.requireScopes

/-- The required list of a decision, be it a success or a denial. -/
def reported : Except Denied (List String) → List String
  | .ok required => required
  | .error d => d.required

def grant (p : Principal) (scopes : List String) : Principal :=
  ⟨p.name, p.scopes ∪ scopes.toFinset⟩

variable {p p' : Principal} {c c' : Classification} {policy policy' : Policy}

/-! ### The required scopes -/

lemma demands_iff {op : OperationInfo} {s : String} :
    Demands policy op s ↔ ∃ ov ∈ policy.overrides, Applies ov op ∧ s ∈ ov.requireScopes := by
  unfold Demands
  simp only [overrideMatches_iff]
  rfl

lemma isRequired_requiredScopes : IsRequired c policy (requiredScopes c policy).toList where
  sorted := (requiredScopes c policy).sorted
  mem_iff s := by
    rw [mem_requiredScopes]
    simp only [demands_iff]

lemma reported_authorize : reported (authorize p c policy) = (requiredScopes c policy).toList := by
  unfold authorize
  simp only
  split_ifs <;> rfl

lemma demands_mono (hov : policy.overrides ⊆ policy'.overrides) {op : OperationInfo} {s : String}
    (h : Demands policy op s) : Demands policy' op s := by
  obtain ⟨ov, hmem, hmatch, hs⟩ := h
  exact ⟨ov, hov hmem, hmatch, hs⟩

/-! ### The decision -/

lemma authorize_ok {l : List String} (h : authorize p c policy = .ok l) :
    l = (requiredScopes c policy).toList := by
  rw [← reported_authorize (p := p), h]
  rfl

lemma authorize_error {d : Denied} (h : authorize p c policy = .error d) :
    d.required = (requiredScopes c policy).toList ∧
      d.missing = d.required.filter (fun s => !p.satisfies s) ∧ d.missing ≠ [] := by
  unfold authorize at h
  simp only [List.isEmpty_iff] at h
  split_ifs at h with hnil
  cases h
  exact ⟨rfl, rfl, hnil⟩

lemma satisfies_mono (h : p.scopes ⊆ p'.scopes) {s : String} (hs : p.satisfies s = true) :
    p'.satisfies s = true := by
  unfold Principal.satisfies at hs ⊢
  split_ifs at hs with hmem
  · rw [if_pos (h hmem)]
  · split_ifs with hmem'
    · rfl
    · simp only [Bool.and_eq_true, decide_eq_true_eq] at hs ⊢
      exact ⟨hs.1, h hs.2⟩

lemma satisfies_grant {scopes : List String} {s : String} (hs : s ∈ scopes) :
    (grant p scopes).satisfies s = true := by
  unfold Principal.satisfies
  exact if_pos (Finset.mem_union_right _ (List.mem_toFinset.mpr hs))

lemma authorized_mono_scopes (h : p.scopes ⊆ p'.scopes) (hp : Authorized p c policy) :
    Authorized p' c policy := by
  obtain ⟨hbase, hops⟩ := authorized_iff.mp hp
  exact authorized_iff.mpr
    ⟨satisfies_mono h hbase, fun op hop s hs => satisfies_mono h (hops op hop s hs)⟩

lemma authorized_of_tighter (hov : policy.overrides ⊆ policy'.overrides)
    (hops : c.operations ⊆ c'.operations) (hscope : c.scope ≤ c'.scope)
    (h : Authorized p c' policy') : Authorized p c policy := by
  obtain ⟨hbase, hall⟩ := authorized_iff.mp h
  refine authorized_iff.mpr ⟨satisfies_baseScope_mono hscope hbase, fun op hop s hs => ?_⟩
  exact hall op (hops hop) s (demands_mono hov hs)

lemma required_mono (hov : policy.overrides ⊆ policy'.overrides)
    (hops : c.operations ⊆ c'.operations) (hscope : c.scope = c'.scope) :
    (requiredScopes c policy).toList ⊆ (requiredScopes c' policy').toList := by
  intro s hs
  rcases mem_requiredScopes.mp hs with rfl | ⟨op, hop, hd⟩
  · rw [hscope]
    exact mem_requiredScopes.mpr (.inl rfl)
  · exact mem_requiredScopes.mpr (.inr ⟨op, hops hop, demands_mono hov hd⟩)

/-- **A denial names exactly what is missing**: with that, the same call succeeds. -/
lemma authorize_grant_missing {d : Denied} (h : authorize p c policy = .error d) :
    authorize (grant p d.missing) c policy = .ok d.required := by
  obtain ⟨hrequired, hmissing, -⟩ := authorize_error h
  have hall : ∀ s ∈ (requiredScopes c policy).toList,
      (grant p d.missing).satisfies s = true := by
    intro s hs
    rw [← hrequired] at hs
    by_cases hsat : p.satisfies s = true
    · exact satisfies_mono Finset.subset_union_left hsat
    · refine satisfies_grant ?_
      rw [hmissing]
      exact List.mem_filter.mpr ⟨hs, by simpa using hsat⟩
  unfold authorize
  rw [hrequired]
  refine if_pos ?_
  rw [List.isEmpty_iff, List.filter_eq_nil_iff]
  intro s hs
  simp [hall s hs]

/-- **Overrides only tighten, and denials are exact.** More overrides and more operations require
no less, and with them or with a higher scope no denial becomes a success; more scopes of the
principal make no success a denial; what is reported is the list of the required scopes; and a
denial tells those of them that the principal does not satisfy, and no others are wanting. -/
theorem overrides_only_tighten (p : Principal) (c : Classification) (policy : Policy) :
    (∀ c' policy', policy.overrides ⊆ policy'.overrides → c.operations ⊆ c'.operations →
      (c.scope = c'.scope →
        reported (authorize p c policy) ⊆ reported (authorize p c' policy')) ∧
      (c.scope ≤ c'.scope → ∀ d, authorize p c policy = .error d →
        ∃ d', authorize p c' policy' = .error d')) ∧
    (∀ p' l, p.scopes ⊆ p'.scopes → authorize p c policy = .ok l →
      ∃ l', authorize p' c policy = .ok l') ∧
    (∀ l, authorize p c policy = .ok l → IsRequired c policy l) ∧
    ∀ d, authorize p c policy = .error d → IsRequired c policy d.required ∧ d.missing ≠ [] ∧
      d.missing = d.required.filter (fun s => !p.satisfies s) ∧
      authorize (grant p d.missing) c policy = .ok d.required := by
  refine ⟨fun c' policy' hov hops => ⟨fun hscope => ?_, fun hscope d hd => ?_⟩,
    fun p' l hscopes hl => ?_, fun l hl => ?_, fun d hd => ?_⟩
  · rw [reported_authorize, reported_authorize]
    exact required_mono hov hops hscope
  · rcases h : authorize p c' policy' with d' | l'
    · exact ⟨d', rfl⟩
    · obtain ⟨l, hl⟩ := authorized_of_tighter hov hops hscope ⟨l', h⟩
      cases hd.symm.trans hl
  · exact authorized_mono_scopes hscopes ⟨l, hl⟩
  · rw [authorize_ok hl]
    exact isRequired_requiredScopes
  · obtain ⟨hrequired, hmissing, hne⟩ := authorize_error hd
    refine ⟨?_, hne, hmissing, authorize_grant_missing hd⟩
    rw [hrequired]
    exact isRequired_requiredScopes

end GatewayAuth.Tightening
