import Mathlib.Data.List.MinMax
import GatewayAuth.RootFields

/-!
What a classification says about the operations of a body.
-/

namespace GatewayAuth.Operations

open GatewayAuth.Document GatewayAuth.JsonBody GatewayAuth.Classify

variable {x : Readers}

/-! ### The operations that could execute -/

lemma toClassify_ne_nil (doc : ExecutableDocument) (selected : Option String) :
    toClassify doc selected ≠ [] := by
  unfold toClassify
  split_ifs with h
  · exact doc.operations.iter_ne_nil
  · simpa using h

lemma toClassify_none (doc : ExecutableDocument) :
    toClassify doc none = doc.operations.iter := by
  simp [toClassify, matched]

/-- **Whatever operation a server would select has been classified**, whether the server
honours the operation name or sees none. -/
lemma getOperation_mem_toClassify {doc : ExecutableDocument} {selected n : Option String}
    {op : Option String × OperationDefinition} (hn : n = selected ∨ n = none)
    (h : getOperation doc.operations n = some op) : op ∈ toClassify doc selected := by
  have hmem := getOperation_mem h
  unfold toClassify
  split_ifs with hm
  · exact hmem
  cases selected with
  | none => simpa [matched] using hmem
  | some s =>
    rcases hn with rfl | rfl
    · exact List.mem_filter.mpr ⟨hmem, by simpa using getOperation_some h⟩
    · -- the only operation of the document, and something matched
      unfold matched at hm ⊢
      rw [getOperation_none h] at hm ⊢
      by_cases hs : op.1 = some s
      · simp [hs]
      · simp [hs] at hm

lemma classifyRequestOperations_ok {req : GraphQLRequest} {ops : List OperationInfo} :
    classifyRequestOperations x req = .ok ops ↔ ∃ doc, x.parseQuery req.query = .ok doc ∧
      ops = (toClassify doc req.operationName).map (operationInfo doc) := by
  unfold classifyRequestOperations
  rcases hp : x.parseQuery req.query with e | doc
  · simp
  · have hne := toClassify_ne_nil doc req.operationName
    simp only [List.isEmpty_iff, hne, if_false, Except.ok.injEq, exists_eq_left']
    exact eq_comm

/-! ### A body -/

lemma collectOperations_ok {reqs : List GraphQLRequest} {operations : List OperationInfo} :
    collectOperations x reqs = .ok operations ↔
      ∃ opss, List.Forall₂ (fun r ops => classifyRequestOperations x r = .ok ops) reqs opss ∧
        operations = opss.flatten := by
  induction reqs generalizing operations with
  | nil => simp [collectOperations, eq_comm]
  | cons r reqs ih =>
    unfold collectOperations
    rcases hr : classifyRequestOperations x r with e | ops
    · simp [List.forall₂_cons_left_iff, hr]
    rcases hc : collectOperations x reqs with e | rest
    · refine iff_of_false (by simp) ?_
      rintro ⟨opss, h, -⟩
      obtain ⟨a, as, -, hs, -⟩ := List.forall₂_cons_left_iff.mp h
      cases hc.symm.trans (ih.mpr ⟨as, hs, rfl⟩)
    · refine ⟨?_, ?_⟩
      · intro h
        cases h
        obtain ⟨opss, hs, rfl⟩ := ih.mp hc
        exact ⟨ops :: opss, .cons hr hs, rfl⟩
      · rintro ⟨opss, h, rfl⟩
        obtain ⟨a, as, ha, hs, rfl⟩ := List.forall₂_cons_left_iff.mp h
        cases hr.symm.trans ha
        cases hc.symm.trans (ih.mpr ⟨as, hs, rfl⟩)
        rfl

lemma flatten_ne_nil {reqs : List GraphQLRequest} {opss : List (List OperationInfo)}
    (hne : reqs ≠ [])
    (h : List.Forall₂ (fun r ops => classifyRequestOperations x r = .ok ops) reqs opss) :
    opss.flatten ≠ [] := by
  cases h with
  | nil => exact absurd rfl hne
  | cons ha _ =>
    obtain ⟨doc, -, rfl⟩ := classifyRequestOperations_ok.mp ha
    simp [toClassify_ne_nil doc]

/-- **What an accepted body is.** -/
lemma classify_ok {body : Bytes} {c : Classification} :
    classify x body = .ok c ↔ ∃ v raw opss, x.fromSlice body = .ok v ∧
      RawBody.deserialize v = some raw ∧ raw.requests ≠ [] ∧
      List.Forall₂ (fun r ops => classifyRequestOperations x r = .ok ops) raw.requests opss ∧
      c = ⟨opss.flatten, maxScope opss.flatten⟩ := by
  refine ⟨?_, ?_⟩
  · intro h
    unfold classify at h
    rcases hv : x.fromSlice body with e | v
    · rw [hv] at h; cases h
    rcases hr : RawBody.deserialize v with _ | raw
    · rw [hv] at h; simp only [hr] at h; cases h
    simp only [hv, hr] at h
    split_ifs at h with hemp
    rcases hc : collectOperations x raw.requests with e | operations
    · rw [hc] at h; cases h
    simp only [hc] at h
    split_ifs at h
    cases h
    obtain ⟨opss, hops, rfl⟩ := collectOperations_ok.mp hc
    exact ⟨v, raw, opss, rfl, hr, by simpa using hemp, hops, rfl⟩
  · rintro ⟨v, raw, opss, hv, hr, hne, hops, rfl⟩
    unfold classify
    simp [hv, hr, hne, collectOperations_ok.mpr ⟨opss, hops, rfl⟩, flatten_ne_nil hne hops]

/-- What an accepted body is, once it has been read as JSON. -/
lemma classify_ok_of_read {body : Bytes} {v : Json} {c : Classification}
    (hv : x.fromSlice body = .ok v) (hc : classify x body = .ok c) :
    ∃ raw opss, RawBody.deserialize v = some raw ∧ raw.requests ≠ [] ∧
      List.Forall₂ (fun r ops => classifyRequestOperations x r = .ok ops) raw.requests opss ∧
      c = ⟨opss.flatten, maxScope opss.flatten⟩ := by
  obtain ⟨v', raw, opss, hv', h⟩ := classify_ok.mp hc
  cases hv.symm.trans hv'
  exact ⟨raw, opss, h⟩

/-! ### The highest scope -/

lemma maxScope_eq_write {ops : List OperationInfo} :
    maxScope ops = .write ↔ ∃ o ∈ ops, o.kind = .mutation := by
  have hscope : ∀ o : OperationInfo, o.scope = .write ↔ o.kind = .mutation := by
    rintro ⟨n, k, f⟩
    cases k <;> simp [OperationInfo.scope, OperationKind.scope]
  unfold maxScope
  rcases hm : (ops.map OperationInfo.scope).max? with _ | m
  · simp_all
  · obtain ⟨hmem, hle⟩ := List.max?_eq_some_iff.mp hm
    rw [Option.getD_some]
    refine ⟨?_, ?_⟩
    · rintro rfl
      obtain ⟨o, ho, hs⟩ := List.mem_map.mp hmem
      exact ⟨o, ho, (hscope o).mp hs⟩
    · rintro ⟨o, ho, hk⟩
      have := hle o.scope (List.mem_map.mpr ⟨o, ho, rfl⟩)
      rw [(hscope o).mpr hk] at this
      cases m
      · exact absurd this (by decide)
      · rfl

lemma maxScope_eq_read {ops : List OperationInfo} :
    maxScope ops = .read ↔ ∀ o ∈ ops, o.kind ≠ .mutation := by
  rw [← not_iff_not, ← ne_eq, not_forall]
  have : maxScope ops ≠ .read ↔ maxScope ops = .write := by cases maxScope ops <;> simp
  rw [this, maxScope_eq_write]
  simp

/-- A write among the requests of a body makes the body a write. -/
lemma maxScope_flatten {reqs : List GraphQLRequest} {opss : List (List OperationInfo)}
    (h : List.Forall₂ (fun r ops => classifyRequestOperations x r = .ok ops) reqs opss)
    {r : GraphQLRequest} (hr : r ∈ reqs) {ops : List OperationInfo}
    (hops : classifyRequestOperations x r = .ok ops) (hw : maxScope ops = .write) :
    maxScope opss.flatten = .write := by
  obtain ⟨ops', hmem, hops'⟩ := exists_mem_of_forall₂ h hr
  cases hops.symm.trans hops'
  obtain ⟨o, ho, hk⟩ := maxScope_eq_write.mp hw
  exact maxScope_eq_write.mpr ⟨o, List.mem_flatten.mpr ⟨ops, hmem, ho⟩, hk⟩

end GatewayAuth.Operations
