import Mathlib.Data.List.Sort
import GatewayAuth.Lib.Orders
import GatewayAuth.Operations
import GatewayAuth.Server

/-!
What depends on the order in which the operations of a document are iterated, which is that of a
hash map. A request may be classified with its operations in any order: what it is authorized for
is always the same, and what is recorded of it is not.
-/

namespace GatewayAuth.HashOrder

open GatewayAuth.Lib.Orders GatewayAuth.Document GatewayAuth.JsonBody
open GatewayAuth.Classify GatewayAuth.Operations GatewayAuth.Authz GatewayAuth.Forwarding
open GatewayAuth.Audit GatewayAuth.Server

/-! ### Documents in another order -/

/-- The same document with its operations in another order. -/
structure Reordered (doc doc' : ExecutableDocument) : Prop where
  operations : doc'.operations.iter.Perm doc.operations.iter
  fragments : doc'.fragments = doc.fragments

/-- The operations of a document can be in any order. -/
lemma exists_operations {ops : DocumentOperations} {l : List (Option String × OperationDefinition)}
    (h : l.Perm ops.iter) : ∃ ops' : DocumentOperations, ops'.iter = l := by
  cases ops with
  | single op => exact ⟨.single op, (List.perm_singleton.mp h).symm⟩
  | multiple ops some_op =>
    obtain ⟨entries, hperm, rfl⟩ := exists_map_of_perm h
    have hnodup : entries.NodupKeys := (List.perm_nodupKeys hperm).mpr ops.nodupKeys
    refine ⟨.multiple ⟨entries, hnodup⟩ fun hnil => some_op ?_, rfl⟩
    have hnil' : entries = [] := hnil
    rw [hnil'] at hperm
    exact List.nil_perm.mp hperm

/-- The operation is selected by the name, if there is one. -/
def selects (selected : Option String) (op : Option String × OperationDefinition) : Bool :=
  match selected with
  | some sel => op.1 == some sel
  | none => true

lemma matched_eq (doc : ExecutableDocument) (selected : Option String) :
    matched doc selected = doc.operations.iter.filter (selects selected) := rfl

lemma matched_perm {doc doc' : ExecutableDocument} (h : Reordered doc doc')
    (selected : Option String) : (matched doc' selected).Perm (matched doc selected) := by
  rw [matched_eq, matched_eq]
  exact h.operations.filter _

lemma toClassify_perm {doc doc' : ExecutableDocument} (h : Reordered doc doc')
    (selected : Option String) : (toClassify doc' selected).Perm (toClassify doc selected) := by
  have hm := matched_perm h selected
  unfold toClassify
  simp only [List.isEmpty_iff]
  by_cases hnil : matched doc selected = []
  · rw [hnil] at hm
    rw [if_pos hnil, if_pos (List.perm_nil.mp hm)]
    exact h.operations
  · have hnil' : matched doc' selected ≠ [] := by
      intro h'
      rw [h'] at hm
      exact hnil (List.nil_perm.mp hm)
    rw [if_neg hnil, if_neg hnil']
    exact hm

/-- Every order of the operations to classify is that of some order of the document. -/
lemma exists_toClassify {doc : ExecutableDocument} {selected : Option String}
    {l : List (Option String × OperationDefinition)} (h : l.Perm (toClassify doc selected)) :
    ∃ doc', Reordered doc doc' ∧ toClassify doc' selected = l := by
  unfold toClassify at h
  simp only [List.isEmpty_iff] at h
  by_cases hnil : matched doc selected = []
  · rw [if_pos hnil] at h
    obtain ⟨ops', rfl⟩ := exists_operations h
    have hreordered : Reordered doc ⟨ops', doc.fragments⟩ := ⟨h, rfl⟩
    have hm := matched_perm hreordered selected
    rw [hnil] at hm
    refine ⟨_, hreordered, ?_⟩
    unfold toClassify
    rw [List.perm_nil.mp hm]
    rfl
  · rw [if_neg hnil, matched_eq] at h
    -- the selected operations in the order given, then the others
    have hperm : (l ++ doc.operations.iter.filter fun op => !selects selected op).Perm
        doc.operations.iter := by
      refine (h.append_right _).trans ?_
      exact List.filter_append_perm _ _
    obtain ⟨ops', hops'⟩ := exists_operations hperm
    refine ⟨⟨ops', doc.fragments⟩, ⟨by rw [hops']; exact hperm, rfl⟩, ?_⟩
    have hall : ∀ op ∈ l, selects selected op = true := by
      intro op hop
      exact (List.mem_filter.mp (h.mem_iff.mp hop)).2
    have hmatched : matched ⟨ops', doc.fragments⟩ selected = l := by
      rw [matched_eq, hops', List.filter_append, List.filter_eq_self.mpr hall, List.filter_filter]
      simp
    have hl : l ≠ [] := by
      rintro rfl
      exact hnil (List.nil_perm.mp h)
    unfold toClassify
    rw [hmatched, if_neg (by simpa using hl)]

/-! ### Classifications of a body -/

/-- Operations of one request, its document being iterated in some order. -/
def ClassifiesRequest (x : Readers) (r : GraphQLRequest) (ops : List OperationInfo) : Prop :=
  ∃ doc doc', x.parseQuery r.query = .ok doc ∧ Reordered doc doc' ∧
    ops = (toClassify doc' r.operationName).map (operationInfo doc')

/-- A classification of the body, each of its documents being iterated in an order of its
own. -/
def Classifies (x : Readers) (body : Bytes) (c : Classification) : Prop :=
  ∃ v raw opss, x.fromSlice body = .ok v ∧ RawBody.deserialize v = some raw ∧ raw.requests ≠ [] ∧
    List.Forall₂ (ClassifiesRequest x) raw.requests opss ∧
    c = ⟨opss.flatten, maxScope opss.flatten⟩

/-- The operations of each request of an accepted body. -/
def RequestOps (x : Readers) (body : Bytes) (opss : List (List OperationInfo)) : Prop :=
  ∃ v raw, x.fromSlice body = .ok v ∧ RawBody.deserialize v = some raw ∧ raw.requests ≠ [] ∧
    List.Forall₂ (fun r ops => classifyRequestOperations x r = .ok ops) raw.requests opss

variable {x : Readers} {body : Bytes} {c c' : Classification}

lemma operationInfo_congr {doc doc' : ExecutableDocument} (h : doc'.fragments = doc.fragments) :
    operationInfo doc' = operationInfo doc := by
  funext op
  unfold operationInfo
  rw [h]

/-- **The operations of a request may be classified in any order.** -/
lemma classifiesRequest_iff {r : GraphQLRequest} {ops' : List OperationInfo} :
    ClassifiesRequest x r ops' ↔
      ∃ ops, classifyRequestOperations x r = .ok ops ∧ ops'.Perm ops := by
  refine ⟨?_, ?_⟩
  · rintro ⟨doc, doc', hdoc, hreordered, rfl⟩
    refine ⟨_, classifyRequestOperations_ok.mpr ⟨doc, hdoc, rfl⟩, ?_⟩
    rw [operationInfo_congr hreordered.fragments]
    exact (toClassify_perm hreordered _).map _
  · rintro ⟨ops, hops, hperm⟩
    obtain ⟨doc, hdoc, rfl⟩ := classifyRequestOperations_ok.mp hops
    obtain ⟨l, hl, rfl⟩ := exists_map_of_perm hperm
    obtain ⟨doc', hreordered, rfl⟩ := exists_toClassify hl
    exact ⟨doc, doc', hdoc, hreordered, by rw [operationInfo_congr hreordered.fragments]⟩

lemma forall₂_classifiesRequest {reqs : List GraphQLRequest} {opss' : List (List OperationInfo)} :
    List.Forall₂ (ClassifiesRequest x) reqs opss' ↔
      ∃ opss, List.Forall₂ (fun r ops => classifyRequestOperations x r = .ok ops) reqs opss ∧
        Shuffled opss' opss := by
  refine ⟨fun h => ?_, ?_⟩
  · induction h with
    | nil => exact ⟨[], .nil, .nil⟩
    | cons hr _ ih =>
      obtain ⟨ops, hops, hperm⟩ := classifiesRequest_iff.mp hr
      obtain ⟨opss, hopss, hshuffled⟩ := ih
      exact ⟨ops :: opss, .cons hops hopss, .cons hperm hshuffled⟩
  · rintro ⟨opss, h, hshuffled⟩
    induction h generalizing opss' with
    | nil =>
      cases hshuffled
      exact .nil
    | cons hops _ ih =>
      obtain ⟨ops', rest, hperm, hrest, rfl⟩ := shuffled_cons.mp hshuffled
      exact .cons (classifiesRequest_iff.mpr ⟨_, hops, hperm⟩) (ih hrest)

/-- **The classifications of a body are those of its requests' operations in every order.** -/
lemma classifies_iff : Classifies x body c ↔ ∃ opss opss', RequestOps x body opss ∧
    Shuffled opss' opss ∧ c = ⟨opss'.flatten, maxScope opss'.flatten⟩ := by
  refine ⟨?_, ?_⟩
  · rintro ⟨v, raw, opss', hv, hraw, hne, hopss', rfl⟩
    obtain ⟨opss, hopss, hshuffled⟩ := forall₂_classifiesRequest.mp hopss'
    exact ⟨opss, opss', ⟨v, raw, hv, hraw, hne, hopss⟩, hshuffled, rfl⟩
  · rintro ⟨opss, opss', ⟨v, raw, hv, hraw, hne, hopss⟩, hshuffled, rfl⟩
    exact ⟨v, raw, opss', hv, hraw, hne, forall₂_classifiesRequest.mpr ⟨opss, hopss, hshuffled⟩,
      rfl⟩

lemma requestOps_unique {opss opss' : List (List OperationInfo)} (h : RequestOps x body opss)
    (h' : RequestOps x body opss') : opss' = opss := by
  obtain ⟨v, raw, hv, hraw, -, hopss⟩ := h
  obtain ⟨v', raw', hv', hraw', -, hopss'⟩ := h'
  cases hv.symm.trans hv'
  cases hraw.symm.trans hraw'
  refine List.right_unique_forall₂' (fun r ops ops' hops hops' => ?_) hopss' hopss
  cases hops.symm.trans hops'
  rfl

/-- What the classifier gives is one of the classifications, and there is none of a body that it
does not accept. -/
lemma classifies_of_classify (h : classify x body = .ok c) : Classifies x body c := by
  obtain ⟨v, raw, opss, hv, hraw, hne, hopss, rfl⟩ := classify_ok.mp h
  exact classifies_iff.mpr ⟨opss, opss, ⟨v, raw, hv, hraw, hne, hopss⟩, shuffled_refl opss, rfl⟩

/-- The same document with its operations in another order, or the same error. -/
inductive SameParse : Except String ExecutableDocument → Except String ExecutableDocument → Prop
  | error (e : String) : SameParse (.error e) (.error e)
  | document {doc doc' : ExecutableDocument} : Reordered doc doc' → SameParse (.ok doc) (.ok doc')

/-- Readers that present the documents in other orders. -/
structure Reorders (x x' : Readers) : Prop where
  fromSlice : x'.fromSlice = x.fromSlice
  leading : x'.leading = x.leading
  parseQuery : ∀ query, SameParse (x.parseQuery query) (x'.parseQuery query)

variable {x' : Readers}

/-- Whatever the order in which the documents are presented, the classifier gives one of the
classifications. -/
lemma classifies_of_reorders (hx : Reorders x x') (h : classify x' body = .ok c) :
    Classifies x body c := by
  obtain ⟨v, raw, opss, hv, hraw, hne, hopss, rfl⟩ := classify_ok.mp h
  rw [hx.fromSlice] at hv
  refine ⟨v, raw, opss, hv, hraw, hne, hopss.imp fun r ops hops => ?_, rfl⟩
  obtain ⟨doc', hdoc', rfl⟩ := classifyRequestOperations_ok.mp hops
  have hparse := hx.parseQuery r.query
  rw [hdoc'] at hparse
  generalize hdoc : x.parseQuery r.query = parsed at hparse
  cases hparse with
  | document hreordered => exact ⟨_, doc', hdoc, hreordered, rfl⟩

lemma classifyRequestOperations_reorders (hx : Reorders x x') (r : GraphQLRequest) :
    (∃ e, classifyRequestOperations x r = .error e ∧ classifyRequestOperations x' r = .error e) ∨
      ∃ ops ops', classifyRequestOperations x r = .ok ops ∧
        classifyRequestOperations x' r = .ok ops' := by
  have hparse := hx.parseQuery r.query
  generalize hdoc : x.parseQuery r.query = parsed at hparse
  generalize hdoc' : x'.parseQuery r.query = parsed' at hparse
  cases hparse with
  | error e => exact .inl ⟨.graphqlParse e, by simp [classifyRequestOperations, hdoc],
      by simp [classifyRequestOperations, hdoc']⟩
  | document _ => exact .inr ⟨_, _, classifyRequestOperations_ok.mpr ⟨_, hdoc, rfl⟩,
      classifyRequestOperations_ok.mpr ⟨_, hdoc', rfl⟩⟩

/-- The first request that fails does so in every order. -/
lemma collectOperations_reorders (hx : Reorders x x') (reqs : List GraphQLRequest) :
    (∃ e, collectOperations x reqs = .error e ∧ collectOperations x' reqs = .error e) ∨
      ∃ ops ops', collectOperations x reqs = .ok ops ∧ collectOperations x' reqs = .ok ops' := by
  induction reqs with
  | nil => exact .inr ⟨[], [], rfl, rfl⟩
  | cons r reqs ih =>
    unfold collectOperations
    rcases classifyRequestOperations_reorders hx r with ⟨e, h, h'⟩ | ⟨ops, ops', h, h'⟩
    · exact .inl ⟨e, by rw [h], by rw [h']⟩
    · rw [h, h']
      rcases ih with ⟨e, hrest, hrest'⟩ | ⟨rest, rest', hrest, hrest'⟩
      · exact .inl ⟨e, by rw [hrest], by rw [hrest']⟩
      · exact .inr ⟨_, _, by rw [hrest], by rw [hrest']⟩

/-- **A body is refused with the same error in every order, or accepted in every order.** -/
lemma classify_reorders (hx : Reorders x x') (body : Bytes) :
    (∃ e, classify x body = .error e ∧ classify x' body = .error e) ∨
      ∃ c c', classify x body = .ok c ∧ classify x' body = .ok c' := by
  rcases hv : x.fromSlice body with e | v
  · exact .inl ⟨.invalidJson (readError x body e), by simp [classify, hv],
      by simp [classify, hx.fromSlice, hv, readError, hx.leading]⟩
  rcases hraw : RawBody.deserialize v with _ | raw
  · exact .inl ⟨.invalidJson noVariant, by simp [classify, hv, hraw],
      by simp [classify, hx.fromSlice, hv, hraw]⟩
  by_cases hne : raw.requests = []
  · exact .inl ⟨.empty, by simp [classify, hv, hraw, hne],
      by simp [classify, hx.fromSlice, hv, hraw, hne]⟩
  rcases collectOperations_reorders hx raw.requests with ⟨e, h, h'⟩ | ⟨ops, ops', h, h'⟩
  · exact .inl ⟨e, by simp [classify, hv, hraw, hne, h],
      by simp [classify, hx.fromSlice, hv, hraw, hne, h']⟩
  · obtain ⟨opss, hopss, -⟩ := collectOperations_ok.mp h
    obtain ⟨opss', hopss', -⟩ := collectOperations_ok.mp h'
    exact .inr ⟨_, _, classify_ok.mpr ⟨v, raw, opss, hv, hraw, hne, hopss, rfl⟩,
      classify_ok.mpr ⟨v, raw, opss', by rw [hx.fromSlice, hv], hraw, hne, hopss', rfl⟩⟩

/-! ### Authorization -/

lemma maxScope_perm {ops ops' : List OperationInfo} (h : ops'.Perm ops) :
    maxScope ops' = maxScope ops := by
  cases hs : maxScope ops with
  | read =>
    rw [maxScope_eq_read] at hs ⊢
    exact fun o ho => hs o (h.mem_iff.mp ho)
  | write =>
    rw [maxScope_eq_write] at hs ⊢
    obtain ⟨o, ho, hk⟩ := hs
    exact ⟨o, h.mem_iff.mpr ho, hk⟩

lemma operations_perm (h : Classifies x body c) (h' : Classifies x body c') :
    c'.scope = c.scope ∧ c'.operations.Perm c.operations := by
  obtain ⟨opss, s, hops, hs, rfl⟩ := classifies_iff.mp h
  obtain ⟨opss', s', hops', hs', rfl⟩ := classifies_iff.mp h'
  cases requestOps_unique hops hops'
  have hperm : s'.flatten.Perm s.flatten :=
    (flatten_shuffled hs').trans (flatten_shuffled hs).symm
  exact ⟨maxScope_perm hperm, hperm⟩

/-- The required scopes are listed in their own order. -/
lemma requiredScopes_congr {policy policy' : Policy} (hscope : c'.scope = c.scope)
    (hops : c'.operations.Perm c.operations)
    (hoverrides : policy'.overrides.Perm policy.overrides) :
    (requiredScopes c' policy').toList = (requiredScopes c policy).toList := by
  refine List.Pairwise.eq_of_mem_iff (requiredScopes c' policy').sorted
    (requiredScopes c policy).sorted fun s => ?_
  rw [mem_requiredScopes, mem_requiredScopes, hscope]
  unfold Demands
  simp only [hops.mem_iff, hoverrides.mem_iff]

lemma authorize_congr {policy policy' : Policy} (hscope : c'.scope = c.scope)
    (hops : c'.operations.Perm c.operations) (hoverrides : policy'.overrides.Perm policy.overrides)
    (p : Principal) : authorize p c' policy' = authorize p c policy := by
  unfold authorize
  rw [requiredScopes_congr hscope hops hoverrides]

/-- **Authorization does not depend on the order of a hash map.** Any two classifications of a
body have the same scope and the same operations up to order, and with the overrides of the policy
in any two orders every principal is given the same answer, with the same scopes required and
missing. -/
theorem authorization_order_free (x : Readers) (body : Bytes) (c c' : Classification)
    (h : Classifies x body c) (h' : Classifies x body c') (policy policy' : Policy)
    (hoverrides : policy'.overrides.Perm policy.overrides) (p : Principal) :
    c'.scope = c.scope ∧ c'.operations.Perm c.operations ∧
      authorize p c' policy' = authorize p c policy := by
  obtain ⟨hscope, hops⟩ := operations_perm h h'
  exact ⟨hscope, hops, authorize_congr hscope hops hoverrides p⟩

/-! ### The audit record -/

/-- A record of a request with this classification that was denied, rate-limited or forwarded. -/
inductive Emitted {Cell : Type} (x : Crates Cell) (g : Inner) (c : Classification) :
    AuditRecord → Prop
  | denied {now : ℕ} {parts : Parts} {p : Principal} {d : Denied} {r : AuditRecord} :
      r ∈ ((Refusal.denied p c d).exit x now parts).records → Emitted x g c r
  | rateLimited {now : ℕ} {parts : Parts} {p : Principal} {r : AuditRecord} :
      r ∈ ((Refusal.rateLimited p c).exit x now parts).records → Emitted x g c r
  | allowed {now : ℕ} {parts : Parts} {call : Call} {result : Except ProxyError ProxyResponse}
      {r : AuditRecord} : call.classification = c →
      r ∈ (handleResult x g now parts call result).records → Emitted x g c r

/-- The two records tell the same operation. -/
structure SameOperation (r r' : AuditRecord) : Prop where
  operationName : r'.operationName = r.operationName
  operationKinds : r'.operationKinds = r.operationKinds
  topLevelFields : r'.topLevelFields = r.topLevelFields

variable {Cell : Type} {crates : Crates Cell} {g : Inner}

lemma emitted_fields {r : AuditRecord} (h : Emitted crates g c r) :
    r.operationName = firstOpName c ∧ r.operationKinds = operationKinds c ∧
      r.topLevelFields = topFields c := by
  cases h with
  | denied hr =>
    rw [List.mem_singleton.mp hr]
    exact ⟨rfl, rfl, rfl⟩
  | rateLimited hr =>
    rw [List.mem_singleton.mp hr]
    exact ⟨rfl, rfl, rfl⟩
  | allowed hcall hr =>
    subst hcall
    obtain ⟨raw, rfl⟩ := eq_auditRecord hr
    exact ⟨rfl, rfl, rfl⟩

/-- What is recorded of two lists of operations is the same. -/
structure RecordedAlike (ops ops' : List OperationInfo) : Prop where
  name : ops'.findSome? OperationInfo.name = ops.findSome? OperationInfo.name
  kinds : ops'.map OperationInfo.kind = ops.map OperationInfo.kind
  fields : ops'.flatMap OperationInfo.topLevelFields = ops.flatMap OperationInfo.topLevelFields

lemma RecordedAlike.symm {ops ops' : List OperationInfo} (h : RecordedAlike ops ops') :
    RecordedAlike ops' ops := ⟨h.name.symm, h.kinds.symm, h.fields.symm⟩

lemma RecordedAlike.trans {ops ops' ops'' : List OperationInfo} (h : RecordedAlike ops ops')
    (h' : RecordedAlike ops' ops'') : RecordedAlike ops ops'' :=
  ⟨h'.name.trans h.name, h'.kinds.trans h.kinds, h'.fields.trans h.fields⟩

/-- Records tell the same operation exactly when their operations are recorded alike. -/
lemma sameOperation_iff {r r' : AuditRecord} (hr : Emitted crates g c r)
    (hr' : Emitted crates g c' r') :
    SameOperation r r' ↔ RecordedAlike c.operations c'.operations := by
  obtain ⟨hname, hkinds, hfields⟩ := emitted_fields hr
  obtain ⟨hname', hkinds', hfields'⟩ := emitted_fields hr'
  refine ⟨fun h => ?_, fun h => ?_⟩
  · have h₁ := h.operationName
    have h₂ := h.operationKinds
    have h₃ := h.topLevelFields
    rw [hname, hname'] at h₁
    rw [hkinds, hkinds'] at h₂
    rw [hfields, hfields'] at h₃
    exact ⟨h₁, h₂, h₃⟩
  · refine ⟨?_, ?_, ?_⟩
    · rw [hname, hname']
      exact h.name
    · rw [hkinds, hkinds']
      exact h.kinds
    · rw [hfields, hfields']
      exact h.fields

/-- Every classification is recorded when it is rate-limited. -/
lemma exists_emitted (crates : Crates Cell) (g : Inner) (c : Classification) :
    ∃ r, Emitted crates g c r :=
  ⟨_, .rateLimited (List.mem_singleton_self (auditPreUpstream crates 0
    ⟨.post, "/", [], "", none⟩ .anonymous (some c) .rateLimited))⟩

/-- What is recorded of the operations of a body is settled: in each of its requests they are of
one kind and their fields can be listed in either order, and the first request that names an
operation has no other. -/
def Settled (x : Readers) (body : Bytes) : Prop :=
  ∀ opss, RequestOps x body opss →
    (∀ ops ∈ opss, ∀ o ∈ ops, ∀ o' ∈ ops, o.kind = o'.kind ∧
      o.topLevelFields ++ o'.topLevelFields = o'.topLevelFields ++ o.topLevelFields) ∧
    ∀ ops, opss.find? (fun ops => (ops.findSome? OperationInfo.name).isSome) = some ops →
      ops.length = 1

/-- The operations of a document have different names. -/
lemma iter_nodup (ops : DocumentOperations) : (ops.iter.map Prod.fst).Nodup := by
  cases ops with
  | single op => simp [DocumentOperations.iter]
  | multiple ops some_op =>
    have hkeys : (ops.entries.map Sigma.fst).Nodup := ops.nodupKeys
    have hmap := hkeys.map (Option.some_injective String)
    simpa [DocumentOperations.iter, List.map_map, Function.comp_def] using hmap

lemma iter_named (ops : DocumentOperations) :
    ops.iter.length = 1 ∨ ∀ op ∈ ops.iter, op.1.isSome = true := by
  cases ops with
  | single op => exact .inl rfl
  | multiple ops some_op =>
    right
    intro op hop
    obtain ⟨e, -, rfl⟩ := List.mem_map.mp hop
    rfl

lemma toClassify_sublist (doc : ExecutableDocument) (selected : Option String) :
    (toClassify doc selected).Sublist doc.operations.iter := by
  unfold toClassify
  split_ifs
  · exact List.Sublist.refl _
  · exact List.filter_sublist

/-- One name among the operations of a request is one operation. -/
lemma oneResult_iff_length {r : GraphQLRequest} {ops : List OperationInfo}
    (h : classifyRequestOperations x r = .ok ops) :
    OneResult OperationInfo.name ops ↔ ops.length = 1 := by
  obtain ⟨doc, -, rfl⟩ := classifyRequestOperations_ok.mp h
  have hsub := toClassify_sublist doc r.operationName
  have hnodup : ((toClassify doc r.operationName).map Prod.fst).Nodup :=
    (iter_nodup doc.operations).sublist (hsub.map Prod.fst)
  have hnames : ∀ op : Option String × OperationDefinition, (operationInfo doc op).name = op.1 :=
    fun _ => rfl
  refine ⟨fun hone => ?_, fun hlen => ?_⟩
  · rcases hops : toClassify doc r.operationName with _ | ⟨a, _ | ⟨b, rest⟩⟩
    · exact absurd hops (toClassify_ne_nil doc _)
    · rfl
    · exfalso
      rw [hops] at hsub hnodup hone
      have hlong : doc.operations.iter.length ≠ 1 := by
        have hle := hsub.length_le
        simp only [List.length_cons] at hle
        omega
      have hnamed := (iter_named doc.operations).resolve_left hlong
      obtain ⟨n, hn⟩ := Option.isSome_iff_exists.mp (hnamed a (hsub.subset (by simp)))
      obtain ⟨m, hm⟩ := Option.isSome_iff_exists.mp (hnamed b (hsub.subset (by simp)))
      have hnm : n = m := hone (operationInfo doc a) (by simp) (operationInfo doc b) (by simp) n m
        ((hnames a).trans hn) ((hnames b).trans hm)
      have hne : a.1 ≠ b.1 := by
        intro hab
        simp [hab] at hnodup
      exact hne (by rw [hn, hm, hnm])
  · obtain ⟨o, ho⟩ := List.length_eq_one_iff.mp hlen
    rw [ho]
    intro a ha b hb n m hn hm
    rw [List.mem_singleton.mp ha] at hn
    rw [List.mem_singleton.mp hb, hn] at hm
    exact Option.some.inj hm

lemma requestOps_mem {opss : List (List OperationInfo)} (h : RequestOps x body opss)
    {ops : List OperationInfo} (hops : ops ∈ opss) :
    ∃ r, classifyRequestOperations x r = .ok ops := by
  obtain ⟨v, raw, -, -, -, hopss⟩ := h
  obtain ⟨r, -, hr⟩ := exists_mem_of_forall₂ hopss.flip hops
  exact ⟨r, hr⟩

lemma map_kind_shuffled {opss : List (List OperationInfo)} :
    (∀ ls, Shuffled ls opss →
        ls.flatten.map OperationInfo.kind = opss.flatten.map OperationInfo.kind) ↔
      ∀ ops ∈ opss, ∀ o ∈ ops, ∀ o' ∈ ops, o.kind = o'.kind := by
  have hmap : ∀ l : List OperationInfo,
      l.map OperationInfo.kind = l.flatMap fun o => [o.kind] := fun _ => List.map_eq_flatMap
  simp only [hmap, flatMap_shuffled]
  have hcommute : ∀ o o' : OperationInfo,
      [o.kind] ++ [o'.kind] = [o'.kind] ++ [o.kind] ↔ o.kind = o'.kind := by
    intro o o'
    refine ⟨fun h => (List.cons.inj h).1, fun h => ?_⟩
    rw [h]
  simp only [AllCommute, hcommute]

/-- **Settled is what every order records alike.** -/
lemma settled_iff {opss : List (List OperationInfo)} (h : RequestOps x body opss) :
    Settled x body ↔ ∀ ls, Shuffled ls opss → RecordedAlike opss.flatten ls.flatten := by
  have hname : (∀ ls, Shuffled ls opss →
      ls.flatten.findSome? OperationInfo.name = opss.flatten.findSome? OperationInfo.name) ↔
      ∀ ops, opss.find? (fun ops => (ops.findSome? OperationInfo.name).isSome) = some ops →
        ops.length = 1 := by
    rw [findSome?_shuffled]
    refine forall₂_congr fun ops hfind => ?_
    obtain ⟨r, hr⟩ := requestOps_mem h (List.mem_of_find?_eq_some hfind)
    exact oneResult_iff_length hr
  refine ⟨fun hsettled => ?_, fun hall opss' h' => ?_⟩
  · obtain ⟨hpairs, hfirst⟩ := hsettled opss h
    have hkinds := map_kind_shuffled.mpr fun ops hops o ho o' ho' =>
      (hpairs ops hops o ho o' ho').1
    have hfields := flatMap_shuffled.mpr fun ops hops o ho o' ho' =>
      (hpairs ops hops o ho o' ho').2
    exact fun ls hls => ⟨hname.mpr hfirst ls hls, hkinds ls hls, hfields ls hls⟩
  · cases requestOps_unique h h'
    have hkinds := map_kind_shuffled.mp fun ls hls => (hall ls hls).kinds
    have hfields := flatMap_shuffled.mp fun ls hls => (hall ls hls).fields
    exact ⟨fun ops hops o ho o' ho' =>
      ⟨hkinds ops hops o ho o' ho', hfields ops hops o ho o' ho'⟩,
      hname.mp fun ls hls => (hall ls hls).name⟩

/-- **What the record tells of a body is settled by the body exactly when** in each of its requests
the operations are of one kind and their fields can be listed in either order, and the first
request that names an operation has no other. Then, and only then, any two records of the body,
be it denied, rate-limited or forwarded, tell the same operation. -/
theorem record_order_free_iff (crates : Crates Cell) (g : Inner) (body : Bytes) :
    (∀ c c', Classifies crates.readers body c → Classifies crates.readers body c' →
        ∀ r r', Emitted crates g c r → Emitted crates g c' r' → SameOperation r r') ↔
      Settled crates.readers body := by
  refine ⟨fun hsame opss hopss => ?_, fun hsettled c c' hc hc' r r' hr hr' => ?_⟩
  · refine (settled_iff hopss).mpr (fun ls hls => ?_) opss hopss
    have hc : Classifies crates.readers body ⟨opss.flatten, maxScope opss.flatten⟩ :=
      classifies_iff.mpr ⟨opss, opss, hopss, shuffled_refl opss, rfl⟩
    have hc' : Classifies crates.readers body ⟨ls.flatten, maxScope ls.flatten⟩ :=
      classifies_iff.mpr ⟨opss, ls, hopss, hls, rfl⟩
    obtain ⟨r, hr⟩ := exists_emitted crates g ⟨opss.flatten, maxScope opss.flatten⟩
    obtain ⟨r', hr'⟩ := exists_emitted crates g ⟨ls.flatten, maxScope ls.flatten⟩
    exact (sameOperation_iff hr hr').mp (hsame _ _ hc hc' r r' hr hr')
  · obtain ⟨opss, ls, hopss, hls, rfl⟩ := classifies_iff.mp hc
    obtain ⟨opss', ls', hopss', hls', rfl⟩ := classifies_iff.mp hc'
    cases requestOps_unique hopss hopss'
    have halike := (settled_iff hopss).mp hsettled
    exact (sameOperation_iff hr hr').mpr ((halike ls hls).symm.trans (halike ls' hls'))

/-! ### An example: a query and a mutation without an operation name -/

def rulesInfo : OperationInfo := ⟨some "Rules", .query, ["indexingRules"]⟩
def setRuleInfo : OperationInfo := ⟨some "SetRule", .mutation, ["setIndexingRule"]⟩

lemma classifies_rulesAndSetRule {ops : List OperationInfo}
    (h : ops.Perm [rulesInfo, setRuleInfo]) :
    Classifies exampleReaders (ascii (requestText rulesAndSetRule)) ⟨ops, .write⟩ := by
  have hopss : RequestOps exampleReaders (ascii (requestText rulesAndSetRule))
      [[rulesInfo, setRuleInfo]] :=
    ⟨requestJson rulesAndSetRule, .single ⟨rulesAndSetRule, none⟩, rfl, rfl, by decide,
      .cons rfl .nil⟩
  have hscope : maxScope ops = .write := by
    rw [maxScope_perm h]
    rfl
  refine classifies_iff.mpr ⟨_, [ops], hopss, shuffled_head h [], ?_⟩
  simp [hscope]

theorem authorization_order_free_rulesAndSetRule :
    authorize operator ⟨[setRuleInfo, rulesInfo], .write⟩ .default =
      authorize operator ⟨[rulesInfo, setRuleInfo], .write⟩ .default :=
  (authorization_order_free exampleReaders (ascii (requestText rulesAndSetRule))
    ⟨[rulesInfo, setRuleInfo], .write⟩ ⟨[setRuleInfo, rulesInfo], .write⟩
    (classifies_rulesAndSetRule (List.Perm.refl _))
    (classifies_rulesAndSetRule (List.Perm.swap _ _ _)) .default .default (List.Perm.refl _)
    operator).2.2

/-- The same request, recorded as two different operations. -/
theorem recorded_by_hash_order :
    ∃ c c' r r', Classifies exampleReaders (ascii (requestText rulesAndSetRule)) c ∧
      Classifies exampleReaders (ascii (requestText rulesAndSetRule)) c' ∧
      Emitted exampleCrates (exampleGateway true) c r ∧
      Emitted exampleCrates (exampleGateway true) c' r' ∧
      r.operationName = some "Rules" ∧ r'.operationName = some "SetRule" ∧
      ¬SameOperation r r' := by
  obtain ⟨r, hr⟩ := exists_emitted exampleCrates (exampleGateway true)
    ⟨[rulesInfo, setRuleInfo], .write⟩
  obtain ⟨r', hr'⟩ := exists_emitted exampleCrates (exampleGateway true)
    ⟨[setRuleInfo, rulesInfo], .write⟩
  have hname : r.operationName = some "Rules" := (emitted_fields hr).1
  have hname' : r'.operationName = some "SetRule" := (emitted_fields hr').1
  refine ⟨_, _, r, r', classifies_rulesAndSetRule (List.Perm.refl _),
    classifies_rulesAndSetRule (List.Perm.swap _ _ _), hr, hr', hname, hname', fun h => ?_⟩
  have hsame := h.operationName
  rw [hname, hname'] at hsame
  simp at hsame

end GatewayAuth.HashOrder
