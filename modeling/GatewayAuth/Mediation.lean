import GatewayAuth.Operations
import GatewayAuth.Server

/-!
Complete mediation: the principal of a forwarded request is entitled to every operation that a
server could execute for it, and sending operations together or apart makes no difference.
-/

namespace GatewayAuth.Mediation

open GatewayAuth.Document GatewayAuth.JsonBody GatewayAuth.Classify GatewayAuth.RootFields
open GatewayAuth.Operations GatewayAuth.Authz GatewayAuth.Forwarding GatewayAuth.Ratelimit
open GatewayAuth.Server

/-! ### Authorization, operation by operation -/

/-- The principal satisfies what the classified operation requires on its own. -/
def MayExecute (p : Principal) (policy : Policy) (o : OperationInfo) : Prop :=
  p.satisfies (baseScope o.scope) = true ∧ ∀ s, Demands policy o s → p.satisfies s = true

/-- `write` satisfies `read`, so the highest scope stands for the scope of every operation. -/
lemma satisfies_maxScope {p : Principal} {ops : List OperationInfo} (hne : ops ≠ []) :
    p.satisfies (baseScope (maxScope ops)) = true ↔
      ∀ o ∈ ops, p.satisfies (baseScope o.scope) = true := by
  refine ⟨?_, ?_⟩
  · intro h o ho
    refine satisfies_baseScope_mono ?_ h
    rcases hs : maxScope ops with _ | _
    · have hk := maxScope_eq_read.mp hs o ho
      obtain ⟨n, k, f⟩ := o
      cases k
      · exact le_rfl
      · exact absurd rfl hk
      · exact le_rfl
    · cases o.scope <;> decide
  · intro h
    rcases hs : maxScope ops with _ | _
    · obtain ⟨o, ho⟩ := List.exists_mem_of_ne_nil ops hne
      refine satisfies_baseScope_mono ?_ (h o ho)
      cases o.scope <;> decide
    · obtain ⟨o, ho, hk⟩ := maxScope_eq_write.mp hs
      have hw := h o ho
      rwa [OperationInfo.scope, hk] at hw

/-- **A classification is authorized exactly when each of its operations is.** -/
lemma authorized_iff_forall {p : Principal} {policy : Policy} {ops : List OperationInfo}
    (hne : ops ≠ []) :
    Authorized p ⟨ops, maxScope ops⟩ policy ↔ ∀ o ∈ ops, MayExecute p policy o := by
  rw [authorized_iff, satisfies_maxScope hne]
  refine ⟨?_, ?_⟩
  · rintro ⟨hbase, hdemands⟩ o ho
    exact ⟨hbase o ho, hdemands o ho⟩
  · intro h
    exact ⟨fun o ho => (h o ho).1, fun o ho => (h o ho).2⟩

/-! ### What an operation of a document asks for -/

/-- The override constrains the operation: it sets a constraint, and every constraint it sets
holds, of the real name of a root field or of the name of the operation. -/
def Constrains (doc : ExecutableDocument) (op : Option String × OperationDefinition)
    (ov : Override) : Prop :=
  (ov.field.isSome ∨ ov.operation.isSome) ∧
    (∀ f, ov.field = some f → RootField doc.fragments op.2.selectionSet f) ∧
    ∀ o, ov.operation = some o → op.1 = some o

/-- The principal is entitled to the operation: by its kind, and by every override. -/
def Entitled (p : Principal) (policy : Policy) (doc : ExecutableDocument)
    (op : Option String × OperationDefinition) : Prop :=
  p.satisfies (if op.2.ty = .mutation then "write" else "read") = true ∧
    ∀ ov ∈ policy.overrides, Constrains doc op ov →
      ∀ s ∈ ov.requireScopes, p.satisfies s = true

lemma overrideMatches_operationInfo {doc : ExecutableDocument}
    {op : Option String × OperationDefinition} {ov : Override} :
    overrideMatches ov (operationInfo doc op) = true ↔ Constrains doc op ov := by
  rw [overrideMatches_iff]
  simp only [operationInfo, mem_collectTopFields, Constrains]

lemma baseScope_operationInfo (doc : ExecutableDocument)
    (op : Option String × OperationDefinition) :
    baseScope (operationInfo doc op).scope =
      if op.2.ty = .mutation then "write" else "read" := by
  obtain ⟨name, ty, set⟩ := op
  cases ty <;> rfl

lemma mayExecute_iff_entitled {p : Principal} {policy : Policy} {doc : ExecutableDocument}
    {op : Option String × OperationDefinition} :
    MayExecute p policy (operationInfo doc op) ↔ Entitled p policy doc op := by
  unfold MayExecute Entitled
  rw [baseScope_operationInfo]
  refine and_congr_right fun _ => ?_
  refine ⟨?_, ?_⟩
  · intro h ov hov hc s hs
    exact h s ⟨ov, hov, overrideMatches_operationInfo.mpr hc, hs⟩
  · rintro h s ⟨ov, hov, hm, hs⟩
    exact h ov hov (overrideMatches_operationInfo.mp hm) s hs

/-! ### What a body asks for -/

variable {x : Readers} {p : Principal} {policy : Policy}

/-- The principal is entitled to every operation the request could execute. -/
def RequestEntitled (x : Readers) (p : Principal) (policy : Policy) (r : GraphQLRequest) : Prop :=
  ∃ doc, x.parseQuery r.query = .ok doc ∧
    ∀ op ∈ toClassify doc r.operationName, Entitled p policy doc op

/-- The body is accepted and authorized. -/
def Permitted (x : Readers) (p : Principal) (policy : Policy) (body : Bytes) : Prop :=
  ∃ c, classify x body = .ok c ∧ Authorized p c policy

lemma requestEntitled_iff {r : GraphQLRequest} {doc : ExecutableDocument}
    (hdoc : x.parseQuery r.query = .ok doc) :
    RequestEntitled x p policy r ↔
      ∀ op ∈ toClassify doc r.operationName, Entitled p policy doc op := by
  refine ⟨?_, fun h => ⟨doc, hdoc, h⟩⟩
  rintro ⟨doc', hdoc', h⟩
  cases hdoc.symm.trans hdoc'
  exact h

lemma forall_mayExecute_iff {r : GraphQLRequest} {ops : List OperationInfo}
    (h : classifyRequestOperations x r = .ok ops) :
    (∀ o ∈ ops, MayExecute p policy o) ↔ RequestEntitled x p policy r := by
  obtain ⟨doc, hdoc, rfl⟩ := classifyRequestOperations_ok.mp h
  rw [requestEntitled_iff hdoc, List.forall_mem_map]
  exact forall₂_congr fun op _ => mayExecute_iff_entitled

/-- Over the operations of several requests, each request is decided on its own. -/
lemma forall_flatten_iff {reqs : List GraphQLRequest} {opss : List (List OperationInfo)}
    (h : List.Forall₂ (fun r ops => classifyRequestOperations x r = .ok ops) reqs opss) :
    (∀ o ∈ opss.flatten, MayExecute p policy o) ↔ ∀ r ∈ reqs, RequestEntitled x p policy r := by
  induction h with
  | nil => simp
  | cons ha _ ih =>
    simp only [List.flatten_cons, List.mem_append, List.mem_cons, or_imp, forall_and,
      forall_eq, ih, forall_mayExecute_iff ha]

/-- **An accepted body is authorized exactly when each of its requests is.** -/
lemma authorized_body {body : Bytes} {c : Classification} {v : Json} {raw : RawBody}
    (hc : classify x body = .ok c) (hv : x.fromSlice body = .ok v)
    (hraw : RawBody.deserialize v = some raw) :
    Authorized p c policy ↔ ∀ r ∈ raw.requests, RequestEntitled x p policy r := by
  obtain ⟨raw', opss, hraw', hne, hops, rfl⟩ := classify_ok_of_read hv hc
  cases hraw.symm.trans hraw'
  rw [authorized_iff_forall (flatten_ne_nil hne hops), forall_flatten_iff hops]

/-- **What is entitled covers what executes**: the operation a server selects, by the name the
gateway reads or without one. -/
lemma RequestEntitled.selected {r : GraphQLRequest} (h : RequestEntitled x p policy r)
    {doc : ExecutableDocument} (hdoc : x.parseQuery r.query = .ok doc) {n : Option String}
    (hn : n = r.operationName ∨ n = none) {op : Option String × OperationDefinition}
    (hop : getOperation doc.operations n = some op) : Entitled p policy doc op := by
  exact (requestEntitled_iff hdoc).mp h op (getOperation_mem_toClassify hn hop)

/-! ### What is forwarded -/

/-- **Complete mediation.** When the gateway fails closed and calls `forward` for a request that
is not a GET and not for the admin upstream, the principal is entitled to whatever operation a
server selects for any element of the body. -/
theorem forwarded_body_entitled {Cell : Type} (x : Crates Cell) (g : Inner)
    (hclosed : g.failClosedOnParseError = true) (l : RateLimiters Cell) (now : ℕ) (parts : Parts)
    (hmethod : parts.method ≠ .get) (hroute : (route parts.pathAndQuery).1 ≠ .graphNodeAdmin)
    (p : Principal) (body : Except Unit Bytes) (call : Call)
    (hcall : (handleBody x g l now parts p body).result = .ok call) :
    ∃ v, body = .ok call.body ∧ x.readers.fromSlice call.body = .ok v ∧
      ∀ e ∈ elements v, ∃ r doc, GraphQLRequest.deserialize e = some r ∧
        x.readers.parseQuery r.query = .ok doc ∧
        ∀ n, n = r.operationName ∨ n = none → ∀ op, getOperation doc.operations n = some op →
          Entitled p g.policy doc op := by
  obtain ⟨c, b, hscreen, -, rfl⟩ := handleBody_ok.mp hcall
  obtain ⟨hbytes, hc, hauth⟩ := screen_ok.mp hscreen
  rw [hclosed] at hc
  have hclassify := classifyRequest_failClosed hmethod hroute hc
  obtain ⟨v, raw, -, hv, hraw, -, -, -⟩ := classify_ok.mp hclassify
  have hentitled := (authorized_body hclassify hv hraw).mp hauth
  refine ⟨v, (toBytes_eq_some.mp hbytes).1, hv, fun e he => ?_⟩
  obtain ⟨r, hr, hdes⟩ := exists_mem_of_forall₂ (deserialize_requests hraw) he
  obtain ⟨doc, hdoc, hall⟩ := hentitled r hr
  exact ⟨r, doc, hdes, hdoc, fun n hn op hop => (hentitled r hr).selected hdoc hn hop⟩

theorem forwarded_body_entitled_setRule :
    ∃ v, (Except.ok (ascii (requestText setRule)) : Except Unit Bytes) =
        .ok (ascii (requestText setRule)) ∧
      exampleReaders.fromSlice (ascii (requestText setRule)) = .ok v ∧
      ∀ e ∈ elements v, ∃ r doc, GraphQLRequest.deserialize e = some r ∧
        exampleReaders.parseQuery r.query = .ok doc ∧
        ∀ n, n = r.operationName ∨ n = none → ∀ op, getOperation doc.operations n = some op →
          Entitled operator .default doc op :=
  forwarded_body_entitled exampleCrates (exampleGateway true) rfl
    (.new exampleCrates.governor 600 30) 0 (exampleParts .post "/" "write-token") (by decide)
    (by decide) operator (.ok (ascii (requestText setRule)))
    (Call.new exampleCrates 0 operator
      ⟨[⟨none, .mutation, ["setIndexingRule"]⟩], .write⟩ (ascii (requestText setRule))) rfl

/-! ### Together or apart -/

lemma requests_of_objects {vs : List Json} (hobj : ∀ v ∈ vs, ∃ members, v = .obj members)
    {rs : List GraphQLRequest}
    (h : List.Forall₂ (fun v r => GraphQLRequest.deserialize v = some r) vs rs) :
    RawBody.deserialize (.arr vs) = some (.batch rs) := by
  unfold RawBody.deserialize
  simp [deserialize_objects hobj, mapM_eq_some.mpr h]

/-- The body is read as one request. -/
def Reads (x : Readers) (body : Bytes) (r : GraphQLRequest) : Prop :=
  ∃ v, x.fromSlice body = .ok v ∧ RawBody.deserialize v = some (.single r)

lemma reads_of_deserialize {body : Bytes} {v : Json} {r : GraphQLRequest}
    (hv : x.fromSlice body = .ok v) (hr : GraphQLRequest.deserialize v = some r) :
    Reads x body r :=
  ⟨v, hv, by simp [RawBody.deserialize, hr]⟩

lemma authorized_of_reads {body : Bytes} {r : GraphQLRequest} (h : Reads x body r)
    {c : Classification} (hc : classify x body = .ok c) :
    Authorized p c policy ↔ RequestEntitled x p policy r := by
  obtain ⟨v, hv, hraw⟩ := h
  rw [authorized_body hc hv hraw]
  simp [RawBody.requests]

lemma classify_of_reads {body : Bytes} {r : GraphQLRequest} (h : Reads x body r)
    {c : Classification} (hc : classify x body = .ok c) :
    ∃ ops, classifyRequestOperations x r = .ok ops ∧ c = ⟨ops, maxScope ops⟩ := by
  obtain ⟨v, hv, hraw⟩ := h
  obtain ⟨raw', opss, hraw', -, hops, rfl⟩ := classify_ok_of_read hv hc
  cases hraw.symm.trans hraw'
  cases hops with
  | cons ha hnil =>
    cases hnil
    exact ⟨_, ha, by simp⟩

lemma exists_classify_of_reads {body : Bytes} {r : GraphQLRequest} (h : Reads x body r)
    {ops : List OperationInfo} (hops : classifyRequestOperations x r = .ok ops) :
    ∃ c, classify x body = .ok c := by
  obtain ⟨v, hv, hraw⟩ := h
  exact ⟨_, classify_ok.mpr ⟨v, .single r, [ops], hv, hraw, by simp [RawBody.requests],
    .cons hops .nil, rfl⟩⟩

lemma permitted_of_reads {body : Bytes} {r : GraphQLRequest} (h : Reads x body r) :
    Permitted x p policy body ↔ RequestEntitled x p policy r := by
  refine ⟨?_, fun hr => ?_⟩
  · rintro ⟨c, hc, hauth⟩
    exact (authorized_of_reads h hc).mp hauth
  · obtain ⟨doc, hdoc, -⟩ := id hr
    obtain ⟨c, hc⟩ := exists_classify_of_reads h (classifyRequestOperations_ok.mpr ⟨doc, hdoc, rfl⟩)
    exact ⟨c, hc, (authorized_of_reads h hc).mpr hr⟩

/-- An object is read as one request or not at all. -/
lemma reads_of_object {members : List (String × Json)} {body : Bytes}
    (hv : x.fromSlice body = .ok (.obj members)) {c : Classification}
    (hc : classify x body = .ok c) :
    ∃ r, GraphQLRequest.deserialize (.obj members) = some r ∧ Reads x body r := by
  obtain ⟨raw, -, hraw, -⟩ := classify_ok_of_read hv hc
  rcases hr : GraphQLRequest.deserialize (.obj members) with _ | r
  · simp [RawBody.deserialize, hr] at hraw
  · exact ⟨r, rfl, reads_of_deserialize hv hr⟩

/-- The requests of bodies that are objects, each accepted on its own, and their operations. -/
lemma exists_requests (p : Principal) (policy : Policy) {bodies : List Bytes} {vs : List Json}
    (h : List.Forall₂ (fun b v => x.fromSlice b = .ok v) bodies vs)
    (hobj : ∀ v ∈ vs, ∃ members, v = .obj members)
    (hok : ∀ b ∈ bodies, ∃ c, classify x b = .ok c) :
    ∃ rs opss, List.Forall₂ (fun v r => GraphQLRequest.deserialize v = some r) vs rs ∧
      List.Forall₂ (fun r ops => classifyRequestOperations x r = .ok ops) rs opss ∧
      ((∀ r ∈ rs, RequestEntitled x p policy r) ↔ ∀ b ∈ bodies, Permitted x p policy b) := by
  induction h with
  | nil => exact ⟨[], [], .nil, .nil, by simp⟩
  | @cons b v bodies vs hv _ ih =>
    obtain ⟨members, rfl⟩ := hobj _ List.mem_cons_self
    obtain ⟨c, hc⟩ := hok b List.mem_cons_self
    obtain ⟨r, hr, hreads⟩ := reads_of_object hv hc
    obtain ⟨ops, hops, -⟩ := classify_of_reads hreads hc
    obtain ⟨rs, opss, hrs, hopss, hiff⟩ :=
      ih (fun v hv => hobj v (List.mem_cons_of_mem _ hv))
        fun b hb => hok b (List.mem_cons_of_mem _ hb)
    refine ⟨r :: rs, ops :: opss, .cons hr hrs, .cons hops hopss, ?_⟩
    rw [List.forall_mem_cons, List.forall_mem_cons, hiff, permitted_of_reads hreads]

/-- **The batch of objects that are each accepted alone**: it is accepted, and authorized
exactly when each of them is. -/
lemma classify_batch (p : Principal) (policy : Policy) {bodies : List Bytes} {vs : List Json}
    {batch : Bytes} (hne : vs ≠ []) (hobj : ∀ v ∈ vs, ∃ members, v = .obj members)
    (hbodies : List.Forall₂ (fun b v => x.fromSlice b = .ok v) bodies vs)
    (hok : ∀ b ∈ bodies, ∃ c, classify x b = .ok c) (hbatch : x.fromSlice batch = .ok (.arr vs)) :
    ∃ c, classify x batch = .ok c ∧
      (Authorized p c policy ↔ ∀ b ∈ bodies, Permitted x p policy b) := by
  obtain ⟨rs, opss, hrs, hopss, hiff⟩ := exists_requests p policy hbodies hobj hok
  have hraw := requests_of_objects hobj hrs
  have hrs_ne : rs ≠ [] := by
    rintro rfl
    cases hrs
    exact hne rfl
  have hc : classify x batch = .ok _ :=
    classify_ok.mpr ⟨.arr vs, _, opss, hbatch, hraw, hrs_ne, hopss, rfl⟩
  exact ⟨_, hc, (authorized_body hc hbatch hraw).trans hiff⟩

/-- **An element of an accepted body, sent on its own**: it is accepted, authorized if the body
is, and no more of a write than the body. -/
lemma classify_element (p : Principal) (policy : Policy) {body : Bytes} {v : Json}
    {c : Classification} (hv : x.fromSlice body = .ok v) (hc : classify x body = .ok c)
    {e : Json} (he : e ∈ elements v) {b : Bytes} (hb : x.fromSlice b = .ok e) :
    ∃ c', classify x b = .ok c' ∧ (Authorized p c policy → Authorized p c' policy) ∧
      (c'.scope = .write → c.scope = .write) := by
  obtain ⟨raw, opss, hraw, -, hopss, hflatten⟩ := classify_ok_of_read hv hc
  obtain ⟨r, hr, hdes⟩ := exists_mem_of_forall₂ (deserialize_requests hraw) he
  obtain ⟨ops, -, hops⟩ := exists_mem_of_forall₂ hopss hr
  have hreads := reads_of_deserialize hb hdes
  obtain ⟨c', hc'⟩ := exists_classify_of_reads hreads hops
  refine ⟨c', hc', fun hauth => ?_, fun hwrite => ?_⟩
  · exact (authorized_of_reads hreads hc').mpr ((authorized_body hc hv hraw).mp hauth r hr)
  · obtain ⟨ops', hops', rfl⟩ := classify_of_reads hreads hc'
    rw [hflatten]
    exact maxScope_flatten hopss hr hops' hwrite

/-- Without a name every operation of the document counts, with the name of one that one. -/
lemma requestEntitled_iff_named {query : String} {doc : ExecutableDocument}
    {ops : AList fun _ : String => OperationDefinition} {hne : ops.entries ≠ []}
    (hdoc : x.parseQuery query = .ok doc) (hops : doc.operations = .multiple ops hne) :
    RequestEntitled x p policy ⟨query, none⟩ ↔
      ∀ n ∈ ops.keys, RequestEntitled x p policy ⟨query, some n⟩ := by
  have hiter : ∀ n op, (n, op) ∈ doc.operations.iter → ∃ name ∈ ops.keys, n = some name := by
    intro n op hmem
    rw [hops] at hmem
    obtain ⟨e, he, heq⟩ := List.mem_map.mp hmem
    cases heq
    exact ⟨e.1, List.mem_map_of_mem he, rfl⟩
  have hselect : ∀ name ∈ ops.keys, toClassify doc (some name) =
      doc.operations.iter.filter fun op => op.1 == some name := by
    intro name hname
    obtain ⟨e, he, rfl⟩ := List.mem_map.mp hname
    have hmem : (some e.1, e.2) ∈ doc.operations.iter := by
      rw [hops]
      exact List.mem_map.mpr ⟨e, he, rfl⟩
    have hne : matched doc (some e.1) ≠ [] := by
      intro h
      have := List.filter_eq_nil_iff.mp h _ hmem
      simp at this
    rw [toClassify, if_neg (by simpa using hne)]
    rfl
  have hnamed : ∀ name, RequestEntitled x p policy ⟨query, some name⟩ ↔
      ∀ op ∈ toClassify doc (some name), Entitled p policy doc op :=
    fun name => requestEntitled_iff hdoc
  have hunnamed : RequestEntitled x p policy ⟨query, none⟩ ↔
      ∀ op ∈ toClassify doc none, Entitled p policy doc op := requestEntitled_iff hdoc
  rw [hunnamed, toClassify_none]
  refine ⟨fun hall name hname => ?_, fun h op hop => ?_⟩
  · rw [hnamed, hselect name hname]
    intro op hop
    exact hall op (List.mem_filter.mp hop).1
  · obtain ⟨name, hname, hn⟩ := hiter op.1 op.2 hop
    have hall := h name hname
    rw [hnamed, hselect name hname] at hall
    exact hall op (List.mem_filter.mpr ⟨hop, by simp [hn]⟩)

/-- Bodies that are accepted have been read. -/
lemma forall₂_read {bodies : List Bytes} {vs : List Json} (h : List.Forall₂ (TextOf x) bodies vs)
    (hok : ∀ b ∈ bodies, ∃ c, classify x b = .ok c) :
    List.Forall₂ (fun b v => x.fromSlice b = .ok v) bodies vs := by
  induction h with
  | nil => exact .nil
  | @cons b v bodies vs htext _ ih =>
    obtain ⟨c, hc⟩ := hok b List.mem_cons_self
    obtain ⟨v', raw, opss, hv', -⟩ := classify_ok.mp hc
    obtain ⟨rfl, -⟩ := htext.read_iff.mp hv'
    exact .cons hv' (ih fun b hb => hok b (List.mem_cons_of_mem _ hb))

/-- **Batching neither gains nor loses privilege.** A batch of objects that are each accepted
alone is accepted if it is not nested too deep for the JSON reader, and otherwise not; and when it
is, it is authorized exactly when each of them is. A document of named operations is authorized
without a name exactly when it is with the name of each. -/
theorem batching_neutral (x : Readers) (p : Principal) (policy : Policy) :
    (∀ (bodies : List Bytes) (vs : List Json) (batch : Bytes), vs ≠ [] →
      (∀ v ∈ vs, ∃ members, v = .obj members) → List.Forall₂ (TextOf x) bodies vs →
      (∀ b ∈ bodies, ∃ c, classify x b = .ok c) → TextOf x batch (.arr vs) →
      ((∃ c, classify x batch = .ok c) ↔ (Json.arr vs).depth ≤ recursionLimit) ∧
        ∀ c, classify x batch = .ok c →
          (Authorized p c policy ↔ ∀ b ∈ bodies, Permitted x p policy b)) ∧
    ∀ (query : String) (doc : ExecutableDocument)
      (ops : AList fun _ : String => OperationDefinition) (hne : ops.entries ≠ []),
      x.parseQuery query = .ok doc → doc.operations = .multiple ops hne →
      ∀ (unselected : Bytes) (selecting : String → Bytes), Reads x unselected ⟨query, none⟩ →
        (∀ n ∈ ops.keys, Reads x (selecting n) ⟨query, some n⟩) →
        (Permitted x p policy unselected ↔
          ∀ n ∈ ops.keys, Permitted x p policy (selecting n)) := by
  refine ⟨?_, ?_⟩
  · intro bodies vs batch hne hobj hbodies hok hbatch
    have hread := forall₂_read hbodies hok
    refine ⟨⟨?_, fun hdepth => ?_⟩, fun c hc => ?_⟩
    · rintro ⟨c, hc⟩
      obtain ⟨v, raw, opss, hv, -⟩ := classify_ok.mp hc
      exact (hbatch.read_iff.mp hv).2
    · obtain ⟨c, hc, -⟩ := classify_batch p policy hne hobj hread hok (hbatch.read hdepth)
      exact ⟨c, hc⟩
    · obtain ⟨v, raw, opss, hv, -⟩ := classify_ok.mp hc
      obtain ⟨rfl, -⟩ := hbatch.read_iff.mp hv
      obtain ⟨c', hc', hiff⟩ := classify_batch p policy hne hobj hread hok hv
      cases hc.symm.trans hc'
      exact hiff
  · intro query doc ops hne hdoc hops unselected selecting hun hsel
    rw [permitted_of_reads hun, requestEntitled_iff_named hdoc hops]
    exact forall₂_congr fun n hn => (permitted_of_reads (hsel n hn)).symm

theorem batching_neutral_example :
    ((∃ c, classify exampleReaders (ascii (batchText [setRule, setRule])) = .ok c) ∧
      ∀ c, classify exampleReaders (ascii (batchText [setRule, setRule])) = .ok c →
        (Authorized operator c .default ↔
          ∀ b ∈ [ascii (requestText setRule), ascii (requestText setRule)],
            Permitted exampleReaders operator .default b)) ∧
    (Permitted exampleReaders operator .default (ascii (requestText rulesAndSetRule)) ↔
      ∀ n ∈ namedOperations.keys,
        Permitted exampleReaders operator .default (ascii (selectText rulesAndSetRule n))) := by
  obtain ⟨hbatch, hnamed⟩ := batching_neutral exampleReaders operator .default
  have hone : TextOf exampleReaders (ascii (requestText setRule)) (requestJson setRule) :=
    textOf_read rfl (by decide)
  have htwo : TextOf exampleReaders (ascii (batchText [setRule, setRule]))
      (.arr [requestJson setRule, requestJson setRule]) := textOf_read rfl (by decide)
  obtain ⟨haccepted, hauthorized⟩ :=
    hbatch [ascii (requestText setRule), ascii (requestText setRule)]
      [requestJson setRule, requestJson setRule] _ (by simp) (by
        intro v hv
        rcases List.mem_pair.mp hv with rfl | rfl <;> exact ⟨_, rfl⟩) (.cons hone (.cons hone .nil))
      (by
        intro b hb
        rcases List.mem_pair.mp hb with rfl | rfl <;> exact ⟨_, rfl⟩) htwo
  refine ⟨⟨haccepted.mpr (by decide), hauthorized⟩, ?_⟩
  refine hnamed rulesAndSetRule _ namedOperations (by simp [namedOperations]) rfl rfl _
    (selectText rulesAndSetRule · |> ascii) ⟨_, rfl, rfl⟩ ?_
  intro n hn
  have : n = "Rules" ∨ n = "SetRule" := by simpa [namedOperations, AList.keys] using hn
  rcases this with rfl | rfl <;> exact ⟨_, rfl, rfl⟩

/-! ### A request that is too deep for a batch -/

/-- Arrays one in another. -/
def nested : ℕ → Json
  | 0 => .null
  | n + 1 => .arr [nested n]

def nestedText : ℕ → String
  | 0 => "null"
  | n + 1 => "[" ++ nestedText n ++ "]"

/-- A mutation with variables that are nested as deep as the reader takes them. -/
def deepJson : Json := .obj [("query", .str setRule), ("variables", nested 126)]

def deepText : String :=
  "\x7b\"query\":\"" ++ setRule ++ "\",\"variables\":" ++ nestedText 126 ++ "\x7d"

def deepReaders : Readers where
  fromSlice b :=
    if b = ascii deepText then .ok deepJson
    else .error "recursion limit exceeded at line 1 column 179"
  parseQuery := exampleReaders.parseQuery

/-- The mutation is accepted alone, and its batch is not. -/
theorem deep_request_refused_in_batch :
    TextOf deepReaders (ascii deepText) deepJson ∧
      TextOf deepReaders (ascii ("[" ++ deepText ++ "]")) (.arr [deepJson]) ∧
      (∃ c, classify deepReaders (ascii deepText) = .ok c) ∧
      ¬∃ c, classify deepReaders (ascii ("[" ++ deepText ++ "]")) = .ok c := by
  have hdeep : deepJson.depth = 127 := by decide +kernel
  have hread : deepReaders.fromSlice (ascii deepText) = .ok deepJson := by
    simp [deepReaders]
  have hne : ascii ("[" ++ deepText ++ "]") ≠ ascii deepText := by
    intro heq
    have hlength := congrArg List.length heq
    simp only [ascii, List.length_map, String.toList_append, List.length_append] at hlength
    have hbracket : "[".toList.length = 1 := rfl
    omega
  have hrefused : ∃ e, deepReaders.fromSlice (ascii ("[" ++ deepText ++ "]")) = .error e :=
    ⟨"recursion limit exceeded at line 1 column 179", by simp [deepReaders, hne]⟩
  have hbatch : recursionLimit < (Json.arr [deepJson]).depth := by
    simp [Json.depth, itemsDepth, hdeep, recursionLimit]
  refine ⟨textOf_read hread hdeep.le, ⟨fun hle => by omega, fun _ => hrefused⟩, ?_, ?_⟩
  · exact ⟨_, classify_ok.mpr ⟨deepJson, .single ⟨setRule, none⟩, _, hread, rfl, by decide,
      .cons rfl .nil, rfl⟩⟩
  · rintro ⟨c, hc⟩
    obtain ⟨v, raw, opss, hv, -⟩ := classify_ok.mp hc
    obtain ⟨e, he⟩ := hrefused
    cases he.symm.trans hv

end GatewayAuth.Mediation
