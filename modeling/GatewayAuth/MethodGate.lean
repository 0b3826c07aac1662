import GatewayAuth.Mediation

/-!
The ways around the structural classifier: the method, which is looked at first, and the
setting that lets an unreadable body through.

A GET is a read whatever its body and its route, and one unreadable element of a batch makes
the whole batch unreadable. Each result says exactly when this lets through what the classifier
would not.
-/

namespace GatewayAuth.MethodGate

open GatewayAuth.JsonBody GatewayAuth.Classify GatewayAuth.Operations
open GatewayAuth.Authz GatewayAuth.Forwarding GatewayAuth.Ratelimit GatewayAuth.Server

variable {Cell : Type} {x : Crates Cell} {g : Inner} {parts : Parts} {p : Principal}

/-! ### A GET -/

/-- The principal name has a read left. -/
def ReadBudget (x : Crates Cell) (l : RateLimiters Cell) (now : ℕ) (name : String) : Prop :=
  (l.check x.governor now .read name).1 = true

/-- The scope `read` is all that the classification requires. -/
def ReadSuffices (c : Classification) (policy : Policy) : Prop :=
  c.scope = .read ∧ ∀ op ∈ c.operations, ∀ s, Demands policy op s → s = "read"

lemma authorized_readOnly {policy : Policy} :
    Authorized p readOnly policy ↔ p.satisfies "read" = true := by
  rw [authorized_iff]
  simp [readOnly, baseScope]

/-- A GET is forwarded for whoever may read, whatever its body. -/
lemma forwarded_get (hget : parts.method = .get) {l : RateLimiters Cell} {now : ℕ}
    {body : Except Unit Bytes} :
    (∃ call, (handleBody x g l now parts p body).result = .ok call) ↔
      (∃ b, toBytes g.bodyLimit body = some b) ∧ p.satisfies "read" = true ∧
        (l.check x.governor now .read p.name).1 = true := by
  refine ⟨?_, ?_⟩
  · rintro ⟨call, hcall⟩
    obtain ⟨c, b, hscreen, hbudget, -⟩ := handleBody_ok.mp hcall
    obtain ⟨hb, hc, hauth⟩ := screen_ok.mp hscreen
    rw [hget, classifyRequest_get] at hc
    cases hc
    exact ⟨⟨b, hb⟩, authorized_readOnly.mp hauth, hbudget⟩
  · rintro ⟨⟨b, hb⟩, hread, hbudget⟩
    have hc : classifyRequest x parts.method (route parts.pathAndQuery).1 b
        g.failClosedOnParseError = .ok readOnly := by
      rw [hget, classifyRequest_get]
    have hscreen := screen_ok.mpr ⟨hb, hc, authorized_readOnly.mpr hread⟩
    exact ⟨_, handleBody_ok.mpr ⟨readOnly, b, hscreen, hbudget, rfl⟩⟩

lemma authorized_of_readSuffices {c : Classification} {policy : Policy}
    (hc : ReadSuffices c policy) (hread : p.satisfies "read" = true) :
    Authorized p c policy := by
  obtain ⟨hscope, hdemands⟩ := hc
  refine authorized_iff.mpr ⟨by rwa [hscope], fun op hop s hs => ?_⟩
  rw [hdemands op hop s hs]
  exact hread

/-- Whoever holds nothing but `read` shows what a classification requires beyond it. -/
lemma readSuffices_of_reader {name : String} {c : Classification} {policy : Policy}
    (h : Authorized (.new name ["read"]) c policy) : ReadSuffices c policy := by
  obtain ⟨hbase, hdemands⟩ := authorized_iff.mp h
  refine ⟨?_, fun op hop s hs => satisfies_reader.mp (hdemands op hop s hs)⟩
  have hs := satisfies_reader.mp hbase
  rcases hc : c.scope with _ | _
  · rfl
  · rw [hc] at hs
    exact absurd hs (by decide)

/-- **The method lowers what a body demands exactly for a GET** whose body fits, with a read
left for the name of the principal, when its body requires more than `read`. -/
theorem forwarded_only_authorized_iff (x : Crates Cell) (g : Inner) (l : RateLimiters Cell)
    (now : ℕ) (parts : Parts) (hroute : (route parts.pathAndQuery).1 ≠ .graphNodeAdmin)
    (b : Bytes) (c : Classification) (hc : classify x.readers b = .ok c) (name : String) :
    (∀ p call, p.name = name → (handleBody x g l now parts p (.ok b)).result = .ok call →
        Authorized p c g.policy) ↔
      ¬(parts.method = .get ∧ b.length ≤ g.bodyLimit ∧ ReadBudget x l now name ∧
        ¬ReadSuffices c g.policy) := by
  refine ⟨?_, ?_⟩
  · rintro h ⟨hget, hfits, hbudget, hnot⟩
    have hb : toBytes g.bodyLimit (.ok b) = some b := toBytes_eq_some.mpr ⟨rfl, hfits⟩
    obtain ⟨call, hcall⟩ := (forwarded_get (x := x) (g := g) (p := .new name ["read"]) hget).mpr
      ⟨⟨b, hb⟩, satisfies_reader.mpr rfl, hbudget⟩
    exact hnot (readSuffices_of_reader (h _ call rfl hcall))
  · rintro hcond p call rfl hcall
    by_cases hget : parts.method = .get
    · obtain ⟨⟨b', hb⟩, hread, hbudget⟩ := (forwarded_get hget).mp ⟨call, hcall⟩
      obtain ⟨hbb, hfits⟩ := toBytes_eq_some.mp hb
      cases hbb
      have hsuffices : ReadSuffices c g.policy := by
        by_contra hnot
        exact hcond ⟨hget, hfits, hbudget, hnot⟩
      exact authorized_of_readSuffices hsuffices hread
    · obtain ⟨c', b', hscreen, -, -⟩ := handleBody_ok.mp hcall
      obtain ⟨-, hauth, -, -⟩ := (screen_classified hget hroute hc).mp hscreen
      exact hauth

/-- The limiters of the example, before the first request. -/
def exampleLimiters : RateLimiters ℕ := .new exampleCrates.governor 600 30

/-- A read-only token forwards a mutation with GET, which it may not with POST. -/
theorem mutation_forwarded_by_get :
    handleHead exampleCrates (exampleGateway true) 0 (exampleParts .get "/" "read-token") =
        .ok ciReadonly ∧
      ∃ c, classify exampleReaders (ascii (requestText setRule)) = .ok c ∧
        ¬Authorized ciReadonly c (exampleGateway true).policy ∧
        ∃ call, (handleBody exampleCrates (exampleGateway true) exampleLimiters 0
            (exampleParts .get "/" "read-token") ciReadonly
            (.ok (ascii (requestText setRule)))).result = .ok call ∧
          call.body = ascii (requestText setRule) := by
  refine ⟨rfl, ⟨[⟨none, .mutation, ["setIndexingRule"]⟩], .write⟩, rfl, ?_, _, rfl, rfl⟩
  intro h
  exact absurd (authorized_iff.mp h).1 (by decide)

theorem forwarded_only_authorized_iff_get :
    (∀ p call, p.name = "ci-readonly" →
        (handleBody exampleCrates (exampleGateway true) exampleLimiters 0
          (exampleParts .get "/" "read-token") p (.ok (ascii (requestText setRule)))).result =
            .ok call →
        Authorized p ⟨[⟨none, .mutation, ["setIndexingRule"]⟩], .write⟩
          (exampleGateway true).policy) ↔
      ¬((exampleParts .get "/" "read-token").method = .get ∧
        (ascii (requestText setRule)).length ≤ (exampleGateway true).bodyLimit ∧
        ReadBudget exampleCrates exampleLimiters 0 "ci-readonly" ∧
        ¬ReadSuffices ⟨[⟨none, .mutation, ["setIndexingRule"]⟩], .write⟩
          (exampleGateway true).policy) :=
  forwarded_only_authorized_iff exampleCrates (exampleGateway true) exampleLimiters 0
    (exampleParts .get "/" "read-token") (by decide) _ _ rfl "ci-readonly"

/-! ### The admin route -/

lemma outgoing_target {call : Call} {out : Outgoing} (h : call.outgoing g parts = .ok out) :
    out.target = (route parts.pathAndQuery).1 := forward_target h

/-- A call for the admin upstream is handed over exactly when that upstream is configured. -/
lemma outgoing_admin (hroute : (route parts.pathAndQuery).1 = .graphNodeAdmin) (call : Call) :
    (∃ out, call.outgoing g parts = .ok out) ↔ g.proxy.graphNodeAdmin.isSome := by
  unfold Call.outgoing Proxy.forward
  rcases hr : route parts.pathAndQuery with ⟨target, path⟩
  rw [hr] at hroute
  simp only at hroute
  subst hroute
  rcases hb : g.proxy.graphNodeAdmin with _ | base
  · simp [Proxy.baseFor, hb]
  · simp [Proxy.baseFor, hb]

/-- **The admin upstream is reached without `write` exactly by a GET**, when that upstream is
configured, the body fits and the name of the principal has a read left. -/
theorem admin_requires_write_iff (x : Crates Cell) (g : Inner) (l : RateLimiters Cell) (now : ℕ)
    (parts : Parts) (body : Except Unit Bytes) (name : String) :
    (∀ p call out, p.name = name → (handleBody x g l now parts p body).result = .ok call →
        call.outgoing g parts = .ok out → out.target = .graphNodeAdmin →
        p.satisfies "write" = true) ↔
      ¬(parts.method = .get ∧ (route parts.pathAndQuery).1 = .graphNodeAdmin ∧
        g.proxy.graphNodeAdmin.isSome ∧ (∃ b, toBytes g.bodyLimit body = some b) ∧
        ReadBudget x l now name) := by
  refine ⟨?_, ?_⟩
  · rintro h ⟨hget, hroute, hconfigured, hfits, hbudget⟩
    obtain ⟨call, hcall⟩ := (forwarded_get (x := x) (g := g) (p := .new name ["read"]) hget).mpr
      ⟨hfits, satisfies_reader.mpr rfl, hbudget⟩
    obtain ⟨out, hout⟩ := (outgoing_admin hroute call).mpr hconfigured
    have hwrite := h _ call out rfl hcall hout ((outgoing_target hout).trans hroute)
    exact absurd (satisfies_reader.mp hwrite) (by decide)
  · rintro hcond p call out rfl hcall hout htarget
    have hroute : (route parts.pathAndQuery).1 = .graphNodeAdmin :=
      (outgoing_target hout).symm.trans htarget
    by_cases hget : parts.method = .get
    · obtain ⟨hfits, -, hbudget⟩ := (forwarded_get hget).mp ⟨call, hcall⟩
      have hconfigured := (outgoing_admin hroute call).mp ⟨out, hout⟩
      exact absurd ⟨hget, hroute, hconfigured, hfits, hbudget⟩ hcond
    · obtain ⟨c, b, hscreen, -, -⟩ := handleBody_ok.mp hcall
      obtain ⟨-, hc, hauth⟩ := screen_ok.mp hscreen
      rw [hroute, classifyRequest_admin hget] at hc
      cases hc
      exact (authorized_iff.mp hauth).1

/-- A read-only token reaches the admin upstream with GET. -/
theorem admin_forwarded_by_get :
    handleHead exampleCrates (exampleGateway true) 0
        (exampleParts .get "/_admin/" "read-token") = .ok ciReadonly ∧
      ciReadonly.satisfies "write" = false ∧
      ∃ call out, (handleBody exampleCrates (exampleGateway true) exampleLimiters 0
          (exampleParts .get "/_admin/" "read-token") ciReadonly (.ok [])).result = .ok call ∧
        call.outgoing (exampleGateway true) (exampleParts .get "/_admin/" "read-token") =
          .ok out ∧
        out.target = .graphNodeAdmin :=
  ⟨rfl, by decide, _, _, rfl, rfl, rfl⟩

/-! ### Failing open -/

/-- Every element of the body reads as a request, and its query parses. -/
def Readable (x : Readers) (v : Json) : Prop :=
  ∀ e ∈ elements v, ∃ r doc, GraphQLRequest.deserialize e = some r ∧
    x.parseQuery r.query = .ok doc

lemma classify_iff_readable {x : Readers} {b : Bytes} {v : Json} (hv : x.fromSlice b = .ok v)
    (hne : elements v ≠ []) : (∃ c, classify x b = .ok c) ↔ Readable x v := by
  refine ⟨?_, fun h => ?_⟩
  · rintro ⟨c, hc⟩ e he
    obtain ⟨raw, opss, hraw, -, hops, -⟩ := classify_ok_of_read hv hc
    obtain ⟨r, hr, hdes⟩ := exists_mem_of_forall₂ (deserialize_requests hraw) he
    obtain ⟨ops, -, hclass⟩ := exists_mem_of_forall₂ hops hr
    obtain ⟨doc, hdoc, -⟩ := classifyRequestOperations_ok.mp hclass
    exact ⟨r, doc, hdes, hdoc⟩
  · have hdes : ∀ e ∈ elements v, ∃ r, GraphQLRequest.deserialize e = some r := by
      intro e he
      obtain ⟨r, -, hr, -⟩ := h e he
      exact ⟨r, hr⟩
    obtain ⟨raw, hraw, hrne⟩ := deserialize_of_elements hne hdes
    have hparse : ∀ r ∈ raw.requests, ∃ ops, classifyRequestOperations x r = .ok ops := by
      intro r hr
      obtain ⟨e, he, hdes⟩ := exists_mem_of_forall₂ (deserialize_requests hraw).flip hr
      obtain ⟨r', doc, hr', hdoc⟩ := h e he
      cases hdes.symm.trans hr'
      exact ⟨_, classifyRequestOperations_ok.mpr ⟨doc, hdoc, rfl⟩⟩
    obtain ⟨opss, hops⟩ := forall₂_of_forall_exists hparse
    exact ⟨_, classify_ok.mpr ⟨v, raw, opss, hv, hraw, hrne, hops, rfl⟩⟩

/-- Some element of the body is a request whose selected operations include a mutation. -/
def SelectsMutation (x : Readers) (v : Json) : Prop :=
  ∃ e ∈ elements v, ∃ r doc, GraphQLRequest.deserialize e = some r ∧
    x.parseQuery r.query = .ok doc ∧ ∃ op ∈ toClassify doc r.operationName, op.2.ty = .mutation

lemma scope_of_selectsMutation {x : Readers} {b : Bytes} {v : Json} {c : Classification}
    (hv : x.fromSlice b = .ok v) (hc : classify x b = .ok c) (hm : SelectsMutation x v) :
    c.scope = .write := by
  obtain ⟨raw, opss, hraw, -, hopss, rfl⟩ := classify_ok_of_read hv hc
  obtain ⟨e, he, r, doc, hdes, hdoc, op, hop, hty⟩ := hm
  obtain ⟨r', hr, hdes'⟩ := exists_mem_of_forall₂ (deserialize_requests hraw) he
  cases hdes.symm.trans hdes'
  have hops := classifyRequestOperations_ok.mpr ⟨doc, hdoc, rfl⟩
  have hkind : (operationInfo doc op).kind = .mutation := by
    rw [operationInfo, hty]
    rfl
  exact maxScope_flatten hopss hr hops
    (maxScope_eq_write.mpr ⟨_, List.mem_map_of_mem hop, hkind⟩)

lemma classifyRequest_failOpen {method : Method} {target : UpstreamTarget} (hm : method ≠ .get)
    (ht : target ≠ .graphNodeAdmin) {b : Bytes} (h : ¬∃ c, classify x.readers b = .ok c) :
    classifyRequest x method target b false = .ok readOnly := by
  unfold classifyRequest
  rw [if_neg hm, if_neg ht]
  rcases hc : classify x.readers b with e | c
  · rfl
  · exact absurd ⟨c, hc⟩ h

/-- A body is accepted when it is not nested too deep and all of it is readable. -/
lemma classify_iff_text {x : Readers} {b : Bytes} {v : Json} (hb : TextOf x b v)
    (hne : elements v ≠ []) :
    (∃ c, classify x b = .ok c) ↔ v.depth ≤ recursionLimit ∧ Readable x v := by
  by_cases hdepth : v.depth ≤ recursionLimit
  · rw [classify_iff_readable (hb.read hdepth) hne, and_iff_right hdepth]
  · refine iff_of_false ?_ fun h => hdepth h.1
    rintro ⟨c, hc⟩
    obtain ⟨v', raw, opss, hv', -⟩ := classify_ok.mp hc
    exact hdepth (hb.read_iff.mp hv').2

/-- **A body with a mutation in it is never taken for a read, nor forwarded without `write`,
exactly when it is not nested too deep for the JSON reader and all of it is readable.** -/
theorem failOpen_keeps_write_iff (x : Crates Cell) (method : Method) (hmethod : method ≠ .get)
    (target : UpstreamTarget) (htarget : target ≠ .graphNodeAdmin) (b : Bytes) (v : Json)
    (hb : TextOf x.readers b v) (hm : SelectsMutation x.readers v) :
    ((∀ c, classifyRequest x method target b false = .ok c → c.scope ≠ .read) ∧
        ∀ (g : Inner) (l : RateLimiters Cell) (now : ℕ) (parts : Parts) (p : Principal)
          (call : Call), g.failClosedOnParseError = false → parts.method = method →
          (route parts.pathAndQuery).1 = target →
          (handleBody x g l now parts p (.ok b)).result = .ok call →
          p.satisfies "write" = true) ↔
      v.depth ≤ recursionLimit ∧ Readable x.readers v := by
  have hne : elements v ≠ [] := by
    obtain ⟨e, he, -⟩ := hm
    exact List.ne_nil_of_mem he
  rw [← classify_iff_text hb hne]
  refine ⟨?_, fun ⟨c, hc⟩ => ?_⟩
  · rintro ⟨hscope, -⟩
    by_contra hclassify
    exact hscope _ (classifyRequest_failOpen hmethod htarget hclassify) rfl
  · obtain ⟨v', raw, opss, hv, -⟩ := classify_ok.mp hc
    obtain ⟨rfl, -⟩ := hb.read_iff.mp hv
    have hwrite := scope_of_selectsMutation hv hc hm
    have hrequest := classifyRequest_body (x := x) hmethod htarget hc false
    refine ⟨fun c' hc' => ?_, ?_⟩
    · rw [hrequest] at hc'
      cases hc'
      rw [hwrite]
      decide
    · rintro g l now parts p call - rfl rfl hcall
      obtain ⟨c', b', hscreen, -, -⟩ := handleBody_ok.mp hcall
      obtain ⟨-, hauth, -, -⟩ := (screen_classified hmethod htarget hc).mp hscreen
      have hbase := (authorized_iff.mp hauth).1
      rwa [hwrite] at hbase

lemma selectsMutation_setRule (queries : List String) :
    SelectsMutation exampleReaders (batchJson (setRule :: queries)) := by
  refine ⟨requestJson setRule, ?_, ⟨setRule, none⟩, _, rfl, rfl, (none, setRuleOperation),
    List.mem_singleton_self _, rfl⟩
  rw [elements_batchJson]
  exact List.mem_cons_self

/-- A mutation beside an unreadable query: a read when failing open, and forwarded for a
read-only token. -/
theorem mutation_forwarded_failing_open :
    exampleReaders.fromSlice (ascii (batchText [setRule, "\x7d"])) =
        .ok (batchJson [setRule, "\x7d"]) ∧
      SelectsMutation exampleReaders (batchJson [setRule, "\x7d"]) ∧
      classifyRequest exampleCrates .post .agentManagement
        (ascii (batchText [setRule, "\x7d"])) false = .ok readOnly ∧
      handleHead exampleCrates (exampleGateway false) 0
        (exampleParts .post "/" "read-token") = .ok ciReadonly ∧
      ciReadonly.satisfies "write" = false ∧
      ∃ call, (handleBody exampleCrates (exampleGateway false) exampleLimiters 0
        (exampleParts .post "/" "read-token") ciReadonly
        (.ok (ascii (batchText [setRule, "\x7d"])))).result = .ok call :=
  ⟨rfl, selectsMutation_setRule ["\x7d"], rfl, rfl, by decide, _, rfl⟩

theorem failOpen_keeps_write_iff_batch :
    ((∀ c, classifyRequest exampleCrates .post .agentManagement
          (ascii (batchText [setRule, setRule])) false = .ok c → c.scope ≠ .read) ∧
        ∀ (g : Inner) (l : RateLimiters ℕ) (now : ℕ) (parts : Parts) (p : Principal)
          (call : Call), g.failClosedOnParseError = false → parts.method = .post →
          (route parts.pathAndQuery).1 = .agentManagement →
          (handleBody exampleCrates g l now parts p
            (.ok (ascii (batchText [setRule, setRule])))).result = .ok call →
          p.satisfies "write" = true) ↔
      (batchJson [setRule, setRule]).depth ≤ recursionLimit ∧
        Readable exampleReaders (batchJson [setRule, setRule]) :=
  failOpen_keeps_write_iff exampleCrates .post (by decide) .agentManagement (by decide) _ _
    (textOf_read rfl (by decide)) (selectsMutation_setRule [setRule])

end GatewayAuth.MethodGate
