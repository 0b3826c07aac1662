import GatewayAuth.Handle
import GatewayAuth.HashOrder

/-!
What the variables of a request can change. They are not looked at before the request is
forwarded, and then only for the fingerprint in its audit record.

Two requests are parsed apart, so the operations of their documents may be iterated in two orders:
where the order of a body is not settled, the operations are recorded in either.
-/

namespace GatewayAuth.Variables

open GatewayAuth.Document GatewayAuth.JsonBody GatewayAuth.Classify GatewayAuth.Authz
open GatewayAuth.Forwarding GatewayAuth.Ratelimit GatewayAuth.Audit GatewayAuth.Server
open GatewayAuth.Handle GatewayAuth.HashOrder

/-! ### A body without its variables -/

def dropVariables : Json → Json
  | .obj members => .obj (members.filter fun m => m.1 != "variables")
  | v => v

/-- The body without the values under `variables` of the object it is, or of the objects of the
batch it is. -/
def withoutVariables : Json → Json
  | .arr items => .arr (items.map dropVariables)
  | v => dropVariables v

/-- A member that is no field of a request is ignored. -/
lemma visitMember_variables (fs : Fields) {m : String × Json} (h : m.1 = "variables") :
    visitMember fs m = some fs := by
  unfold visitMember
  rw [h, if_neg (by decide), if_neg (by decide)]

lemma foldlM_filter (members : List (String × Json)) (fs : Fields) :
    (members.filter fun m => m.1 != "variables").foldlM visitMember fs =
      members.foldlM visitMember fs := by
  induction members generalizing fs with
  | nil => rfl
  | cons m members ih =>
    by_cases h : m.1 = "variables"
    · rw [List.filter_cons_of_neg (by simp [h]), ih, List.foldlM_cons, visitMember_variables fs h]
      rfl
    · rw [List.filter_cons_of_pos (by simp [h]), List.foldlM_cons, List.foldlM_cons]
      rcases visitMember fs m with _ | fs'
      · rfl
      · exact ih fs'

lemma asStr_dropVariables (v : Json) : (dropVariables v).asStr = v.asStr := by
  cases v <;> rfl

lemma asOptStr_dropVariables (v : Json) : (dropVariables v).asOptStr = v.asOptStr := by
  cases v <;> rfl

lemma visitSeq_map (items : List Json) : visitSeq (items.map dropVariables) = visitSeq items := by
  rcases items with _ | ⟨q, _ | ⟨n, _ | ⟨_, _⟩⟩⟩
  · rfl
  · simp only [List.map_cons, List.map_nil, visitSeq, asStr_dropVariables]
  · simp only [List.map_cons, List.map_nil, visitSeq, asStr_dropVariables, asOptStr_dropVariables]
  · rfl

lemma deserialize_dropVariables (v : Json) :
    GraphQLRequest.deserialize (dropVariables v) = GraphQLRequest.deserialize v := by
  cases v with
  | obj members =>
    simp only [dropVariables, GraphQLRequest.deserialize, visitMap, foldlM_filter]
  | _ => rfl

lemma deserialize_request_without (v : Json) :
    GraphQLRequest.deserialize (withoutVariables v) = GraphQLRequest.deserialize v := by
  cases v with
  | arr items => exact visitSeq_map items
  | obj members => exact deserialize_dropVariables (.obj members)
  | _ => rfl

/-- **The variables do not bear on what a body is read as.** -/
lemma deserialize_without (v : Json) :
    RawBody.deserialize (withoutVariables v) = RawBody.deserialize v := by
  unfold RawBody.deserialize
  rw [deserialize_request_without]
  cases v with
  | arr items =>
    have hmap : (items.map dropVariables).mapM GraphQLRequest.deserialize =
        items.mapM GraphQLRequest.deserialize := by
      rw [List.mapM_map]
      congr 1
      exact funext deserialize_dropVariables
    simp only [withoutVariables, hmap]
  | _ => rfl

variable {Cell : Type} {x : Crates Cell} {readers : Readers} {g : Inner}

lemma classify_congr {body body' : Bytes} {v v' : Json} (hv : readers.fromSlice body = .ok v)
    (hv' : readers.fromSlice body' = .ok v') (h : withoutVariables v = withoutVariables v') :
    classify readers body = classify readers body' := by
  have hraw : RawBody.deserialize v = RawBody.deserialize v' := by
    rw [← deserialize_without v, h, deserialize_without]
  unfold classify
  simp only [hv, hv', hraw]

/-! ### Up to the call of `forward` -/

/-- The same gateway, whose readers present documents in the orders of these. -/
def withReaders (x : Crates Cell) (readers : Readers) : Crates Cell := { x with readers := readers }

/-- The same operations, in any order. -/
structure SameOperations (c c' : Classification) : Prop where
  scope : c'.scope = c.scope
  operations : c'.operations.Perm c.operations

lemma SameOperations.refl (c : Classification) : SameOperations c c := ⟨rfl, List.Perm.refl _⟩

/-- What is classified in another order. -/
def Sorts (readers : Readers) (body : Bytes) (c c' : Classification) : Prop :=
  SameOperations c c' ∧ (Settled readers body → RecordedAlike c.operations c'.operations)

lemma sorts_refl (readers : Readers) (body : Bytes) (c : Classification) :
    Sorts readers body c c := ⟨.refl c, fun _ => ⟨rfl, rfl, rfl⟩⟩

lemma sorts_of_classifies {body : Bytes} {c c' : Classification} (h : Classifies readers body c)
    (h' : Classifies readers body c') : Sorts readers body c c' := by
  obtain ⟨hscope, hops⟩ := operations_perm h h'
  refine ⟨⟨hscope, hops⟩, fun hsettled => ?_⟩
  obtain ⟨opss, ls, hopss, hls, rfl⟩ := classifies_iff.mp h
  obtain ⟨opss', ls', hopss', hls', rfl⟩ := classifies_iff.mp h'
  cases requestOps_unique hopss hopss'
  have halike := (settled_iff hopss).mp hsettled
  exact (halike ls hls).symm.trans (halike ls' hls')

/-- The same refusal, of what is classified in another order. -/
inductive SameRefusal (readers : Readers) (body : Bytes) : Refusal → Refusal → Prop
  | same (r : Refusal) : SameRefusal readers body r r
  | denied {p : Principal} {c c' : Classification} {d : Denied} : Sorts readers body c c' →
      SameRefusal readers body (.denied p c d) (.denied p c' d)
  | rateLimited {p : Principal} {c c' : Classification} : Sorts readers body c c' →
      SameRefusal readers body (.rateLimited p c) (.rateLimited p c')

section

variable {readers' : Readers} {body body' : Bytes} {v v' : Json}

lemma classifyRequest_congr (hr : Reorders x.readers readers')
    (hv : x.readers.fromSlice body = .ok v) (hv' : x.readers.fromSlice body' = .ok v')
    (h : withoutVariables v = withoutVariables v') (method : Method) (target : UpstreamTarget)
    (failClosed : Bool) :
    (∃ reason, classifyRequest x method target body failClosed = .error reason ∧
        classifyRequest (withReaders x readers') method target body' failClosed = .error reason) ∨
      ∃ c c', classifyRequest x method target body failClosed = .ok c ∧
        classifyRequest (withReaders x readers') method target body' failClosed = .ok c' ∧
        Sorts x.readers body c c' := by
  have hsame : classify readers' body' = classify readers' body :=
    classify_congr (by rw [hr.fromSlice, hv']) (by rw [hr.fromSlice, hv]) h.symm
  unfold classifyRequest
  by_cases hget : method = .get
  · exact .inr ⟨_, _, if_pos hget, if_pos hget, sorts_refl _ _ _⟩
  by_cases hadmin : target = .graphNodeAdmin
  · simp only [if_neg hget, if_pos hadmin]
    exact .inr ⟨_, _, rfl, rfl, sorts_refl _ _ _⟩
  simp only [if_neg hget, if_neg hadmin, withReaders, hsame]
  rcases classify_reorders hr body with ⟨e, hc, hc'⟩ | ⟨c, c', hc, hc'⟩
  · rw [hc, hc']
    cases failClosed
    · exact .inr ⟨_, _, rfl, rfl, sorts_refl _ _ _⟩
    · exact .inl ⟨_, rfl, rfl⟩
  · rw [hc, hc']
    exact .inr ⟨c, c', rfl, rfl,
      sorts_of_classifies (classifies_of_classify hc) (classifies_of_reorders hr hc')⟩

lemma screen_congr (hr : Reorders x.readers readers') (hv : x.readers.fromSlice body = .ok v)
    (hv' : x.readers.fromSlice body' = .ok v') (h : withoutVariables v = withoutVariables v')
    (hfits : body.length ≤ g.bodyLimit) (hfits' : body'.length ≤ g.bodyLimit) (parts : Parts)
    (p : Principal) :
    (∃ r r', screen x g parts p (.ok body) = .error r ∧
        screen (withReaders x readers') g parts p (.ok body') = .error r' ∧
        SameRefusal x.readers body r r') ∨
      ∃ c c', screen x g parts p (.ok body) = .ok (c, body) ∧
        screen (withReaders x readers') g parts p (.ok body') = .ok (c', body') ∧
        Sorts x.readers body c c' := by
  unfold screen
  simp only [toBytes, if_pos hfits, if_pos hfits']
  rcases classifyRequest_congr hr hv hv' h parts.method (route parts.pathAndQuery).1
    g.failClosedOnParseError with ⟨reason, hc, hc'⟩ | ⟨c, c', hc, hc', hsorts⟩
  · rw [hc, hc']
    exact .inl ⟨_, _, rfl, rfl, .same _⟩
  · rw [hc, hc']
    simp only [authorize_congr hsorts.1.scope hsorts.1.operations (List.Perm.refl _) p]
    rcases authorize p c g.policy with d | required
    · exact .inl ⟨_, _, rfl, rfl, .denied hsorts⟩
    · exact .inr ⟨c, c', rfl, rfl, hsorts⟩

/-- Two bodies that are the same but for their variables are refused alike, or lead to calls of
`forward` for the same operations. -/
lemma handleBody_congr (hr : Reorders x.readers readers') (hv : x.readers.fromSlice body = .ok v)
    (hv' : x.readers.fromSlice body' = .ok v') (h : withoutVariables v = withoutVariables v')
    (hfits : body.length ≤ g.bodyLimit) (hfits' : body'.length ≤ g.bodyLimit)
    (l : RateLimiters Cell) (now : ℕ) (parts : Parts) (p : Principal) :
    (handleBody x g l now parts p (.ok body)).limiters =
        (handleBody (withReaders x readers') g l now parts p (.ok body')).limiters ∧
      ((∃ r r', (handleBody x g l now parts p (.ok body)).result = .error r ∧
          (handleBody (withReaders x readers') g l now parts p (.ok body')).result = .error r' ∧
          SameRefusal x.readers body r r') ∨
        ∃ c c', (handleBody x g l now parts p (.ok body)).result = .ok (.new x now p c body) ∧
          (handleBody (withReaders x readers') g l now parts p (.ok body')).result =
            .ok (.new (withReaders x readers') now p c' body') ∧
          Sorts x.readers body c c') := by
  unfold handleBody
  rcases screen_congr hr hv hv' h hfits hfits' parts p with
    ⟨r, r', hs, hs', hsame⟩ | ⟨c, c', hs, hs', hsorts⟩
  · rw [hs, hs']
    exact ⟨rfl, .inl ⟨r, r', rfl, rfl, hsame⟩⟩
  · rw [hs, hs']
    have hgovernor : (withReaders x readers').governor = x.governor := rfl
    simp only [hsorts.1.scope, hgovernor]
    rcases l.check x.governor now c.scope p.name with ⟨_ | _, l'⟩
    · exact ⟨rfl, .inl ⟨_, _, rfl, rfl, .rateLimited hsorts⟩⟩
    · exact ⟨rfl, .inr ⟨c, c', rfl, rfl, hsorts⟩⟩

end

/-! ### Two requests side by side -/

/-- The calls of `forward` differ at most in the body, in what is read from it, and in the order of
the operations. -/
structure SameCall (call call' : Call) : Prop where
  principal : call'.principal = call.principal
  classification : SameOperations call.classification call'.classification
  started : call'.started = call.started

/-- The same decision: refused with the same response, without an upstream alike, or given to the
client as requests that differ in the body alone. -/
inductive Alike : Handled → Handled → Prop
  | refused {identified : Option Principal} {e e' : Exit} : e.response = e'.response →
      e.metrics = e'.metrics → Alike (.refused identified e) (.refused identified e')
  | unrouted {call call' : Call} {e e' : Exit} : SameCall call call' → e.response = e'.response →
      Alike (.unrouted call e) (.unrouted call' e')
  | given {h h' : Handled} {call call' : Call} {out out' : Outgoing} :
      h.given = some (call, out) → h'.given = some (call', out') → SameCall call call' →
      { out with body := [] } = { out' with body := [] } → Alike h h'

/-- The client has an answer in full. -/
def answered : Handled → Bool
  | .forwarded _ _ exchange _ => exchange.result.isOk
  | _ => false

/-- A record without the fingerprint, the times and what the upstream answered. -/
def redact (r : AuditRecord) : AuditRecord :=
  { r with timestamp := "", variablesHash := none, upstreamStatus := none, latencyMs := none }

/-- A record without what is listed in the order of the operations. -/
def withoutOperations (r : AuditRecord) : AuditRecord :=
  { r with operationName := none, operationKinds := [], topLevelFields := [] }

/-- The same records, once redacted, in what `view` keeps of them. Of a read there may be a record
or none, as the upstream fails or answers. -/
def SameTrail (view : AuditRecord → AuditRecord) (h h' : Handled) : Prop :=
  ∀ e e', h.exit = some e → h'.exit = some e' →
    (answered h = answered h' →
      e.records.map (fun r => view (redact r)) = e'.records.map fun r => view (redact r)) ∧
    ∀ r ∈ e.records, ∀ r' ∈ e'.records, view (redact r) = view (redact r')

/-- No record has the raw variables. -/
def NoVariables (h : Handled) : Prop :=
  ∀ e, h.exit = some e → ∀ r ∈ e.records, r.rawVariables = none

/-- What a record says of the operations. -/
def tell (c : Classification) (r : AuditRecord) : AuditRecord :=
  { r with
    operationName := firstOpName c
    operationKinds := operationKinds c
    topLevelFields := topFields c }

/-- The view does not tell the two classifications apart. -/
def Blind (view : AuditRecord → AuditRecord) (c c' : Classification) : Prop :=
  ∀ r, view (tell c r) = view (tell c' r)

lemma blind_withoutOperations (c c' : Classification) : Blind withoutOperations c c' :=
  fun _ => rfl

lemma blind_id {c c' : Classification} (h : RecordedAlike c.operations c'.operations) :
    Blind id c c' := by
  intro r
  simp only [id, tell, firstOpName, operationKinds, topFields, h.name, h.kinds, h.fields]

section

variable {view : AuditRecord → AuditRecord} {call call' : Call}

lemma redact_auditRecord (h : SameCall call call')
    (hview : Blind view call.classification call'.classification) (now now' : ℕ)
    (parts : Parts) (status status' : Option ℕ) :
    view (redact (call.auditRecord x now parts none status)) =
      view (redact (call'.auditRecord x now' parts none status')) := by
  have htell := hview (redact (call.auditRecord x now parts none status))
  simpa [redact, tell, Call.auditRecord, h.principal, h.classification.scope] using htell

/-- The record of a call is there when the upstream fails, and else for writes and, when they
are audited, for reads. -/
def emits (g : Inner) (call : Call) (exchange : Exchange) : Bool :=
  !exchange.result.isOk || decide (call.classification.scope = .write) || g.auditReads

lemma handleResult_records (hlog : g.logVariables = false) (now : ℕ) (parts : Parts) (call : Call)
    (exchange : Exchange) :
    ∃ status, (handleResult x g now parts call exchange.result).records =
      if emits g call exchange then [call.auditRecord x now parts none status] else [] := by
  rcases hresult : exchange.result with e | upstream
  · exact ⟨none, by simp [handleResult, emits, hresult, Except.isOk, Except.toBool]⟩
  · refine ⟨some upstream.status, ?_⟩
    simp [handleResult, emits, hresult, hlog, Except.isOk, Except.toBool]

lemma eq_of_mem_ite {α : Type*} {c : Bool} {a r : α} (h : r ∈ if c then [a] else []) : r = a := by
  cases c
  · cases h
  · exact List.mem_singleton.mp h

lemma sameTrail_unrouted (h : SameCall call call')
    (hview : Blind view call.classification call'.classification) (now now' : ℕ) (parts : Parts)
    (err err' : ProxyError) :
    SameTrail view (.unrouted call (handleResult x g now parts call (.error err)))
      (.unrouted call' (handleResult x g now' parts call' (.error err'))) := by
  intro e e' he he'
  cases he
  cases he'
  have hredact := redact_auditRecord (x := x) h hview now now' parts none none
  refine ⟨fun _ => by simp [handleResult, hredact], fun r hr r' hr' => ?_⟩
  rw [List.mem_singleton.mp hr, List.mem_singleton.mp hr', hredact]

lemma sameTrail_forwarded (hlog : g.logVariables = false) (h : SameCall call call')
    (hview : Blind view call.classification call'.classification) (now now' : ℕ) (parts : Parts)
    (out out' : Outgoing) (exchange exchange' : Exchange) :
    SameTrail view (.forwarded call out exchange (handleResult x g now parts call exchange.result))
      (.forwarded call' out' exchange'
        (handleResult x g now' parts call' exchange'.result)) := by
  intro e e' he he'
  cases he
  cases he'
  obtain ⟨status, hrecords⟩ := handleResult_records (x := x) hlog now parts call exchange
  obtain ⟨status', hrecords'⟩ := handleResult_records (x := x) hlog now' parts call' exchange'
  have hredact := redact_auditRecord (x := x) h hview now now' parts status status'
  rw [hrecords, hrecords']
  refine ⟨fun hsame => ?_, fun r hr r' hr' => ?_⟩
  · have hanswered : exchange.result.isOk = exchange'.result.isOk := hsame
    have hemits : emits g call exchange = emits g call' exchange' := by
      unfold emits
      rw [hanswered, h.classification.scope]
    rw [hemits]
    split_ifs
    · simp [hredact]
    · rfl
  · rw [eq_of_mem_ite hr, eq_of_mem_ite hr', hredact]

lemma callForward_alike (h : SameCall call call') (now now' : ℕ) (parts : Parts)
    (client client' : Outgoing → Option Exchange) :
    Alike (callForward x g now parts call client) (callForward x g now' parts call' client') := by
  unfold callForward Call.outgoing
  rcases hbase : g.proxy.baseFor (route parts.pathAndQuery).1 with err | base
  · rw [forward_error hbase, forward_error hbase]
    exact .unrouted h rfl
  · rw [forward_ok hbase, forward_ok hbase]
    simp only
    rcases client _ with _ | exchange <;> rcases client' _ with _ | exchange' <;>
      exact .given rfl rfl h rfl

lemma callForward_sameTrail (hlog : g.logVariables = false) (h : SameCall call call')
    (hview : Blind view call.classification call'.classification) (now now' : ℕ) (parts : Parts)
    (client client' : Outgoing → Option Exchange) :
    SameTrail view (callForward x g now parts call client)
      (callForward x g now' parts call' client') := by
  unfold callForward Call.outgoing
  rcases hbase : g.proxy.baseFor (route parts.pathAndQuery).1 with err | base
  · rw [forward_error hbase, forward_error hbase]
    exact sameTrail_unrouted h hview now now' parts err err
  · rw [forward_ok hbase, forward_ok hbase]
    simp only
    rcases client _ with _ | exchange <;> rcases client' _ with _ | exchange'
    · rintro e e' ⟨⟩
    · rintro e e' ⟨⟩
    · rintro e e' - ⟨⟩
    · exact sameTrail_forwarded hlog h hview now now' parts _ _ _ _

/-! ### Refusals -/

variable {readers : Readers} {body : Bytes} {r r' : Refusal}

lemma redact_preUpstream {c c' : Classification} (h : SameOperations c c')
    (hview : Blind view c c') (now : ℕ) (parts : Parts) (p : Principal) (outcome : Outcome) :
    view (redact (auditPreUpstream x now parts p (some c) outcome)) =
      view (redact (auditPreUpstream x now parts p (some c') outcome)) := by
  have htell := hview (redact (auditPreUpstream x now parts p (some c) outcome))
  simpa [redact, tell, auditPreUpstream, h.scope] using htell

lemma alike_refused (h : SameRefusal readers body r r') (identified : Option Principal) (now : ℕ)
    (parts : Parts) :
    Alike (.refused identified (r.exit x now parts))
      (.refused identified (r'.exit x now parts)) := by
  cases h with
  | same r => exact .refused rfl rfl
  | denied _ => exact .refused rfl rfl
  | rateLimited _ => exact .refused rfl rfl

/-- A refusal leaves at most one record, without variables. -/
lemma refusal_records (r : Refusal) (now : ℕ) (parts : Parts) :
    (r.exit x now parts).records = [] ∨
      ∃ rec, (r.exit x now parts).records = [rec] ∧ rec.rawVariables = none := by
  cases r with
  | bodyTooLarge => exact .inl rfl
  | _ => exact .inr ⟨_, rfl, rfl⟩

/-- Refusals that leave the same records but for their order of the operations. -/
lemma sameTrail_refused (h : SameRefusal readers body r r')
    (hview : ∀ c c', Sorts readers body c c' → Blind view c c') (identified : Option Principal)
    (now : ℕ) (parts : Parts) :
    SameTrail view (.refused identified (r.exit x now parts))
      (.refused identified (r'.exit x now parts)) := by
  intro e e' he he'
  cases he
  cases he'
  have hone : ∀ rec rec', (r.exit x now parts).records = [rec] →
      (r'.exit x now parts).records = [rec'] → view (redact rec) = view (redact rec') := by
    intro rec rec' hrec hrec'
    cases h with
    | same r =>
      cases hrec.symm.trans hrec'
      rfl
    | denied hsorts =>
      cases hrec
      cases hrec'
      exact redact_preUpstream hsorts.1 (hview _ _ hsorts) now parts _ _
    | rateLimited hsorts =>
      cases hrec
      cases hrec'
      exact redact_preUpstream hsorts.1 (hview _ _ hsorts) now parts _ _
  have hnone : (r.exit x now parts).records = [] ↔ (r'.exit x now parts).records = [] := by
    cases h with
    | same r => rfl
    | denied _ => simp [Refusal.exit]
    | rateLimited _ => simp [Refusal.exit]
  rcases refusal_records (x := x) r now parts with hr | ⟨rec, hr, -⟩
  · rw [hr, hnone.mp hr]
    exact ⟨fun _ => rfl, by simp⟩
  rcases refusal_records (x := x) r' now parts with hr' | ⟨rec', hr', -⟩
  · rw [hnone.mpr hr'] at hr
    cases hr
  rw [hr, hr']
  have hview' := hone rec rec' hr hr'
  exact ⟨fun _ => by simp [hview'], by simpa using hview'⟩

end

/-! ### Without the raw variables -/

lemma noVariables_callForward (hlog : g.logVariables = false) (now : ℕ) (parts : Parts)
    (call : Call) (client : Outgoing → Option Exchange) :
    NoVariables (callForward x g now parts call client) := by
  unfold callForward
  rcases call.outgoing g parts with err | out
  · intro e he r hr
    cases he
    rw [List.mem_singleton.mp hr]
    rfl
  · simp only
    rcases client out with _ | exchange
    · rintro e ⟨⟩
    · intro e he r hr
      cases he
      obtain ⟨status, hrecords⟩ := handleResult_records (x := x) hlog now parts call exchange
      rw [hrecords] at hr
      rw [eq_of_mem_ite hr]
      rfl

lemma noVariables_refused (identified : Option Principal) (r : Refusal) (now : ℕ)
    (parts : Parts) : NoVariables (.refused identified (r.exit x now parts)) := by
  intro e he rec hrec
  cases he
  rcases refusal_records (x := x) r now parts with hnone | ⟨one, hone, hraw⟩
  · rw [hnone] at hrec
    cases hrec
  · rw [hone] at hrec
    rw [List.mem_singleton.mp hrec]
    exact hraw

/-- Without the switch no record of any request has the raw variables. -/
lemma noVariables_handle (hlog : g.logVariables = false) (l : RateLimiters Cell) (t₀ t₁ t₂ : ℕ)
    (parts : Parts) (body : Option (Except Unit Bytes)) (client : Outgoing → Option Exchange) :
    NoVariables (handle x g l t₀ t₁ t₂ parts body client) := by
  rcases hp : handleHead x g t₀ parts with r | p
  · rw [handle_head_error hp]
    exact noVariables_refused none r t₀ parts
  cases body with
  | none =>
    rw [handle_dropped hp]
    rintro e ⟨⟩
  | some b =>
    rcases hb : (handleBody x g l t₁ parts p b).result with r | call
    · rw [handle_body_error hp hb]
      exact noVariables_refused (some p) r t₁ parts
    · rw [handle_call hp hb]
      exact noVariables_callForward hlog t₂ parts call client

/-! ### Two handlers -/

variable {readers' : Readers} {body body' : Bytes} {v v' : Json}

/-- Two handlers of bodies that are the same but for their variables do alike, and record alike
what the view keeps. -/
lemma handle_congr (hlog : g.logVariables = false) (hr : Reorders x.readers readers')
    (hv : x.readers.fromSlice body = .ok v) (hv' : x.readers.fromSlice body' = .ok v')
    (hsame : withoutVariables v = withoutVariables v') (hfits : body.length ≤ g.bodyLimit)
    (hfits' : body'.length ≤ g.bodyLimit) {view : AuditRecord → AuditRecord}
    (hview : ∀ c c', Sorts x.readers body c c' → Blind view c c') (l : RateLimiters Cell)
    (t₀ t₁ t₂ t₂' : ℕ) (parts : Parts) (client client' : Outgoing → Option Exchange) :
    Alike (handle x g l t₀ t₁ t₂ parts (some (.ok body)) client)
        (handle (withReaders x readers') g l t₀ t₁ t₂' parts (some (.ok body')) client') ∧
      SameTrail view (handle x g l t₀ t₁ t₂ parts (some (.ok body)) client)
        (handle (withReaders x readers') g l t₀ t₁ t₂' parts (some (.ok body')) client') := by
  have hhead : handleHead (withReaders x readers') g t₀ parts = handleHead x g t₀ parts := rfl
  rcases hp : handleHead x g t₀ parts with r | p
  · rw [handle_head_error hp, handle_head_error (hhead.trans hp)]
    have hrefusal := @SameRefusal.same x.readers body r
    exact ⟨alike_refused hrefusal none t₀ parts, sameTrail_refused hrefusal hview none t₀ parts⟩
  rcases (handleBody_congr hr hv hv' hsame hfits hfits' l t₁ parts p).2 with
    ⟨r, r', h, h', hrefusal⟩ | ⟨c, c', h, h', hsorts⟩
  · rw [handle_body_error hp h, handle_body_error (hhead.trans hp) h']
    exact ⟨alike_refused hrefusal (some p) t₁ parts,
      sameTrail_refused hrefusal hview (some p) t₁ parts⟩
  · rw [handle_call hp h, handle_call (hhead.trans hp) h']
    have hcall : SameCall (Call.new x t₁ p c body)
        (Call.new (withReaders x readers') t₁ p c' body') := ⟨rfl, hsorts.1, rfl⟩
    exact ⟨callForward_alike hcall t₂ t₂' parts client client',
      callForward_sameTrail hlog hcall (hview c c' hsorts) t₂ t₂' parts client client'⟩

/-- **The variables of a request change nothing but its fingerprint.** Two requests whose bodies
are JSON within the limit, and the same but for the values under `variables`, their documents
iterated in any two orders, consume the same cell of the limiters, meet the same decision, whatever
the client and the upstream make of them, and leave the same records up to the fingerprint, the
times and the answer of the upstream, and up to what is listed in the order of the operations where
that is not settled; and no record has raw variables. -/
theorem variables_do_not_leak (x : Crates Cell) (readers' : Readers)
    (hr : Reorders x.readers readers') (g : Inner) (hlog : g.logVariables = false)
    (l : RateLimiters Cell) (t₀ t₁ : ℕ) (parts : Parts) (body body' : Bytes) (v v' : Json)
    (hv : x.readers.fromSlice body = .ok v) (hv' : x.readers.fromSlice body' = .ok v')
    (hfits : body.length ≤ g.bodyLimit) (hfits' : body'.length ≤ g.bodyLimit)
    (hsame : withoutVariables v = withoutVariables v') :
    limitersAfter x g l t₀ t₁ parts (some (.ok body)) =
        limitersAfter (withReaders x readers') g l t₀ t₁ parts (some (.ok body')) ∧
      ∀ t₂ t₂' client client',
        Alike (handle x g l t₀ t₁ t₂ parts (some (.ok body)) client)
            (handle (withReaders x readers') g l t₀ t₁ t₂' parts (some (.ok body')) client') ∧
          SameTrail withoutOperations (handle x g l t₀ t₁ t₂ parts (some (.ok body)) client)
            (handle (withReaders x readers') g l t₀ t₁ t₂' parts (some (.ok body')) client') ∧
          (Settled x.readers body →
            SameTrail id (handle x g l t₀ t₁ t₂ parts (some (.ok body)) client)
              (handle (withReaders x readers') g l t₀ t₁ t₂' parts (some (.ok body')) client')) ∧
          NoVariables (handle x g l t₀ t₁ t₂ parts (some (.ok body)) client) ∧
          NoVariables (handle (withReaders x readers') g l t₀ t₁ t₂' parts (some (.ok body'))
            client') := by
  refine ⟨?_, fun t₂ t₂' client client' => ?_⟩
  · have hhead : handleHead (withReaders x readers') g t₀ parts = handleHead x g t₀ parts := rfl
    unfold limitersAfter
    rw [hhead]
    rcases handleHead x g t₀ parts with r | p
    · rfl
    · exact (handleBody_congr hr hv hv' hsame hfits hfits' l t₁ parts p).1
  · obtain ⟨halike, htrail⟩ := handle_congr hlog hr hv hv' hsame hfits hfits'
      (fun c c' _ => blind_withoutOperations c c') l t₀ t₁ t₂ t₂' parts client client'
    refine ⟨halike, htrail, fun hsettled => ?_, noVariables_handle hlog l t₀ t₁ t₂ parts _ client,
      noVariables_handle hlog l t₀ t₁ t₂' parts _ client'⟩
    exact (handle_congr hlog hr hv hv' hsame hfits hfits'
      (fun c c' hsorts => blind_id (hsorts.2 hsettled)) l t₀ t₁ t₂ t₂' parts client client').2

/-! ### An example: two amounts, and two orders -/

def amountText (amount : String) : String :=
  "\x7b\"query\":\"" ++ rulesAndSetRule ++ "\",\"variables\":\x7b\"amount\":" ++ amount ++
    "\x7d\x7d"

def amountJson (amount : ℕ) : Json :=
  .obj [("query", .str rulesAndSetRule), ("variables", .obj [("amount", .num (.posInt amount))])]

def amountCrates : Crates ℕ :=
  { exampleCrates with
    readers := { exampleReaders with
      fromSlice b :=
        if b = ascii (amountText "1") then .ok (amountJson 1)
        else if b = ascii (amountText "2") then .ok (amountJson 2)
        else .error "expected value at line 1 column 1" } }

/-- The named operations in the other order. -/
def swappedOperations : AList fun _ : String => OperationDefinition :=
  ⟨[⟨"SetRule", setRuleOperation⟩, ⟨"Rules", rulesOperation⟩], by simp [List.NodupKeys]⟩

def swappedReaders : Readers :=
  { amountCrates.readers with
    parseQuery query :=
      if query = setRule then .ok ⟨.single setRuleOperation, ∅⟩
      else if query = rulesAndSetRule then
        .ok ⟨.multiple swappedOperations (by simp [swappedOperations]), ∅⟩
      else .error "expected executable_definition" }

lemma reorders_swapped : Reorders amountCrates.readers swappedReaders where
  fromSlice := rfl
  leading := rfl
  parseQuery query := by
    simp only [amountCrates, exampleReaders, swappedReaders]
    split_ifs
    · exact .document ⟨List.Perm.refl _, rfl⟩
    · exact .document ⟨List.Perm.swap _ _ _, rfl⟩
    · exact .error _

/-- How the operator's request for an amount fares. -/
def amountHandled (readers : Readers) (amount : String) (exchange : Exchange) : Handled :=
  handle (withReaders amountCrates readers) (exampleGateway true)
    (.new amountCrates.governor 600 30) 0 0 5 (exampleParts .post "/" "write-token")
    (some (.ok (ascii (amountText amount)))) fun _ => some exchange

theorem variables_do_not_leak_amount :
    Alike (amountHandled amountCrates.readers "1" (.answered 200 [] []))
      (amountHandled swappedReaders "2" (.unanswered "connection refused")) :=
  ((variables_do_not_leak amountCrates swappedReaders reorders_swapped (exampleGateway true) rfl
    (.new amountCrates.governor 600 30) 0 0 (exampleParts .post "/" "write-token")
    (ascii (amountText "1")) (ascii (amountText "2")) (amountJson 1) (amountJson 2) rfl rfl
    (by decide) (by decide) rfl).2 5 5 _ _).1

set_option maxRecDepth 1024 in
/-- The same request twice, recorded as two different operations. -/
theorem recorded_in_another_order :
    Reorders amountCrates.readers swappedReaders ∧
      ∃ e e', (amountHandled amountCrates.readers "1" (.answered 200 [] [])).exit = some e ∧
        (amountHandled swappedReaders "1" (.answered 200 [] [])).exit = some e' ∧
        e.records.map AuditRecord.operationName = [some "Rules"] ∧
        e'.records.map AuditRecord.operationName = [some "SetRule"] ∧
        ¬SameTrail id (amountHandled amountCrates.readers "1" (.answered 200 [] []))
          (amountHandled swappedReaders "1" (.answered 200 [] [])) := by
  refine ⟨reorders_swapped, _, _, rfl, rfl, rfl, rfl, fun h => ?_⟩
  have hnames : some "Rules" = some "SetRule" := congrArg AuditRecord.operationName
    ((h _ _ rfl rfl).2 _ (List.mem_singleton_self _) _ (List.mem_singleton_self _))
  simp at hnames

end GatewayAuth.Variables
