import GatewayAuth.Audit
import GatewayAuth.Auth
import GatewayAuth.Ratelimit

/-!
The request handler: authenticate, read the body, classify, authorize, rate-limit, forward
and audit.

The handler is cut where it awaits. `handleHead` runs to the await on the body, `handleBody`
from there to the call of `forward`, and `handleResult` from the result of `forward` to the
response.
-/

namespace GatewayAuth.Server

open GatewayAuth.Lib.Metering GatewayAuth.Document
open GatewayAuth.JsonBody GatewayAuth.Classify GatewayAuth.Authz GatewayAuth.Forwarding
open GatewayAuth.Jwt GatewayAuth.Auth GatewayAuth.Ratelimit GatewayAuth.Audit

/-- The code the gateway calls and does not contain. -/
structure Crates (Cell : Type) where
  readers : Readers
  jwt : Jsonwebtoken
  fromDer : FromDer
  governor : Governor Cell
  hashVariables : Json → String
  rfc3339 : ℕ → String

structure RateLimit where
  writePerMinute : ℕ
  readPerMinute : ℕ

def RateLimit.default : RateLimit := ⟨30, 600⟩

/-- The configuration the pipeline reads. -/
structure Config where
  upstream : Upstream
  auth : AuthConfig
  policy : Policy
  ratelimit : RateLimit

structure AppOptions where
  auditReads : Bool
  logVariables : Bool
  bodyLimit : ℕ

def AppOptions.default : AppOptions := ⟨false, false, 1024 * 1024⟩

/-- Shared application state, the limiters apart. -/
structure Inner where
  authenticator : Authenticator
  policy : Policy
  proxy : Proxy
  allowAnonymousRead : Bool
  failClosedOnParseError : Bool
  auditReads : Bool
  logVariables : Bool
  bodyLimit : ℕ

def Inner.new (config : Config) (authenticator : Authenticator) (proxy : Proxy)
    (options : AppOptions) : Inner where
  authenticator := authenticator
  policy := config.policy
  proxy := proxy
  allowAnonymousRead := config.auth.allowAnonymousRead
  failClosedOnParseError := config.policy.failClosedOnParseError
  auditReads := options.auditReads
  logVariables := options.logVariables
  bodyLimit := options.bodyLimit

/-- A request without its body: the certificate identity is there only when the TLS layer
terminated an mTLS connection. -/
structure Parts where
  method : Method
  pathAndQuery : String
  headers : HeaderMap
  peerIp : String
  clientCert : Option ClientCert

/-- The gateway's own error response, or the upstream's response relayed. -/
inductive Response
  | error (status : ℕ) (message : String) (wwwAuthenticate : Bool)
  | relay (status : ℕ) (headers : HeaderMap) (body : Bytes)
  deriving DecidableEq

inductive Metric
  | authFailure
  | authzDenied
  | parseError
  | rateLimited
  | request (scope principal : String) (status latencyMs : ℕ)
  deriving DecidableEq

/-- What the handler does last: the records it emits, the metrics it counts and its
response. -/
structure Exit where
  records : List AuditRecord
  metrics : List Metric
  response : Response

/-- Why a request is answered without being forwarded. -/
inductive Refusal
  | authFailed (e : AuthError)
  | bodyTooLarge
  | rejected (p : Principal) (reason : String)
  | denied (p : Principal) (c : Classification) (d : Denied)
  | rateLimited (p : Principal) (c : Classification)

variable {Cell : Type} (x : Crates Cell)

/-- The record of a request that never reached the upstream. -/
def auditPreUpstream (now : ℕ) (parts : Parts) (p : Principal) (c : Option Classification)
    (outcome : Outcome) : AuditRecord where
  timestamp := x.rfc3339 now
  principal := p.name
  sourceIp := some parts.peerIp
  scope := c.map Classification.scope
  operationName := c.bind firstOpName
  operationKinds := (c.map operationKinds).getD []
  topLevelFields := (c.map topFields).getD []
  variablesHash := none
  rawVariables := none
  outcome := outcome
  upstreamStatus := none
  latencyMs := none

def Refusal.exit (now : ℕ) (parts : Parts) : Refusal → Exit
  | .authFailed e =>
    { records := [{
        timestamp := x.rfc3339 now, principal := "-", sourceIp := some parts.peerIp
        scope := none, operationName := none, operationKinds := [], topLevelFields := []
        variablesHash := none, rawVariables := none, outcome := .authFailed e.message
        upstreamStatus := none, latencyMs := none }]
      metrics := [.authFailure]
      response := .error 401 "unauthorized" true }
  | .bodyTooLarge => ⟨[], [], .error 413 "request body too large" false⟩
  | .rejected p reason =>
    ⟨[auditPreUpstream x now parts p none (.rejected reason)], [.parseError],
      .error 400 reason false⟩
  | .denied p c d =>
    ⟨[auditPreUpstream x now parts p (some c) (.denied d.message)], [.authzDenied],
      .error 403 d.message false⟩
  | .rateLimited p c =>
    ⟨[auditPreUpstream x now parts p (some c) .rateLimited], [.rateLimited],
      .error 429 "rate limit exceeded" false⟩

/-! ### Up to the await on the body -/

def handleHead (g : Inner) (now : ℕ) (parts : Parts) : Except Refusal Principal :=
  match g.authenticator.authenticate x.jwt (now / 1000000000)
      ⟨extractBearer parts.headers, parts.clientCert⟩ g.allowAnonymousRead with
  | .ok p => .ok p
  | .error e => .error (.authFailed e)

/-! ### From the body to the call of `forward` -/

def readOnly : Classification := ⟨[], .read⟩
def writeOnly : Classification := ⟨[], .write⟩

/-- Decide the request's classification, accounting for non-GraphQL routes. -/
def classifyRequest (method : Method) (target : UpstreamTarget) (body : Bytes)
    (failClosed : Bool) : Except String Classification :=
  if method = .get then .ok readOnly
  else if target = .graphNodeAdmin then .ok writeOnly
  else
    match classify x.readers body with
    | .ok c => .ok c
    | .error e =>
      if failClosed then .error ("could not classify request: " ++ e.message)
      -- Fail open, but only ever to read-only.
      else .ok readOnly

/-- A body stream read to its end, or broken: refused when broken or over the limit. -/
def toBytes (limit : ℕ) : Except Unit Bytes → Option Bytes
  | .ok b => if b.length ≤ limit then some b else none
  | .error _ => none

/-- Body limit, classification and authorization. -/
def screen (g : Inner) (parts : Parts) (p : Principal) (body : Except Unit Bytes) :
    Except Refusal (Classification × Bytes) :=
  match toBytes g.bodyLimit body with
  | none => .error .bodyTooLarge
  | some b =>
    match classifyRequest x parts.method (route parts.pathAndQuery).1 b
        g.failClosedOnParseError with
    | .error reason => .error (.rejected p reason)
    | .ok c =>
      match authorize p c g.policy with
      | .error d => .error (.denied p c d)
      | .ok _ => .ok (c, b)

/-- What the handler keeps across the await on `forward`. -/
structure Call where
  principal : Principal
  classification : Classification
  body : Bytes
  rawVariables : Option Json
  variablesHash : Option String
  started : ℕ

def Call.new (now : ℕ) (p : Principal) (c : Classification) (body : Bytes) : Call where
  principal := p
  classification := c
  body := body
  rawVariables := extractVariables x.readers body
  variablesHash := (extractVariables x.readers body).map x.hashVariables
  started := now

/-- The outcome of the stretch from the body to `forward`: a refusal or the call, the
limiters, and the answer of the limiter where it was asked. -/
structure Screened (Cell : Type) where
  result : Except Refusal Call
  limiters : RateLimiters Cell
  asked : Option (Scope × Bool)

def handleBody (g : Inner) (l : RateLimiters Cell) (now : ℕ) (parts : Parts) (p : Principal)
    (body : Except Unit Bytes) : Screened Cell :=
  match screen x g parts p body with
  | .error r => ⟨.error r, l, none⟩
  | .ok (c, b) =>
    match l.check x.governor now c.scope p.name with
    | (true, l') => ⟨.ok (Call.new x now p c b), l', some (c.scope, true)⟩
    | (false, l') => ⟨.error (.rateLimited p c), l', some (c.scope, false)⟩

/-- The request the call of `forward` hands to the HTTP client. -/
def Call.outgoing (g : Inner) (parts : Parts) (call : Call) : Except ProxyError Outgoing :=
  g.proxy.forward parts.method parts.pathAndQuery parts.headers call.body

/-! ### From the result of `forward` to the response -/

def Call.latencyMs (call : Call) (now : ℕ) : ℕ := (now - call.started) / 1000000

/-- The record of a call the upstream was asked to serve. -/
def Call.auditRecord (now : ℕ) (parts : Parts) (call : Call) (rawVariables : Option Json)
    (upstreamStatus : Option ℕ) : AuditRecord where
  timestamp := x.rfc3339 now
  principal := call.principal.name
  sourceIp := some parts.peerIp
  scope := some call.classification.scope
  operationName := firstOpName call.classification
  operationKinds := operationKinds call.classification
  topLevelFields := topFields call.classification
  variablesHash := call.variablesHash
  rawVariables := rawVariables
  outcome := .allowed
  upstreamStatus := upstreamStatus
  latencyMs := some (call.latencyMs now)

def Call.metric (now : ℕ) (call : Call) (status : ℕ) : Metric :=
  .request (baseScope call.classification.scope) call.principal.name status (call.latencyMs now)

def errorStatus : ProxyError → ℕ
  | .noUpstream _ => 404
  | _ => 502

def handleResult (g : Inner) (now : ℕ) (parts : Parts) (call : Call) :
    Except ProxyError ProxyResponse → Exit
  | .ok upstream =>
    { records :=
        if call.classification.scope = .write ∨ g.auditReads then
          [call.auditRecord x now parts (if g.logVariables then call.rawVariables else none)
            (some upstream.status)]
        else []
      metrics := [call.metric now upstream.status]
      response := .relay upstream.status (filterResponseHeaders upstream.headers) upstream.body }
  | .error e =>
    { records := [call.auditRecord x now parts none none]
      metrics := [call.metric now (errorStatus e)]
      response := .error (errorStatus e) "upstream unavailable" false }

variable {x} {g : Inner} {parts : Parts} {p : Principal}

/-- The record of a call has the status of the result, if it has one. -/
lemma eq_auditRecord {now : ℕ} {call : Call} {result : Except ProxyError ProxyResponse}
    {r : AuditRecord} (h : r ∈ (handleResult x g now parts call result).records) :
    ∃ raw, r = call.auditRecord x now parts raw (result.toOption.map ProxyResponse.status) := by
  cases result with
  | error e => exact ⟨none, List.mem_singleton.mp h⟩
  | ok upstream =>
    simp only [handleResult] at h
    split_ifs at h
    · exact ⟨_, List.mem_singleton.mp h⟩
    · exact ⟨_, List.mem_singleton.mp h⟩
    · cases h

/-! ### When a request is forwarded -/

lemma classifyRequest_get (target : UpstreamTarget) (body : Bytes) (failClosed : Bool) :
    classifyRequest x .get target body failClosed = .ok readOnly := by
  simp [classifyRequest]

lemma classifyRequest_admin {method : Method} (hm : method ≠ .get) (body : Bytes)
    (failClosed : Bool) :
    classifyRequest x method .graphNodeAdmin body failClosed = .ok writeOnly := by
  simp [classifyRequest, hm]

lemma classifyRequest_body {method : Method} {target : UpstreamTarget} (hm : method ≠ .get)
    (ht : target ≠ .graphNodeAdmin) {body : Bytes} {c : Classification}
    (hc : classify x.readers body = .ok c) (failClosed : Bool) :
    classifyRequest x method target body failClosed = .ok c := by
  simp [classifyRequest, hm, ht, hc]

lemma classifyRequest_failClosed {method : Method} {target : UpstreamTarget} (hm : method ≠ .get)
    (ht : target ≠ .graphNodeAdmin) {body : Bytes} {c : Classification}
    (h : classifyRequest x method target body true = .ok c) : classify x.readers body = .ok c := by
  unfold classifyRequest at h
  rw [if_neg hm, if_neg ht] at h
  rcases hc : classify x.readers body with e | c'
  · rw [hc] at h
    cases h
  · rw [hc] at h
    cases h
    rfl

lemma toBytes_eq_some {limit : ℕ} {body : Except Unit Bytes} {b : Bytes} :
    toBytes limit body = some b ↔ body = .ok b ∧ b.length ≤ limit := by
  rcases body with e | b'
  · simp [toBytes]
  · simp only [toBytes, Option.ite_none_right_eq_some, Option.some.injEq, Except.ok.injEq]
    refine ⟨?_, ?_⟩
    · rintro ⟨h, rfl⟩
      exact ⟨rfl, h⟩
    · rintro ⟨rfl, h⟩
      exact ⟨h, rfl⟩

lemma screen_ok {body : Except Unit Bytes} {c : Classification} {b : Bytes} :
    screen x g parts p body = .ok (c, b) ↔ toBytes g.bodyLimit body = some b ∧
      classifyRequest x parts.method (route parts.pathAndQuery).1 b g.failClosedOnParseError =
        .ok c ∧ Authorized p c g.policy := by
  unfold screen Authorized
  rcases hb : toBytes g.bodyLimit body with _ | b'
  · simp
  rcases hc : classifyRequest x parts.method (route parts.pathAndQuery).1 b'
    g.failClosedOnParseError with e | c'
  · refine iff_of_false (by simp [hc]) ?_
    rintro ⟨hb', hc', -⟩
    cases hb'
    cases hc.symm.trans hc'
  rcases ha : authorize p c' g.policy with d | required
  · refine iff_of_false (by simp [hc, ha]) ?_
    rintro ⟨hb', hc', _, ha'⟩
    cases hb'
    cases hc.symm.trans hc'
    cases ha.symm.trans ha'
  · simp only [hc, ha]
    refine ⟨fun h => ?_, ?_⟩
    · cases h
      exact ⟨rfl, hc, _, ha⟩
    · rintro ⟨hb', hc', -⟩
      cases hb'
      cases hc.symm.trans hc'
      rfl

/-- A body that is looked into goes on to the limiters exactly when it fits and the principal
may do what it is classified as. -/
lemma screen_classified (hm : parts.method ≠ .get)
    (ht : (route parts.pathAndQuery).1 ≠ .graphNodeAdmin) {b : Bytes} {c : Classification}
    (hc : classify x.readers b = .ok c) {c' : Classification} {b' : Bytes} :
    screen x g parts p (.ok b) = .ok (c', b') ↔
      b.length ≤ g.bodyLimit ∧ Authorized p c g.policy ∧ c' = c ∧ b' = b := by
  have hrequest := classifyRequest_body (x := x) hm ht hc g.failClosedOnParseError
  rw [screen_ok, toBytes_eq_some]
  refine ⟨?_, ?_⟩
  · rintro ⟨⟨hb, hfits⟩, hc', hauth⟩
    cases hb
    cases hrequest.symm.trans hc'
    exact ⟨hfits, hauth, rfl, rfl⟩
  · rintro ⟨hfits, hauth, rfl, rfl⟩
    exact ⟨⟨rfl, hfits⟩, hrequest, hauth⟩

/-- **A call of `forward` comes after every check**: the body fits and is classified, the
classification is authorized, and the limiter of its scope lets it through. -/
lemma handleBody_ok {l : RateLimiters Cell} {now : ℕ} {body : Except Unit Bytes} {call : Call} :
    (handleBody x g l now parts p body).result = .ok call ↔
      ∃ c b, screen x g parts p body = .ok (c, b) ∧
        (l.check x.governor now c.scope p.name).1 = true ∧ call = Call.new x now p c b := by
  unfold handleBody
  rcases hs : screen x g parts p body with r | ⟨c, b⟩
  · simp
  rcases hl : l.check x.governor now c.scope p.name with ⟨_ | _, l'⟩
  · refine iff_of_false (by simp [hl]) ?_
    rintro ⟨c', b', hok, h, -⟩
    cases hok
    rw [hl] at h
    cases h
  · simp only [hl, Except.ok.injEq, Prod.mk.injEq]
    refine ⟨?_, ?_⟩
    · rintro rfl
      exact ⟨c, b, ⟨rfl, rfl⟩, by rw [hl], rfl⟩
    · rintro ⟨c', b', ⟨rfl, rfl⟩, -, rfl⟩
      rfl

/-! ### An example: two static tokens in front of an agent and a graph node -/

def ascii (s : String) : Bytes := s.toList.map fun c => c.toNat.toUInt8

def requestText (query : String) : String := "\x7b\"query\":\"" ++ query ++ "\"\x7d"

def batchText (queries : List String) : String :=
  "[" ++ ",".intercalate (queries.map requestText) ++ "]"

def requestJson (query : String) : Json := .obj [("query", .str query)]

def batchJson (queries : List String) : Json := .arr (queries.map requestJson)

lemma elements_batchJson (queries : List String) :
    elements (batchJson queries) = queries.map requestJson := by
  have hobj : ∀ v ∈ queries.map requestJson, ∃ members, v = .obj members := by
    simp [requestJson]
  simp [elements, batchJson, deserialize_objects hobj]

def setRule : String := "mutation \x7b setIndexingRule \x7d"

def setRuleOperation : OperationDefinition := ⟨.mutation, [.field none "setIndexingRule" []]⟩

def rulesOperation : OperationDefinition := ⟨.query, [.field none "indexingRules" []]⟩

/-- A document of two named operations, and the request that selects one of them. -/
def rulesAndSetRule : String :=
  "query Rules \x7b indexingRules \x7d mutation SetRule \x7b setIndexingRule \x7d"

def namedOperations : AList fun _ : String => OperationDefinition :=
  ⟨[⟨"Rules", rulesOperation⟩, ⟨"SetRule", setRuleOperation⟩], by simp [List.NodupKeys]⟩

def selectText (query operationName : String) : String :=
  "\x7b\"query\":\"" ++ query ++ "\",\"operationName\":\"" ++ operationName ++ "\"\x7d"

def selectJson (query operationName : String) : Json :=
  .obj [("query", .str query), ("operationName", .str operationName)]

/-- JSON and GraphQL texts with what they read as. -/
def exampleReaders : Readers where
  fromSlice b :=
    if b = ascii (requestText setRule) then .ok (requestJson setRule)
    else if b = ascii (batchText [setRule, setRule]) then .ok (batchJson [setRule, setRule])
    else if b = ascii (batchText [setRule, "\x7d"]) then .ok (batchJson [setRule, "\x7d"])
    else if b = ascii (requestText rulesAndSetRule) then .ok (requestJson rulesAndSetRule)
    else if b = ascii (selectText rulesAndSetRule "Rules") then
      .ok (selectJson rulesAndSetRule "Rules")
    else if b = ascii (selectText rulesAndSetRule "SetRule") then
      .ok (selectJson rulesAndSetRule "SetRule")
    else .error "expected value at line 1 column 1"
  parseQuery query :=
    if query = setRule then .ok ⟨.single setRuleOperation, ∅⟩
    else if query = rulesAndSetRule then
      .ok ⟨.multiple namedOperations (by simp [namedOperations]), ∅⟩
    else .error "expected executable_definition"

def exampleCrates : Crates ℕ where
  readers := exampleReaders
  jwt := ⟨fun _ _ _ _ => .error "InvalidToken", fun _ => .error "InvalidKeyFormat", fun _ => none⟩
  fromDer := fun _ => none
  governor quota := gcra quota.replenish1Per (quota.maxBurst * quota.replenish1Per)
  hashVariables _ := ""
  rfc3339 _ := ""

def exampleTokens : List TokenEntry :=
  [⟨"ci-readonly", "read-token", ["read"]⟩, ⟨"operator", "write-token", ["read", "write"]⟩]

def exampleConfig (failClosed : Bool) (ratelimit : RateLimit) : Config where
  upstream :=
    ⟨"http://127.0.0.1:18000", some "http://127.0.0.1:8020", some "http://127.0.0.1:8030"⟩
  auth := ⟨.bearer, false, exampleTokens, none, []⟩
  policy := ⟨failClosed, []⟩
  ratelimit := ratelimit

def exampleGateway (failClosed : Bool) : Inner :=
  .new (exampleConfig failClosed .default) (.bearer ⟨exampleTokens⟩)
    (.new (exampleConfig failClosed .default).upstream) .default

/-- A request with a bearer token. -/
def exampleParts (method : Method) (pathAndQuery token : String) : Parts :=
  ⟨method, pathAndQuery, [("authorization", ascii ("Bearer " ++ token))], "10.0.0.5", none⟩

def operator : Principal := .new "operator" ["read", "write"]
def ciReadonly : Principal := .new "ci-readonly" ["read"]

end GatewayAuth.Server
