import GatewayAuth.Classify
import GatewayAuth.Text

/-!
Pass-through proxy to the upstream: which upstream a path is routed to, which headers are
passed on, and the request that is built for the upstream.
-/

namespace GatewayAuth.Forwarding

open GatewayAuth.Classify GatewayAuth.Text

inductive Method
  | options
  | get
  | post
  | put
  | delete
  | head
  | trace
  | connect
  | patch
  | extension (name : String)
  deriving DecidableEq

/-- Header names, in lower case, with their values: one entry for each value. -/
abbrev HeaderMap := List (String × Bytes)

/-- The first value of a name. -/
def HeaderMap.get? (headers : HeaderMap) (name : String) : Option Bytes :=
  (headers.find? fun h => h.1 == name).map Prod.snd

/-- Upstream endpoints the proxy guards. -/
structure Upstream where
  agentManagement : String
  graphNodeAdmin : Option String
  graphNodeStatus : Option String

/-- Which upstream a request is routed to. -/
inductive UpstreamTarget
  | agentManagement
  | graphNodeAdmin
  | graphNodeStatus
  deriving DecidableEq

def adminPrefix : String := "/_admin"
def statusPrefix : String := "/_status"

/-- Strip `pre` only when it is a whole path segment. -/
def stripPrefixSegment (path pre : String) : Option String :=
  match stripPrefix path pre with
  | none => none
  | some rest =>
    if rest = "" then some "/"
    else if rest.toList.head? = some '/' then some rest
    else none

/-- Resolve a request path to an upstream target and the path to forward. -/
def route (path : String) : UpstreamTarget × String :=
  match stripPrefixSegment path adminPrefix with
  | some rest => (.graphNodeAdmin, rest)
  | none =>
    match stripPrefixSegment path statusPrefix with
    | some rest => (.graphNodeStatus, rest)
    | none => (.agentManagement, path)

def hopByHop : List String :=
  ["connection", "keep-alive", "proxy-authenticate", "proxy-authorization", "te", "trailer",
    "transfer-encoding", "upgrade"]

def isHopByHop (name : String) : Bool := hopByHop.contains name

/-- The incoming headers minus hop-by-hop headers, `host` and `authorization`. -/
def filterForwardHeaders (headers : HeaderMap) : HeaderMap :=
  headers.filter fun h => !(isHopByHop h.1 || h.1 == "host" || h.1 == "authorization")

/-- The upstream's headers minus hop-by-hop headers and `content-length`. -/
def filterResponseHeaders (headers : HeaderMap) : HeaderMap :=
  headers.filter fun h => !(isHopByHop h.1 || h.1 == "content-length")

/-- The upstream's response, buffered for relay back to the client. -/
structure ProxyResponse where
  status : ℕ
  headers : HeaderMap
  body : Bytes
  deriving DecidableEq

inductive ProxyError
  | noUpstream (target : UpstreamTarget)
  | badUrl (e : String)
  | upstream (e : String)
  deriving DecidableEq

/-- The configured upstreams, each base without its trailing slash. -/
structure Proxy where
  agentManagement : String
  graphNodeAdmin : Option String
  graphNodeStatus : Option String

def trimTrailingSlash (s : String) : String := (stripSuffix s "/").getD s

def Proxy.new (upstream : Upstream) : Proxy where
  agentManagement := trimTrailingSlash upstream.agentManagement
  graphNodeAdmin := upstream.graphNodeAdmin.map trimTrailingSlash
  graphNodeStatus := upstream.graphNodeStatus.map trimTrailingSlash

def Proxy.baseFor (p : Proxy) (target : UpstreamTarget) : Except ProxyError String :=
  let configured (base : Option String) : Except ProxyError String :=
    match base with
    | some base => .ok base
    | none => .error (.noUpstream target)
  match target with
  | .agentManagement => .ok p.agentManagement
  | .graphNodeAdmin => configured p.graphNodeAdmin
  | .graphNodeStatus => configured p.graphNodeStatus

/-- A request to an upstream. -/
structure Outgoing where
  target : UpstreamTarget
  method : Method
  url : String
  headers : HeaderMap
  body : Bytes
  deriving DecidableEq

/-- The part of `forward` before its first await: the request handed to the HTTP client. -/
def Proxy.forward (p : Proxy) (method : Method) (pathAndQuery : String) (headers : HeaderMap)
    (body : Bytes) : Except ProxyError Outgoing :=
  let (target, forwardPath) := route pathAndQuery
  match p.baseFor target with
  | .error e => .error e
  | .ok base => .ok ⟨target, method, base ++ forwardPath, filterForwardHeaders headers, body⟩

variable {p : Proxy} {pq base : String} {e : ProxyError}

lemma forward_ok (h : p.baseFor (route pq).1 = .ok base) (method : Method) (headers : HeaderMap)
    (body : Bytes) : p.forward method pq headers body = .ok ⟨(route pq).1, method,
      base ++ (route pq).2, filterForwardHeaders headers, body⟩ := by
  unfold Proxy.forward
  simp only [h]

lemma forward_error (h : p.baseFor (route pq).1 = .error e) (method : Method)
    (headers : HeaderMap) (body : Bytes) : p.forward method pq headers body = .error e := by
  unfold Proxy.forward
  simp only [h]

lemma forward_target {m : Method} {h : HeaderMap} {b : Bytes} {out : Outgoing}
    (ho : p.forward m pq h b = .ok out) : out.target = (route pq).1 := by
  rcases hb : p.baseFor (route pq).1 with e | base
  · rw [forward_error hb] at ho
    cases ho
  · rw [forward_ok hb] at ho
    cases ho
    rfl

end GatewayAuth.Forwarding
