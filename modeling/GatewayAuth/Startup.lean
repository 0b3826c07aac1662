import GatewayAuth.ConfigFile
import GatewayAuth.Connections

/-!
From the arguments of the process to a gateway that serves: the configuration is loaded, the
authenticator built and the listener set up, and whatever fails on the way stops the process with
a report.

Files, the network and the TLS library are parameters. Behind TLS the gateway serves the
connections whose handshake succeeds, and without it those that it accepts, where no request has
a client certificate.
-/

namespace GatewayAuth.Startup

open GatewayAuth.Lib.Logs GatewayAuth.Lib.Runs
open GatewayAuth.JsonBody GatewayAuth.Classify GatewayAuth.Authz
open GatewayAuth.Forwarding GatewayAuth.Jwt GatewayAuth.Auth GatewayAuth.Server
open GatewayAuth.Service GatewayAuth.Wire GatewayAuth.Identity GatewayAuth.Loading
open GatewayAuth.Process GatewayAuth.ConfigFile

/-! ### Reports -/

/-- An error with its context, the outermost first. -/
abbrev Report := List String

variable {α β : Type}

def context (message : String) : Except Report α → Except Report α
  | .error report => .error (message :: report)
  | .ok a => .ok a

def orReport (message : String) : Option α → Except Report α
  | none => .error [message]
  | some a => .ok a

/-- The report of an error that comes with a text only. -/
def reported : Except String α → Except Report α
  | .error e => .error [e]
  | .ok a => .ok a

/-- The report of an error that comes with a text and what has caused it. -/
def ConfigError.report (e : ConfigError) : Report :=
  e.message :: match e with
    | .read _ source => [source]
    | .parse source => [source]
    | .missingEnv _ => []

lemma context_ok {message : String} {r : Except Report α} {a : α} :
    context message r = .ok a ↔ r = .ok a := by
  cases r <;> simp [context]

lemma orReport_ok {message : String} {o : Option α} {a : α} :
    orReport message o = .ok a ↔ o = some a := by
  cases o <;> simp [orReport]

lemma mapError_ok {ε ε' : Type} {f : ε → ε'} {r : Except ε α} {a : α} :
    r.mapError f = .ok a ↔ r = .ok a := by
  cases r <;> simp [Except.mapError]

lemma bind_ok {ε : Type} {r : Except ε α} {f : α → Except ε β} {b : β} :
    (r >>= f) = .ok b ↔ ∃ a, r = .ok a ∧ f a = .ok b := by
  cases r <;> simp [bind, Except.bind]

/-! ### What the process finds -/

/-- The process and its surroundings: the arguments, the environment, the files, and whether the
recorder, the HTTP client and the listener can be had. -/
structure Host where
  args : List String
  env : Environment
  readToString : String → Except String String
  read : String → Except String Bytes
  recorder : Except String Unit
  httpClient : Except String Unit
  get : String → Except String Bytes
  bind : SocketAddr → Except String Unit

/-- The libraries that only the start uses: the TOML reader, the reader of key sets, those of PEM
files, and what the TLS library says of a configuration. -/
structure Libraries where
  toml : TomlCrate
  jwkSet : Bytes → Except String (List Jwk)
  pemCerts : Bytes → Except String (List Bytes)
  pemKey : Bytes → Except String (Option Bytes)
  protocolVersions : Except String Unit
  addRoot : Bytes → Except String Unit
  clientVerifier : List Bytes → Except String Unit
  singleCert : List Bytes → Bytes → Except String Unit

/-- What follows `--config`, or the default. -/
def configPathOf : List String → String
  | [] => "config.toml"
  | arg :: args =>
    if arg = "--config" ∨ arg = "-c" then args.headD "config.toml" else configPathOf args

def parseConfigPath (args : List String) : String := configPathOf (args.drop 1)

variable (y : Libraries) (host : Host)

/-! ### The authenticator -/

/-- Fetch a JWKS document over HTTP. -/
def fetchJwks (url : String) : Except AuthError (List Jwk) :=
  match host.get url with
  | .error e => .error (.jwt ("fetching JWKS from " ++ url ++ ": " ++ e))
  | .ok body =>
    match y.jwkSet body with
    | .error e => .error (.jwt ("parsing JWKS from " ++ url ++ ": " ++ e))
    | .ok set => .ok set

variable {Cell : Type} (x : Crates Cell)

/-- The backend of a configuration without a shared secret. -/
def fetchBackend (jwt : JwtConfig) : Except Report Authenticator := do
  let url ← orReport "JWT mode requires either hs256_secret or jwks_url" jwt.jwksUrl
  let set ← (fetchJwks y host url).mapError fun e => [e.message]
  let backend ← (JwtBackend.fromJwks x.jwt jwt set).mapError fun e => [e.message]
  return .jwt backend

/-- Build the authenticator, fetching keys when there is no shared secret. -/
def buildAuthenticator (auth : AuthConfig) : Except Report Authenticator :=
  let fromConfig := (Authenticator.fromConfig auth).mapError fun e =>
    ["authenticator: " ++ e.message]
  match auth.mode, auth.jwt with
  | .jwt, some jwt =>
    match jwt.hs256Secret with
    | none => fetchBackend y host x jwt
    | some _ => fromConfig
  | _, _ => fromConfig

/-! ### TLS -/

def loadCerts (path : String) : Except Report (List Bytes) := do
  let data ← context ("reading " ++ path) (reported (host.read path))
  let certs ← context ("parsing certificates from " ++ path) (reported (y.pemCerts data))
  if certs.isEmpty then .error ["no certificates in " ++ path] else .ok certs

def loadPrivateKey (path : String) : Except Report Bytes := do
  let data ← context ("reading " ++ path) (reported (host.read path))
  let key ← context ("parsing private key from " ++ path) (reported (y.pemKey data))
  orReport ("no private key found in " ++ path) key

def addRoots (path : String) (roots : List Bytes) : List Bytes → Except Report (List Bytes)
  | [] => .ok roots
  | cert :: certs => do
    context ("adding CA from " ++ path ++ " to trust store") (reported (y.addRoot cert))
    addRoots path (roots ++ [cert]) certs

def loadRootStore (path : String) : Except Report (List Bytes) := do
  let certs ← loadCerts y host path
  addRoots y path [] certs

/-- The configuration of the TLS library, with the roots of the client certificates if one is
required. -/
structure ServerConfig where
  certs : List Bytes
  key : Bytes
  clientRoots : Option (List Bytes)

def loadServerConfig (tls : Tls) : Except Report ServerConfig := do
  let certPath ← orReport "tls.enabled requires tls.cert" tls.cert
  let keyPath ← orReport "tls.enabled requires tls.key" tls.key
  let certs ← loadCerts y host certPath
  let key ← loadPrivateKey y host keyPath
  context "configuring TLS protocol versions" (reported y.protocolVersions)
  if tls.requireClientCert then
    let caPath ← orReport "require_client_cert requires tls.client_ca" tls.clientCa
    let roots ← loadRootStore y host caPath
    context "building client certificate verifier" (reported (y.clientVerifier roots))
    context "loading server certificate/key" (reported (y.singleCert certs key))
    return ⟨certs, key, some roots⟩
  else
    context "loading server certificate/key" (reported (y.singleCert certs key))
    return ⟨certs, key, none⟩

/-! ### The start -/

/-- A gateway that is about to serve: its configuration, its pipeline, and what its listener asks
of a handshake if it does TLS. -/
structure Started where
  config : ConfigFile.Config
  inner : Inner
  tls : Option ServerConfig

/-- What `main` does before it serves. -/
def start : Except Report Started := do
  let path := parseConfigPath host.args
  let config ← context ("loading config from " ++ path)
    ((Config.load y.toml host.readToString host.env path).mapError ConfigError.report)
  reported (host.recorder.mapError fun e => "installing Prometheus recorder: " ++ e)
  context "building HTTP client" (reported host.httpClient)
  let authenticator ← buildAuthenticator y host x config.auth
  let inner := Inner.new config.toConfig authenticator (.new config.upstream) .default
  context ("binding listener on " ++ config.listen.display) (reported (host.bind config.listen))
  if config.tls.enabled then
    let tls ← context "loading TLS configuration" (loadServerConfig y host config.tls)
    return ⟨config, inner, some tls⟩
  else
    return ⟨config, inner, none⟩

variable {y host x}

/-! ### What has started -/

lemma addRoots_ok {path : String} {roots certs result : List Bytes}
    (h : addRoots y path roots certs = .ok result) : result = roots ++ certs := by
  induction certs generalizing roots with
  | nil =>
    cases h
    simp
  | cons cert certs ih =>
    obtain ⟨-, -, hrest⟩ := bind_ok.mp h
    rw [ih hrest, List.append_assoc, List.singleton_append]

/-- The trust store is the certificates of the file. -/
lemma loadRootStore_ok {path : String} {roots : List Bytes}
    (h : loadRootStore y host path = .ok roots) : loadCerts y host path = .ok roots := by
  obtain ⟨certs, hcerts, hroots⟩ := bind_ok.mp h
  rw [hcerts, addRoots_ok hroots, List.nil_append]

/-- **Client certificates are asked for exactly when they are required**, and those that are
trusted are of the file that the configuration names. -/
lemma loadServerConfig_ok {tls : Tls} {cfg : ServerConfig}
    (h : loadServerConfig y host tls = .ok cfg) :
    (tls.requireClientCert = false ∧ cfg.clientRoots = none) ∨
      (tls.requireClientCert = true ∧ ∃ ca roots, tls.clientCa = some ca ∧
        loadCerts y host ca = .ok roots ∧ cfg.clientRoots = some roots) := by
  unfold loadServerConfig at h
  obtain ⟨certPath, -, h⟩ := bind_ok.mp h
  obtain ⟨keyPath, -, h⟩ := bind_ok.mp h
  obtain ⟨certs, -, h⟩ := bind_ok.mp h
  obtain ⟨key, -, h⟩ := bind_ok.mp h
  obtain ⟨-, -, h⟩ := bind_ok.mp h
  split at h
  · next hrequired =>
    obtain ⟨ca, hca, h⟩ := bind_ok.mp h
    obtain ⟨roots, hroots, h⟩ := bind_ok.mp h
    obtain ⟨-, -, h⟩ := bind_ok.mp h
    obtain ⟨-, -, h⟩ := bind_ok.mp h
    cases h
    exact .inr ⟨hrequired, ca, roots, orReport_ok.mp hca, loadRootStore_ok hroots, rfl⟩
  · next hrequired =>
    obtain ⟨-, -, h⟩ := bind_ok.mp h
    cases h
    exact .inl ⟨by simpa using hrequired, rfl⟩

/-- A backend with the keys of the section: its shared secret, or those at its URL. -/
inductive Keyed (y : Libraries) (host : Host) (x : Crates Cell) (cfg : JwtConfig) :
    JwtBackend → Prop
  | secret {secret : String} {b : JwtBackend} : cfg.hs256Secret = some secret →
      JwtBackend.fromConfig cfg = .ok b → Keyed y host x cfg b
  | fetched {url : String} {set : List Jwk} {b : JwtBackend} : cfg.hs256Secret = none →
      cfg.jwksUrl = some url → fetchJwks y host url = .ok set →
      JwtBackend.fromJwks x.jwt cfg set = .ok b → Keyed y host x cfg b

/-- An authenticator that was built for the section. -/
inductive Built (y : Libraries) (host : Host) (x : Crates Cell) (auth : AuthConfig) :
    Authenticator → Prop
  | bearer : auth.mode = .bearer → Built y host x auth (.bearer ⟨auth.tokens⟩)
  | mtls : auth.mode = .mtls → Built y host x auth (.mtls ⟨auth.mtls⟩)
  | jwt {cfg : JwtConfig} {b : JwtBackend} : auth.mode = .jwt → auth.jwt = some cfg →
      Keyed y host x cfg b → Built y host x auth (.jwt b)

/-- **The authenticator is of the mode that is configured**, with the shared secret if there is
one, else with the keys that were fetched. -/
lemma buildAuthenticator_ok {auth : AuthConfig} {a : Authenticator}
    (h : buildAuthenticator y host x auth = .ok a) : Built y host x auth a := by
  have hconfig : ∀ {a}, (Authenticator.fromConfig auth).mapError
      (fun e => ["authenticator: " ++ e.message]) = .ok a →
      (∀ cfg, auth.mode = .jwt → auth.jwt = some cfg → cfg.hs256Secret ≠ none) →
      Built y host x auth a := by
    intro a ha hsecret
    rw [mapError_ok] at ha
    unfold Authenticator.fromConfig at ha
    cases hmode : auth.mode with
    | bearer =>
      rw [hmode] at ha
      cases ha
      exact .bearer hmode
    | mtls =>
      rw [hmode] at ha
      cases ha
      exact .mtls hmode
    | jwt =>
      rcases hjwt : auth.jwt with _ | cfg
      · simp only [hmode, hjwt] at ha
        cases ha
      · obtain ⟨secret, heq⟩ := Option.ne_none_iff_exists'.mp (hsecret cfg hmode hjwt)
        rcases hb : JwtBackend.fromConfig cfg with e | b
        · simp only [hmode, hjwt, hb] at ha
          cases ha
        · simp only [hmode, hjwt, hb] at ha
          cases ha
          exact .jwt hmode hjwt (.secret heq hb)
  unfold buildAuthenticator at h
  simp only at h
  split at h
  · next cfg hmode hjwt =>
    split at h
    · next hnone =>
      obtain ⟨url, hurl, h⟩ := bind_ok.mp h
      obtain ⟨set, hset, h⟩ := bind_ok.mp h
      obtain ⟨b, hb, h⟩ := bind_ok.mp h
      cases h
      exact .jwt hmode hjwt (.fetched hnone (orReport_ok.mp hurl) (mapError_ok.mp hset)
        (mapError_ok.mp hb))
    · next secret hsome =>
      refine hconfig h fun cfg' _ hcfg' => ?_
      cases hjwt.symm.trans hcfg'
      simp [hsome]
  · next hother =>
    exact hconfig h fun cfg hmode hjwt => absurd hjwt (hother cfg hmode)

/-- What a gateway that has started is made of. -/
structure StartedFrom (y : Libraries) (host : Host) (x : Crates Cell) (s : Started) : Prop where
  loaded : Config.load y.toml host.readToString host.env (parseConfigPath host.args) =
    .ok s.config
  pipeline : ∃ a, Built y host x s.config.auth a ∧
    s.inner = .new s.config.toConfig a (.new s.config.upstream) .default
  listener : (s.tls = none ∧ s.config.tls.enabled = false) ∨ ∃ cfg, s.tls = some cfg ∧
    s.config.tls.enabled = true ∧ loadServerConfig y host s.config.tls = .ok cfg

lemma start_ok {s : Started} (h : start y host x = .ok s) : StartedFrom y host x s := by
  unfold start at h
  simp only at h
  obtain ⟨config, hconfig, h⟩ := bind_ok.mp h
  obtain ⟨-, -, h⟩ := bind_ok.mp h
  obtain ⟨-, -, h⟩ := bind_ok.mp h
  obtain ⟨a, ha, h⟩ := bind_ok.mp h
  obtain ⟨-, -, h⟩ := bind_ok.mp h
  have hload := mapError_ok.mp (context_ok.mp hconfig)
  have hbuilt := buildAuthenticator_ok ha
  split at h
  · next henabled =>
    obtain ⟨cfg, hcfg, h⟩ := bind_ok.mp h
    cases h
    exact ⟨hload, ⟨a, hbuilt, rfl⟩, .inr ⟨cfg, rfl, henabled, context_ok.mp hcfg⟩⟩
  · next hdisabled =>
    cases h
    exact ⟨hload, ⟨a, hbuilt, rfl⟩, .inl ⟨rfl, by simpa using hdisabled⟩⟩

/-! ### What it serves -/

/-- What the TLS library lets through a handshake: no certificate where none is asked for, and
else a chain that it has verified against the roots. -/
def Admits (verifies : List Bytes → List Bytes → Prop) (cfg : ServerConfig) :
    Option (List Bytes) → Prop
  | none => cfg.clientRoots = none
  | some chain => ∃ roots, cfg.clientRoots = some roots ∧ verifies roots chain

/-- The handshakes that succeed are those of the TLS library under the configuration. -/
def Shaken (verifies : List Bytes → List Bytes → Prop) (cfg : ServerConfig) :
    Process.Event → Prop
  | .handshake _ (.ok chain) => Admits verifies cfg chain
  | _ => True

/-- A request that comes without TLS has no certificate, and has passed the router. -/
def Plain : Service.Event → Prop
  | .arrive _ parts =>
    parts.clientCert = none ∧ buildRouter parts.method parts.pathAndQuery = none
  | _ => True

/-- A run of a gateway that has started: over TLS if its configuration says so, and else without. -/
inductive Serving (x : Crates Cell) (verifies : List Bytes → List Bytes → Prop) (s : Started)
  | tls (cfg : ServerConfig) (es : List (ℕ × Process.Event)) (htls : s.tls = some cfg)
      (hshaken : ∀ e ∈ es, Shaken verifies cfg e.2)
  | plain (es : List (ℕ × Service.Event)) (htls : s.tls = none) (hplain : ∀ e ∈ es, Plain e.2)

variable {verifies : List Bytes → List Bytes → Prop} {s : Started}

/-- The handlers at its end. -/
def Serving.world : Serving x verifies s → World Cell
  | .tls _ es _ _ => (run (Process.step x s.inner) (.start x s.config.ratelimit) es).world
  | .plain es _ _ => run (Service.step x s.inner) (World.start x s.config.ratelimit) es

/-- The request under this number came in at `t₀` with these parts, over a connection that had
presented this chain; then came the body of the call, which was handed to the HTTP client. -/
def Serving.Asked (w : Serving x verifies s) (id t₀ : ℕ) (parts : Parts)
    (chain : Option (List Bytes)) (call : Call) : Prop :=
  match w with
  | .tls _ es _ _ => ∃ r,
      (run (Process.step x s.inner) (.start x s.config.ratelimit) es).requests[id]? = some r ∧
      r.parts = parts ∧ Brought x.fromDer es id t₀ r chain call
  | .plain es _ _ => chain = none ∧ Led es id t₀ parts call [.handOver]

/-- The certificate of a request is that of the chain, which the listener has let through. -/
inductive Certified (x : Crates Cell) (verifies : List Bytes → List Bytes → Prop) (s : Started)
    (chain : Option (List Bytes)) (clientCert : Option ClientCert) : Prop
  | tls {cfg : ServerConfig} : s.tls = some cfg → Admits verifies cfg chain →
      clientCert = chain.bind (extractIdentity x.fromDer) → Certified x verifies s chain clientCert
  | plain : s.tls = none → clientCert = none → Certified x verifies s chain clientCert

/-- Whatever is handed over was asked for by a request of the run, which the listener has let
through, and which has passed every check. -/
lemma asked_of_wire (w : Serving x verifies s) {id : ℕ} {call : Call} {out : Outgoing}
    (hmem : (id, call, out) ∈ w.world.wire) : ∃ t₀ parts chain, w.Asked id t₀ parts chain call ∧
      Certified x verifies s chain parts.clientCert ∧
      Sent x s.inner t₀ parts (entries w.world.checks id) call out := by
  cases w with
  | tls cfg es htls hshaken =>
    obtain ⟨r, t₀, chain, hr, -, hbrought, hsent⟩ :=
      brought_of_wire x s.inner s.config.ratelimit es hmem
    obtain ⟨tcp, peer, t₁, t₂, t₃, -, -, hsub⟩ := hbrought.events
    have hhandshake : (t₂, Process.Event.handshake r.task (.ok chain)) ∈ es :=
      hsub.subset (by simp)
    exact ⟨t₀, r.parts, chain, ⟨r, hr, rfl, hbrought⟩,
      .tls htls (hshaken _ hhandshake) hbrought.identity, hsent⟩
  | plain es htls hplain =>
    obtain ⟨t₀, parts, hpassed, later, hlater, hsub⟩ :=
      (sent_once x s.inner s.config.ratelimit es id).2 call out (mem_entries.mpr hmem)
    have harrived := hplain _ (hsub.subset List.mem_cons_self)
    exact ⟨t₀, parts, none, ⟨rfl, later, hlater, hsub⟩, .plain htls harrived.1, hpassed.sent⟩

/-! ### A gateway that starts -/

/-- The least that a document may write, with this `[auth]` section. -/
def exampleDocument (auth : Members) (others : Members) : Toml :=
  .table ([("listen", .string "0.0.0.0:8400"), ("metrics", .string "0.0.0.0:7300"),
    ("upstream", .table [("agent_management", .string "http://127.0.0.1:18000")]),
    ("auth", .table auth)] ++ others)

def bearerText : String :=
  "listen = \"0.0.0.0:8400\"\nmetrics = \"0.0.0.0:7300\"\n" ++
  "[upstream]\nagent_management = \"http://127.0.0.1:18000\"\n" ++
  "[auth]\nmode = \"bearer\"\n" ++
  "[[auth.tokens]]\nname = \"operator\"\ntoken = \"env:IGA_TOKEN_OPERATOR\"\n" ++
  "scopes = [\"read\", \"write\"]\n"

def bearerDocument : Toml :=
  exampleDocument [("mode", .string "bearer"), ("tokens", .array [.table [
    ("name", .string "operator"), ("token", .string "env:IGA_TOKEN_OPERATOR"),
    ("scopes", .array [.string "read", .string "write"])]])] []

def mtlsText : String :=
  "listen = \"0.0.0.0:8400\"\nmetrics = \"0.0.0.0:7300\"\n" ++
  "[upstream]\nagent_management = \"http://127.0.0.1:18000\"\n" ++
  "[auth]\nmode = \"mtls\"\n" ++
  "[[auth.mtls]]\nsubject = \"operator\"\nname = \"operator\"\n" ++
  "scopes = [\"read\", \"write\"]\n" ++
  "[tls]\nenabled = true\ncert = \"cert.pem\"\nkey = \"key.pem\"\n" ++
  "require_client_cert = true\nclient_ca = \"client-ca.pem\"\n"

def mtlsDocument : Toml :=
  exampleDocument [("mode", .string "mtls"), ("mtls", .array [.table [
    ("subject", .string "operator"), ("name", .string "operator"),
    ("scopes", .array [.string "read", .string "write"])]])]
    [("tls", .table [("enabled", .boolean true), ("cert", .string "cert.pem"),
      ("key", .string "key.pem"), ("require_client_cert", .boolean true),
      ("client_ca", .string "client-ca.pem")])]

def pem (label content : String) : Bytes :=
  ascii ("-----BEGIN " ++ label ++ "-----\n" ++ content ++ "\n-----END " ++ label ++ "-----\n")

/-- A process with this configuration file, and with the files that it names. -/
def exampleHost (text : String) : Host where
  args := ["indexer-gateway-auth", "--config", "gateway.toml"]
  env name := if name = "IGA_TOKEN_OPERATOR" then some "write-token" else none
  readToString path :=
    if path = "gateway.toml" then .ok text else .error "No such file or directory (os error 2)"
  read path :=
    if path = "cert.pem" then .ok (pem "CERTIFICATE" "Z2F0ZXdheQ==")
    else if path = "key.pem" then .ok (pem "PRIVATE KEY" "c2VjcmV0")
    else if path = "client-ca.pem" then .ok (pem "CERTIFICATE" "YXV0aG9yaXR5")
    else .error "No such file or directory (os error 2)"
  recorder := .ok ()
  httpClient := .ok ()
  get _ := .error "connection refused"
  bind _ := .ok ()

/-- Libraries that read these documents and these files. -/
def exampleLibraries : Libraries where
  toml :=
    { parse := fun text =>
        if text = bearerText then .ok bearerDocument
        else if text = mtlsText then .ok mtlsDocument
        else .error "TOML parse error"
      fault := fun _ => "TOML parse error"
      socketAddr := fun s =>
        if s = "0.0.0.0:8400" then some (.v4 "0.0.0.0" 8400)
        else if s = "0.0.0.0:7300" then some (.v4 "0.0.0.0" 7300)
        else none }
  jwkSet _ := .error "expected value at line 1 column 1"
  pemCerts data :=
    if data = pem "CERTIFICATE" "Z2F0ZXdheQ==" then .ok [ascii "gateway"]
    else if data = pem "CERTIFICATE" "YXV0aG9yaXR5" then .ok [ascii "authority"]
    else .ok []
  pemKey data := .ok (if data = pem "PRIVATE KEY" "c2VjcmV0" then some (ascii "secret") else none)
  protocolVersions := .ok ()
  addRoot _ := .ok ()
  clientVerifier _ := .ok ()
  singleCert _ _ := .ok ()

/-- A mutation with the token of the environment, without TLS. -/
def tokenRun : List (ℕ × Service.Event) :=
  [(0, .arrive 0 (exampleParts .post "/" "write-token")),
    (1, .signal 0 (.body (.ok (ascii (requestText setRule))))), (2, .signal 0 .handOver)]

/-- One chain is verified, against one root. -/
def exampleVerifies (roots chain : List Bytes) : Prop :=
  roots = [ascii "authority"] ∧ chain = [ascii "operator"]

/-- The gateway of the bearer document has a run in which a request is handed over. -/
lemma bearer_serves : ∃ s, start exampleLibraries (exampleHost bearerText) exampleCrates = .ok s ∧
    ∃ (w : Serving exampleCrates exampleVerifies s) (call : Call) (out : Outgoing),
      (0, call, out) ∈ w.world.wire ∧ ∀ t₀ parts chain, w.Asked 0 t₀ parts chain call →
        t₀ = 0 ∧ parts = exampleParts .post "/" "write-token" := by
  have hsent : ((start exampleLibraries (exampleHost bearerText) exampleCrates).toOption.map
      fun s => (s.tls.isNone, (run (Service.step exampleCrates s.inner)
        (World.start exampleCrates s.config.ratelimit) tokenRun).wire.map Prod.fst)) =
      some (true, [0]) := by decide +kernel
  rcases hs : start exampleLibraries (exampleHost bearerText) exampleCrates with e | s
  · rw [hs] at hsent
    cases hsent
  · rw [hs] at hsent
    obtain ⟨htls, hwire⟩ := Prod.mk.inj (Option.some.inj hsent)
    obtain ⟨⟨id, call, out⟩, hmem, hid⟩ := List.mem_map.mp (hwire ▸ List.mem_singleton_self 0)
    obtain rfl : id = 0 := hid
    have hrouter : buildRouter .post "/" = none := by decide
    have hplain : ∀ e ∈ tokenRun, Plain e.2 := by
      simp [tokenRun, Plain, exampleParts, hrouter]
    refine ⟨s, rfl, .plain tokenRun (Option.isNone_iff_eq_none.mp htls) hplain, call, out, hmem, ?_⟩
    rintro t₀ parts chain ⟨-, later, -, hsub⟩
    have harrived : (t₀, Service.Event.arrive 0 parts) ∈ tokenRun :=
      hsub.subset List.mem_cons_self
    simpa [tokenRun] using harrived

/-- The gateway of the mTLS document has a run in which a request is handed over. -/
lemma mtls_serves : ∃ s, start exampleLibraries (exampleHost mtlsText) mtlsCrates = .ok s ∧
    ∃ (w : Serving mtlsCrates exampleVerifies s) (call : Call) (out : Outgoing),
      (0, call, out) ∈ w.world.wire ∧ ∀ t₀ parts chain, w.Asked 0 t₀ parts (some chain) call →
        t₀ = 2 ∧ chain = [ascii "operator"] := by
  have hsent : ((start exampleLibraries (exampleHost mtlsText) mtlsCrates).toOption.map
      fun s => (s.tls.map ServerConfig.clientRoots, (run (Process.step mtlsCrates s.inner)
        (.start mtlsCrates s.config.ratelimit) certifiedRun).world.wire.map Prod.fst)) =
      some (some (some [ascii "authority"]), [0]) := by decide +kernel
  rcases hs : start exampleLibraries (exampleHost mtlsText) mtlsCrates with e | s
  · rw [hs] at hsent
    cases hsent
  · rw [hs] at hsent
    obtain ⟨htls, hwire⟩ := Prod.mk.inj (Option.some.inj hsent)
    obtain ⟨cfg, hcfg, hroots⟩ := Option.map_eq_some_iff.mp htls
    obtain ⟨⟨id, call, out⟩, hmem, hid⟩ := List.mem_map.mp (hwire ▸ List.mem_singleton_self 0)
    obtain rfl : id = 0 := hid
    have hshaken : ∀ e ∈ certifiedRun, Shaken exampleVerifies cfg e.2 := by
      simp [certifiedRun, Shaken, Admits, hroots, exampleVerifies]
    refine ⟨s, rfl, .tls cfg certifiedRun hcfg hshaken, call, out, hmem, ?_⟩
    rintro t₀ parts chain ⟨r, -, -, hbrought⟩
    refine ⟨?_, chain_of_certifiedRun hbrought⟩
    obtain ⟨tcp, peer, t₁, t₂, t₃, -, -, hsub⟩ := hbrought.events
    have hread : (t₀, Process.Event.request r.task r.version r.parts.method r.parts.pathAndQuery
        r.parts.headers) ∈ certifiedRun := hsub.subset (by simp)
    have hevent : t₀ = 2 ∧ r.task = 0 ∧ r.version = .http1 ∧ r.parts.method = .post ∧
        r.parts.pathAndQuery = "/" ∧ r.parts.headers = [] := by
      simpa [certifiedRun] using hread
    exact hevent.1

/-! ### Who vouches for what is sent -/

/-- The credential of a request makes it this principal's, by what the document has written for
the mode that it sets. -/
inductive Vouched (y : Libraries) (host : Host) (x : Crates Cell) (doc : Toml) (t₀ : ℕ)
    (parts : Parts) : AuthMode → Principal → Prop
  | token {t : String} {item : Toml} {e : TokenEntry} :
      extractBearer parts.headers = some t →
      item ∈ (doc.part "auth").items authFields "tokens" →
      WritesToken (Resolves host.env) item e → e.token = t →
      Vouched y host x doc t₀ parts .bearer (.new e.name e.scopes)
  | jwt {t : String} {v : Toml} {cfg : JwtConfig} {b : JwtBackend} {p : Principal} :
      extractBearer parts.headers = some t →
      (doc.part "auth").field authFields "jwt" = some v → WritesJwt (Resolves host.env) v cfg →
      Keyed y host x cfg b → b.verify x.jwt (t₀ / 1000000000) t = .ok p →
      Vouched y host x doc t₀ parts .jwt p
  | certificate {cert : ClientCert} {item : Toml} {m : MtlsMapping} :
      parts.clientCert = some cert → item ∈ (doc.part "auth").items authFields "mtls" →
      WritesMapping item m → Carries cert m.subject →
      Vouched y host x doc t₀ parts .mtls (.new m.name m.scopes)
  | anonymous {mode : AuthMode} : Absent mode ⟨extractBearer parts.headers, parts.clientCert⟩ →
      (doc.part "auth").field authFields "allow_anonymous_read" = some (.boolean true) →
      Vouched y host x doc t₀ parts mode .anonymous

lemma authenticate_of_sent {g : Inner} {t₀ : ℕ} {parts : Parts} {checks : List Check} {call : Call}
    {out : Outgoing} (h : Sent x g t₀ parts checks call out) :
    g.authenticator.authenticate x.jwt (t₀ / 1000000000)
      ⟨extractBearer parts.headers, parts.clientCert⟩ g.allowAnonymousRead =
      .ok call.principal := by
  have hhead := h.authenticated
  unfold handleHead at hhead
  split at hhead
  · next hauth => rw [hauth, Except.ok.inj hhead]
  · cases hhead

lemma jwt_ok {b : JwtBackend} {j : Jsonwebtoken} {now : ℕ} {creds : Credentials}
    {allowAnonymousRead : Bool} {p : Principal} :
    (Authenticator.jwt b).authenticate j now creds allowAnonymousRead = .ok p ↔
      (∃ t, creds.bearer = some t ∧ b.verify j now t = .ok p) ∨
        (creds.bearer = none ∧ allowAnonymousRead = true ∧ p = .anonymous) := by
  rw [authenticate_ok]
  unfold Authenticator.backend
  rcases creds.bearer with _ | t
  · simp
  · simp [verify_not_missing]

lemma vouched_of_authenticate {doc : Toml} {config : ConfigFile.Config} {a : Authenticator}
    (hwrites : Writes (Resolves host.env) doc config) (hbuilt : Built y host x config.auth a)
    {t₀ : ℕ} {parts : Parts} {p : Principal}
    (h : a.authenticate x.jwt (t₀ / 1000000000) ⟨extractBearer parts.headers, parts.clientCert⟩
      config.auth.allowAnonymousRead = .ok p) :
    Vouched y host x doc t₀ parts config.auth.mode p := by
  have hauth := hwrites.auth
  cases hbuilt with
  | bearer hmode =>
    rw [hmode]
    rcases bearer_ok.mp h with ⟨t, ht, before, e, after, htokens, heq, -, rfl⟩ | ⟨hnone, hopen, rfl⟩
    · have he : e ∈ config.auth.tokens := by
        have hsplit : config.auth.tokens = before ++ e :: after := htokens
        simp [hsplit]
      obtain ⟨item, hitem, hwritten⟩ := exists_mem_of_forall₂ hauth.tokens.flip he
      exact .token ht hitem hwritten heq
    · exact .anonymous hnone (hauth.anonymous hopen)
  | mtls hmode =>
    rw [hmode]
    rcases mtls_ok.mp h with ⟨cert, hcert, before, m, after, hmappings, hcarries, -, rfl⟩ |
      ⟨hnone, hopen, rfl⟩
    · have hm : m ∈ config.auth.mtls := by
        have hsplit : config.auth.mtls = before ++ m :: after := hmappings
        simp [hsplit]
      obtain ⟨item, hitem, hwritten⟩ := exists_mem_of_forall₂ hauth.mtls.flip hm
      exact .certificate hcert hitem hwritten hcarries
    · exact .anonymous hnone (hauth.anonymous hopen)
  | jwt hmode hjwt hkeyed =>
    rw [hmode]
    rcases jwt_ok.mp h with ⟨t, ht, hverify⟩ | ⟨hnone, hopen, rfl⟩
    · obtain ⟨v, hv, hwritten⟩ := hauth.jwt _ hjwt
      exact .jwt ht hv hwritten hkeyed hverify
    · exact .anonymous hnone (hauth.anonymous hopen)

/-- The document is the one in the file that the arguments name. -/
def Reads (y : Libraries) (host : Host) (doc : Toml) : Prop :=
  ∃ text, host.readToString (parseConfigPath host.args) = .ok text ∧ y.toml.parse text = .ok doc

lemma StartedFrom.document (h : StartedFrom y host x s) :
    ∃ doc, Reads y host doc ∧ Writes (Resolves host.env) doc s.config := by
  obtain ⟨text, doc, htext, hdoc, hwrites⟩ := load_ok y.toml h.loaded
  exact ⟨doc, ⟨text, htext, hdoc⟩, hwrites⟩

/-- What has passed every check of a gateway that has started is vouched for. -/
lemma StartedFrom.vouched (h : StartedFrom y host x s) {doc : Toml}
    (hwrites : Writes (Resolves host.env) doc s.config) {t₀ : ℕ} {parts : Parts}
    {checks : List Check} {call : Call} {out : Outgoing}
    (hsent : Sent x s.inner t₀ parts checks call out) :
    Vouched y host x doc t₀ parts s.config.auth.mode call.principal := by
  obtain ⟨a, hbuilt, hinner⟩ := h.pipeline
  have hauthenticate := authenticate_of_sent hsent
  rw [hinner] at hauthenticate
  exact vouched_of_authenticate hwrites hbuilt hauthenticate

/-- **Whatever is sent is vouched for by the document.** In every run of a gateway that has
started, each call that is handed to the HTTP client was asked for by a request of the run, which
has passed every check, and the credential of which is written in the document that was loaded,
with the principal that it is sent for; a request without a credential only where the document lets
it in. -/
theorem sent_is_vouched (y : Libraries) (host : Host) (x : Crates Cell) {s : Started}
    (hstart : start y host x = .ok s) (verifies : List Bytes → List Bytes → Prop) :
    ∃ doc, Reads y host doc ∧
      ((doc.part "auth").field authFields "mode").bind authModeFromToml =
        some s.config.auth.mode ∧
      ∀ w : Serving x verifies s, ∀ id call out, (id, call, out) ∈ w.world.wire →
        ∃ t₀ parts chain, w.Asked id t₀ parts chain call ∧
          Sent x s.inner t₀ parts (entries w.world.checks id) call out ∧
          Vouched y host x doc t₀ parts s.config.auth.mode call.principal := by
  have hstarted := start_ok hstart
  obtain ⟨doc, hdoc, hwrites⟩ := hstarted.document
  refine ⟨doc, hdoc, hwrites.auth.mode, fun w id call out hmem => ?_⟩
  obtain ⟨t₀, parts, chain, hasked, -, hsent⟩ := asked_of_wire w hmem
  exact ⟨t₀, parts, chain, hasked, hsent, hstarted.vouched hwrites hsent⟩

lemma eq_of_reads_bearer {doc : Toml}
    (h : Reads exampleLibraries (exampleHost bearerText) doc) : doc = bearerDocument := by
  obtain ⟨text, htext, hdoc⟩ := h
  obtain rfl : text = bearerText := (Except.ok.inj htext).symm
  have hparsed : exampleLibraries.toml.parse bearerText = .ok bearerDocument := by
    simp [exampleLibraries]
  exact (Except.ok.inj (hparsed.symm.trans hdoc)).symm

lemma eq_of_reads_mtls {doc : Toml}
    (h : Reads exampleLibraries (exampleHost mtlsText) doc) : doc = mtlsDocument := by
  obtain ⟨text, htext, hdoc⟩ := h
  obtain rfl : text = mtlsText := (Except.ok.inj htext).symm
  have hne : mtlsText ≠ bearerText := by decide +kernel
  have hparsed : exampleLibraries.toml.parse mtlsText = .ok mtlsDocument := by
    simp [exampleLibraries, hne]
  exact (Except.ok.inj (hparsed.symm.trans hdoc)).symm

theorem sent_is_vouched_operator : ∃ p,
    Vouched exampleLibraries (exampleHost bearerText) exampleCrates bearerDocument 0
      (exampleParts .post "/" "write-token") .bearer p := by
  obtain ⟨s, hs, w, call, out, hmem, hasked⟩ := bearer_serves
  obtain ⟨doc, hdoc, hmode, hall⟩ :=
    sent_is_vouched exampleLibraries (exampleHost bearerText) exampleCrates hs exampleVerifies
  obtain rfl := eq_of_reads_bearer hdoc
  obtain ⟨t₀, parts, chain, hrequest, -, hvouched⟩ := hall w 0 call out hmem
  obtain ⟨rfl, rfl⟩ := hasked t₀ parts chain hrequest
  have hbearer : s.config.auth.mode = .bearer := (Option.some.inj hmode).symm
  exact ⟨_, hbearer ▸ hvouched⟩

/-! ### Behind client certificates -/

/-- The document has the listener ask for client certificates, and trust those of this file. -/
structure AsksFor (doc : Toml) (ca : String) : Prop where
  enabled : (doc.part "tls").field tlsFields "enabled" = some (.boolean true)
  required : (doc.part "tls").field tlsFields "require_client_cert" = some (.boolean true)
  clientCa : (doc.part "tls").field tlsFields "client_ca" = some (.string ca)

/-- A certificate comes with a chain that was verified against the file of the document. -/
lemma verified_of_certified {doc : Toml} (hstarted : StartedFrom y host x s)
    (hwrites : Writes (Resolves host.env) doc s.config) {presented : Option (List Bytes)}
    {cert : ClientCert} (h : Certified x verifies s presented (some cert)) :
    ∃ ca roots chain, presented = some chain ∧ AsksFor doc ca ∧ loadCerts y host ca = .ok roots ∧
      verifies roots chain ∧ extractIdentity x.fromDer chain = some cert := by
  cases h with
  | plain htls hnone => cases hnone
  | @tls cfg htls hadmits hidentity =>
    obtain ⟨chain, rfl, hextract⟩ := Option.bind_eq_some_iff.mp hidentity.symm
    obtain ⟨roots, hroots, hverifies⟩ := hadmits
    rcases hstarted.listener with ⟨hnone, -⟩ | ⟨cfg', hsome, henabled, hload⟩
    · cases hnone.symm.trans htls
    cases htls.symm.trans hsome
    rcases loadServerConfig_ok hload with ⟨-, hnone⟩ | ⟨hrequired, ca, roots', hca, hcerts, heq⟩
    · cases hnone.symm.trans hroots
    cases hroots.symm.trans heq
    have hwritten := hwrites.tls.clientCa
    rw [hca] at hwritten
    exact ⟨ca, roots, chain, rfl, ⟨hwrites.tls.enabled henabled,
      hwrites.tls.requireClientCert hrequired, hwritten⟩, hcerts, hverifies, hextract⟩

/-- **With certificates for credentials nothing goes out without a verified one.** If the document
sets the mode of client certificates and lets nobody in without a credential, then in every run of
the gateway that it starts, each call that is handed to the HTTP client was asked for by a request
of the run that came over TLS: its connection has presented a chain that was verified against the
certificates of the file the document names, and its principal is that of a mapping in the document
whose subject the leaf of the chain carries. Without TLS, or where no client certificate is
required, nothing goes out at all. -/
theorem sent_is_certified (y : Libraries) (host : Host) (x : Crates Cell) {s : Started}
    (hstart : start y host x = .ok s) (verifies : List Bytes → List Bytes → Prop) :
    ∃ doc, Reads y host doc ∧
      ((doc.part "auth").field authFields "mode" = some (.string "mtls") →
        (doc.part "auth").field authFields "allow_anonymous_read" ≠ some (.boolean true) →
        ∀ w : Serving x verifies s, ∀ id call out, (id, call, out) ∈ w.world.wire →
          ∃ t₀ parts chain, w.Asked id t₀ parts (some chain) call ∧
            Sent x s.inner t₀ parts (entries w.world.checks id) call out ∧
            ∃ ca roots cert item m, AsksFor doc ca ∧ loadCerts y host ca = .ok roots ∧
              verifies roots chain ∧ extractIdentity x.fromDer chain = some cert ∧
              parts.clientCert = some cert ∧
              item ∈ (doc.part "auth").items authFields "mtls" ∧ WritesMapping item m ∧
              Carries cert m.subject ∧ call.principal = .new m.name m.scopes) := by
  have hstarted := start_ok hstart
  obtain ⟨doc, hdoc, hwrites⟩ := hstarted.document
  refine ⟨doc, hdoc, fun hmode hclosed w id call out hmem => ?_⟩
  obtain ⟨t₀, parts, presented, hasked, hcertified, hsent⟩ := asked_of_wire w hmem
  have hvouched := hstarted.vouched hwrites hsent
  have hmtls : s.config.auth.mode = .mtls := by
    have hwritten := hwrites.auth.mode
    rw [hmode] at hwritten
    exact (Option.some.inj hwritten).symm
  rw [hmtls] at hvouched
  generalize hp : call.principal = p at hvouched
  cases hvouched with
  | @certificate cert item m hcert hitem hmapping hcarries =>
    rw [hcert] at hcertified
    obtain ⟨ca, roots, chain, rfl, hasks, hcerts, hverifies, hextract⟩ :=
      verified_of_certified hstarted hwrites hcertified
    exact ⟨t₀, parts, chain, hasked, hsent, ca, roots, cert, item, m, hasks, hcerts, hverifies,
      hextract, hcert, hitem, hmapping, hcarries, rfl⟩
  | anonymous _ hopen => exact absurd hopen hclosed

theorem sent_is_certified_operator : ∃ (s : Started)
    (w : Serving mtlsCrates exampleVerifies s) (t₀ : ℕ) (parts : Parts) (call : Call)
    (cert : ClientCert),
    start exampleLibraries (exampleHost mtlsText) mtlsCrates = .ok s ∧
    w.Asked 0 t₀ parts (some [ascii "operator"]) call ∧
    exampleVerifies [ascii "authority"] [ascii "operator"] ∧ parts.clientCert = some cert ∧
    extractIdentity mtlsCrates.fromDer [ascii "operator"] = some cert := by
  obtain ⟨s, hs, w, call, out, hmem, hasked⟩ := mtls_serves
  obtain ⟨doc, hdoc, hall⟩ :=
    sent_is_certified exampleLibraries (exampleHost mtlsText) mtlsCrates hs exampleVerifies
  obtain rfl := eq_of_reads_mtls hdoc
  have hclosed : (mtlsDocument.part "auth").field authFields "allow_anonymous_read" = none := rfl
  obtain ⟨t₀, parts, chain, hrequest, -, ca, roots, cert, item, m, -, -, hverifies, hextract,
    hcert, -⟩ := hall rfl (by simp [hclosed]) w 0 call out hmem
  obtain ⟨-, rfl⟩ := hasked t₀ parts chain hrequest
  obtain rfl : roots = [ascii "authority"] := hverifies.1
  exact ⟨s, w, t₀, parts, call, cert, hs, hrequest, hverifies, hcert, hextract⟩

/-! ### What is not written -/

/-- A vouched request that has no credential is one that the document lets in. -/
lemma open_of_absent {doc : Toml} {t₀ : ℕ} {parts : Parts} {mode : AuthMode} {p : Principal}
    (h : Vouched y host x doc t₀ parts mode p)
    (habsent : Absent mode ⟨extractBearer parts.headers, parts.clientCert⟩) :
    (doc.part "auth").field authFields "allow_anonymous_read" = some (.boolean true) := by
  cases h with
  | token ht => cases habsent.symm.trans ht
  | jwt ht => cases habsent.symm.trans ht
  | certificate hcert => cases habsent.symm.trans hcert
  | anonymous _ hopen => exact hopen

/-- **What the document does not open stays closed.** In every run of a gateway that has started,
each call that is handed to the HTTP client was asked for by a request of the run: unless the
document writes that anonymous reads are allowed, that request has the credential of the mode; and
unless it writes that bodies which cannot be parsed may pass, each call that is neither a `GET` nor
for the admin API has a body that was parsed, and was authorized for what the body says. -/
theorem unwritten_stays_closed (y : Libraries) (host : Host) (x : Crates Cell) {s : Started}
    (hstart : start y host x = .ok s) (verifies : List Bytes → List Bytes → Prop) :
    ∃ doc, Reads y host doc ∧
      ∀ w : Serving x verifies s, ∀ id call out, (id, call, out) ∈ w.world.wire →
        ∃ t₀ parts chain, w.Asked id t₀ parts chain call ∧
          Sent x s.inner t₀ parts (entries w.world.checks id) call out ∧
          ((doc.part "auth").field authFields "allow_anonymous_read" ≠ some (.boolean true) →
            ¬Absent s.config.auth.mode ⟨extractBearer parts.headers, parts.clientCert⟩) ∧
          ((doc.part "policy").field policyFields "fail_closed_on_parse_error" ≠
              some (.boolean false) →
            out.method ≠ .get → out.target ≠ .graphNodeAdmin →
            ∃ c, classify x.readers out.body = .ok c ∧
              Authorized call.principal c s.config.policy) := by
  have hstarted := start_ok hstart
  obtain ⟨a, -, hinner⟩ := hstarted.pipeline
  obtain ⟨doc, hdoc, hwrites⟩ := hstarted.document
  refine ⟨doc, hdoc, fun w id call out hmem => ?_⟩
  obtain ⟨t₀, parts, chain, hasked, -, hsent⟩ := asked_of_wire w hmem
  have hvouched := hstarted.vouched hwrites hsent
  refine ⟨t₀, parts, chain, hasked, hsent,
    fun hclosed habsent => hclosed (open_of_absent hvouched habsent),
    fun hclosed hmethod htarget => ?_⟩
  have hfail : s.inner.failClosedOnParseError = true := by
    rw [hinner]
    by_contra hopen
    exact hclosed (hwrites.failClosed (Bool.eq_false_iff.mpr hopen))
  have hclassified := hsent.classified
  rw [hfail] at hclassified
  rw [hsent.method] at hmethod
  rw [hsent.target] at htarget
  have hauthorized := hsent.authorized
  rw [hinner] at hauthorized
  exact ⟨_, hsent.body ▸ classifyRequest_failClosed hmethod htarget hclassified, hauthorized⟩

theorem unwritten_stays_closed_operator : ∃ s,
    start exampleLibraries (exampleHost bearerText) exampleCrates = .ok s ∧
    ¬Absent s.config.auth.mode
      ⟨extractBearer (exampleParts .post "/" "write-token").headers, none⟩ ∧
    ∃ (out : Outgoing) (c : Classification), out.method = .post ∧
      classify exampleCrates.readers out.body = .ok c := by
  obtain ⟨s, hs, w, call, out, hmem, hasked⟩ := bearer_serves
  obtain ⟨doc, hdoc, hall⟩ := unwritten_stays_closed exampleLibraries (exampleHost bearerText)
    exampleCrates hs exampleVerifies
  obtain rfl := eq_of_reads_bearer hdoc
  have hopen : (bearerDocument.part "auth").field authFields "allow_anonymous_read" = none := rfl
  have hclosed : (bearerDocument.part "policy").field policyFields "fail_closed_on_parse_error" =
      none := rfl
  obtain ⟨t₀, parts, chain, hrequest, hsent, hpresent, hparsed⟩ := hall w 0 call out hmem
  obtain ⟨rfl, rfl⟩ := hasked t₀ parts chain hrequest
  have hmethod : out.method = .post := hsent.method
  have htarget : out.target = .agentManagement := hsent.target
  obtain ⟨c, hc, -⟩ := hparsed (by simp [hclosed]) (by simp [hmethod]) (by simp [htarget])
  exact ⟨s, hs, hpresent (by simp [hopen]), out, c, hmethod, hc⟩

end GatewayAuth.Startup
