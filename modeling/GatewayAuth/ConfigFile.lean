import GatewayAuth.Loading
import GatewayAuth.Process

/-!
The configuration document: which values its sections may hold, what is read from them, and what
stands for what is not written.

The TOML reader gives a tree of values. A section is a record with known fields: a field that is
not among them is refused, and so is one that is written twice.
-/

namespace GatewayAuth.ConfigFile

open GatewayAuth.JsonBody GatewayAuth.Forwarding GatewayAuth.Authz GatewayAuth.Jwt GatewayAuth.Auth
open GatewayAuth.Server GatewayAuth.Loading GatewayAuth.Process

/-! ### Values -/

inductive Toml
  | string (s : String)
  | integer (n : ℤ)
  | float (text : String)
  | boolean (b : Bool)
  | datetime (text : String)
  | array (items : List Toml)
  | table (members : List (String × Toml))

abbrev Members := List (String × Toml)

def Toml.asString : Toml → Option String
  | .string s => some s
  | _ => none

def Toml.asBoolean : Toml → Option Bool
  | .boolean b => some b
  | _ => none

def Toml.asU32 : Toml → Option ℕ
  | .integer n => if 0 ≤ n ∧ n < 2 ^ 32 then some n.toNat else none
  | _ => none

def Toml.asList {α : Type} (read : Toml → Option α) : Toml → Option (List α)
  | .array items => items.mapM read
  | _ => none

/-- The name of a variant without data: a string, or a table with this one name and nothing in
it. -/
def Toml.asVariant : Toml → Option String
  | .string name => some name
  | .table [(name, .table [])] | .table [(name, .array [])] => some name
  | _ => none

/-- The members of a record with these fields. A list gives them in order, and a date is a table
of its own with a field of no record. -/
def Toml.record (fields : List String) : Toml → Option Members
  | .table ms =>
    if (ms.map Prod.fst).Nodup ∧ ∀ m ∈ ms, m.1 ∈ fields then some ms else none
  | .array items => some (fields.zip items)
  | _ => none

variable {α : Type}

def Members.required (ms : Members) (field : String) (read : Toml → Option α) : Option α :=
  (List.lookup field ms).bind read

/-- A field that has a default when it is not written. -/
def Members.orDefault (ms : Members) (field : String) (read : Toml → Option α) (default : α) :
    Option α :=
  match List.lookup field ms with
  | none => some default
  | some v => read v

def Members.optional (ms : Members) (field : String) (read : Toml → Option α) :
    Option (Option α) :=
  Members.orDefault ms field (fun v => (read v).map some) none

/-- What a record with these fields has written for one of them. -/
def Toml.field (fields : List String) (field : String) (v : Toml) : Option Toml :=
  (v.record fields).bind (List.lookup field)

section

variable {v : Toml} {fields : List String} {ms : Members} {field : String}
  {read : Toml → Option α} {a default : α}

lemma field_of_record (hms : v.record fields = some ms) :
    v.field fields field = List.lookup field ms := by
  unfold Toml.field
  rw [hms]
  rfl

lemma required_eq_some (hms : v.record fields = some ms) :
    Members.required ms field read = some a ↔ (v.field fields field).bind read = some a := by
  rw [field_of_record hms]
  rfl

lemma orDefault_eq_some (hms : v.record fields = some ms) :
    Members.orDefault ms field read default = some a ↔
      (v.field fields field = none ∧ a = default) ∨ (v.field fields field).bind read = some a := by
  rw [field_of_record hms]
  unfold Members.orDefault
  rcases List.lookup field ms with _ | value
  · simp [eq_comm]
  · simp

lemma optional_eq_some {o : Option α} (hms : v.record fields = some ms) :
    Members.optional ms field read = some o ↔
      (v.field fields field = none ∧ o = none) ∨
        ∃ a, (v.field fields field).bind read = some a ∧ o = some a := by
  unfold Members.optional
  rw [orDefault_eq_some hms]
  rcases v.field fields field with _ | value
  · simp
  · simp [eq_comm]

end

/-! ### Sections -/

/-- The `[tls]` section. -/
structure Tls where
  enabled : Bool
  cert : Option String
  key : Option String
  requireClientCert : Bool
  clientCa : Option String

def Tls.default : Tls := ⟨false, none, none, false, none⟩

/-- Top-level configuration document: what the pipeline reads, the addresses and `[tls]`. -/
structure Config extends Server.Config where
  listen : SocketAddr
  metrics : SocketAddr
  tls : Tls

def upstreamFields : List String := ["agent_management", "graph_node_admin", "graph_node_status"]

def upstreamFromToml (v : Toml) : Option Upstream := do
  let ms ← v.record upstreamFields
  let agentManagement ← Members.required ms "agent_management" Toml.asString
  let graphNodeAdmin ← Members.optional ms "graph_node_admin" Toml.asString
  let graphNodeStatus ← Members.optional ms "graph_node_status" Toml.asString
  return ⟨agentManagement, graphNodeAdmin, graphNodeStatus⟩

def tlsFields : List String := ["enabled", "cert", "key", "require_client_cert", "client_ca"]

def tlsFromToml (v : Toml) : Option Tls := do
  let ms ← v.record tlsFields
  let enabled ← Members.orDefault ms "enabled" Toml.asBoolean false
  let cert ← Members.optional ms "cert" Toml.asString
  let key ← Members.optional ms "key" Toml.asString
  let requireClientCert ← Members.orDefault ms "require_client_cert" Toml.asBoolean false
  let clientCa ← Members.optional ms "client_ca" Toml.asString
  return ⟨enabled, cert, key, requireClientCert, clientCa⟩

def authModeFromToml (v : Toml) : Option AuthMode :=
  match v.asVariant with
  | some "bearer" => some .bearer
  | some "jwt" => some .jwt
  | some "mtls" => some .mtls
  | _ => none

def mtlsMappingFields : List String := ["subject", "name", "scopes"]

def mtlsMappingFromToml (v : Toml) : Option MtlsMapping := do
  let ms ← v.record mtlsMappingFields
  let subject ← Members.required ms "subject" Toml.asString
  let name ← Members.required ms "name" Toml.asString
  let scopes ← Members.required ms "scopes" (Toml.asList Toml.asString)
  return ⟨subject, name, scopes⟩

def tokenEntryFields : List String := ["name", "token", "scopes"]

def tokenEntryFromToml (v : Toml) : Option TokenEntry := do
  let ms ← v.record tokenEntryFields
  let name ← Members.required ms "name" Toml.asString
  let token ← Members.required ms "token" Toml.asString
  let scopes ← Members.required ms "scopes" (Toml.asList Toml.asString)
  return ⟨name, token, scopes⟩

def defaultScopesClaim : String := "scopes"

def jwtConfigFields : List String :=
  ["issuer", "audience", "jwks_url", "hs256_secret", "scopes_claim"]

def jwtConfigFromToml (v : Toml) : Option JwtConfig := do
  let ms ← v.record jwtConfigFields
  let issuer ← Members.required ms "issuer" Toml.asString
  let audience ← Members.required ms "audience" Toml.asString
  let jwksUrl ← Members.optional ms "jwks_url" Toml.asString
  let hs256Secret ← Members.optional ms "hs256_secret" Toml.asString
  let scopesClaim ← Members.orDefault ms "scopes_claim" Toml.asString defaultScopesClaim
  return ⟨issuer, audience, jwksUrl, hs256Secret, scopesClaim⟩

def authFields : List String := ["mode", "allow_anonymous_read", "tokens", "jwt", "mtls"]

def authFromToml (v : Toml) : Option AuthConfig := do
  let ms ← v.record authFields
  let mode ← Members.required ms "mode" authModeFromToml
  let allowAnonymousRead ← Members.orDefault ms "allow_anonymous_read" Toml.asBoolean false
  let tokens ← Members.orDefault ms "tokens" (Toml.asList tokenEntryFromToml) []
  let jwt ← Members.optional ms "jwt" jwtConfigFromToml
  let mtls ← Members.orDefault ms "mtls" (Toml.asList mtlsMappingFromToml) []
  return ⟨mode, allowAnonymousRead, tokens, jwt, mtls⟩

def overrideFields : List String := ["field", "operation", "require_scopes"]

def overrideFromToml (v : Toml) : Option Override := do
  let ms ← v.record overrideFields
  let field ← Members.optional ms "field" Toml.asString
  let operation ← Members.optional ms "operation" Toml.asString
  let requireScopes ← Members.required ms "require_scopes" (Toml.asList Toml.asString)
  return ⟨field, operation, requireScopes⟩

def policyFields : List String := ["fail_closed_on_parse_error", "override"]

def policyFromToml (v : Toml) : Option Policy := do
  let ms ← v.record policyFields
  let failClosed ← Members.orDefault ms "fail_closed_on_parse_error" Toml.asBoolean true
  let overrides ← Members.orDefault ms "override" (Toml.asList overrideFromToml) []
  return ⟨failClosed, overrides⟩

def rateLimitFields : List String := ["write_per_minute", "read_per_minute"]

def rateLimitFromToml (v : Toml) : Option RateLimit := do
  let ms ← v.record rateLimitFields
  let writePerMinute ← Members.orDefault ms "write_per_minute" Toml.asU32
    RateLimit.default.writePerMinute
  let readPerMinute ← Members.orDefault ms "read_per_minute" Toml.asU32
    RateLimit.default.readPerMinute
  return ⟨writePerMinute, readPerMinute⟩

def configFields : List String :=
  ["listen", "metrics", "upstream", "tls", "auth", "policy", "ratelimit"]

/-- The crates that read a document: the parser with its error, the message of a fault in the
values, and the reader of addresses. -/
structure TomlCrate where
  parse : String → Except String Toml
  fault : String → String
  socketAddr : String → Option SocketAddr

variable (c : TomlCrate)

def TomlCrate.addrFromToml (v : Toml) : Option SocketAddr := v.asString.bind c.socketAddr

def Config.fromToml (v : Toml) : Option Config := do
  let ms ← v.record configFields
  let listen ← Members.required ms "listen" c.addrFromToml
  let metrics ← Members.required ms "metrics" c.addrFromToml
  let upstream ← Members.required ms "upstream" upstreamFromToml
  let tls ← Members.orDefault ms "tls" tlsFromToml .default
  let auth ← Members.required ms "auth" authFromToml
  let policy ← Members.orDefault ms "policy" policyFromToml .default
  let ratelimit ← Members.orDefault ms "ratelimit" rateLimitFromToml .default
  return { upstream, auth, policy, ratelimit, listen, metrics, tls }

/-! ### Loading -/

/-- The document of a text, read as a configuration. -/
def Config.fromStr (text : String) : Except String Config :=
  match c.parse text with
  | .error e => .error e
  | .ok doc =>
    match Config.fromToml c doc with
    | none => .error (c.fault text)
    | some config => .ok config

def Config.resolveSecrets (env : Environment) (config : Config) : Except ConfigError Config :=
  match Loading.Config.resolveSecrets env config.toConfig with
  | .error e => .error e
  | .ok resolved => .ok { config with toConfig := resolved }

/-- Parse config from a TOML string, resolving `env:` secrets. -/
def Config.fromTomlStr (env : Environment) (text : String) : Except ConfigError Config :=
  match Config.fromStr c text with
  | .error e => .error (.parse e)
  | .ok config => config.resolveSecrets env

/-- Load config from a file. -/
def Config.load (readToString : String → Except String String) (env : Environment)
    (path : String) : Except ConfigError Config :=
  match readToString path with
  | .error source => .error (.read path source)
  | .ok text => Config.fromTomlStr c env text

/-! ### What a document has written -/

lemma asString_eq_some {v : Toml} {s : String} : v.asString = some s ↔ v = .string s := by
  cases v <;> simp [Toml.asString]

lemma asBoolean_eq_some {v : Toml} {b : Bool} : v.asBoolean = some b ↔ v = .boolean b := by
  cases v <;> simp [Toml.asBoolean]

lemma asList_eq_some {read : Toml → Option α} {v : Toml} {l : List α} :
    v.asList read = some l ↔
      ∃ items, v = .array items ∧ List.Forall₂ (fun i a => read i = some a) items l := by
  cases v <;> simp [Toml.asList, mapM_eq_some]

lemma strings_eq_some {v : Toml} {l : List String} :
    v.asList Toml.asString = some l ↔ v = .array (l.map .string) := by
  have hitems : ∀ items : List Toml,
      List.Forall₂ (fun i s => i.asString = some s) items l ↔ items = l.map .string := by
    intro items
    simp only [asString_eq_some]
    rw [← List.forall₂_eq_eq_eq, List.forall₂_map_right_iff]
  simp only [asList_eq_some, hitems, exists_eq_right]

lemma bind_asString {o : Option Toml} {s : String} :
    o.bind Toml.asString = some s ↔ o = some (.string s) := by
  simp [Option.bind_eq_some_iff, asString_eq_some]

lemma bind_strings {o : Option Toml} {l : List String} :
    o.bind (Toml.asList Toml.asString) = some l ↔ o = some (.array (l.map .string)) := by
  simp [Option.bind_eq_some_iff, strings_eq_some]

/-- The items of a list that a record has written, none when it is not there. -/
def Toml.items (fields : List String) (field : String) (v : Toml) : List Toml :=
  match v.field fields field with
  | some (.array items) => items
  | _ => []

lemma items_of_orDefault {v : Toml} {fields : List String} {ms : Members} {field : String}
    {read : Toml → Option α} {l : List α} (hms : v.record fields = some ms)
    (h : Members.orDefault ms field (Toml.asList read) [] = some l) :
    List.Forall₂ (fun i a => read i = some a) (v.items fields field) l := by
  unfold Toml.items
  rcases (orDefault_eq_some hms).mp h with ⟨hnone, rfl⟩ | hsome
  · rw [hnone]
    exact .nil
  · obtain ⟨value, hvalue, hread⟩ := Option.bind_eq_some_iff.mp hsome
    obtain ⟨items, rfl, hitems⟩ := asList_eq_some.mp hread
    rw [hvalue]
    exact hitems

lemma boolean_of_orDefault {v : Toml} {fields : List String} {ms : Members} {field : String}
    {b default : Bool} (hms : v.record fields = some ms)
    (h : Members.orDefault ms field Toml.asBoolean default = some b) (hb : b ≠ default) :
    v.field fields field = some (.boolean b) := by
  rcases (orDefault_eq_some hms).mp h with ⟨-, heq⟩ | hsome
  · exact absurd heq hb
  · obtain ⟨value, hvalue, hread⟩ := Option.bind_eq_some_iff.mp hsome
    rw [hvalue, asBoolean_eq_some.mp hread]

lemma string_of_optional {v : Toml} {fields : List String} {ms : Members} {field : String}
    {o : Option String} (hms : v.record fields = some ms)
    (h : Members.optional ms field Toml.asString = some o) :
    v.field fields field = o.map .string := by
  rcases (optional_eq_some hms).mp h with ⟨hnone, rfl⟩ | ⟨s, hs, rfl⟩
  · exact hnone
  · exact bind_asString.mp hs

/-- The item writes this entry of `[[auth.tokens]]`, with a text that stands for the secret. -/
structure WritesToken (stands : String → String → Prop) (item : Toml) (e : TokenEntry) : Prop where
  name : item.field tokenEntryFields "name" = some (.string e.name)
  token : ∃ raw, item.field tokenEntryFields "token" = some (.string raw) ∧ stands raw e.token
  scopes : item.field tokenEntryFields "scopes" = some (.array (e.scopes.map .string))

lemma writesToken {item : Toml} {e : TokenEntry} (h : tokenEntryFromToml item = some e) :
    WritesToken Eq item e := by
  unfold tokenEntryFromToml at h
  simp only [Option.bind_eq_bind, Option.bind_eq_some_iff, Option.pure_def,
    Option.some.injEq] at h
  obtain ⟨ms, hms, name, hname, token, htoken, scopes, hscopes, rfl⟩ := h
  rw [required_eq_some hms, bind_asString] at hname htoken
  rw [required_eq_some hms, bind_strings] at hscopes
  exact ⟨hname, ⟨token, htoken, rfl⟩, hscopes⟩

/-- The item writes this entry of `[[auth.mtls]]`. -/
structure WritesMapping (item : Toml) (m : MtlsMapping) : Prop where
  subject : item.field mtlsMappingFields "subject" = some (.string m.subject)
  name : item.field mtlsMappingFields "name" = some (.string m.name)
  scopes : item.field mtlsMappingFields "scopes" = some (.array (m.scopes.map .string))

lemma writesMapping {item : Toml} {m : MtlsMapping} (h : mtlsMappingFromToml item = some m) :
    WritesMapping item m := by
  unfold mtlsMappingFromToml at h
  simp only [Option.bind_eq_bind, Option.bind_eq_some_iff, Option.pure_def,
    Option.some.injEq] at h
  obtain ⟨ms, hms, subject, hsubject, name, hname, scopes, hscopes, rfl⟩ := h
  rw [required_eq_some hms, bind_asString] at hsubject hname
  rw [required_eq_some hms, bind_strings] at hscopes
  exact ⟨hsubject, hname, hscopes⟩

/-- The section writes this `[auth.jwt]`, with a text that stands for the secret if it has one. -/
structure WritesJwt (stands : String → String → Prop) (v : Toml) (cfg : JwtConfig) : Prop where
  issuer : v.field jwtConfigFields "issuer" = some (.string cfg.issuer)
  audience : v.field jwtConfigFields "audience" = some (.string cfg.audience)
  jwksUrl : v.field jwtConfigFields "jwks_url" = cfg.jwksUrl.map .string
  hs256Secret : ∃ raw : Option String, v.field jwtConfigFields "hs256_secret" = raw.map .string ∧
    Option.Rel stands raw cfg.hs256Secret
  scopesClaim : v.field jwtConfigFields "scopes_claim" = some (.string cfg.scopesClaim) ∨
    (v.field jwtConfigFields "scopes_claim" = none ∧ cfg.scopesClaim = "scopes")

lemma writesJwt {v : Toml} {cfg : JwtConfig} (h : jwtConfigFromToml v = some cfg) :
    WritesJwt Eq v cfg := by
  unfold jwtConfigFromToml at h
  simp only [Option.bind_eq_bind, Option.bind_eq_some_iff, Option.pure_def,
    Option.some.injEq] at h
  obtain ⟨ms, hms, issuer, hissuer, audience, haudience, jwksUrl, hurl, secret, hsecret, claim,
    hclaim, rfl⟩ := h
  rw [required_eq_some hms, bind_asString] at hissuer haudience
  rw [orDefault_eq_some hms, bind_asString] at hclaim
  refine ⟨hissuer, haudience, string_of_optional hms hurl,
    ⟨secret, string_of_optional hms hsecret, ?_⟩, hclaim.symm⟩
  cases secret with
  | none => exact .none
  | some s => exact .some rfl

/-- The section writes this `[auth]`. -/
structure WritesAuth (stands : String → String → Prop) (v : Toml) (a : AuthConfig) : Prop where
  mode : (v.field authFields "mode").bind authModeFromToml = some a.mode
  anonymous : a.allowAnonymousRead = true →
    v.field authFields "allow_anonymous_read" = some (.boolean true)
  tokens : List.Forall₂ (WritesToken stands) (v.items authFields "tokens") a.tokens
  jwt : ∀ cfg, a.jwt = some cfg →
    ∃ w, v.field authFields "jwt" = some w ∧ WritesJwt stands w cfg
  mtls : List.Forall₂ WritesMapping (v.items authFields "mtls") a.mtls

lemma writesAuth {v : Toml} {a : AuthConfig} (h : authFromToml v = some a) :
    WritesAuth Eq v a := by
  unfold authFromToml at h
  simp only [Option.bind_eq_bind, Option.bind_eq_some_iff, Option.pure_def,
    Option.some.injEq] at h
  obtain ⟨ms, hms, mode, hmode, anonymous, hanonymous, tokens, htokens, jwt, hjwt, mtls, hmtls,
    rfl⟩ := h
  refine ⟨(required_eq_some hms).mp hmode, ?_, ?_, ?_, ?_⟩
  · rintro rfl
    exact boolean_of_orDefault hms hanonymous (by decide)
  · exact (items_of_orDefault hms htokens).imp fun _ _ => writesToken
  · rintro cfg rfl
    rcases (optional_eq_some hms).mp hjwt with ⟨-, habsurd⟩ | ⟨cfg', hsome, heq⟩
    · cases habsurd
    · cases heq
      obtain ⟨w, hw, hread⟩ := Option.bind_eq_some_iff.mp hsome
      exact ⟨w, hw, writesJwt hread⟩
  · exact (items_of_orDefault hms hmtls).imp fun _ _ => writesMapping

/-- The section writes this `[tls]`. -/
structure WritesTls (v : Toml) (t : Tls) : Prop where
  enabled : t.enabled = true → v.field tlsFields "enabled" = some (.boolean true)
  requireClientCert : t.requireClientCert = true →
    v.field tlsFields "require_client_cert" = some (.boolean true)
  clientCa : v.field tlsFields "client_ca" = t.clientCa.map .string

lemma writesTls {v : Toml} {t : Tls} (h : tlsFromToml v = some t) : WritesTls v t := by
  unfold tlsFromToml at h
  simp only [Option.bind_eq_bind, Option.bind_eq_some_iff, Option.pure_def,
    Option.some.injEq] at h
  obtain ⟨ms, hms, enabled, henabled, cert, -, key, -, required, hrequired, ca, hca, rfl⟩ := h
  refine ⟨?_, ?_, string_of_optional hms hca⟩
  · rintro rfl
    exact boolean_of_orDefault hms henabled (by decide)
  · rintro rfl
    exact boolean_of_orDefault hms hrequired (by decide)

/-- A body that cannot be parsed may pass only if the section writes so. -/
lemma open_of_policyFromToml {v : Toml} {policy : Policy} (h : policyFromToml v = some policy)
    (hopen : policy.failClosedOnParseError = false) :
    v.field policyFields "fail_closed_on_parse_error" = some (.boolean false) := by
  unfold policyFromToml at h
  simp only [Option.bind_eq_bind, Option.bind_eq_some_iff, Option.pure_def,
    Option.some.injEq] at h
  obtain ⟨ms, hms, failClosed, hfailClosed, overrides, -, rfl⟩ := h
  cases hopen
  exact boolean_of_orDefault hms hfailClosed (by decide)

/-- A section of the document; one that is not written is like an empty one. -/
def Toml.part (doc : Toml) (name : String) : Toml :=
  (doc.field configFields name).getD (.table [])

/-- The document writes this configuration, with texts that stand for the secrets: who is let in,
what the listener asks for, and whether a body that cannot be parsed may pass. -/
structure Writes (stands : String → String → Prop) (doc : Toml) (config : Config) : Prop where
  auth : WritesAuth stands (doc.part "auth") config.auth
  tls : WritesTls (doc.part "tls") config.tls
  failClosed : config.policy.failClosedOnParseError = false →
    (doc.part "policy").field policyFields "fail_closed_on_parse_error" = some (.boolean false)

/-- **A section that is not written is read as an empty one.** -/
lemma part_of_orDefault {doc : Toml} {ms : Members} {name : String} {read : Toml → Option α}
    {a default : α} (hms : doc.record configFields = some ms)
    (hempty : read (.table []) = some default)
    (h : Members.orDefault ms name read default = some a) : read (doc.part name) = some a := by
  unfold Toml.part
  rcases (orDefault_eq_some hms).mp h with ⟨hnone, rfl⟩ | hsome
  · rw [hnone]
    exact hempty
  · obtain ⟨v, hv, hread⟩ := Option.bind_eq_some_iff.mp hsome
    rw [hv]
    exact hread

lemma part_of_required {doc : Toml} {ms : Members} {name : String} {read : Toml → Option α} {a : α}
    (hms : doc.record configFields = some ms) (h : Members.required ms name read = some a) :
    read (doc.part name) = some a := by
  obtain ⟨v, hv, hread⟩ := Option.bind_eq_some_iff.mp ((required_eq_some hms).mp h)
  unfold Toml.part
  rw [hv]
  exact hread

/-- **A configuration is what its document writes.** -/
lemma writes {doc : Toml} {config : Config}
    (h : Config.fromToml c doc = some config) :
    Writes Eq doc config := by
  unfold Config.fromToml at h
  simp only [Option.bind_eq_bind, Option.bind_eq_some_iff, Option.pure_def,
    Option.some.injEq] at h
  obtain ⟨ms, hms, listen, -, metrics, -, upstream, -, tls, htls, auth, hauth, policy, hpolicy,
    ratelimit, -, rfl⟩ := h
  exact ⟨writesAuth (part_of_required hms hauth), writesTls (part_of_orDefault hms rfl htls),
    open_of_policyFromToml (part_of_orDefault hms rfl hpolicy)⟩

/-! ### What a loaded configuration has -/

variable {env : Environment}

lemma WritesToken.resolved {item : Toml} {raw e : TokenEntry} (h : WritesToken Eq item raw)
    (hresolved : ResolvesEntry env raw e) : WritesToken (Resolves env) item e := by
  obtain ⟨hsecret, heq⟩ := hresolved
  obtain ⟨text, htext, rfl⟩ := h.token
  rw [heq]
  exact ⟨h.name, ⟨_, htext, hsecret⟩, h.scopes⟩

lemma forall₂_resolved {items : List Toml} {raws entries : List TokenEntry}
    (h : List.Forall₂ (WritesToken Eq) items raws)
    (hresolved : List.Forall₂ (ResolvesEntry env) raws entries) :
    List.Forall₂ (WritesToken (Resolves env)) items entries := by
  induction h generalizing entries with
  | nil =>
    cases hresolved
    exact .nil
  | cons hitem _ ih =>
    cases hresolved with
    | cons hentry hrest => exact .cons (hitem.resolved hentry) (ih hrest)

lemma resolveJwt_ok {raw cfg : JwtConfig} (h : resolveJwt env raw = .ok cfg) :
    Option.Rel (Resolves env) raw.hs256Secret cfg.hs256Secret ∧
      cfg = { raw with hs256Secret := cfg.hs256Secret } := by
  unfold resolveJwt at h
  rcases hsecret : raw.hs256Secret with _ | secret
  · rw [hsecret] at h
    cases h
    rw [hsecret]
    exact ⟨.none, by rw [← hsecret]⟩
  · rcases hresolved : resolveSecret env secret with e | value
    · simp only [hsecret, hresolved] at h
      cases h
    · simp only [hsecret, hresolved] at h
      cases h
      exact ⟨.some (resolveSecret_ok.mp hresolved), rfl⟩

lemma WritesJwt.resolved {v : Toml} {raw cfg : JwtConfig} (h : WritesJwt Eq v raw)
    (hresolved : resolveJwt env raw = .ok cfg) : WritesJwt (Resolves env) v cfg := by
  obtain ⟨hsecret, heq⟩ := resolveJwt_ok hresolved
  obtain ⟨text, htext, hrel⟩ := h.hs256Secret
  have hwritten : text = raw.hs256Secret := by
    generalize raw.hs256Secret = o at hrel
    cases hrel with
    | some heq => rw [heq]
    | none => rfl
  rw [heq]
  exact ⟨h.issuer, h.audience, h.jwksUrl, ⟨text, htext, hwritten ▸ hsecret⟩, h.scopesClaim⟩

/-- Resolving the secrets changes nothing else. -/
lemma resolveSecrets_ok {raw config : Server.Config}
    (h : Loading.Config.resolveSecrets env raw = .ok config) :
    ∃ tokens jwt, config = { raw with auth := { raw.auth with tokens := tokens, jwt := jwt } } ∧
      List.Forall₂ (ResolvesEntry env) raw.auth.tokens tokens ∧
      ∀ cfg, jwt = some cfg → ∃ raw', raw.auth.jwt = some raw' ∧ resolveJwt env raw' = .ok cfg := by
  unfold Loading.Config.resolveSecrets at h
  rcases htokens : resolveTokens env raw.auth.tokens with e | tokens
  · rw [htokens] at h
    cases h
  rw [htokens] at h
  rcases hjwt : raw.auth.jwt with _ | jwt
  · rw [hjwt] at h
    cases h
    exact ⟨tokens, none, rfl, resolveTokens_ok htokens, by simp⟩
  rcases hresolved : resolveJwt env jwt with e | cfg
  · rw [hjwt] at h
    simp only [hresolved] at h
    cases h
  · rw [hjwt] at h
    simp only [hresolved] at h
    cases h
    refine ⟨tokens, some cfg, rfl, resolveTokens_ok htokens, fun cfg' heq => ?_⟩
    cases heq
    exact ⟨jwt, rfl, hresolved⟩

lemma Writes.resolved {doc : Toml} {raw config : Config} (h : Writes Eq doc raw)
    (hresolved : raw.resolveSecrets env = .ok config) : Writes (Resolves env) doc config := by
  unfold Config.resolveSecrets at hresolved
  rcases hsecrets : Loading.Config.resolveSecrets env raw.toConfig with e | resolved
  · rw [hsecrets] at hresolved
    cases hresolved
  rw [hsecrets] at hresolved
  cases hresolved
  obtain ⟨tokens, jwt, rfl, htokens, hjwt⟩ := resolveSecrets_ok hsecrets
  refine ⟨⟨h.auth.mode, h.auth.anonymous, ?_, fun cfg hcfg => ?_, h.auth.mtls⟩, h.tls, h.failClosed⟩
  · exact forall₂_resolved h.auth.tokens htokens
  · obtain ⟨raw', hraw, hok⟩ := hjwt cfg hcfg
    obtain ⟨w, hw, hwrites⟩ := h.auth.jwt raw' hraw
    exact ⟨w, hw, hwrites.resolved hok⟩

/-- **What is loaded is what the document in the file writes**, with the secrets that its texts
stand for. -/
lemma load_ok {readToString : String → Except String String} {path : String} {config : Config}
    (h : Config.load c readToString env path = .ok config) :
    ∃ text doc, readToString path = .ok text ∧ c.parse text = .ok doc ∧
      Writes (Resolves env) doc config := by
  unfold Config.load at h
  rcases htext : readToString path with e | text
  · rw [htext] at h
    cases h
  rw [htext] at h
  simp only [Config.fromTomlStr, Config.fromStr] at h
  rcases hdoc : c.parse text with e | doc
  · rw [hdoc] at h
    cases h
  rw [hdoc] at h
  rcases hraw : Config.fromToml c doc with _ | raw
  · simp only [hraw] at h
    cases h
  · simp only [hraw] at h
    exact ⟨text, doc, rfl, hdoc, (writes c hraw).resolved h⟩

end GatewayAuth.ConfigFile
