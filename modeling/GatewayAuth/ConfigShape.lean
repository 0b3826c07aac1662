import GatewayAuth.ConfigFile
import GatewayAuth.Lib.Records

/-!
Which documents are configurations.

The shape of a document is a table of its fields. A document is read exactly when it is of this
shape, so a field that is misspelt, written twice, missing or of the wrong kind is never passed
over, however deep it stands; and it is loaded when its secrets can be had besides.
-/

namespace GatewayAuth.ConfigFile

open GatewayAuth.Lib.Records GatewayAuth.JsonBody
open GatewayAuth.Forwarding GatewayAuth.Authz GatewayAuth.Jwt GatewayAuth.Auth
open GatewayAuth.Server GatewayAuth.Loading GatewayAuth.Process

/-! ### Shapes -/

def Text (v : Toml) : Prop := ∃ s, v = .string s

def Flag (v : Toml) : Prop := ∃ b, v = .boolean b

/-- A number of 32 bits. -/
def Count (v : Toml) : Prop := ∃ n : ℕ, n < 2 ^ 32 ∧ v = .integer n

def ListOf (shape : Toml → Prop) (v : Toml) : Prop :=
  ∃ items, v = .array items ∧ ∀ item ∈ items, shape item

/-- One of these names, alone or as the only member of a table, with nothing under it. -/
def OneOf (choices : List String) (v : Toml) : Prop :=
  ∃ name ∈ choices, v = .string name ∨ v = .table [(name, .table [])] ∨
    v = .table [(name, .array [])]

/-- A record with these fields, as a table or as a list. -/
inductive RecordOf (fields : List (RecordField Toml)) : Toml → Prop
  | table {ms : Members} : IsTable fields ms → RecordOf fields (.table ms)
  | list {items : List Toml} : IsListing fields items → RecordOf fields (.array items)

def UpstreamShape : Toml → Prop := RecordOf [⟨"agent_management", true, Text⟩,
  ⟨"graph_node_admin", false, Text⟩, ⟨"graph_node_status", false, Text⟩]

def TlsShape : Toml → Prop := RecordOf [⟨"enabled", false, Flag⟩, ⟨"cert", false, Text⟩,
  ⟨"key", false, Text⟩, ⟨"require_client_cert", false, Flag⟩, ⟨"client_ca", false, Text⟩]

def MtlsMappingShape : Toml → Prop := RecordOf [⟨"subject", true, Text⟩, ⟨"name", true, Text⟩,
  ⟨"scopes", true, ListOf Text⟩]

def TokenEntryShape : Toml → Prop := RecordOf [⟨"name", true, Text⟩, ⟨"token", true, Text⟩,
  ⟨"scopes", true, ListOf Text⟩]

def JwtConfigShape : Toml → Prop := RecordOf [⟨"issuer", true, Text⟩, ⟨"audience", true, Text⟩,
  ⟨"jwks_url", false, Text⟩, ⟨"hs256_secret", false, Text⟩, ⟨"scopes_claim", false, Text⟩]

def AuthShape : Toml → Prop := RecordOf [⟨"mode", true, OneOf ["bearer", "jwt", "mtls"]⟩,
  ⟨"allow_anonymous_read", false, Flag⟩, ⟨"tokens", false, ListOf TokenEntryShape⟩,
  ⟨"jwt", false, JwtConfigShape⟩, ⟨"mtls", false, ListOf MtlsMappingShape⟩]

def OverrideShape : Toml → Prop := RecordOf [⟨"field", false, Text⟩, ⟨"operation", false, Text⟩,
  ⟨"require_scopes", true, ListOf Text⟩]

def PolicyShape : Toml → Prop := RecordOf [⟨"fail_closed_on_parse_error", false, Flag⟩,
  ⟨"override", false, ListOf OverrideShape⟩]

def RateLimitShape : Toml → Prop := RecordOf [⟨"write_per_minute", false, Count⟩,
  ⟨"read_per_minute", false, Count⟩]

variable (c : TomlCrate)

def Address (v : Toml) : Prop := ∃ s addr, v = .string s ∧ c.socketAddr s = some addr

def ConfigShape : Toml → Prop := RecordOf [⟨"listen", true, Address c⟩,
  ⟨"metrics", true, Address c⟩, ⟨"upstream", true, UpstreamShape⟩, ⟨"tls", false, TlsShape⟩,
  ⟨"auth", true, AuthShape⟩, ⟨"policy", false, PolicyShape⟩, ⟨"ratelimit", false, RateLimitShape⟩]

/-! ### What is read is of its shape -/

variable {α : Type} {c} {v : Toml} {ms : Members} {name : String} {read : Toml → Option α}
  {default : α} {shape : Toml → Prop}

/-- Values are read exactly when they are of the shape. -/
def Reads (read : Toml → Option α) (shape : Toml → Prop) : Prop :=
  ∀ v, (∃ a, read v = some a) ↔ shape v

lemma Reads.required (h : Reads read shape) :
    (∃ a, Members.required ms name read = some a) ↔ RecordField.Fits ⟨name, true, shape⟩ ms := by
  unfold Members.required RecordField.Fits
  rcases List.lookup name ms with _ | v
  · simp
  · simpa using h v

lemma Reads.orDefault (h : Reads read shape) :
    (∃ a, Members.orDefault ms name read default = some a) ↔
      RecordField.Fits ⟨name, false, shape⟩ ms := by
  unfold Members.orDefault RecordField.Fits
  rcases List.lookup name ms with _ | v
  · simp
  · simpa using h v

lemma Reads.optional (h : Reads read shape) :
    (∃ a, Members.optional ms name read = some a) ↔ RecordField.Fits ⟨name, false, shape⟩ ms := by
  refine Reads.orDefault fun v => ?_
  rw [← h v]
  cases read v <;> simp

lemma Reads.list (h : Reads read shape) : Reads (Toml.asList read) (ListOf shape) := by
  intro v
  unfold ListOf
  simp only [asList_eq_some]
  refine ⟨?_, ?_⟩
  · rintro ⟨l, items, rfl, hitems⟩
    refine ⟨items, rfl, fun item hitem => ?_⟩
    obtain ⟨a, -, ha⟩ := exists_mem_of_forall₂ hitems hitem
    exact (h item).mp ⟨a, ha⟩
  · rintro ⟨items, rfl, hitems⟩
    obtain ⟨l, hl⟩ := forall₂_of_forall_exists fun item hitem => (h item).mpr (hitems item hitem)
    exact ⟨l, items, rfl, hl⟩

lemma reads_text : Reads Toml.asString Text := fun _ =>
  exists_congr fun _ => asString_eq_some

lemma reads_flag : Reads Toml.asBoolean Flag := fun _ =>
  exists_congr fun _ => asBoolean_eq_some

/-- A record is read from its members when its fields fit. -/
lemma record_iff {fields : List (RecordField Toml)} (hnames : (names fields).Nodup) :
    RecordOf fields v ↔ ∃ ms, v.record (names fields) = some ms ∧ ∀ f ∈ fields, f.Fits ms := by
  refine ⟨?_, ?_⟩
  · rintro (⟨hms⟩ | ⟨hitems⟩)
    · obtain ⟨hknown, hfits⟩ := (isTable_iff hnames).mp hms
      exact ⟨_, if_pos hknown, hfits⟩
    · exact ⟨_, rfl, (isListing_iff hnames).mp hitems⟩
  · rintro ⟨ms, hms, hfits⟩
    cases v with
    | table members =>
      obtain ⟨hknown, heq⟩ := Option.ite_none_right_eq_some.mp hms
      obtain rfl := Option.some.inj heq
      exact .table ((isTable_iff hnames).mpr ⟨hknown, hfits⟩)
    | array items =>
      obtain rfl := Option.some.inj hms
      exact .list ((isListing_iff hnames).mpr hfits)
    | _ => cases hms

lemma reads_count : Reads Toml.asU32 Count := by
  intro v
  unfold Count
  cases v with
  | integer n =>
    simp only [Toml.asU32, Option.ite_none_right_eq_some, Toml.integer.injEq]
    refine ⟨?_, ?_⟩
    · rintro ⟨a, hn, -⟩
      exact ⟨n.toNat, by omega, by omega⟩
    · rintro ⟨m, hm, rfl⟩
      exact ⟨_, by omega, rfl⟩
  | _ => simp [Toml.asU32]

lemma reads_mode : Reads authModeFromToml (OneOf ["bearer", "jwt", "mtls"]) := by
  intro v
  have hvariant : ∀ name, v.asVariant = some name ↔ v = .string name ∨
      v = .table [(name, .table [])] ∨ v = .table [(name, .array [])] := by
    intro name
    unfold Toml.asVariant
    split <;> simp_all
  unfold authModeFromToml OneOf
  simp only [← hvariant]
  clear hvariant
  generalize v.asVariant = o
  split
  · simp
  · simp
  · simp
  · next hbearer hjwt hmtls => simpa using ⟨hbearer, hjwt, hmtls⟩

/-- A record is read when its members fit the fields. -/
lemma reads_record {fields : List (RecordField Toml)} {rest : Members → Option α}
    (hnames : (names fields).Nodup)
    (hrest : ∀ ms, (∃ a, rest ms = some a) ↔ ∀ f ∈ fields, f.Fits ms) :
    Reads (fun v => v.record (names fields) >>= rest) (RecordOf fields) := by
  intro v
  rw [record_iff hnames, ← exists_congr fun ms => and_congr_right fun _ => hrest ms]
  simp only [Option.bind_eq_bind, Option.bind_eq_some_iff]
  exact ⟨fun ⟨a, ms, hms, ha⟩ => ⟨ms, hms, a, ha⟩, fun ⟨ms, hms, a, ha⟩ => ⟨a, ms, hms, ha⟩⟩

/-- One field after the other. -/
lemma fits_cons {β : Type} {field : RecordField Toml} {fields : List (RecordField Toml)}
    {o : Option β} {rest : β → Option α} (hfield : (∃ b, o = some b) ↔ field.Fits ms)
    (hrest : ∀ b, (∃ a, rest b = some a) ↔ ∀ f ∈ fields, f.Fits ms) :
    (∃ a, (o >>= rest) = some a) ↔ ∀ f ∈ field :: fields, f.Fits ms := by
  rw [List.forall_mem_cons, ← hfield]
  cases o with
  | none => simp
  | some b => simpa using hrest b

lemma fits_nil {a : α} :
    (∃ a', (pure a : Option α) = some a') ↔ ∀ f ∈ ([] : List (RecordField Toml)), f.Fits ms := by
  simp

lemma reads_upstream : Reads upstreamFromToml UpstreamShape :=
  reads_record (by decide) fun _ =>
    fits_cons reads_text.required fun _ => fits_cons reads_text.optional fun _ =>
    fits_cons reads_text.optional fun _ => fits_nil

lemma reads_tls : Reads tlsFromToml TlsShape :=
  reads_record (by decide) fun _ =>
    fits_cons reads_flag.orDefault fun _ => fits_cons reads_text.optional fun _ =>
    fits_cons reads_text.optional fun _ => fits_cons reads_flag.orDefault fun _ =>
    fits_cons reads_text.optional fun _ => fits_nil

lemma reads_mtlsMapping : Reads mtlsMappingFromToml MtlsMappingShape :=
  reads_record (by decide) fun _ =>
    fits_cons reads_text.required fun _ => fits_cons reads_text.required fun _ =>
    fits_cons reads_text.list.required fun _ => fits_nil

lemma reads_tokenEntry : Reads tokenEntryFromToml TokenEntryShape :=
  reads_record (by decide) fun _ =>
    fits_cons reads_text.required fun _ => fits_cons reads_text.required fun _ =>
    fits_cons reads_text.list.required fun _ => fits_nil

lemma reads_jwtConfig : Reads jwtConfigFromToml JwtConfigShape :=
  reads_record (by decide) fun _ =>
    fits_cons reads_text.required fun _ => fits_cons reads_text.required fun _ =>
    fits_cons reads_text.optional fun _ => fits_cons reads_text.optional fun _ =>
    fits_cons reads_text.orDefault fun _ => fits_nil

lemma reads_auth : Reads authFromToml AuthShape :=
  reads_record (by decide) fun _ =>
    fits_cons reads_mode.required fun _ => fits_cons reads_flag.orDefault fun _ =>
    fits_cons reads_tokenEntry.list.orDefault fun _ => fits_cons reads_jwtConfig.optional fun _ =>
    fits_cons reads_mtlsMapping.list.orDefault fun _ => fits_nil

lemma reads_override : Reads overrideFromToml OverrideShape :=
  reads_record (by decide) fun _ =>
    fits_cons reads_text.optional fun _ => fits_cons reads_text.optional fun _ =>
    fits_cons reads_text.list.required fun _ => fits_nil

lemma reads_policy : Reads policyFromToml PolicyShape :=
  reads_record (by decide) fun _ =>
    fits_cons reads_flag.orDefault fun _ => fits_cons reads_override.list.orDefault fun _ =>
    fits_nil

lemma reads_rateLimit : Reads rateLimitFromToml RateLimitShape :=
  reads_record (by decide) fun _ =>
    fits_cons reads_count.orDefault fun _ => fits_cons reads_count.orDefault fun _ => fits_nil

/-- A misspelt limit is not taken for one that is not written. -/
example : RateLimitShape (.table []) ∧
    ¬ RateLimitShape (.table [("write_per_minut", .integer 30)]) := by
  rw [← reads_rateLimit, ← reads_rateLimit]
  exact ⟨⟨_, rfl⟩, fun ⟨_, h⟩ => by cases h⟩

lemma reads_address : Reads c.addrFromToml (Address c) := by
  intro v
  unfold TomlCrate.addrFromToml Address
  simp only [Option.bind_eq_some_iff, asString_eq_some]
  exact exists_comm

lemma reads_config (c : TomlCrate) : Reads (Config.fromToml c) (ConfigShape c) := by
  refine reads_record ?_ fun _ =>
    fits_cons reads_address.required fun _ => fits_cons reads_address.required fun _ =>
    fits_cons reads_upstream.required fun _ => fits_cons reads_tls.orDefault fun _ =>
    fits_cons reads_auth.required fun _ => fits_cons reads_policy.orDefault fun _ =>
    fits_cons reads_rateLimit.orDefault fun _ => fits_nil
  change configFields.Nodup
  decide

/-! ### The secrets of a document -/

variable {env : Environment} {doc : Toml}

/-- The text stands for a secret in the document: of a token, or of the keys of `[auth.jwt]`. -/
inductive SecretOf (doc : Toml) (raw : String) : Prop
  | token {item : Toml} : item ∈ (doc.part "auth").items authFields "tokens" →
      item.field tokenEntryFields "token" = some (.string raw) → SecretOf doc raw
  | hs256 {jwt : Toml} : (doc.part "auth").field authFields "jwt" = some jwt →
      jwt.field jwtConfigFields "hs256_secret" = some (.string raw) → SecretOf doc raw

/-- The secrets of a configuration before they are resolved. -/
def rawSecrets (a : AuthConfig) : List String :=
  a.tokens.map TokenEntry.token ++ (a.jwt.bind JwtConfig.hs256Secret).toList

lemma token_iff {items : List Toml} {raws : List TokenEntry} {raw : String}
    (h : List.Forall₂ (WritesToken Eq) items raws) :
    raw ∈ raws.map TokenEntry.token ↔
      ∃ item ∈ items, item.field tokenEntryFields "token" = some (.string raw) := by
  induction h with
  | nil => simp
  | @cons item e items raws hitem _ ih =>
    obtain ⟨text, htext, rfl⟩ := hitem.token
    rw [List.map_cons, List.mem_cons, ih, List.exists_mem_cons_iff, htext]
    simp [eq_comm]

lemma jwt_of_authFromToml {v : Toml} {a : AuthConfig} (h : authFromToml v = some a) :
    Option.Rel (WritesJwt Eq) (v.field authFields "jwt") a.jwt := by
  unfold authFromToml at h
  simp only [Option.bind_eq_bind, Option.bind_eq_some_iff, Option.pure_def,
    Option.some.injEq] at h
  obtain ⟨ms, hms, mode, -, anonymous, -, tokens, -, jwt, hjwt, mtls, -, rfl⟩ := h
  rcases (optional_eq_some hms).mp hjwt with ⟨hnone, rfl⟩ | ⟨cfg, hsome, rfl⟩
  · rw [hnone]
    exact .none
  · obtain ⟨w, hw, hread⟩ := Option.bind_eq_some_iff.mp hsome
    rw [hw]
    exact .some (writesJwt hread)

lemma hs256_iff {o : Option Toml} {jwt : Option JwtConfig} {raw : String}
    (h : Option.Rel (WritesJwt Eq) o jwt) : raw ∈ (jwt.bind JwtConfig.hs256Secret).toList ↔
      ∃ w, o = some w ∧ w.field jwtConfigFields "hs256_secret" = some (.string raw) := by
  cases h with
  | none => simp
  | @some w cfg hwrites =>
    obtain ⟨text, htext, hrel⟩ := hwrites.hs256Secret
    have hwritten : w.field jwtConfigFields "hs256_secret" = cfg.hs256Secret.map .string := by
      rw [htext]
      generalize cfg.hs256Secret = o at hrel
      cases hrel with
      | some heq => rw [heq]
      | none => rfl
    simp [hwritten, eq_comm]

/-- The secrets of a configuration are those of its document. -/
lemma secretOf_iff {raw : Config} {s : String} (h : Config.fromToml c doc = some raw) :
    SecretOf doc s ↔ s ∈ rawSecrets raw.auth := by
  have hauth : authFromToml (doc.part "auth") = some raw.auth := by
    unfold Config.fromToml at h
    simp only [Option.bind_eq_bind, Option.bind_eq_some_iff, Option.pure_def,
      Option.some.injEq] at h
    obtain ⟨ms, hms, listen, -, metrics, -, upstream, -, tls, -, auth, hauth, policy, -,
      ratelimit, -, rfl⟩ := h
    exact part_of_required hms hauth
  unfold rawSecrets
  rw [List.mem_append, token_iff (writesAuth hauth).tokens, hs256_iff (jwt_of_authFromToml hauth)]
  refine ⟨?_, ?_⟩
  · rintro (⟨hitem, htoken⟩ | ⟨hjwt, hsecret⟩)
    · exact .inl ⟨_, hitem, htoken⟩
    · exact .inr ⟨_, hjwt, hsecret⟩
  · rintro (⟨item, hitem, htoken⟩ | ⟨w, hjwt, hsecret⟩)
    · exact .token hitem htoken
    · exact .hs256 hjwt hsecret

/-! ### Loading succeeds -/

/-- The text stands for some secret. -/
def Resolvable (env : Environment) (raw : String) : Prop := ∃ secret, Resolves env raw secret

lemma exists_ok_bind {ε α β : Type} {r : Except ε α} {f : α → Except ε β} {P : Prop}
    (h : ∀ a, (∃ b, f a = .ok b) ↔ P) : (∃ b, (r >>= f) = .ok b) ↔ (∃ a, r = .ok a) ∧ P := by
  cases r with
  | error e => simp [bind, Except.bind]
  | ok a => simpa [bind, Except.bind] using h a

lemma resolveTokens_iff {raws : List TokenEntry} :
    (∃ entries, resolveTokens env raws = .ok entries) ↔
      ∀ raw ∈ raws.map TokenEntry.token, Resolvable env raw := by
  induction raws with
  | nil => simp [resolveTokens]
  | cons raw raws ih =>
    unfold resolveTokens
    rw [List.map_cons, List.forall_mem_cons, ← ih]
    rw [exists_ok_bind fun token => exists_ok_bind fun rest => iff_of_true ⟨_, rfl⟩ trivial]
    simp only [and_true, resolveSecret_ok, Resolvable]

lemma resolveJwt_iff {jwt : JwtConfig} :
    (∃ cfg, resolveJwt env jwt = .ok cfg) ↔ ∀ raw ∈ jwt.hs256Secret, Resolvable env raw := by
  unfold resolveJwt
  rcases jwt.hs256Secret with _ | raw
  · simp
  · refine (exists_ok_bind fun secret => iff_of_true ⟨_, rfl⟩ trivial).trans ?_
    simp [resolveSecret_ok, Resolvable]

/-- The secrets are resolved when each of them is. -/
lemma resolveSecrets_iff {config : Server.Config} :
    (∃ resolved, Loading.Config.resolveSecrets env config = .ok resolved) ↔
      ∀ raw ∈ rawSecrets config.auth, Resolvable env raw := by
  unfold Loading.Config.resolveSecrets rawSecrets
  rw [List.forall_mem_append, ← resolveTokens_iff]
  rcases config.auth.jwt with _ | jwt
  · dsimp only
    rw [exists_ok_bind fun tokens => exists_ok_bind fun jwt => iff_of_true ⟨_, rfl⟩ trivial]
    simp [pure, Except.pure]
  · dsimp only
    rw [exists_ok_bind fun tokens => exists_ok_bind fun jwt => iff_of_true ⟨_, rfl⟩ trivial]
    simp only [Option.bind_some, Option.mem_toList, and_true]
    refine and_congr_right fun _ => Iff.trans ?_ resolveJwt_iff
    rcases resolveJwt env jwt with e | cfg <;> simp [Functor.map, Except.map]

lemma config_resolves_iff {config : Config} :
    (∃ resolved, config.resolveSecrets env = .ok resolved) ↔
      ∀ raw ∈ rawSecrets config.auth, Resolvable env raw := by
  rw [← resolveSecrets_iff]
  unfold Config.resolveSecrets
  rcases Loading.Config.resolveSecrets env config.toConfig with e | resolved <;> simp

/-- **A configuration is loaded exactly when** its file is read as a document of the shape of a
configuration and each of its secrets can be had. -/
theorem loads_iff (c : TomlCrate) (readToString : String → Except String String)
    (env : Environment) (path : String) :
    (∃ config, Config.load c readToString env path = .ok config) ↔
      ∃ text doc, readToString path = .ok text ∧ c.parse text = .ok doc ∧ ConfigShape c doc ∧
        ∀ raw, SecretOf doc raw → Resolvable env raw := by
  unfold Config.load Config.fromTomlStr Config.fromStr
  rcases readToString path with e | text
  · simp
  rcases hdoc : c.parse text with e | doc
  · simp [hdoc]
  -- One text and one document are left, and the shape is whether it is read.
  have hone : ∀ P : Toml → Prop, (∃ text' doc', (Except.ok text : Except String String) = .ok text' ∧
      c.parse text' = .ok doc' ∧ P doc') ↔ P doc := by
    intro P
    refine ⟨?_, fun h => ⟨text, doc, rfl, hdoc, h⟩⟩
    rintro ⟨_, _, ⟨⟩, hdoc', h⟩
    exact Except.ok.inj (hdoc.symm.trans hdoc') ▸ h
  rw [hone, ← reads_config c doc]
  rcases hraw : Config.fromToml c doc with _ | config
  · simp [hdoc, hraw]
  · simp only [hdoc, hraw, config_resolves_iff, secretOf_iff hraw, Option.some.injEq,
      exists_eq', true_and]

end GatewayAuth.ConfigFile
