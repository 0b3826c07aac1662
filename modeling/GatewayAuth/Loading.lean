import GatewayAuth.Server

/-!
Configuration: TOML on disk, secrets resolved from the environment.

The TOML reader and the file system are parameters.
-/

namespace GatewayAuth.Loading

open GatewayAuth.Text GatewayAuth.Jwt GatewayAuth.Auth GatewayAuth.Server

/-- The process environment: the value of each variable that is set to a Unicode text. -/
abbrev Environment := String → Option String

/-- The TOML reader for the configuration, with the text of its errors. -/
abbrev TomlReader := String → Except String Config

inductive ConfigError
  | read (path source : String)
  | parse (e : String)
  | missingEnv (var : String)
  deriving DecidableEq

def ConfigError.message : ConfigError → String
  | .read path source => "failed to read config file " ++ path ++ ": " ++ source
  | .parse e => "failed to parse config: " ++ e
  | .missingEnv var =>
    "config references environment variable `" ++ var ++ "`, which is not set"

/-- `env:NAME` reads `NAME` from the environment; anything else is the secret itself. -/
def resolveSecret (env : Environment) (raw : String) : Except ConfigError String :=
  match stripPrefix raw "env:" with
  | some var =>
    match env var with
    | some value => .ok value
    | none => .error (.missingEnv var)
  | none => .ok raw

def resolveTokens (env : Environment) : List TokenEntry → Except ConfigError (List TokenEntry)
  | [] => .ok []
  | entry :: entries => do
    let token ← resolveSecret env entry.token
    let rest ← resolveTokens env entries
    return { entry with token := token } :: rest

def resolveJwt (env : Environment) (jwt : JwtConfig) : Except ConfigError JwtConfig :=
  match jwt.hs256Secret with
  | none => .ok jwt
  | some secret => do
    let secret ← resolveSecret env secret
    return { jwt with hs256Secret := some secret }

/-- Replace every `env:NAME` secret reference with its environment value. -/
def Config.resolveSecrets (env : Environment) (config : Config) : Except ConfigError Config := do
  let tokens ← resolveTokens env config.auth.tokens
  let jwt ← match config.auth.jwt with
    | none => pure none
    | some jwt => some <$> resolveJwt env jwt
  return { config with auth := { config.auth with tokens := tokens, jwt := jwt } }

/-- Parse config from a TOML string, resolving `env:` secrets. -/
def Config.fromTomlStr (toml : TomlReader) (env : Environment) (text : String) :
    Except ConfigError Config :=
  match toml text with
  | .error e => .error (.parse e)
  | .ok config => Config.resolveSecrets env config

/-- Load config from a file. -/
def Config.load (readToString : String → Except String String) (toml : TomlReader)
    (env : Environment) (path : String) : Except ConfigError Config :=
  match readToString path with
  | .error source => .error (.read path source)
  | .ok text => Config.fromTomlStr toml env text

/-! ### What loading makes of the secrets -/

/-- What the configuration writes for a secret stands for this one. -/
def Resolves (env : Environment) (raw secret : String) : Prop :=
  (∃ var, raw = "env:" ++ var ∧ env var = some secret) ∨
    ((∀ var, raw ≠ "env:" ++ var) ∧ secret = raw)

variable {env : Environment}

lemma resolveSecret_ok {raw secret : String} :
    resolveSecret env raw = .ok secret ↔ Resolves env raw secret := by
  unfold resolveSecret Resolves
  rcases h : stripPrefix raw "env:" with _ | var
  · have hliteral := stripPrefix_eq_none.mp h
    simp only [Except.ok.injEq]
    refine ⟨fun heq => .inr ⟨hliteral, heq.symm⟩, ?_⟩
    rintro (⟨var, hraw, -⟩ | ⟨-, heq⟩)
    · exact absurd hraw (hliteral var)
    · exact heq.symm
  · have hraw := stripPrefix_eq_some.mp h
    have hvar : ∀ var', raw = "env:" ++ var' → var' = var := by
      intro var' hraw'
      exact Option.some.inj ((stripPrefix_eq_some.mpr hraw').symm.trans h)
    rcases henv : env var with _ | value
    · refine iff_of_false (by simp [henv]) ?_
      rintro (⟨var', hraw', hset⟩ | ⟨hliteral, -⟩)
      · rw [hvar var' hraw', henv] at hset
        cases hset
      · exact hliteral var hraw
    · simp only [henv, Except.ok.injEq]
      refine ⟨fun heq => .inl ⟨var, hraw, heq ▸ henv⟩, ?_⟩
      rintro (⟨var', hraw', hset⟩ | ⟨hliteral, -⟩)
      · rw [hvar var' hraw', henv] at hset
        exact Option.some.inj hset
      · exact absurd hraw (hliteral var)

lemma resolves_unique {raw secret secret' : String} (h : Resolves env raw secret)
    (h' : Resolves env raw secret') : secret = secret' :=
  Except.ok.inj ((resolveSecret_ok.mpr h).symm.trans (resolveSecret_ok.mpr h'))

/-- An entry of the document with its secret in place. -/
def ResolvesEntry (env : Environment) (raw entry : TokenEntry) : Prop :=
  Resolves env raw.token entry.token ∧ entry = { raw with token := entry.token }

lemma resolveTokens_ok {raws entries : List TokenEntry} (h : resolveTokens env raws = .ok entries) :
    List.Forall₂ (ResolvesEntry env) raws entries := by
  induction raws generalizing entries with
  | nil =>
    cases h
    exact .nil
  | cons raw raws ih =>
    unfold resolveTokens at h
    rcases htoken : resolveSecret env raw.token with e | token
    · rw [htoken] at h
      cases h
    rcases hrest : resolveTokens env raws with e | rest
    · rw [htoken, hrest] at h
      cases h
    rw [htoken, hrest] at h
    cases h
    exact .cons ⟨resolveSecret_ok.mp htoken, rfl⟩ (ih hrest)

/-- **What is loaded is what the document says, with its secrets in place.** -/
lemma fromTomlStr_ok {toml : TomlReader} {text : String} {config : Config}
    (h : Config.fromTomlStr toml env text = .ok config) :
    ∃ raw, toml text = .ok raw ∧ config.auth.mode = raw.auth.mode ∧
      List.Forall₂ (ResolvesEntry env) raw.auth.tokens config.auth.tokens := by
  unfold Config.fromTomlStr at h
  rcases hraw : toml text with e | raw
  · rw [hraw] at h
    cases h
  rw [hraw] at h
  refine ⟨raw, rfl, ?_⟩
  simp only [Config.resolveSecrets] at h
  rcases htokens : resolveTokens env raw.auth.tokens with e | tokens
  · rw [htokens] at h
    cases h
  rw [htokens] at h
  have hentries := resolveTokens_ok htokens
  rcases hjwt : raw.auth.jwt with _ | jwt
  · rw [hjwt] at h
    cases h
    exact ⟨rfl, hentries⟩
  rcases hsecret : resolveJwt env jwt with e | jwt'
  · rw [hjwt] at h
    simp only [hsecret] at h
    cases h
  · rw [hjwt] at h
    simp only [hsecret] at h
    cases h
    exact ⟨rfl, hentries⟩

lemma load_ok {readToString : String → Except String String} {toml : TomlReader} {path : String}
    {config : Config} : Config.load readToString toml env path = .ok config ↔
      ∃ text, readToString path = .ok text ∧ Config.fromTomlStr toml env text = .ok config := by
  unfold Config.load
  rcases readToString path with source | text
  · simp
  · simp

end GatewayAuth.Loading
