import GatewayAuth.Authz
import GatewayAuth.Text

/-!
JWT backend: signature, `exp`, `nbf`, issuer and audience are left to the token library, and
the principal's scopes are read from a configured claim.

The library is a parameter. What it documents of its validation is a definition here, and
that its decoder does this is a hypothesis where a result needs it.
-/

namespace GatewayAuth.Jwt

open GatewayAuth.JsonBody GatewayAuth.Classify GatewayAuth.Authz GatewayAuth.Text

/-- Why authentication failed. -/
inductive AuthError
  | missingCredentials
  | invalidToken
  | invalidClientCert
  | jwt (e : String)
  | misconfigured (e : String)
  deriving DecidableEq

def AuthError.message : AuthError → String
  | .missingCredentials => "no credentials presented"
  | .invalidToken => "invalid or unknown token"
  | .invalidClientCert => "client certificate not recognised"
  | .jwt e => "JWT verification failed: " ++ e
  | .misconfigured e => "backend not configured: " ++ e

structure JwtConfig where
  issuer : String
  audience : String
  jwksUrl : Option String
  hs256Secret : Option String
  scopesClaim : String

/-! ### The token library -/

inductive Algorithm
  | hs256 | hs384 | hs512 | es256 | es384 | rs256 | rs384 | rs512 | ps256 | ps384 | ps512 | eddsa
  deriving DecidableEq

/-- The `alg` of a JWK, with those that are not for signatures. -/
inductive KeyAlgorithm
  | hs256 | hs384 | hs512 | es256 | es384 | rs256 | rs384 | rs512 | ps256 | ps384 | ps512 | eddsa
  | rsa1_5 | rsaOaep | rsaOaep256 | unknown
  deriving DecidableEq

inductive AlgorithmFamily
  | hmac | rsa | ec | ed
  deriving DecidableEq

structure DecodingKey where
  family : AlgorithmFamily
  material : Bytes
  deriving DecidableEq

/-- The UTF-8 bytes of a secret. -/
def asBytes (s : String) : Bytes := s.toUTF8.toList

def DecodingKey.fromSecret (secret : Bytes) : DecodingKey := ⟨.hmac, secret⟩

/-- One key of a JWKS document. -/
structure Jwk where
  keyAlgorithm : Option KeyAlgorithm
  params : Bytes

/-- What a token is validated against. -/
structure Validation where
  requiredSpecClaims : List String
  leeway : ℕ
  validateExp : Bool
  validateNbf : Bool
  validateAud : Bool
  aud : Option (List String)
  iss : Option (List String)
  algorithms : List Algorithm
  deriving DecidableEq

/-- The defaults: `exp` is required and compared, with a leeway of a minute. -/
def Validation.new (alg : Algorithm) : Validation where
  requiredSpecClaims := ["exp"]
  leeway := 60
  validateExp := true
  validateNbf := false
  validateAud := true
  aud := none
  iss := none
  algorithms := [alg]

/-- The token library: its decoder at a time in seconds, the key of a JWK, and the whole
seconds a claim given as a double is read as. -/
structure Jsonwebtoken where
  decode : ℕ → String → DecodingKey → Validation → Except String Json
  fromJwk : Jwk → Except String DecodingKey
  roundDouble : UInt64 → Option ℕ

variable (j : Jsonwebtoken)

/-- A time claim, when it is a number that counts seconds. -/
def numericDate : Json → Option ℕ
  | .num (.posInt n) => some n
  | .num (.float bits) => j.roundDouble bits
  | _ => none

/-- An issuer or audience claim: one string, or an array of strings. -/
def namesOf : Json → Option (List String)
  | .str s => some [s]
  | .arr items => items.mapM Json.asStr
  | _ => none

/-- The claim is present and can be read. -/
def present (c : Json) (claim : String) : Bool :=
  match claim with
  | "exp" | "nbf" => ((c.get? claim).bind (numericDate j)).isSome
  | "iss" | "aud" => ((c.get? claim).bind namesOf).isSome
  | "sub" => ((c.get? claim).bind Json.asStr).isSome
  | _ => true

/-- The names of the claim, when they can be read, share one with those accepted. -/
def namesAccepted (accepted : Option (List String)) (c : Json) (claim : String) : Bool :=
  match (c.get? claim).bind namesOf, accepted with
  | some names, some accepted => names.any fun n => accepted.contains n
  | _, _ => true

/-- The documented validation of claims: the required ones are there, and each claim is
compared if it is present and can be read. An audience with none configured is refused. -/
def validate (now : ℕ) (v : Validation) (c : Json) : Bool :=
  v.requiredSpecClaims.all (present j c) &&
    (match (c.get? "exp").bind (numericDate j) with
      | some e => !(v.validateExp && decide (e + v.leeway < now))
      | none => true) &&
    (match (c.get? "nbf").bind (numericDate j) with
      | some n => !(v.validateNbf && decide (now + v.leeway < n))
      | none => true) &&
    namesAccepted v.iss c "iss" &&
    (!v.validateAud ||
      (namesAccepted v.aud c "aud" &&
        !(v.aud.isNone && ((c.get? "aud").bind namesOf).isSome)))

/-- What the decoder documents: it succeeds exactly on a token with that payload, signed
under the key by an admitted algorithm, whose claims pass the validation. -/
structure DecodeSpec (payload : String → Option Json)
    (signed : String → DecodingKey → List Algorithm → Prop) : Prop where
  ok_iff : ∀ now token key v c, j.decode now token key v = .ok c ↔
    payload token = some c ∧ signed token key v.algorithms ∧ validate j now v c = true

/-! ### The backend -/

structure JwtBackend where
  keys : List DecodingKey
  validation : Validation
  scopesClaim : String

def buildValidation (cfg : JwtConfig) (alg : Algorithm) : Validation :=
  { Validation.new alg with
    iss := some [cfg.issuer], aud := some [cfg.audience], validateNbf := true }

/-- Build from config. Requires `hs256_secret` to be set. -/
def JwtBackend.fromConfig (cfg : JwtConfig) : Except AuthError JwtBackend :=
  match cfg.hs256Secret with
  | none =>
    .error (.misconfigured "JWT backend needs hs256_secret (JWKS requires async startup)")
  | some secret =>
    .ok ⟨[.fromSecret (asBytes secret)], buildValidation cfg .hs256, cfg.scopesClaim⟩

/-- Build with externally-supplied decoding keys. -/
def JwtBackend.withKeys (cfg : JwtConfig) (keys : List DecodingKey) (alg : Algorithm) :
    JwtBackend := ⟨keys, buildValidation cfg alg, cfg.scopesClaim⟩

/-- Map a JWK `alg` to the verification algorithm. -/
def keyAlgorithmToAlgorithm : KeyAlgorithm → Option Algorithm
  | .hs256 => some .hs256
  | .hs384 => some .hs384
  | .hs512 => some .hs512
  | .es256 => some .es256
  | .es384 => some .es384
  | .rs256 => some .rs256
  | .rs384 => some .rs384
  | .rs512 => some .rs512
  | .ps256 => some .ps256
  | .ps384 => some .ps384
  | .ps512 => some .ps512
  | .eddsa => some .eddsa
  | _ => none

/-- The keys in order, and the algorithm of the first that advertises one. -/
def collectKeys : List Jwk → List DecodingKey → Option Algorithm →
    Except AuthError (List DecodingKey × Option Algorithm)
  | [], keys, algorithm => .ok (keys, algorithm)
  | jwk :: jwks, keys, algorithm =>
    match j.fromJwk jwk with
    | .error e => .error (.jwt ("invalid JWK: " ++ e))
    | .ok key =>
      collectKeys jwks (keys ++ [key])
        (match algorithm with
          | some alg => some alg
          | none => jwk.keyAlgorithm.bind keyAlgorithmToAlgorithm)

/-- Build decoding keys from a JWKS, returning the algorithm advertised by the keys. -/
def keysFromJwks (set : List Jwk) : Except AuthError (List DecodingKey × Algorithm) :=
  if set.isEmpty then .error (.jwt "JWKS contained no keys")
  else
    match collectKeys j set [] none with
    | .error e => .error e
    | .ok (_, none) => .error (.jwt "JWKS keys do not advertise an 'alg'")
    | .ok (keys, some alg) => .ok (keys, alg)

/-- Build from an already-fetched JWKS document. -/
def JwtBackend.fromJwks (cfg : JwtConfig) (set : List Jwk) : Except AuthError JwtBackend :=
  match keysFromJwks j set with
  | .error e => .error e
  | .ok (keys, alg) => .ok (.withKeys cfg keys alg)

/-- Read scopes from a claim that may be an array of strings or a space-delimited string. -/
def extractScopes (claims : Json) (claim : String) : List String :=
  match claims.get? claim with
  | some (.arr items) => items.filterMap Json.asStr
  | some (.str s) => splitWhitespace s
  | _ => []

def JwtBackend.principalFromClaims (b : JwtBackend) (claims : Json) : Principal :=
  .new (((claims.get? "sub").bind Json.asStr).getD "jwt") (extractScopes claims b.scopesClaim)

/-- The keys in turn: the first that accepts the token decides, else the last error. -/
def tryKeys (b : JwtBackend) (now : ℕ) (token : String) :
    List DecodingKey → Option String → Except AuthError Principal
  | [], lastErr => .error (.jwt (lastErr.getD "no verification keys configured"))
  | key :: keys, _ =>
    match j.decode now token key b.validation with
    | .ok claims => .ok (b.principalFromClaims claims)
    | .error e => tryKeys b now token keys (some e)

def JwtBackend.verify (b : JwtBackend) (now : ℕ) (token : String) : Except AuthError Principal :=
  tryKeys j b now token b.keys none

/-- A backend made for the configuration, in any of the three ways. -/
def BuiltFrom (cfg : JwtConfig) (b : JwtBackend) : Prop :=
  JwtBackend.fromConfig cfg = .ok b ∨ (∃ keys alg, b = .withKeys cfg keys alg) ∨
    ∃ set, JwtBackend.fromJwks j cfg set = .ok b

variable {j}

/-- Every way of building ends in the same validation. -/
lemma BuiltFrom.validation {cfg : JwtConfig} {b : JwtBackend} (h : BuiltFrom j cfg b) :
    ∃ alg, b.validation = buildValidation cfg alg := by
  rcases h with h | ⟨keys, alg, rfl⟩ | ⟨set, h⟩
  · unfold JwtBackend.fromConfig at h
    split at h
    · cases h
    · cases h; exact ⟨_, rfl⟩
  · exact ⟨alg, rfl⟩
  · unfold JwtBackend.fromJwks at h
    split at h
    · cases h
    · cases h; exact ⟨_, rfl⟩

/-- **A token is accepted exactly when some key decodes it.** -/
lemma verify_ok_iff {b : JwtBackend} {now : ℕ} {token : String} :
    (∃ p, b.verify j now token = .ok p) ↔
      ∃ key ∈ b.keys, ∃ c, j.decode now token key b.validation = .ok c := by
  have key : ∀ keys last, (∃ p, tryKeys j b now token keys last = .ok p) ↔
      ∃ key ∈ keys, ∃ c, j.decode now token key b.validation = .ok c := by
    intro keys
    induction keys with
    | nil => simp [tryKeys]
    | cons k keys ih =>
      intro last
      unfold tryKeys
      rcases hd : j.decode now token k b.validation with e | c
      · simp [hd, ih]
      · simp [hd]
  exact key b.keys none

lemma verify_not_missing {b : JwtBackend} {now : ℕ} {token : String} :
    b.verify j now token ≠ .error .missingCredentials := by
  have key : ∀ keys last, tryKeys j b now token keys last ≠ .error .missingCredentials := by
    intro keys
    induction keys with
    | nil => simp [tryKeys]
    | cons k keys ih =>
      intro last
      unfold tryKeys
      rcases hd : j.decode now token k b.validation with e | c
      · simpa using ih _
      · simp
  exact key b.keys none

end GatewayAuth.Jwt
