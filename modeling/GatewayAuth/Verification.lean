import GatewayAuth.Server

/-!
What an accepted credential vouches for, and what becomes of one that is not accepted.

The token library compares a claim when it is there and can be read; the backend asks it to
require `exp` alone. The extraction helpers give no credential where one was presented in a form
they do not read.
-/

namespace GatewayAuth.Verification

open GatewayAuth.JsonBody GatewayAuth.Classify GatewayAuth.Authz GatewayAuth.Text
open GatewayAuth.Forwarding GatewayAuth.Jwt GatewayAuth.Auth GatewayAuth.Server

/-! ### Claims of a token -/

variable {j : Jsonwebtoken}

/-- A double below zero, by its sign bit. -/
def isNegative (bits : UInt64) : Prop := 2 ^ 63 ≤ bits.toNat

/-- A time claim is a number, and not later than `t`. A double that is not read as seconds is
either below zero or beyond every time. -/
def NotLater (j : Jsonwebtoken) (t : ℕ) : Json → Prop
  | .num (.posInt n) => n ≤ t
  | .num (.negInt _) => True
  | .num (.float bits) => isNegative bits ∨ ∃ n, j.roundDouble bits = some n ∧ n ≤ t
  | _ => False

/-- The audience is the one claimed, or one of those claimed. -/
def NamesAudience (audience : String) : Json → Prop
  | .str s => s = audience
  | .arr items => .str audience ∈ items
  | _ => False

/-- The claims are bound to the gateway and to the time, with a leeway of a minute. -/
structure Bound (j : Jsonwebtoken) (cfg : JwtConfig) (now : ℕ) (c : Json) : Prop where
  iss : c.get? "iss" = some (.str cfg.issuer)
  aud : ∃ v, c.get? "aud" = some v ∧ NamesAudience cfg.audience v
  exp : ∃ e, (c.get? "exp").bind (numericDate j) = some e ∧ now ≤ e + 60
  nbf : ∀ v, c.get? "nbf" = some v → NotLater j (now + 60) v

/-- A number that counts seconds or is below zero. -/
def IsTime (j : Jsonwebtoken) : Json → Prop
  | .num (.float bits) => isNegative bits ∨ (j.roundDouble bits).isSome
  | .num _ => True
  | _ => False

/-- The form in which the claims are compared: the issuer is one string, the audience is a
string, an array of strings or names the configured one anyway, and a not-before claim is a
time. -/
structure Comparable (j : Jsonwebtoken) (cfg : JwtConfig) (c : Json) : Prop where
  iss : ∃ s, c.get? "iss" = some (.str s)
  aud : ∃ v, c.get? "aud" = some v ∧ ((namesOf v).isSome ∨ NamesAudience cfg.audience v)
  nbf : ∀ v, c.get? "nbf" = some v → IsTime j v

lemma isTime_of_notLater {v : Json} {t : ℕ} (h : NotLater j t v) : IsTime j v := by
  unfold NotLater at h
  split at h
  · trivial
  · trivial
  · rcases h with hneg | ⟨n, hn, -⟩
    · exact .inl hneg
    · exact .inr (by rw [hn]; rfl)
  · exact absurd h id

/-- A time that is compared wherever it can be read is not late. -/
lemma notLater_of_isTime {v : Json} {t : ℕ} (h : IsTime j v)
    (hcompared : ∀ n, numericDate j v = some n → n ≤ t) : NotLater j t v := by
  cases v with
  | num n =>
    cases n with
    | posInt n => exact hcompared n rfl
    | negInt n => trivial
    | float bits =>
      rcases h with hneg | hsome
      · exact .inl hneg
      · obtain ⟨n, hn⟩ := Option.isSome_iff_exists.mp hsome
        exact .inr ⟨n, hn, hcompared n hn⟩
  | _ => exact absurd h id

lemma namesAudience_of_namesOf {v : Json} {names : List String} {audience : String}
    (h : namesOf v = some names) (hmem : audience ∈ names) : NamesAudience audience v := by
  cases v with
  | str s =>
    cases h
    exact (List.mem_singleton.mp hmem).symm
  | arr items =>
    have hitems : List.Forall₂ (fun i n => i.asStr = some n) items names := mapM_eq_some.mp h
    obtain ⟨i, hi, heq⟩ := exists_mem_of_forall₂ hitems.flip hmem
    cases i with
    | str s =>
      cases heq
      exact hi
    | _ => cases heq
  | _ => cases h

lemma namesAccepted_iff {accepted : List String} {c : Json} {claim : String} :
    namesAccepted (some accepted) c claim = true ↔
      ∀ names, (c.get? claim).bind namesOf = some names → ∃ n ∈ names, n ∈ accepted := by
  unfold namesAccepted
  rcases h : (c.get? claim).bind namesOf with _ | names
  · simp
  · simp

/-- **What the built validation compares.** -/
lemma validate_built {cfg : JwtConfig} {alg : Algorithm} {now : ℕ} {c : Json} :
    validate j now (buildValidation cfg alg) c = true ↔
      (∃ e, (c.get? "exp").bind (numericDate j) = some e ∧ now ≤ e + 60) ∧
      (∀ n, (c.get? "nbf").bind (numericDate j) = some n → n ≤ now + 60) ∧
      (∀ names, (c.get? "iss").bind namesOf = some names → cfg.issuer ∈ names) ∧
      ∀ names, (c.get? "aud").bind namesOf = some names → cfg.audience ∈ names := by
  have hiss : namesAccepted (some [cfg.issuer]) c "iss" = true ↔
      ∀ names, (c.get? "iss").bind namesOf = some names → cfg.issuer ∈ names := by
    simp [namesAccepted_iff]
  have haud : namesAccepted (some [cfg.audience]) c "aud" = true ↔
      ∀ names, (c.get? "aud").bind namesOf = some names → cfg.audience ∈ names := by
    simp [namesAccepted_iff]
  rw [← hiss, ← haud]
  unfold validate buildValidation Validation.new
  rcases hexp : (c.get? "exp").bind (numericDate j) with _ | e
  · simp [present, hexp]
  · rcases hnbf : (c.get? "nbf").bind (numericDate j) with _ | n
    · simp [present, hexp, and_assoc]
    · simp [present, hexp, and_assoc]

/-- **Claims that pass the validation are bound exactly when they are comparable.** -/
lemma bound_iff_comparable {cfg : JwtConfig} {alg : Algorithm} {now : ℕ} {c : Json}
    (h : validate j now (buildValidation cfg alg) c = true) :
    Bound j cfg now c ↔ Comparable j cfg c := by
  obtain ⟨hexp, hnbf, hiss, haud⟩ := validate_built.mp h
  refine ⟨fun hb => ?_, fun hc => ?_⟩
  · obtain ⟨v, hv, hnames⟩ := hb.aud
    exact ⟨⟨_, hb.iss⟩, ⟨v, hv, .inr hnames⟩, fun v hv => isTime_of_notLater (hb.nbf v hv)⟩
  · obtain ⟨s, hs⟩ := hc.iss
    have hissuer : cfg.issuer = s := by simpa using hiss [s] (by rw [hs]; rfl)
    obtain ⟨v, hv, hread⟩ := hc.aud
    refine ⟨by rw [hissuer]; exact hs, ⟨v, hv, ?_⟩, hexp, fun v hv => ?_⟩
    · rcases hread with hsome | hnames
      · obtain ⟨names, hnames⟩ := Option.isSome_iff_exists.mp hsome
        exact namesAudience_of_namesOf hnames (haud names (by rw [hv]; exact hnames))
      · exact hnames
    · exact notLater_of_isTime (hc.nbf v hv) fun n hn => hnbf n (by rw [hv]; exact hn)

/-- **A token is accepted without being bound to the gateway exactly when** it is signed and its
claims pass the validation, but not all of them are there in the form that is compared. -/
theorem verify_bound_iff (j : Jsonwebtoken) (payload : String → Option Json)
    (signed : String → DecodingKey → List Algorithm → Prop) (hspec : DecodeSpec j payload signed)
    (cfg : JwtConfig) (b : JwtBackend) (hb : BuiltFrom j cfg b) (now : ℕ) (token : String) :
    (∀ p, b.verify j now token = .ok p →
        ∃ c, payload token = some c ∧ Bound j cfg now c) ↔
      ¬∃ c, payload token = some c ∧
        (∃ key ∈ b.keys, signed token key b.validation.algorithms) ∧
        validate j now b.validation c = true ∧ ¬Comparable j cfg c := by
  obtain ⟨alg, hvalidation⟩ := hb.validation
  have hbound : ∀ c, validate j now b.validation c = true →
      (Bound j cfg now c ↔ Comparable j cfg c) := by
    intro c hc
    rw [hvalidation] at hc
    exact bound_iff_comparable hc
  refine ⟨?_, ?_⟩
  · rintro h ⟨c, hpayload, ⟨key, hkey, hsigned⟩, hvalid, hnot⟩
    have hdecode := (hspec.ok_iff now token key b.validation c).mpr ⟨hpayload, hsigned, hvalid⟩
    obtain ⟨p, hp⟩ := verify_ok_iff.mpr ⟨key, hkey, c, hdecode⟩
    obtain ⟨c', hpayload', hb'⟩ := h p hp
    rw [hpayload] at hpayload'
    cases hpayload'
    exact hnot ((hbound c hvalid).mp hb')
  · intro hcond p hp
    obtain ⟨key, hkey, c, hdecode⟩ := verify_ok_iff.mp ⟨p, hp⟩
    obtain ⟨hpayload, hsigned, hvalid⟩ := (hspec.ok_iff now token key b.validation c).mp hdecode
    refine ⟨c, hpayload, (hbound c hvalid).mpr ?_⟩
    by_contra hnot
    exact hcond ⟨c, hpayload, ⟨key, hkey, hsigned⟩, hvalid, hnot⟩

/-! ### A library that decodes as documented -/

def documented (payload : String → Option Json)
    (signed : String → DecodingKey → List Algorithm → Bool) (roundDouble : UInt64 → Option ℕ) :
    Jsonwebtoken where
  decode now token key v :=
    match payload token with
    | none => .error "InvalidToken"
    | some c =>
      if signed token key v.algorithms &&
          validate ⟨fun _ _ _ _ => .error "", fun _ => .error "", roundDouble⟩ now v c
      then .ok c else .error "InvalidSignature"
  fromJwk _ := .error "InvalidKeyFormat"
  roundDouble := roundDouble

lemma documented_spec (payload : String → Option Json)
    (signed : String → DecodingKey → List Algorithm → Bool) (roundDouble : UInt64 → Option ℕ) :
    DecodeSpec (documented payload signed roundDouble) payload
      fun token key algorithms => signed token key algorithms = true := by
  refine ⟨fun now token key v c => ?_⟩
  unfold documented
  rcases hp : payload token with _ | c'
  · simp [hp]
  · simp only [hp, Bool.and_eq_true, Option.some.injEq]
    split_ifs with h
    · simp only [Except.ok.injEq]
      refine ⟨fun heq => ?_, fun hall => hall.1⟩
      rw [← heq]
      exact ⟨rfl, h⟩
    · refine iff_of_false (by simp) ?_
      rintro ⟨rfl, hs⟩
      exact absurd hs h

def exampleKey : DecodingKey := .fromSecret [115, 101, 99, 114, 101, 116]

def exampleJwtConfig : JwtConfig :=
  ⟨"https://auth.example.com/", "indexer-management", none, some "secret", "scopes"⟩

/-- Claims of another gateway's token: neither an issuer nor an audience. -/
def examplePayload (token : String) : Option Json :=
  if token = "header.unbound.signature" then
    some (.obj [("sub", .str "alice"), ("exp", .num (.posInt 1780000000)),
      ("scopes", .str "read write")])
  else none

def exampleJwt : Jsonwebtoken :=
  documented examplePayload (fun _ key algorithms => key == exampleKey && algorithms.contains .hs256)
    fun _ => none

/-- A signed token without issuer and audience is accepted. -/
theorem unbound_token_accepted :
    BuiltFrom exampleJwt exampleJwtConfig (.withKeys exampleJwtConfig [exampleKey] .hs256) ∧
      (JwtBackend.withKeys exampleJwtConfig [exampleKey] .hs256).verify exampleJwt 1767225600
        "header.unbound.signature" = .ok (.new "alice" ["read", "write"]) ∧
      ∀ c, examplePayload "header.unbound.signature" = some c →
        c.get? "iss" = none ∧ c.get? "aud" = none ∧
          ¬Bound exampleJwt exampleJwtConfig 1767225600 c := by
  refine ⟨.inr (.inl ⟨_, _, rfl⟩), by decide, fun c hc => ?_⟩
  cases hc
  exact ⟨rfl, rfl, fun h => absurd h.iss (by simp [Json.get?, JsonBody.lookup])⟩

theorem verify_bound_iff_unbound :
    (∀ p, (JwtBackend.withKeys exampleJwtConfig [exampleKey] .hs256).verify exampleJwt 1767225600
        "header.unbound.signature" = .ok p →
      ∃ c, examplePayload "header.unbound.signature" = some c ∧
        Bound exampleJwt exampleJwtConfig 1767225600 c) ↔
      ¬∃ c, examplePayload "header.unbound.signature" = some c ∧
        (∃ key ∈ [exampleKey], (key == exampleKey && [Algorithm.hs256].contains .hs256) = true) ∧
        validate exampleJwt 1767225600 (buildValidation exampleJwtConfig .hs256) c = true ∧
          ¬Comparable exampleJwt exampleJwtConfig c :=
  verify_bound_iff exampleJwt examplePayload
    (fun _ key algorithms => (key == exampleKey && algorithms.contains .hs256) = true)
    (documented_spec _ _ _) exampleJwtConfig (.withKeys exampleJwtConfig [exampleKey] .hs256)
    (.inr (.inl ⟨_, _, rfl⟩)) 1767225600 "header.unbound.signature"

/-! ### A credential that is not accepted -/

/-- The request presents a credential of the kind the mode uses. -/
def Presented (a : Authenticator) (headers : HeaderMap) (chain : Option (List Bytes)) : Prop :=
  match a with
  | .bearer _ | .jwt _ => ∃ value, headers.get? "authorization" = some value
  | .mtls _ => ∃ leaf rest, chain = some (leaf :: rest)

/-- The credential is in the form the extraction helpers read: the header is visible ASCII and
starts with the scheme as they spell it, the leaf certificate parses. -/
def Legible (a : Authenticator) (fromDer : FromDer) (headers : HeaderMap)
    (chain : Option (List Bytes)) : Prop :=
  match a with
  | .bearer _ | .jwt _ => ∃ value s, headers.get? "authorization" = some value ∧
      toStr value = some s ∧ (stripPrefix s "Bearer ").isSome
  | .mtls _ => ∃ leaf rest cert, chain = some (leaf :: rest) ∧ fromDer leaf = some cert

lemma extractBearer_isSome {headers : HeaderMap} :
    (∃ t, extractBearer headers = some t) ↔ ∃ value s,
      headers.get? "authorization" = some value ∧ toStr value = some s ∧
        (stripPrefix s "Bearer ").isSome := by
  unfold extractBearer
  rcases hv : headers.get? "authorization" with _ | value
  · simp
  rcases hs : toStr value with _ | s
  · simp [hs]
  · simp [hs, Option.isSome_iff_exists]

lemma extractIdentity_isSome {fromDer : FromDer} {chain : Option (List Bytes)} :
    (∃ c, chain.bind (extractIdentity fromDer) = some c) ↔ ∃ leaf rest cert,
      chain = some (leaf :: rest) ∧ fromDer leaf = some cert := by
  rcases chain with _ | _ | ⟨leaf, rest⟩
  · simp
  · simp [extractIdentity]
  · rcases hd : fromDer leaf with _ | cert
    · simp [extractIdentity, hd]
    · simp [extractIdentity, hd]

/-- **Only an extracted credential is told apart from a missing one.** -/
lemma backend_missing_iff {a : Authenticator} {fromDer : FromDer} {now : ℕ} {headers : HeaderMap}
    {chain : Option (List Bytes)} :
    a.backend j now (credentials fromDer headers chain) = .error .missingCredentials ↔
      ¬Legible a fromDer headers chain := by
  cases a with
  | bearer b =>
    rw [Legible, ← extractBearer_isSome]
    unfold Authenticator.backend credentials
    rcases h : extractBearer headers with _ | t
    · simp
    · simp [token_not_missing]
  | jwt b =>
    rw [Legible, ← extractBearer_isSome]
    unfold Authenticator.backend credentials
    rcases h : extractBearer headers with _ | t
    · simp
    · simp [verify_not_missing]
  | mtls b =>
    rw [Legible, ← extractIdentity_isSome]
    unfold Authenticator.backend credentials
    rcases h : chain.bind (extractIdentity fromDer) with _ | c
    · simp
    · simp [mtls_not_missing]

/-- **A presented credential that the backend does not accept is refused exactly when it is
legible**; an illegible one counts as missing, and the request goes on as anonymous. -/
theorem refused_iff_legible (j : Jsonwebtoken) (a : Authenticator) (fromDer : FromDer) (now : ℕ)
    (headers : HeaderMap) (chain : Option (List Bytes))
    (hunverified : ∀ p, a.backend j now (credentials fromDer headers chain) ≠ .ok p) :
    (Presented a headers chain →
        (∃ e, a.authenticate j now (credentials fromDer headers chain) true = .error e) ∧
        a.authenticate j now (credentials fromDer headers chain) true ≠ .ok .anonymous) ↔
      (Presented a headers chain → Legible a fromDer headers chain) := by
  refine imp_congr_right fun _ => ?_
  have hmissing : a.backend j now (credentials fromDer headers chain) =
      .error .missingCredentials ↔ ¬Legible a fromDer headers chain := backend_missing_iff
  unfold Authenticator.authenticate
  rcases hb : a.backend j now (credentials fromDer headers chain) with e | p
  · rw [hb] at hmissing
    by_cases he : e = .missingCredentials
    · subst he
      have hlegible := hmissing.mp rfl
      simp [hlegible]
    · have hlegible : Legible a fromDer headers chain := by
        by_contra hnot
        have := hmissing.mpr hnot
        simp only [Except.error.injEq] at this
        exact he this
      cases e <;> simp_all
  · exact absurd hb (hunverified p)

/-- A header of the right mode with this value. -/
def exampleCredentials (value : String) : Credentials :=
  credentials (fun _ => none) [("authorization", ascii value)] none

/-- Another scheme in the header, and the request is anonymous. -/
theorem basic_scheme_is_anonymous :
    Presented (.bearer ⟨exampleTokens⟩) [("authorization", ascii "Basic b3A6cHc=")] none ∧
      (Authenticator.bearer ⟨exampleTokens⟩).backend exampleJwt 0
        (exampleCredentials "Basic b3A6cHc=") = .error .missingCredentials ∧
      (Authenticator.bearer ⟨exampleTokens⟩).authenticate exampleJwt 0
        (exampleCredentials "Basic b3A6cHc=") true = .ok .anonymous :=
  ⟨⟨_, rfl⟩, rfl, rfl⟩

theorem refused_iff_legible_unknown_token :
    (Presented (.bearer ⟨exampleTokens⟩) [("authorization", ascii "Bearer nope")] none →
        (∃ e, (Authenticator.bearer ⟨exampleTokens⟩).authenticate exampleJwt 0
          (exampleCredentials "Bearer nope") true = .error e) ∧
        (Authenticator.bearer ⟨exampleTokens⟩).authenticate exampleJwt 0
          (exampleCredentials "Bearer nope") true ≠ .ok .anonymous) ↔
      (Presented (.bearer ⟨exampleTokens⟩) [("authorization", ascii "Bearer nope")] none →
        Legible (.bearer ⟨exampleTokens⟩) (fun _ => none)
          [("authorization", ascii "Bearer nope")] none) := by
  refine refused_iff_legible exampleJwt (.bearer ⟨exampleTokens⟩) (fun _ => none) 0
    [("authorization", ascii "Bearer nope")] none fun p hp => ?_
  have hinvalid : (Authenticator.bearer ⟨exampleTokens⟩).backend exampleJwt 0
      (exampleCredentials "Bearer nope") = .error .invalidToken := rfl
  exact absurd (hinvalid.symm.trans hp) (by simp)

end GatewayAuth.Verification
