import Mathlib.Data.List.Perm.Basic
import GatewayAuth.Jwt

/-!
Which tokens a published key set admits. All keys are tried, but under one algorithm: that of
the first key that advertises one. A key for another algorithm does not verify its own tokens.
-/

namespace GatewayAuth.KeySets

open GatewayAuth.JsonBody GatewayAuth.Classify GatewayAuth.Authz GatewayAuth.Jwt

/-! ### The token library -/

def family : Algorithm → AlgorithmFamily
  | .hs256 | .hs384 | .hs512 => .hmac
  | .rs256 | .rs384 | .rs512 | .ps256 | .ps384 | .ps512 => .rsa
  | .es256 | .es384 => .ec
  | .eddsa => .ed

/-- What the decoder documents of algorithms: every admitted one is of the family of the key,
the one in the header of the token is among them, and the token is signed under the key by it. A
signature is by an algorithm of the family of its key. -/
structure FamilySpec (j : Jsonwebtoken) (header : String → Option Algorithm)
    (payload : String → Option Json) (signed : String → Algorithm → DecodingKey → Prop) :
    Prop where
  ok_iff : ∀ now token key v c, j.decode now token key v = .ok c ↔
    (∀ alg ∈ v.algorithms, family alg = key.family) ∧
      (∃ alg ∈ v.algorithms, header token = some alg ∧ signed token alg key) ∧
      payload token = some c ∧ validate j now v c = true
  family_eq : ∀ token alg key, signed token alg key → family alg = key.family

/-! ### The backend of a key set -/

/-- The verification algorithm a key advertises. -/
def advertised (jwk : Jwk) : Option Algorithm := jwk.keyAlgorithm.bind keyAlgorithmToAlgorithm

def firstAdvertised (set : List Jwk) : Option Algorithm := set.findSome? advertised

variable {j : Jsonwebtoken} {header : String → Option Algorithm} {payload : String → Option Json}
  {signed : String → Algorithm → DecodingKey → Prop} {cfg : JwtConfig}

lemma collectKeys_cons {jwk : Jwk} {key : DecodingKey} (hkey : j.fromJwk jwk = .ok key)
    (set : List Jwk) (keys : List DecodingKey) (algorithm : Option Algorithm) :
    collectKeys j (jwk :: set) keys algorithm =
      collectKeys j set (keys ++ [key]) (algorithm.or (advertised jwk)) := by
  cases algorithm with
  | none =>
    rw [collectKeys, hkey]
    rfl
  | some alg =>
    rw [collectKeys, hkey]
    rfl

lemma firstAdvertised_cons (jwk : Jwk) (set : List Jwk) :
    firstAdvertised (jwk :: set) = (advertised jwk).or (firstAdvertised set) := by
  unfold firstAdvertised
  rw [List.findSome?_cons]
  cases advertised jwk with
  | none => rfl
  | some alg => rfl

lemma collectKeys_ok {set : List Jwk} {keys keys' : List DecodingKey}
    {algorithm algorithm' : Option Algorithm} :
    collectKeys j set keys algorithm = .ok (keys', algorithm') ↔
      ∃ new, List.Forall₂ (fun jwk key => j.fromJwk jwk = .ok key) set new ∧
        keys' = keys ++ new ∧ algorithm' = algorithm.or (firstAdvertised set) := by
  induction set generalizing keys algorithm with
  | nil =>
    simp only [collectKeys, List.forall₂_nil_left_iff, exists_eq_left, List.append_nil,
      firstAdvertised, List.findSome?_nil, Option.or_none, Except.ok.injEq, Prod.mk.injEq]
    exact and_congr eq_comm eq_comm
  | cons jwk set ih =>
    rcases hkey : j.fromJwk jwk with e | key
    · unfold collectKeys
      simp [List.forall₂_cons_left_iff, hkey]
    · rw [collectKeys_cons hkey, ih, firstAdvertised_cons, Option.or_assoc]
      refine ⟨?_, ?_⟩
      · rintro ⟨new, hnew, rfl, rfl⟩
        exact ⟨key :: new, .cons hkey hnew, by simp, rfl⟩
      · rintro ⟨new, hnew, rfl, rfl⟩
        obtain ⟨key', new', hkey', hnew', rfl⟩ := List.forall₂_cons_left_iff.mp hnew
        cases hkey.symm.trans hkey'
        exact ⟨new', hnew', by simp, rfl⟩

/-- **What a backend of a key set is**: all its keys, and the first algorithm advertised. -/
lemma fromJwks_ok {set : List Jwk} {b : JwtBackend} :
    JwtBackend.fromJwks j cfg set = .ok b ↔ ∃ keys alg,
      List.Forall₂ (fun jwk key => j.fromJwk jwk = .ok key) set keys ∧
        firstAdvertised set = some alg ∧ b = .withKeys cfg keys alg := by
  unfold JwtBackend.fromJwks keysFromJwks
  by_cases hempty : set = []
  · subst hempty
    simp [firstAdvertised]
  have hcollect := @collectKeys_ok j set []
  simp only [List.isEmpty_iff, hempty, if_false]
  rcases hc : collectKeys j set [] none with e | ⟨keys, _ | alg⟩
  · refine iff_of_false (by simp) ?_
    rintro ⟨keys, alg, hkeys, halg, -⟩
    cases hc.symm.trans (hcollect.mpr ⟨keys, hkeys, rfl, rfl⟩)
  · obtain ⟨new, -, -, halg⟩ := hcollect.mp hc
    refine iff_of_false (by simp) ?_
    rintro ⟨_, alg, -, halg', -⟩
    rw [Option.none_or, halg'] at halg
    cases halg
  · obtain ⟨new, hnew, rfl, halg⟩ := hcollect.mp hc
    rw [Option.none_or] at halg
    simp only [Except.ok.injEq]
    refine ⟨?_, ?_⟩
    · rintro rfl
      exact ⟨_, alg, hnew, halg.symm, rfl⟩
    · rintro ⟨keys', alg', hkeys', halg', rfl⟩
      cases halg.trans halg'
      cases hc.symm.trans (hcollect.mpr ⟨keys', hkeys', rfl, by rw [halg']⟩)
      rfl

lemma mem_keys {set : List Jwk} {keys : List DecodingKey}
    (h : List.Forall₂ (fun jwk key => j.fromJwk jwk = .ok key) set keys) {key : DecodingKey} :
    key ∈ keys ↔ ∃ jwk ∈ set, j.fromJwk jwk = .ok key := by
  refine ⟨fun hkey => ?_, ?_⟩
  · exact exists_mem_of_forall₂ h.flip hkey
  · rintro ⟨jwk, hjwk, hkey⟩
    obtain ⟨key', hmem, hkey'⟩ := exists_mem_of_forall₂ h hjwk
    cases hkey.symm.trans hkey'
    exact hmem

/-- The token is good under this algorithm: it is by it, and its claims are valid. -/
def Good (j : Jsonwebtoken) (header : String → Option Algorithm) (payload : String → Option Json)
    (cfg : JwtConfig) (alg : Algorithm) (now : ℕ) (token : String) : Prop :=
  header token = some alg ∧
    ∃ c, payload token = some c ∧ validate j now (buildValidation cfg alg) c = true

/-- Some key of the set has signed the token by this algorithm. -/
def SignedIn (j : Jsonwebtoken) (signed : String → Algorithm → DecodingKey → Prop)
    (set : List Jwk) (alg : Algorithm) (token : String) : Prop :=
  ∃ jwk ∈ set, ∃ key, j.fromJwk jwk = .ok key ∧ signed token alg key

/-- **A key set admits exactly the good tokens of its first advertised algorithm.** -/
lemma verify_fromJwks (hspec : FamilySpec j header payload signed) {set : List Jwk}
    {b : JwtBackend} (hb : JwtBackend.fromJwks j cfg set = .ok b) {alg : Algorithm}
    (halg : firstAdvertised set = some alg) (now : ℕ) (token : String) :
    (∃ p, b.verify j now token = .ok p) ↔
      Good j header payload cfg alg now token ∧ SignedIn j signed set alg token := by
  obtain ⟨keys, alg', hkeys, halg', rfl⟩ := fromJwks_ok.mp hb
  cases halg.symm.trans halg'
  have halgorithms : (JwtBackend.withKeys cfg keys alg).validation.algorithms = [alg] := rfl
  rw [verify_ok_iff]
  simp only [hspec.ok_iff, halgorithms, List.mem_singleton, forall_eq, exists_eq_left]
  refine ⟨?_, ?_⟩
  · rintro ⟨key, hkey, c, -, ⟨hheader, hsigned⟩, hpayload, hvalid⟩
    obtain ⟨jwk, hjwk, hread⟩ := (mem_keys hkeys).mp hkey
    exact ⟨⟨hheader, c, hpayload, hvalid⟩, jwk, hjwk, key, hread, hsigned⟩
  · rintro ⟨⟨hheader, c, hpayload, hvalid⟩, jwk, hjwk, key, hread, hsigned⟩
    exact ⟨key, (mem_keys hkeys).mpr ⟨jwk, hjwk, hread⟩, c, hspec.family_eq _ _ _ hsigned,
      ⟨hheader, hsigned⟩, hpayload, hvalid⟩

/-- Another order of the keys gives a backend too. -/
lemma fromJwks_perm {set set' : List Jwk} (hperm : set.Perm set') {b : JwtBackend}
    (hb : JwtBackend.fromJwks j cfg set = .ok b) :
    ∃ b', JwtBackend.fromJwks j cfg set' = .ok b' := by
  obtain ⟨keys, alg, hkeys, halg, -⟩ := fromJwks_ok.mp hb
  have hread : ∀ jwk ∈ set', ∃ key, j.fromJwk jwk = .ok key := by
    intro jwk hjwk
    obtain ⟨key, -, hkey⟩ := exists_mem_of_forall₂ hkeys (hperm.mem_iff.mpr hjwk)
    exact ⟨key, hkey⟩
  obtain ⟨keys', hkeys'⟩ := forall₂_of_forall_exists hread
  obtain ⟨jwk, hjwk, hadvertised⟩ := List.exists_of_findSome?_eq_some halg
  rcases halg' : firstAdvertised set' with _ | alg'
  · have hnone := List.findSome?_eq_none_iff.mp halg' jwk (hperm.mem_iff.mp hjwk)
    cases hadvertised.symm.trans hnone
  · exact ⟨_, fromJwks_ok.mpr ⟨keys', alg', hkeys', halg', rfl⟩⟩

/-- **Every key of the set's algorithm verifies its own tokens, and no other key does.** In a set
from which a backend is built, the algorithm is the one that the first of its keys to advertise
one does. A key that advertises this algorithm verifies every good token it has signed; a token
by another algorithm is refused; and any other order of the keys that leaves the algorithm as it
is admits the same tokens. -/
theorem own_tokens_of_first_algorithm (j : Jsonwebtoken) (header : String → Option Algorithm)
    (payload : String → Option Json) (signed : String → Algorithm → DecodingKey → Prop)
    (hspec : FamilySpec j header payload signed) (cfg : JwtConfig) (set : List Jwk)
    (b : JwtBackend) (hb : JwtBackend.fromJwks j cfg set = .ok b) :
    ∃ alg, firstAdvertised set = some alg ∧
      (∀ jwk ∈ set, ∀ key, j.fromJwk jwk = .ok key → advertised jwk = some alg →
        ∀ now token, Good j header payload cfg alg now token → signed token alg key →
          ∃ p, b.verify j now token = .ok p) ∧
      (∀ now token, header token ≠ some alg → ∀ p, b.verify j now token ≠ .ok p) ∧
      ∀ set' : List Jwk, set.Perm set' → firstAdvertised set' = some alg →
        ∃ b', JwtBackend.fromJwks j cfg set' = .ok b' ∧ ∀ now token,
          (∃ p, b'.verify j now token = .ok p) ↔ ∃ p, b.verify j now token = .ok p := by
  obtain ⟨keys, alg, -, halg, -⟩ := fromJwks_ok.mp hb
  have hverify := verify_fromJwks hspec hb halg
  refine ⟨alg, halg, ?_, ?_, ?_⟩
  · intro jwk hjwk key hkey _ now token hgood hsigned
    exact (hverify now token).mpr ⟨hgood, jwk, hjwk, key, hkey, hsigned⟩
  · intro now token hne p hp
    obtain ⟨⟨hheader, -⟩, -⟩ := (hverify now token).mp ⟨p, hp⟩
    exact hne hheader
  · intro set' hperm halg'
    obtain ⟨b', hb'⟩ := fromJwks_perm hperm hb
    refine ⟨b', hb', fun now token => ?_⟩
    have hsigned : SignedIn j signed set' alg token ↔ SignedIn j signed set alg token := by
      unfold SignedIn
      simp only [hperm.mem_iff]
    rw [verify_fromJwks hspec hb' halg', hverify, hsigned]

/-! ### A key of each of two families -/

def rsaKey : DecodingKey := ⟨.rsa, [1]⟩
def ecKey : DecodingKey := ⟨.ec, [2]⟩

def rsaJwk : Jwk := ⟨some .rs256, [1]⟩
def ecJwk : Jwk := ⟨some .es256, [2]⟩

def pairConfig : JwtConfig :=
  ⟨"https://auth.example.com/", "indexer-management", some "https://auth.example.com/jwks.json",
    none, "scopes"⟩

/-- A token of each key, by the algorithm it advertises. -/
def pairHeader (token : String) : Option Algorithm :=
  if token = "rs256.claims.signature" then some .rs256
  else if token = "es256.claims.signature" then some .es256
  else none

def pairPayload (token : String) : Option Json :=
  if (pairHeader token).isSome then
    some (.obj [("iss", .str "https://auth.example.com/"), ("aud", .str "indexer-management"),
      ("sub", .str "alice"), ("exp", .num (.posInt 1780000000)), ("scopes", .str "read")])
  else none

def pairSigned (_ : String) (alg : Algorithm) (key : DecodingKey) : Prop :=
  (alg = .rs256 ∧ key = rsaKey) ∨ (alg = .es256 ∧ key = ecKey)

instance (token : String) (alg : Algorithm) (key : DecodingKey) :
    Decidable (pairSigned token alg key) :=
  inferInstanceAs (Decidable ((alg = .rs256 ∧ key = rsaKey) ∨ (alg = .es256 ∧ key = ecKey)))

/-- A library that decodes as documented. -/
def pairJwt : Jsonwebtoken where
  decode now token key v :=
    match pairPayload token with
    | none => .error "InvalidToken"
    | some c =>
      if (∀ alg ∈ v.algorithms, family alg = key.family) ∧
          (∃ alg ∈ v.algorithms, pairHeader token = some alg ∧ pairSigned token alg key) ∧
          validate ⟨fun _ _ _ _ => .error "", fun _ => .error "", fun _ => none⟩ now v c = true
      then .ok c else .error "InvalidAlgorithm"
  fromJwk jwk :=
    if jwk.params = [1] then .ok rsaKey
    else if jwk.params = [2] then .ok ecKey
    else .error "InvalidKeyFormat"
  roundDouble _ := none

lemma pairJwt_spec : FamilySpec pairJwt pairHeader pairPayload pairSigned := by
  refine ⟨fun now token key v c => ?_, ?_⟩
  · unfold pairJwt
    rcases hp : pairPayload token with _ | c'
    · simp [hp]
    · simp only [hp, Option.some.injEq]
      split_ifs with h
      · simp only [Except.ok.injEq]
        refine ⟨?_, fun hall => hall.2.2.1⟩
        rintro rfl
        exact ⟨h.1, h.2.1, rfl, h.2.2⟩
      · refine iff_of_false (by simp) ?_
        rintro ⟨hfamily, hheader, rfl, hvalid⟩
        exact h ⟨hfamily, hheader, hvalid⟩
  · rintro token alg key (⟨rfl, rfl⟩ | ⟨rfl, rfl⟩) <;> rfl

/-- Behind a key of another family a key does not verify its own tokens, and before it it does. -/
theorem second_key_refused :
    FamilySpec pairJwt pairHeader pairPayload pairSigned ∧
      Good pairJwt pairHeader pairPayload pairConfig .es256 1767225600 "es256.claims.signature" ∧
      pairJwt.fromJwk ecJwk = .ok ecKey ∧ advertised ecJwk = some .es256 ∧
      pairSigned "es256.claims.signature" .es256 ecKey ∧
      (∃ b, JwtBackend.fromJwks pairJwt pairConfig [rsaJwk, ecJwk] = .ok b ∧
        ∀ p, b.verify pairJwt 1767225600 "es256.claims.signature" ≠ .ok p) ∧
      ∃ b, JwtBackend.fromJwks pairJwt pairConfig [ecJwk, rsaJwk] = .ok b ∧
        ∃ p, b.verify pairJwt 1767225600 "es256.claims.signature" = .ok p := by
  have hgood : Good pairJwt pairHeader pairPayload pairConfig .es256 1767225600
      "es256.claims.signature" := ⟨rfl, _, rfl, by decide⟩
  have hsigned : pairSigned "es256.claims.signature" .es256 ecKey := .inr ⟨rfl, rfl⟩
  have hfirst : firstAdvertised [rsaJwk, ecJwk] = some .rs256 := rfl
  have hfirst' : firstAdvertised [ecJwk, rsaJwk] = some .es256 := rfl
  have hbuilt : JwtBackend.fromJwks pairJwt pairConfig [rsaJwk, ecJwk] =
      .ok (.withKeys pairConfig [rsaKey, ecKey] .rs256) := rfl
  have hbuilt' : JwtBackend.fromJwks pairJwt pairConfig [ecJwk, rsaJwk] =
      .ok (.withKeys pairConfig [ecKey, rsaKey] .es256) := rfl
  refine ⟨pairJwt_spec, hgood, rfl, rfl, hsigned, ⟨_, hbuilt, fun p hp => ?_⟩, _, hbuilt', ?_⟩
  · obtain ⟨⟨hheader, -⟩, -⟩ := (verify_fromJwks pairJwt_spec hbuilt hfirst _ _).mp ⟨p, hp⟩
    cases hheader
  · exact (verify_fromJwks pairJwt_spec hbuilt' hfirst' _ _).mpr
      ⟨hgood, ecJwk, List.mem_cons_self, ecKey, rfl, hsigned⟩

theorem own_tokens_of_first_algorithm_pair :
    ∃ alg, firstAdvertised [rsaJwk, ecJwk] = some alg ∧
      (∀ jwk ∈ [rsaJwk, ecJwk], ∀ key, pairJwt.fromJwk jwk = .ok key → advertised jwk = some alg →
        ∀ now token, Good pairJwt pairHeader pairPayload pairConfig alg now token →
          pairSigned token alg key →
          ∃ p, (JwtBackend.withKeys pairConfig [rsaKey, ecKey] .rs256).verify pairJwt now token =
            .ok p) := by
  obtain ⟨alg, halg, hown, -⟩ := own_tokens_of_first_algorithm pairJwt pairHeader pairPayload
    pairSigned pairJwt_spec pairConfig [rsaJwk, ecJwk]
    (.withKeys pairConfig [rsaKey, ecKey] .rs256) rfl
  exact ⟨alg, halg, hown⟩

end GatewayAuth.KeySets
