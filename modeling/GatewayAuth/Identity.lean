import GatewayAuth.Lib.Runs
import GatewayAuth.Server

/-!
Who a credential makes the caller: the static token backend and the certificate backend.

Both look through a list of entries. The token backend goes through all of them and keeps the
last that matches; the certificate backend stops at the first.
-/

namespace GatewayAuth.Identity

open GatewayAuth.Lib.Runs GatewayAuth.Classify GatewayAuth.Authz GatewayAuth.Jwt GatewayAuth.Auth
open GatewayAuth.Server

/-! ### Entries that match -/

/-- `p` is the principal of the last entry with this token. -/
def TokenNames (tokens : List TokenEntry) (t : String) (p : Principal) : Prop :=
  ∃ before e after, tokens = before ++ e :: after ∧ e.token = t ∧
    (∀ e' ∈ after, e'.token ≠ t) ∧ p = .new e.name e.scopes

/-- The certificate carries the subject, as its common name or as an alternative name. -/
def Carries (cert : ClientCert) (subject : String) : Prop :=
  cert.subjectCn = some subject ∨ subject ∈ cert.sans

/-- `p` is the principal of the first mapping whose subject the certificate carries. -/
def MappingNames (mappings : List MtlsMapping) (cert : ClientCert) (p : Principal) : Prop :=
  ∃ before m after, mappings = before ++ m :: after ∧ Carries cert m.subject ∧
    (∀ m' ∈ before, ¬Carries cert m'.subject) ∧ p = .new m.name m.scopes

/-- The scan that keeps the last match. -/
lemma foldl_last_eq_some {α : Type} {P : α → Bool} {l : List α} {a : α} :
    l.foldl (fun matched r => if P r then some r else matched) none = some a ↔
      ∃ before after, l = before ++ a :: after ∧ P a = true ∧ ∀ r ∈ after, P r = false := by
  induction l using List.reverseRecOn with
  | nil => simp
  | append_singleton l r ih =>
    rw [List.foldl_append, List.foldl_cons, List.foldl_nil]
    by_cases hr : P r = true
    · rw [if_pos hr]
      refine ⟨fun h => ?_, ?_⟩
      · cases h
        exact ⟨l, [], rfl, hr, by simp⟩
      · rintro ⟨before, after, heq, -, hafter⟩
        rcases snoc_eq_append_cons.mp heq with ⟨-, rfl, -⟩ | ⟨init, rfl, -⟩
        · rfl
        · have hfalse := hafter r (by simp)
          rw [hr] at hfalse
          cases hfalse
    · rw [if_neg hr, ih]
      refine ⟨?_, ?_⟩
      · rintro ⟨before, after, rfl, ha, hafter⟩
        refine ⟨before, after ++ [r], by simp, ha, fun r' hr' => ?_⟩
        rcases List.mem_append.mp hr' with h | h
        · exact hafter r' h
        · rw [List.mem_singleton.mp h]
          simpa using hr
      · rintro ⟨before, after, heq, ha, hafter⟩
        rcases snoc_eq_append_cons.mp heq with ⟨-, rfl, -⟩ | ⟨init, rfl, rfl⟩
        · exact absurd ha hr
        · exact ⟨before, init, rfl, ha, fun r' hr' => hafter r' (by simp [hr'])⟩

lemma foldl_last_isSome {α : Type} {P : α → Bool} {l : List α} {a : α} (ha : a ∈ l)
    (hP : P a = true) :
    ∃ b, l.foldl (fun matched r => if P r then some r else matched) none = some b := by
  induction l using List.reverseRecOn with
  | nil => cases ha
  | append_singleton l r ih =>
    rw [List.foldl_append, List.foldl_cons, List.foldl_nil]
    by_cases hr : P r = true
    · exact ⟨r, if_pos hr⟩
    · rw [if_neg hr]
      rcases List.mem_append.mp ha with h | h
      · exact ih h
      · rw [List.mem_singleton.mp h] at hP
        exact absurd hP hr

/-- **A token is accepted for the last entry that has it.** -/
lemma token_verify_iff {b : StaticTokenBackend} {t : String} {p : Principal} :
    b.verify t = .ok p ↔ TokenNames b.tokens t p := by
  have hscan : b.verify t = .ok p ↔ ∃ e, b.tokens.foldl
      (fun matched r => if r.token == t then some r else matched) none = some e ∧
        p = .new e.name e.scopes := by
    unfold StaticTokenBackend.verify
    simp only
    split
    · next e he =>
      refine ⟨fun h => ?_, ?_⟩
      · cases h
        exact ⟨e, he, rfl⟩
      · rintro ⟨e', he', rfl⟩
        cases he.symm.trans he'
        rfl
    · next hnone =>
      refine iff_of_false (by simp) ?_
      rintro ⟨e, he, -⟩
      cases hnone.symm.trans he
  rw [hscan]
  refine ⟨?_, ?_⟩
  · rintro ⟨e, he, rfl⟩
    obtain ⟨before, after, htokens, ht, hafter⟩ := foldl_last_eq_some.mp he
    exact ⟨before, e, after, htokens, by simpa using ht, by simpa using hafter, rfl⟩
  · rintro ⟨before, e, after, htokens, ht, hafter, rfl⟩
    refine ⟨e, foldl_last_eq_some.mpr ⟨before, after, htokens, ?_, ?_⟩, rfl⟩
    · simpa using ht
    · simpa using hafter

/-- **A certificate is accepted for the first mapping whose subject it carries.** -/
lemma mtls_verify_iff {b : MtlsBackend} {cert : ClientCert} {p : Principal} :
    b.verify cert = .ok p ↔ MappingNames b.mappings cert p := by
  have hcarries : ∀ m : MtlsMapping, (cert.subjectCn == some m.subject ||
      cert.sans.any fun s => s == m.subject) = true ↔ Carries cert m.subject := by
    intro m
    simp [Carries]
  have hscan : b.verify cert = .ok p ↔ ∃ m, b.mappings.find? (fun m =>
      cert.subjectCn == some m.subject || cert.sans.any fun s => s == m.subject) = some m ∧
        p = .new m.name m.scopes := by
    unfold MtlsBackend.verify
    split
    · next e he =>
      refine ⟨fun h => ?_, ?_⟩
      · cases h
        exact ⟨e, he, rfl⟩
      · rintro ⟨e', he', rfl⟩
        cases he.symm.trans he'
        rfl
    · next hnone =>
      refine iff_of_false (by simp) ?_
      rintro ⟨e, he, -⟩
      cases hnone.symm.trans he
  have hnot : ∀ m : MtlsMapping, (!(cert.subjectCn == some m.subject ||
      cert.sans.any fun s => s == m.subject)) = true ↔ ¬Carries cert m.subject := by
    intro m
    rw [Bool.not_eq_true', ← hcarries m, Bool.not_eq_true]
  rw [hscan]
  refine ⟨?_, ?_⟩
  · rintro ⟨m, hm, rfl⟩
    obtain ⟨hcarry, before, after, hmappings, hbefore⟩ := List.find?_eq_some_iff_append.mp hm
    exact ⟨before, m, after, hmappings, (hcarries m).mp hcarry,
      fun m' hm' => (hnot m').mp (hbefore m' hm'), rfl⟩
  · rintro ⟨before, m, after, hmappings, hcarry, hbefore, rfl⟩
    exact ⟨m, List.find?_eq_some_iff_append.mpr ⟨(hcarries m).mpr hcarry, before, after, hmappings,
      fun m' hm' => (hnot m').mpr (hbefore m' hm')⟩, rfl⟩

lemma exists_tokenNames {tokens : List TokenEntry} {t : String} :
    (∃ p, TokenNames tokens t p) ↔ ∃ e ∈ tokens, e.token = t := by
  refine ⟨?_, ?_⟩
  · rintro ⟨p, before, e, after, rfl, ht, -⟩
    exact ⟨e, by simp, ht⟩
  · rintro ⟨e, he, ht⟩
    obtain ⟨e', hlast⟩ := foldl_last_isSome (P := fun r : TokenEntry => r.token == t) he
      (by simpa using ht)
    obtain ⟨before, after, htokens, ht', hafter⟩ := foldl_last_eq_some.mp hlast
    exact ⟨_, before, e', after, htokens, by simpa using ht', by simpa using hafter, rfl⟩

lemma exists_mappingNames {mappings : List MtlsMapping} {cert : ClientCert} :
    (∃ p, MappingNames mappings cert p) ↔ ∃ m ∈ mappings, Carries cert m.subject := by
  refine ⟨?_, ?_⟩
  · rintro ⟨p, before, m, after, rfl, hcarry, -⟩
    exact ⟨m, by simp, hcarry⟩
  · rintro ⟨m, hm, hcarry⟩
    obtain ⟨m', before, after, rfl, hbefore, hcarry'⟩ :
        ∃ m' before after, mappings = before ++ m' :: after ∧
          (∀ r ∈ before, ¬Carries cert r.subject) ∧ Carries cert m'.subject := by
      classical
      have hsome : (mappings.find? fun m => decide (Carries cert m.subject)).isSome := by
        rw [List.find?_isSome]
        exact ⟨m, hm, by simpa using hcarry⟩
      obtain ⟨m', hm'⟩ := Option.isSome_iff_exists.mp hsome
      obtain ⟨hcarry', before, after, hmappings, hbefore⟩ := List.find?_eq_some_iff_append.mp hm'
      exact ⟨m', before, after, hmappings, by simpa using hbefore, by simpa using hcarry'⟩
    exact ⟨_, before, m', after, rfl, hcarry', hbefore, rfl⟩

/-! ### What the configuration makes of credentials -/

/-- `p` is whom the credentials identify: the principal of one entry that matches the credential
of the mode, or the anonymous one when there is none and that is allowed. -/
def Identifies (auth : AuthConfig) (creds : Credentials) (allowAnonymousRead : Bool)
    (p : Principal) : Prop :=
  match auth.mode with
  | .bearer => (∃ t, creds.bearer = some t ∧ TokenNames auth.tokens t p) ∨
      (creds.bearer = none ∧ allowAnonymousRead = true ∧ p = .anonymous)
  | .mtls => (∃ cert, creds.clientCert = some cert ∧ MappingNames auth.mtls cert p) ∨
      (creds.clientCert = none ∧ allowAnonymousRead = true ∧ p = .anonymous)
  | .jwt => False

/-- The credential of the mode is there and some entry matches it. -/
def Matched (auth : AuthConfig) (creds : Credentials) : Prop :=
  match auth.mode with
  | .bearer => ∃ t, creds.bearer = some t ∧ ∃ e ∈ auth.tokens, e.token = t
  | .mtls => ∃ cert, creds.clientCert = some cert ∧ ∃ m ∈ auth.mtls, Carries cert m.subject
  | .jwt => False

def Absent (mode : AuthMode) (creds : Credentials) : Prop :=
  match mode with
  | .bearer | .jwt => creds.bearer = none
  | .mtls => creds.clientCert = none

/-- The credentials are alike in the one the mode reads. -/
def SameCredential (mode : AuthMode) (creds creds' : Credentials) : Prop :=
  match mode with
  | .bearer | .jwt => creds.bearer = creds'.bearer
  | .mtls => creds.clientCert = creds'.clientCert

variable {j : Jsonwebtoken}

/-- A presented credential is decided by the backend, a missing one by the setting. -/
lemma authenticate_ok {a : Authenticator} {now : ℕ} {creds : Credentials}
    {allowAnonymousRead : Bool} {p : Principal} :
    a.authenticate j now creds allowAnonymousRead = .ok p ↔ a.backend j now creds = .ok p ∨
      (a.backend j now creds = .error .missingCredentials ∧ allowAnonymousRead = true ∧
        p = .anonymous) := by
  unfold Authenticator.authenticate
  rcases hb : a.backend j now creds with e | p'
  · cases e with
    | missingCredentials => cases allowAnonymousRead <;> simp [eq_comm]
    | _ => simp
  · simp

lemma bearer_ok {b : StaticTokenBackend} {now : ℕ} {creds : Credentials}
    {allowAnonymousRead : Bool} {p : Principal} :
    (Authenticator.bearer b).authenticate j now creds allowAnonymousRead = .ok p ↔
      (∃ t, creds.bearer = some t ∧ TokenNames b.tokens t p) ∨
        (creds.bearer = none ∧ allowAnonymousRead = true ∧ p = .anonymous) := by
  rw [authenticate_ok]
  unfold Authenticator.backend
  rcases creds.bearer with _ | t
  · simp
  · simp [token_not_missing, token_verify_iff]

lemma mtls_ok {b : MtlsBackend} {now : ℕ} {creds : Credentials} {allowAnonymousRead : Bool}
    {p : Principal} :
    (Authenticator.mtls b).authenticate j now creds allowAnonymousRead = .ok p ↔
      (∃ cert, creds.clientCert = some cert ∧ MappingNames b.mappings cert p) ∨
        (creds.clientCert = none ∧ allowAnonymousRead = true ∧ p = .anonymous) := by
  rw [authenticate_ok]
  unfold Authenticator.backend
  rcases creds.clientCert with _ | cert
  · simp
  · simp [mtls_not_missing, mtls_verify_iff]

/-- Built from the configuration, the authenticator accepts whom the credentials identify. -/
lemma fromConfig_ok {auth : AuthConfig} {a : Authenticator}
    (ha : Authenticator.fromConfig auth = .ok a) (hmode : auth.mode ≠ .jwt) {now : ℕ}
    {creds : Credentials} {allowAnonymousRead : Bool} {p : Principal} :
    a.authenticate j now creds allowAnonymousRead = .ok p ↔
      Identifies auth creds allowAnonymousRead p := by
  unfold Authenticator.fromConfig at ha
  unfold Identifies
  cases hm : auth.mode with
  | bearer =>
    rw [hm] at ha
    cases ha
    exact bearer_ok
  | mtls =>
    rw [hm] at ha
    cases ha
    exact mtls_ok
  | jwt => exact absurd hm hmode

lemma exists_identifies {auth : AuthConfig} (hmode : auth.mode ≠ .jwt) {creds : Credentials}
    {allowAnonymousRead : Bool} :
    (∃ p, Identifies auth creds allowAnonymousRead p) ↔
      Matched auth creds ∨ (Absent auth.mode creds ∧ allowAnonymousRead = true) := by
  have hpull : ∀ {α : Type} (o : Option α) (R : α → Principal → Prop) (Q : Prop),
      (∃ p, (∃ c, o = some c ∧ R c p) ∨ (o = none ∧ Q ∧ p = .anonymous)) ↔
        (∃ c, o = some c ∧ ∃ p, R c p) ∨ (o = none ∧ Q) := by
    intro α o R Q
    cases o <;> simp
  unfold Identifies Matched Absent
  cases hm : auth.mode with
  | bearer =>
    simp only [hpull, exists_tokenNames]
  | mtls =>
    simp only [hpull, exists_mappingNames]
  | jwt => exact absurd hm hmode

/-- Changing the other credential changes nothing. -/
lemma authenticate_congr {auth : AuthConfig} {a : Authenticator}
    (ha : Authenticator.fromConfig auth = .ok a) (hmode : auth.mode ≠ .jwt)
    {creds creds' : Credentials} (hsame : SameCredential auth.mode creds creds') (now : ℕ)
    (allowAnonymousRead : Bool) :
    a.authenticate j now creds allowAnonymousRead =
      a.authenticate j now creds' allowAnonymousRead := by
  have hbackend : a.backend j now creds = a.backend j now creds' := by
    unfold Authenticator.fromConfig at ha
    unfold SameCredential at hsame
    unfold Authenticator.backend
    cases hm : auth.mode with
    | bearer =>
      rw [hm] at ha hsame
      cases ha
      simp only at hsame
      simp only [hsame]
    | mtls =>
      rw [hm] at ha hsame
      cases ha
      simp only at hsame
      simp only [hsame]
    | jwt => exact absurd hm hmode
  unfold Authenticator.authenticate
  rw [hbackend]

/-- The anonymous principal has no write. -/
lemma anonymous_denied {c : Classification} (hc : c.scope = .write) (policy : Policy) :
    ∃ d, authorize .anonymous c policy = .error d := by
  rcases h : authorize .anonymous c policy with d | required
  · exact ⟨d, rfl⟩
  · have hbase := (authorized_iff.mp ⟨required, h⟩).1
    rw [hc] at hbase
    exact absurd (satisfies_reader.mp hbase) (by decide)

/-- **No identity is invented.** An authenticator built for bearer or mTLS mode accepts exactly
whom the credentials identify, and someone exactly when an entry matches or the anonymous
principal is let in; the credential of the other kind bears on nothing; and no policy lets the
anonymous principal write. -/
theorem no_identity_invented (j : Jsonwebtoken) (auth : AuthConfig) (a : Authenticator)
    (ha : Authenticator.fromConfig auth = .ok a) (hmode : auth.mode ≠ .jwt) :
    (∀ now creds allowAnonymousRead,
      (∀ p, a.authenticate j now creds allowAnonymousRead = .ok p ↔
        Identifies auth creds allowAnonymousRead p) ∧
      ((∃ p, a.authenticate j now creds allowAnonymousRead = .ok p) ↔
        Matched auth creds ∨ (Absent auth.mode creds ∧ allowAnonymousRead = true)) ∧
      ∀ creds', SameCredential auth.mode creds creds' →
        a.authenticate j now creds allowAnonymousRead =
          a.authenticate j now creds' allowAnonymousRead) ∧
    ∀ (policy : Policy) (c : Classification), c.scope = .write →
      ∃ d, authorize .anonymous c policy = .error d := by
  refine ⟨fun now creds allow => ⟨fun p => fromConfig_ok ha hmode, ?_, fun creds' hsame => ?_⟩,
    fun policy c hc => anonymous_denied hc policy⟩
  · rw [← exists_identifies hmode]
    exact exists_congr fun p => fromConfig_ok ha hmode
  · exact authenticate_congr ha hmode hsame now allow

theorem no_identity_invented_operator :
    (Authenticator.bearer ⟨exampleTokens⟩).authenticate exampleCrates.jwt 0
        ⟨some "write-token", none⟩ false = .ok operator ↔
      Identifies (exampleConfig true .default).auth ⟨some "write-token", none⟩ false operator :=
  ((no_identity_invented exampleCrates.jwt (exampleConfig true .default).auth
    (.bearer ⟨exampleTokens⟩) rfl (by decide)).1 0 ⟨some "write-token", none⟩ false).1 operator

end GatewayAuth.Identity
