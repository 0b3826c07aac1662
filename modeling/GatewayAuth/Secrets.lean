import GatewayAuth.Lib.Utf8
import GatewayAuth.Headers
import GatewayAuth.Identity
import GatewayAuth.Loading

/-!
Static tokens from the configuration to the request.

Loading keeps a secret as it is, and the request side takes the white space off what it reads. So
an empty secret matches a header with nothing in it, and a secret with white space around it, or
with a character that a header value may not have, matches no header at all.
-/

namespace GatewayAuth.Secrets

open GatewayAuth.Lib.Utf8 GatewayAuth.JsonBody GatewayAuth.Classify GatewayAuth.Authz
open GatewayAuth.Text GatewayAuth.Forwarding GatewayAuth.Jwt GatewayAuth.Auth
open GatewayAuth.Server GatewayAuth.Headers GatewayAuth.Identity GatewayAuth.Loading

/-! ### Text of a header value -/

/-- Every character is visible ASCII, a space or a tab. -/
def Readable (s : String) : Prop :=
  ∀ c ∈ s.toList, (32 ≤ c.toNat ∧ c.toNat < 127) ∨ c.toNat = 9

lemma isVisibleAscii_iff {b : UInt8} :
    isVisibleAscii b = true ↔ (32 ≤ b.toNat ∧ b.toNat < 127) ∨ b.toNat = 9 := by
  simp [isVisibleAscii, UInt8.le_iff_toNat_le, UInt8.lt_iff_toNat_lt, ← UInt8.toNat_inj]

lemma toStr_eq_some {value : Bytes} {s : String} : toStr value = some s ↔
    (∀ b ∈ value, isVisibleAscii b = true) ∧
      s = String.ofList (value.map fun b => Char.ofNat b.toNat) := by
  unfold toStr
  rw [Option.ite_none_right_eq_some, List.all_eq_true, Option.some.injEq, eq_comm (a := s)]

/-- **What a header value reads as is readable.** -/
lemma readable_of_toStr {value : Bytes} {s : String} (h : toStr value = some s) : Readable s := by
  obtain ⟨hvisible, rfl⟩ := toStr_eq_some.mp h
  intro c hc
  rw [String.toList_ofList] at hc
  obtain ⟨b, hb, rfl⟩ := List.mem_map.mp hc
  have hrange := isVisibleAscii_iff.mp (hvisible b hb)
  have hchar : (Char.ofNat b.toNat).toNat = b.toNat := by
    have hvalid : b.toNat.isValidChar := .inl (by omega)
    rw [Char.ofNat, dif_pos hvalid]
    rfl
  rw [hchar]
  exact hrange

/-- **A text is read back from its bytes when it is readable.** -/
lemma toStr_asBytes {s : String} (h : Readable s) : toStr (asBytes s) = some s := by
  have hascii : ∀ c ∈ s.toList, c.toNat < 128 := by
    intro c hc
    have hrange := h c hc
    omega
  have hbyte : ∀ c ∈ s.toList, c.toNat.toUInt8.toNat = c.toNat := by
    intro c hc
    have hlow := hascii c hc
    exact UInt8.toNat_ofNat_of_lt' (hlow.trans (by decide))
  rw [toStr_eq_some, asBytes, toUTF8_ascii hascii]
  refine ⟨fun b hb => ?_, ?_⟩
  · obtain ⟨c, hc, rfl⟩ := List.mem_map.mp hb
    rw [isVisibleAscii_iff, hbyte c hc]
    exact h c hc
  · have hback : ∀ c ∈ s.toList, Char.ofNat c.toNat.toUInt8.toNat = c := by
      intro c hc
      rw [hbyte c hc, Char.ofNat_toNat]
    have hmap : (s.toList.map fun c => c.toNat.toUInt8).map (fun b => Char.ofNat b.toNat) =
        s.toList := by
      rw [List.map_map]
      exact (List.map_congr_left hback).trans (List.map_id' _)
    rw [hmap, String.ofList_toList]

lemma readable_of_asBytes {s t : String} (h : toStr (asBytes s) = some t) : Readable s := by
  have hvisible := (toStr_eq_some.mp h).1
  have hascii : ∀ c ∈ s.toList, c.toNat < 128 := by
    intro c hc
    by_contra hhigh
    obtain ⟨b, hb, hb128⟩ := exists_high_byte hc (Nat.le_of_not_lt hhigh)
    have hrange := isVisibleAscii_iff.mp (hvisible b hb)
    have hbyte : 128 ≤ b.toNat := by simpa [UInt8.le_iff_toNat_le] using hb128
    omega
  intro c hc
  have hmem : c.toNat.toUInt8 ∈ asBytes s := by
    rw [asBytes, toUTF8_ascii hascii]
    exact List.mem_map.mpr ⟨c, hc, rfl⟩
  have hrange := isVisibleAscii_iff.mp (hvisible _ hmem)
  have hlow := hascii c hc
  have hbyte : c.toNat.toUInt8.toNat = c.toNat :=
    UInt8.toNat_ofNat_of_lt' (hlow.trans (by decide))
  rwa [hbyte] at hrange

lemma readable_append {s t : String} : Readable (s ++ t) ↔ Readable s ∧ Readable t := by
  simp only [Readable, String.toList_append, List.forall_mem_append]

lemma readable_of_all {s : String} (h : (s.toList.all fun c =>
    (32 ≤ c.toNat && c.toNat < 127) || c.toNat == 9) = true) : Readable s := by
  intro c hc
  simpa using List.all_eq_true.mp h c hc

lemma readable_bearer : Readable "Bearer " := readable_of_all (by decide)

/-! ### What the header yields -/

lemma extractBearer_eq_some {headers : HeaderMap} {t : String} :
    extractBearer headers = some t ↔ ∃ value rest, headers.get? "authorization" = some value ∧
      toStr value = some ("Bearer " ++ rest) ∧ t = trim rest := by
  unfold extractBearer
  rcases headers.get? "authorization" with _ | value
  · simp
  rcases hs : toStr value with _ | s
  · simp [hs]
  · simp only [hs, Option.map_eq_some_iff, stripPrefix_eq_some]
    refine ⟨?_, ?_⟩
    · rintro ⟨rest, rfl, rfl⟩
      exact ⟨value, rest, rfl, hs, rfl⟩
    · rintro ⟨_, rest, hvalue, hs', rfl⟩
      cases hvalue
      exact ⟨rest, Option.some.inj (hs.symm.trans hs'), rfl⟩

/-- The `Authorization` value is `Bearer ` with nothing but blanks after it. -/
def BlankBearer (headers : HeaderMap) : Prop :=
  ∃ blanks : Bytes, headers.get? "authorization" = some (ascii "Bearer " ++ blanks) ∧
    ∀ b ∈ blanks, isBlank b = true

lemma isBlank_iff {b : UInt8} : isBlank b = true ↔ b = 32 ∨ b = 9 := by
  simp [isBlank]

lemma extractBearer_blank {headers : HeaderMap} (h : BlankBearer headers) :
    extractBearer headers = some "" := by
  obtain ⟨blanks, hvalue, hblanks⟩ := h
  have hcases : ∀ b ∈ blanks, b = 32 ∨ b = 9 := fun b hb => isBlank_iff.mp (hblanks b hb)
  refine extractBearer_eq_some.mpr
    ⟨_, String.ofList (blanks.map fun b => Char.ofNat b.toNat), hvalue, ?_, ?_⟩
  · refine toStr_eq_some.mpr ⟨fun b hb => ?_, ?_⟩
    · have hbearer : (ascii "Bearer ").all isVisibleAscii = true := by decide
      rcases List.mem_append.mp hb with hb | hb
      · exact List.all_eq_true.mp hbearer b hb
      · rcases hcases b hb with rfl | rfl
        · rfl
        · rfl
    · rw [List.map_append, String.ofList_append]
      rfl
  · have hspace : ∀ c ∈ blanks.map fun b => Char.ofNat b.toNat, isWhitespace c = true := by
      intro c hc
      obtain ⟨b, hb, rfl⟩ := List.mem_map.mp hc
      rcases hcases b hb with rfl | rfl
      · rfl
      · rfl
    unfold trim
    rw [String.toList_ofList, List.dropWhile_eq_nil_iff.mpr hspace]
    rfl

/-- The token is the text some header value can yield. -/
def Presentable (token : String) : Prop := Readable token ∧ trim token = token

lemma trim_trim (s : String) : trim (trim s) = trim s := by
  unfold trim
  rw [String.toList_ofList]
  set l := s.toList.dropWhile isWhitespace with hl
  have hfirst : (l.rdropWhile isWhitespace).dropWhile isWhitespace =
      l.rdropWhile isWhitespace := by
    rw [List.dropWhile_eq_self_iff]
    intro hlen
    have hpre := List.rdropWhile_prefix isWhitespace l
    have hlen' : 0 < l.length := hlen.trans_le hpre.length_le
    rw [hpre.getElem hlen]
    have hself : l.dropWhile isWhitespace = l := by rw [hl, List.dropWhile_idempotent]
    exact List.dropWhile_eq_self_iff.mp hself hlen'
  rw [hfirst, List.rdropWhile_idempotent]

lemma readable_trim {s : String} (h : Readable s) : Readable (trim s) := by
  intro c hc
  rw [trim, String.toList_ofList] at hc
  have hdropped := (List.rdropWhile_prefix isWhitespace _).subset hc
  exact h c ((List.dropWhile_suffix isWhitespace).subset hdropped)

/-- The header value `Bearer ` and the token yields the token without the white space around
it. -/
lemma extractBearer_asBytes {headers : HeaderMap} {token : String}
    (hvalue : headers.get? "authorization" = some (asBytes ("Bearer " ++ token)))
    (h : Readable token) : extractBearer headers = some (trim token) :=
  extractBearer_eq_some.mpr
    ⟨_, token, hvalue, toStr_asBytes (readable_append.mpr ⟨readable_bearer, h⟩), rfl⟩

/-- **A token is yielded by some headers when it is readable and has no white space around it.** -/
lemma exists_extractBearer {token : String} :
    (∃ headers, extractBearer headers = some token) ↔ Presentable token := by
  refine ⟨?_, ?_⟩
  · rintro ⟨headers, h⟩
    obtain ⟨value, rest, -, hs, rfl⟩ := extractBearer_eq_some.mp h
    have hrest := (readable_append.mp (readable_of_toStr hs)).2
    exact ⟨readable_trim hrest, trim_trim rest⟩
  · rintro ⟨hreadable, htrim⟩
    refine ⟨[("authorization", asBytes ("Bearer " ++ token))], ?_⟩
    rw [extractBearer_asBytes rfl hreadable, htrim]

/-! ### Loaded tokens -/

/-- What the configuration writes for a secret stands for no text at all. -/
def EmptySecret (env : Environment) (raw : String) : Prop :=
  raw = "" ∨ ∃ var, raw = "env:" ++ var ∧ env var = some ""

lemma resolves_empty {env : Environment} {raw : String} :
    Resolves env raw "" ↔ EmptySecret env raw := by
  unfold Resolves EmptySecret
  refine ⟨?_, ?_⟩
  · rintro (henv | ⟨-, hraw⟩)
    · exact .inr henv
    · exact .inl hraw.symm
  · rintro (rfl | henv)
    · refine .inr ⟨fun var h => ?_, rfl⟩
      have hlist := congrArg String.toList h
      simp at hlist
    · exact .inl henv

variable {j : Jsonwebtoken} {toml : TomlReader} {env : Environment} {text : String}
  {config : Config} {a : Authenticator}

/-- Some loaded token is empty when the document has an empty secret. -/
lemma exists_empty_token (hload : Config.fromTomlStr toml env text = .ok config) :
    (∃ entry ∈ config.auth.tokens, entry.token = "") ↔
      ∃ raw, toml text = .ok raw ∧ ∃ entry ∈ raw.auth.tokens, EmptySecret env entry.token := by
  obtain ⟨raw, hraw, -, htokens⟩ := fromTomlStr_ok hload
  refine ⟨?_, ?_⟩
  · rintro ⟨entry, hentry, hempty⟩
    obtain ⟨rawEntry, hin, hresolves, -⟩ := exists_mem_of_forall₂ htokens.flip hentry
    rw [hempty, resolves_empty] at hresolves
    exact ⟨raw, hraw, rawEntry, hin, hresolves⟩
  · rintro ⟨raw', hraw', rawEntry, hin, hempty⟩
    cases hraw.symm.trans hraw'
    obtain ⟨entry, hentry, hresolves, -⟩ := exists_mem_of_forall₂ htokens hin
    exact ⟨entry, hentry, resolves_unique hresolves (resolves_empty.mpr hempty)⟩

lemma fromConfig_bearer (hmode : config.auth.mode = .bearer)
    (ha : Authenticator.fromConfig config.auth = .ok a) :
    a = .bearer ⟨config.auth.tokens⟩ := by
  unfold Authenticator.fromConfig at ha
  rw [hmode] at ha
  cases ha
  rfl

/-- A presented token is decided by the entries alone. -/
lemma authenticate_token (hmode : config.auth.mode = .bearer)
    (ha : Authenticator.fromConfig config.auth = .ok a) {creds : Credentials} {t : String}
    (ht : creds.bearer = some t) (now : ℕ) (allowAnonymousRead : Bool) (p : Principal) :
    a.authenticate j now creds allowAnonymousRead = .ok p ↔
      TokenNames config.auth.tokens t p := by
  rw [fromConfig_bearer hmode ha, bearer_ok, ht]
  simp

/-- The last entry of a secret is loaded as the last entry of its token. -/
lemma tokenNames_of_entry {before after : List TokenEntry} {entry : TokenEntry} {secret : String}
    {tokens : List TokenEntry}
    (h : List.Forall₂ (ResolvesEntry env) (before ++ entry :: after) tokens)
    (hsecret : Resolves env entry.token secret)
    (hlast : ∀ entry' ∈ after, ¬Resolves env entry'.token secret) :
    TokenNames tokens secret (.new entry.name entry.scopes) := by
  induction before generalizing tokens with
  | nil =>
    obtain ⟨loaded, rest, ⟨hresolves, hloaded⟩, hrest, rfl⟩ := List.forall₂_cons_left_iff.mp h
    have htoken := resolves_unique hresolves hsecret
    refine ⟨[], loaded, rest, rfl, htoken, fun e he heq => ?_, ?_⟩
    · obtain ⟨entry', hmem, hresolves', -⟩ := exists_mem_of_forall₂ hrest.flip he
      exact hlast entry' hmem (heq ▸ hresolves')
    · rw [hloaded]
  | cons first before ih =>
    obtain ⟨loaded, rest, -, hrest, rfl⟩ := List.forall₂_cons_left_iff.mp h
    obtain ⟨pre, e, post, hsplit, hnames⟩ := ih hrest
    exact ⟨loaded :: pre, e, post, by rw [hsplit, List.cons_append], hnames⟩

/-! ### An example: one token from the environment -/

def exampleToml : String :=
  "listen = \"127.0.0.1:8400\"\nmetrics = \"127.0.0.1:7300\"\n" ++
  "[upstream]\nagent_management = \"http://127.0.0.1:18000\"\n" ++
  "[auth]\nmode = \"bearer\"\n" ++
  "[[auth.tokens]]\nname = \"operator\"\ntoken = \"env:IGA_TOKEN_OPERATOR\"\n" ++
  "scopes = [\"read\", \"write\"]\n"

def exampleDocument (token : String) : Config where
  upstream := ⟨"http://127.0.0.1:18000", none, none⟩
  auth := ⟨.bearer, false, [⟨"operator", token, ["read", "write"]⟩], none, []⟩
  policy := .default
  ratelimit := .default

def exampleReader : TomlReader := fun text =>
  if text = exampleToml then .ok (exampleDocument "env:IGA_TOKEN_OPERATOR")
  else .error "missing field"

def exampleEnv (secret : String) : Environment := fun var =>
  if var = "IGA_TOKEN_OPERATOR" then some secret else none

lemma exampleReader_eq :
    exampleReader exampleToml = .ok (exampleDocument "env:IGA_TOKEN_OPERATOR") := if_pos rfl

lemma resolves_example (secret : String) :
    Resolves (exampleEnv secret) "env:IGA_TOKEN_OPERATOR" secret :=
  .inl ⟨"IGA_TOKEN_OPERATOR", by decide, if_pos rfl⟩

lemma fromTomlStr_example (secret : String) :
    Config.fromTomlStr exampleReader (exampleEnv secret) exampleToml =
      .ok (exampleDocument secret) := by
  have hsecret := resolveSecret_ok.mpr (resolves_example secret)
  unfold Config.fromTomlStr
  rw [exampleReader_eq]
  simp only [Config.resolveSecrets, exampleDocument, resolveTokens, hsecret]
  rfl

def exampleAuthenticator (secret : String) : Authenticator :=
  .bearer ⟨(exampleDocument secret).auth.tokens⟩

/-! ### Tokens and headers -/

/-- **A blank credential is refused as long as no secret is empty.** Of a configuration loaded in
bearer mode, the authenticator refuses every request whose `Authorization` value is `Bearer `
and blanks, if and only if the document has no token that is empty, written out or as the name of
a variable that is set to nothing. -/
theorem blank_bearer_refused_iff (j : Jsonwebtoken) (toml : TomlReader) (env : Environment)
    (text : String) (config : Config) (hload : Config.fromTomlStr toml env text = .ok config)
    (hmode : config.auth.mode = .bearer) (a : Authenticator)
    (ha : Authenticator.fromConfig config.auth = .ok a) :
    (∀ headers, BlankBearer headers → ∀ clientCert now allowAnonymousRead,
      ∃ e, a.authenticate j now ⟨extractBearer headers, clientCert⟩ allowAnonymousRead =
        .error e) ↔
      ∀ raw, toml text = .ok raw → ∀ entry ∈ raw.auth.tokens, ¬EmptySecret env entry.token := by
  have hnone : (∀ raw, toml text = .ok raw → ∀ entry ∈ raw.auth.tokens,
      ¬EmptySecret env entry.token) ↔ ¬∃ p, TokenNames config.auth.tokens "" p := by
    rw [exists_tokenNames, exists_empty_token hload]
    push Not
    rfl
  rw [hnone]
  refine ⟨?_, ?_⟩
  · rintro h ⟨p, hp⟩
    have hblank : BlankBearer [("authorization", ascii "Bearer ")] :=
      ⟨[], by rw [List.append_nil]; rfl, by simp⟩
    obtain ⟨e, he⟩ := h _ hblank none 0 false
    rw [extractBearer_blank hblank] at he
    have hok : a.authenticate j 0 ⟨some "", none⟩ false = .ok p :=
      (authenticate_token hmode ha rfl 0 false p).mpr hp
    cases he.symm.trans hok
  · intro h headers hblank clientCert now allow
    rcases hresult : a.authenticate j now ⟨extractBearer headers, clientCert⟩ allow with e | p
    · exact ⟨e, rfl⟩
    · have hp := (authenticate_token hmode ha (extractBearer_blank hblank) now allow p).mp hresult
      exact absurd ⟨p, hp⟩ h

theorem blank_bearer_refused_iff_operator :
    (∀ headers, BlankBearer headers → ∀ clientCert now allowAnonymousRead,
      ∃ e, (exampleAuthenticator "s3cret").authenticate exampleCrates.jwt now
        ⟨extractBearer headers, clientCert⟩ allowAnonymousRead = .error e) ↔
      ∀ raw, exampleReader exampleToml = .ok raw →
        ∀ entry ∈ raw.auth.tokens, ¬EmptySecret (exampleEnv "s3cret") entry.token :=
  blank_bearer_refused_iff exampleCrates.jwt exampleReader (exampleEnv "s3cret") exampleToml
    (exampleDocument "s3cret") (fromTomlStr_example _) rfl (exampleAuthenticator "s3cret") rfl

/-- With the variable set to nothing, a header with nothing in it makes the caller the
operator. -/
theorem empty_secret_accepted :
    Config.fromTomlStr exampleReader (exampleEnv "") exampleToml = .ok (exampleDocument "") ∧
      Authenticator.fromConfig (exampleDocument "").auth = .ok (exampleAuthenticator "") ∧
      BlankBearer [("authorization", ascii "Bearer ")] ∧
      (∀ now, (exampleAuthenticator "").authenticate exampleCrates.jwt now
        ⟨extractBearer [("authorization", ascii "Bearer ")], none⟩ false = .ok operator) ∧
      ¬∀ headers, BlankBearer headers → ∀ clientCert now allowAnonymousRead,
        ∃ e, (exampleAuthenticator "").authenticate exampleCrates.jwt now
          ⟨extractBearer headers, clientCert⟩ allowAnonymousRead = .error e := by
  have hblank : BlankBearer [("authorization", ascii "Bearer ")] :=
    ⟨[], by rw [List.append_nil]; rfl, by simp⟩
  have haccepted : ∀ now, (exampleAuthenticator "").authenticate exampleCrates.jwt now
      ⟨extractBearer [("authorization", ascii "Bearer ")], none⟩ false = .ok operator := by
    intro now
    rw [extractBearer_blank hblank]
    rfl
  refine ⟨fromTomlStr_example "", rfl, hblank, haccepted, fun h => ?_⟩
  obtain ⟨e, he⟩ := h _ hblank none 0 false
  cases he.symm.trans (haccepted 0)

/-- **A configured token can be used as long as a header can carry it.** For the last entry of a
secret in a configuration loaded in bearer mode, the value `Bearer ` and the secret is readable and
makes the caller that entry's principal, if and only if the secret is readable and has no white
space around it, or else the text within is itself a token of that principal; and no headers at all
yield the secret unless it is readable and has no white space around it. -/
theorem token_usable_iff (j : Jsonwebtoken) (toml : TomlReader) (env : Environment)
    (text : String) (config : Config) (hload : Config.fromTomlStr toml env text = .ok config)
    (hmode : config.auth.mode = .bearer) (a : Authenticator)
    (ha : Authenticator.fromConfig config.auth = .ok a) (raw : Config)
    (hraw : toml text = .ok raw) (before after : List TokenEntry) (entry : TokenEntry)
    (hentries : raw.auth.tokens = before ++ entry :: after) (secret : String)
    (hsecret : Resolves env entry.token secret)
    (hlast : ∀ entry' ∈ after, ¬Resolves env entry'.token secret) :
    (∀ headers, headers.get? "authorization" = some (asBytes ("Bearer " ++ secret)) →
      ∀ clientCert now allowAnonymousRead,
      ((toStr (asBytes ("Bearer " ++ secret))).isSome ∧
        a.authenticate j now ⟨extractBearer headers, clientCert⟩ allowAnonymousRead =
          .ok (.new entry.name entry.scopes)) ↔
      Readable secret ∧ (trim secret = secret ∨
        TokenNames config.auth.tokens (trim secret) (.new entry.name entry.scopes))) ∧
    ((∃ headers, extractBearer headers = some secret) ↔ Presentable secret) := by
  have hown : TokenNames config.auth.tokens secret (.new entry.name entry.scopes) := by
    obtain ⟨raw', hraw', -, htokens⟩ := fromTomlStr_ok hload
    cases hraw.symm.trans hraw'
    rw [hentries] at htokens
    exact tokenNames_of_entry htokens hsecret hlast
  refine ⟨fun headers hvalue clientCert now allow => ?_, exists_extractBearer⟩
  by_cases hreadable : Readable secret
  · have hyield := extractBearer_asBytes hvalue hreadable
    have hsome := toStr_asBytes (readable_append.mpr ⟨readable_bearer, hreadable⟩)
    rw [authenticate_token hmode ha hyield, hsome]
    refine ⟨fun h => ⟨hreadable, .inr h.2⟩, ?_⟩
    rintro ⟨-, htrim | hnames⟩
    · rw [htrim]
      exact ⟨rfl, hown⟩
    · exact ⟨rfl, hnames⟩
  · refine iff_of_false ?_ fun h => hreadable h.1
    rintro ⟨hsome, -⟩
    obtain ⟨s, hs⟩ := Option.isSome_iff_exists.mp hsome
    exact hreadable (readable_append.mp (readable_of_asBytes hs)).2

theorem token_usable_operator :
    (exampleAuthenticator "s3cret").authenticate exampleCrates.jwt 0
      ⟨extractBearer [("authorization", asBytes ("Bearer " ++ "s3cret"))], none⟩ false =
        .ok operator := by
  have hreadable : Readable "s3cret" := readable_of_all (by decide)
  exact (((token_usable_iff exampleCrates.jwt exampleReader (exampleEnv "s3cret") exampleToml
    (exampleDocument "s3cret") (fromTomlStr_example _) rfl (exampleAuthenticator "s3cret") rfl
    (exampleDocument "env:IGA_TOKEN_OPERATOR") exampleReader_eq [] []
    ⟨"operator", "env:IGA_TOKEN_OPERATOR", ["read", "write"]⟩ rfl "s3cret" (resolves_example _)
    (by simp)).1 _ rfl none 0 false).mpr ⟨hreadable, .inl (by decide)⟩).2

/-- With a newline at the end of the variable, no header makes the caller anyone. -/
theorem padded_secret_refused :
    Config.fromTomlStr exampleReader (exampleEnv "s3cret\n") exampleToml =
        .ok (exampleDocument "s3cret\n") ∧
      Authenticator.fromConfig (exampleDocument "s3cret\n").auth =
        .ok (exampleAuthenticator "s3cret\n") ∧
      ∀ headers clientCert now p, (exampleAuthenticator "s3cret\n").authenticate
        exampleCrates.jwt now ⟨extractBearer headers, clientCert⟩ false ≠ .ok p := by
  refine ⟨fromTomlStr_example _, rfl, fun headers clientCert now p hok => ?_⟩
  rcases bearer_ok.mp hok with ⟨t, ht, hnames⟩ | ⟨-, hallowed, -⟩
  · obtain ⟨entry, hentry, htoken⟩ := exists_tokenNames.mp ⟨p, hnames⟩
    rw [← htoken, List.mem_singleton.mp hentry] at ht
    exact absurd (exists_extractBearer.mp ⟨headers, ht⟩).2 (by decide)
  · cases hallowed

end GatewayAuth.Secrets
