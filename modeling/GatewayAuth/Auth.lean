import GatewayAuth.Forwarding
import GatewayAuth.Jwt

/-!
Authentication: static bearer tokens, JWT and mTLS, and what the HTTP and TLS layers extract
as credentials.
-/

namespace GatewayAuth.Auth

open GatewayAuth.Classify GatewayAuth.Authz GatewayAuth.Text GatewayAuth.Forwarding
open GatewayAuth.Jwt

/-! ### Configuration -/

inductive AuthMode
  | bearer
  | jwt
  | mtls
  deriving DecidableEq

structure TokenEntry where
  name : String
  token : String
  scopes : List String

/-- Maps an mTLS client certificate identity (a CN or SAN value) to a principal. -/
structure MtlsMapping where
  subject : String
  name : String
  scopes : List String

structure AuthConfig where
  mode : AuthMode
  allowAnonymousRead : Bool
  tokens : List TokenEntry
  jwt : Option JwtConfig
  mtls : List MtlsMapping

/-! ### Backends -/

structure StaticTokenBackend where
  tokens : List TokenEntry

/-- Every entry is compared; the last that matches decides. -/
def StaticTokenBackend.verify (b : StaticTokenBackend) (presented : String) :
    Except AuthError Principal :=
  let matched := b.tokens.foldl
    (fun matched record => if record.token == presented then some record else matched) none
  match matched with
  | some r => .ok (.new r.name r.scopes)
  | none => .error .invalidToken

/-- The identity extracted from a verified client certificate. -/
structure ClientCert where
  subjectCn : Option String
  sans : List String
  deriving DecidableEq

structure MtlsBackend where
  mappings : List MtlsMapping

/-- The first mapping whose subject is the CN or some SAN decides. -/
def MtlsBackend.verify (b : MtlsBackend) (cert : ClientCert) : Except AuthError Principal :=
  match b.mappings.find? fun m =>
    cert.subjectCn == some m.subject || cert.sans.any fun s => s == m.subject with
  | some m => .ok (.new m.name m.scopes)
  | none => .error .invalidClientCert

/-- Credentials extracted from a request by the HTTP layer. -/
structure Credentials where
  bearer : Option String
  clientCert : Option ClientCert

inductive Authenticator
  | bearer (b : StaticTokenBackend)
  | jwt (b : JwtBackend)
  | mtls (b : MtlsBackend)

/-- Build the authenticator from the `[auth]` config section. -/
def Authenticator.fromConfig (auth : AuthConfig) : Except AuthError Authenticator :=
  match auth.mode with
  | .bearer => .ok (.bearer ⟨auth.tokens⟩)
  | .mtls => .ok (.mtls ⟨auth.mtls⟩)
  | .jwt =>
    match auth.jwt with
    | none => .error (.misconfigured "mode = \"jwt\" but [auth.jwt] is absent")
    | some cfg =>
      match JwtBackend.fromConfig cfg with
      | .error e => .error e
      | .ok b => .ok (.jwt b)

variable (j : Jsonwebtoken)

/-- What the backend of the mode says of the credentials. -/
def Authenticator.backend (a : Authenticator) (now : ℕ) (creds : Credentials) :
    Except AuthError Principal :=
  match a with
  | .bearer b =>
    match creds.bearer with
    | none => .error .missingCredentials
    | some t => b.verify t
  | .jwt b =>
    match creds.bearer with
    | none => .error .missingCredentials
    | some t => b.verify j now t
  | .mtls b =>
    match creds.clientCert with
    | none => .error .missingCredentials
    | some c => b.verify c

/-- Resolve credentials to a principal. Only an absent credential may fall through to
anonymous. -/
def Authenticator.authenticate (a : Authenticator) (now : ℕ) (creds : Credentials)
    (allowAnonymousRead : Bool) : Except AuthError Principal :=
  match a.backend j now creds with
  | .error .missingCredentials =>
    if allowAnonymousRead then .ok .anonymous else .error .missingCredentials
  | other => other

/-! ### Extraction -/

/-- Visible ASCII, space and tab: the bytes a header value may have to be read as text. -/
def isVisibleAscii (b : UInt8) : Bool := (32 ≤ b && b < 127) || b == 9

def toStr (value : Bytes) : Option String :=
  if value.all isVisibleAscii then
    some (String.ofList (value.map fun b => Char.ofNat b.toNat))
  else none

def extractBearer (headers : HeaderMap) : Option String :=
  match headers.get? "authorization" with
  | none => none
  | some value =>
    match toStr value with
    | none => none
    | some s => (stripPrefix s "Bearer ").map trim

inductive GeneralName
  | dnsName (s : String)
  | rfc822Name (s : String)
  | uri (s : String)
  | other

/-- A parsed certificate: the text of each common name, if it can be read, and the names of
the subject alternative name extension. -/
structure X509Certificate where
  commonNames : List (Option String)
  altNames : Option (List GeneralName)

/-- The certificate parser, on DER bytes. -/
abbrev FromDer := Bytes → Option X509Certificate

def GeneralName.san : GeneralName → Option String
  | .dnsName s | .rfc822Name s | .uri s => some s
  | .other => none

/-- Parse a client certificate chain's leaf into an identity. -/
def extractIdentity (fromDer : FromDer) (certs : List Bytes) : Option ClientCert :=
  match certs.head? with
  | none => none
  | some leaf =>
    match fromDer leaf with
    | none => none
    | some cert =>
      some ⟨cert.commonNames.head?.join, (cert.altNames.getD []).filterMap GeneralName.san⟩

/-- The credentials of a request with these headers on a connection with this peer
certificate chain. -/
def credentials (fromDer : FromDer) (headers : HeaderMap) (chain : Option (List Bytes)) :
    Credentials := ⟨extractBearer headers, chain.bind (extractIdentity fromDer)⟩

/-! ### No backend reports a missing credential -/

lemma token_not_missing {b : StaticTokenBackend} {t : String} :
    b.verify t ≠ .error .missingCredentials := by
  unfold StaticTokenBackend.verify
  simp only
  split <;> simp

lemma mtls_not_missing {b : MtlsBackend} {c : ClientCert} :
    b.verify c ≠ .error .missingCredentials := by
  unfold MtlsBackend.verify
  split <;> simp

end GatewayAuth.Auth
