import Iwan.Json.Correct
import Iwan.Proxy.Parse

/- The check of an id_token (oidc_jwt.c). The fetches, RSA and the conversions to double are
parameters. -/
namespace Iwan

def b64CharVal (c : UInt8) : Option Nat :=
  if 0x41 ≤ c ∧ c ≤ 0x5A then some (c.toNat - 0x41)
  else if 0x61 ≤ c ∧ c ≤ 0x7A then some (c.toNat - 0x61 + 26)
  else if 0x30 ≤ c ∧ c ≤ 0x39 then some (c.toNat - 0x30 + 52)
  else if c = 0x2B ∨ c = 0x2D then some 62
  else if c = 0x2F ∨ c = 0x5F then some 63
  else none

def b64Groups : List UInt8 → Option (List UInt8)
  | [] => some []
  | [_] => none
  | [a, b] =>
    match b64CharVal a, b64CharVal b with
    | some a, some b => some [UInt8.ofNat (a <<< 2 ||| b >>> 4)]
    | _, _ => none
  | [a, b, c] =>
    match b64CharVal a, b64CharVal b, b64CharVal c with
    | some a, some b, some c =>
      some [UInt8.ofNat (a <<< 2 ||| b >>> 4), UInt8.ofNat ((b &&& 0x0F) <<< 4 ||| c >>> 2)]
    | _, _, _ => none
  | a :: b :: c :: d :: s =>
    match b64CharVal a, b64CharVal b, b64CharVal c, b64CharVal d, b64Groups s with
    | some a, some b, some c, some d, some out =>
      some (UInt8.ofNat (a <<< 2 ||| b >>> 4) :: UInt8.ofNat ((b &&& 0x0F) <<< 4 ||| c >>> 2) ::
        UInt8.ofNat ((c &&& 0x03) <<< 6 ||| d) :: out)
    | _, _, _, _, _ => none

def b64urlDecode (s : List UInt8) : Option (List UInt8) :=
  let s := s.rdropWhile (· = 0x3D)
  if s = [] then none else b64Groups s

def httpCtrlIn (s : List UInt8) : Bool := s.any fun c => c < 0x20 || c = 0x7F

def urlAuthorityEnd (c : UInt8) : Bool := c = 0x2F || c = 0x3F || c = 0x23

def httpsUrlSplit (url : List UInt8) : Option (List UInt8 × List UInt8) :=
  if !hasScheme url (ascii "https://") then none
  else
    let auth := url.drop 8
    let host := auth.takeWhile (!urlAuthorityEnd ·)
    if host = [] ∨ 0x40 ∈ host ∨ 0x3A ∈ host ∨ httpCtrlIn host then none
    else
      match auth.dropWhile (· ≠ 0x2F) with
      | [] => some (host, ascii "/")
      | slash =>
        let path := slash.takeWhile (· ≠ 0x23)
        if httpCtrlIn path then none else some (host, path)

def jwtSplit (jwt : List UInt8) : Option (List UInt8 × List UInt8 × List UInt8) :=
  match jwt.dropWhile (· ≠ 0x2E) with
  | [] => none
  | _ :: rest =>
    let hdr := jwt.takeWhile (· ≠ 0x2E)
    if hdr = [] then none
    else
      match rest.dropWhile (· ≠ 0x2E) with
      | [] => none
      | _ :: sig =>
        let payload := rest.takeWhile (· ≠ 0x2E)
        if payload = [] ∨ sig = [] ∨ 0x2E ∈ sig then none else some (hdr, payload, sig)

def segDecode (seg : List UInt8) : Option (List UInt8) := (b64urlDecode seg).map cString

abbrev HttpsAnswer : Type := Option (Nat × List UInt8)

structure RsaKey where
  n : Nat
  e : Nat

/-- What the verification meets outside. -/
structure JwtEnv (D : Type) where
  strtod : List UInt8 → Option D
  double : Int → D
  now : Int
  /-- The answer for the discovery document. -/
  discovery : HttpsAnswer
  /-- The second fetch, at a host and a path. -/
  fetch : List UInt8 → List UInt8 → HttpsAnswer
  rsaSha256 : RsaKey → List UInt8 → List UInt8 → Bool

variable {D : Type}

def fetchJson (strtod : List UInt8 → Option D) (answer : HttpsAnswer) : Option (Json D) :=
  match answer with
  | none => none
  | some (st, body) => if st ≠ 200 then none else jsonParse strtod body

def decodeJwtParts (strtod : List UInt8 → Option D) (jwt : List UInt8) :
    Option (List UInt8 × Json D × Json D) := do
  let (hdr, payload, sig) ← jwtSplit jwt
  let hdrTxt ← segDecode hdr
  let payTxt ← segDecode payload
  let hdrJ ← jsonParse strtod hdrTxt
  let payJ ← jsonParse strtod payTxt
  let alg ← jsonGetStr hdrJ (ascii "alg")
  if alg ≠ ascii "RS256" then none
  else
    let _ ← jsonGetStr hdrJ (ascii "kid")
    some (sig, hdrJ, payJ)

def audMatches (tok : Json D) (aud : List UInt8) : Bool :=
  match jsonGet tok (ascii "aud") with
  | some (.str a) => a = aud
  | some (.arr arr) => arr.any fun e => e.str? = some aud
  | _ => false

def azpMatches (tok : Json D) (aud : List UInt8) : Bool :=
  match jsonGet tok (ascii "aud") with
  | some (.arr _) => jsonGetStr tok (ascii "azp") = some aud
  | _ => true

variable [LinearOrder D]

def timeClaim (env : JwtEnv D) (tok : Json D) (name : List UInt8) : Bool :=
  match (jsonGet tok name).bind Json.num? with
  | some d => d ≤ env.double (env.now + 60)
  | none => true

def validateClaims (env : JwtEnv D) (tok : Json D) (aud iss : List UInt8)
    (nonce : Option (List UInt8)) : Bool :=
  match (jsonGet tok (ascii "exp")).bind Json.num? with
  | none => false
  | some exp =>
    if exp ≤ env.double (env.now - 60) then false
    else if !timeClaim env tok (ascii "nbf") then false
    else if !timeClaim env tok (ascii "iat") then false
    else if !audMatches tok aud then false
    else if !azpMatches tok aud then false
    else if jsonGetStr tok (ascii "iss") ≠ some iss then false
    else
      match nonce with
      | none => true
      | some nonce => jsonGetStr tok (ascii "nonce") = some nonce

def fetchJwks {D : Type} (env : JwtEnv D) (iss : List UInt8) : Option (Json D) := do
  let disc ← fetchJson env.strtod env.discovery
  if jsonGetStr disc (ascii "issuer") ≠ some iss then none
  else
    let uri ← jsonGetStr disc (ascii "jwks_uri")
    let (host, path) ← httpsUrlSplit uri
    fetchJson env.strtod (env.fetch host path)

def bnBin2bn (raw : List UInt8) : Nat := raw.foldl (fun v c => v * 256 + c.toNat) 0

def jwksRsaMinBits : Nat := 2048

def jwksRsaKey {D : Type} (k : Json D) : Option RsaKey := do
  let n ← jsonGetStr k (ascii "n")
  let e ← jsonGetStr k (ascii "e")
  let nRaw ← b64urlDecode n
  let eRaw ← b64urlDecode e
  if nRaw = [] ∨ eRaw = [] then none
  else
    let key : RsaKey := ⟨bnBin2bn nRaw, bnBin2bn eRaw⟩
    if key.n.size < jwksRsaMinBits ∨ key.e ≤ 1 ∨ key.e % 2 = 0 then none else some key

def selectKeyLoop {D : Type} (kid : List UInt8) : List (Json D) → Option RsaKey
  | [] => none
  | k :: keys =>
    if jsonGetStr k (ascii "kid") ≠ some kid then selectKeyLoop kid keys
    else if jsonGetStr k (ascii "use") ≠ some (ascii "sig") ∨
        jsonGetStr k (ascii "kty") ≠ some (ascii "RSA") then selectKeyLoop kid keys
    else
      match jwksRsaKey k with
      | some key => some key
      | none => selectKeyLoop kid keys

def selectJwksKey {D : Type} (jwks : Json D) (kid : List UInt8) : Option RsaKey :=
  match jsonGet jwks (ascii "keys") with
  | some (.arr keys) => selectKeyLoop kid keys
  | _ => none

def verifySignature {D : Type} (env : JwtEnv D) (jwt sig : List UInt8) (key : RsaKey) : Bool :=
  match b64urlDecode sig with
  | none => false
  | some raw =>
    if raw = [] then false
    else env.rsaSha256 key (jwt.take (jwt.length - sig.length - 1)) raw

def oidcJwtVerify (env : JwtEnv D) (jwt aud iss : List UInt8) (nonce : Option (List UInt8)) :
    Bool :=
  match decodeJwtParts env.strtod jwt with
  | none => false
  | some (sig, hdrJ, payJ) =>
    if !validateClaims env payJ aud iss nonce then false
    else
      match fetchJwks env iss with
      | none => false
      | some jwks =>
        match selectJwksKey jwks ((jsonGetStr hdrJ (ascii "kid")).getD []) with
        | none => false
        | some key => verifySignature env jwt sig key

end Iwan
