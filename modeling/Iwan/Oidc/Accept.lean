import Iwan.Lib.Span
import Iwan.Oidc.Jwt

/- Which id_tokens are accepted. -/
namespace Iwan

open Span

variable {D : Type}

/-- A token has three segments. -/
structure Segments (jwt hdr payload sig : List UInt8) : Prop where
  joined : jwt = hdr ++ 0x2E :: (payload ++ 0x2E :: sig)
  filled : hdr ≠ [] ∧ payload ≠ [] ∧ sig ≠ []
  plain : 0x2E ∉ hdr ∧ 0x2E ∉ payload ∧ 0x2E ∉ sig

/-- The claims of a token for the audience, in its time. -/
structure TokenClaims [LinearOrder D] (env : JwtEnv D) (tok : Json D) (aud iss : List UInt8)
    (nonce : Option (List UInt8)) : Prop where
  exp : ∃ e, tok.member (ascii "exp") = some (.num e) ∧ env.double (env.now - 60) < e
  nbf : ∀ d, tok.member (ascii "nbf") = some (.num d) → d ≤ env.double (env.now + 60)
  iat : ∀ d, tok.member (ascii "iat") = some (.num d) → d ≤ env.double (env.now + 60)
  aud : tok.member (ascii "aud") = some (.str aud) ∨
    (∃ auds, tok.member (ascii "aud") = some (.arr auds) ∧ .str aud ∈ auds) ∧
      tok.member (ascii "azp") = some (.str aud)
  iss : tok.member (ascii "iss") = some (.str iss)
  nonce : ∀ n, nonce = some n → tok.member (ascii "nonce") = some (.str n)

def Fetched (strtod : List UInt8 → Option D) (answer : HttpsAnswer) (v : Json D) : Prop :=
  ∃ body, answer = some (200, body) ∧ JsonText jsonSpace strtod jsonMaxDepth body v

def JwksOf (env : JwtEnv D) (iss : List UInt8) (jwks : Json D) : Prop :=
  ∃ disc uri host path, Fetched env.strtod env.discovery disc ∧
    disc.member (ascii "issuer") = some (.str iss) ∧
    disc.member (ascii "jwks_uri") = some (.str uri) ∧ httpsUrlSplit uri = some (host, path) ∧
    Fetched env.strtod (env.fetch host path) jwks

def NumberAt (k : Json D) (name : List UInt8) (value : Nat) : Prop :=
  ∃ s raw, k.member name = some (.str s) ∧ b64urlDecode s = some raw ∧ bnBin2bn raw = value

/-- A key of the set that may have signed. -/
structure KeyFor (kid : List UInt8) (k : Json D) (key : RsaKey) : Prop where
  kid : k.member (ascii "kid") = some (.str kid)
  use : k.member (ascii "use") = some (.str (ascii "sig"))
  kty : k.member (ascii "kty") = some (.str (ascii "RSA"))
  modulus : NumberAt k (ascii "n") key.n
  exponent : NumberAt k (ascii "e") key.e
  bits : 2048 ≤ key.n.size
  odd : 1 < key.e ∧ key.e % 2 = 1

def FirstKey (jwks : Json D) (kid : List UInt8) (key : RsaKey) : Prop :=
  ∃ before k after, jwks.member (ascii "keys") = some (.arr (before ++ k :: after)) ∧
    KeyFor kid k key ∧ ∀ k' ∈ before, ∀ key', ¬ KeyFor kid k' key'

/-- The header names RS256 and a key. -/
structure TokenHeader (h : Json D) (kid : List UInt8) : Prop where
  alg : h.member (ascii "alg") = some (.str (ascii "RS256"))
  kid : h.member (ascii "kid") = some (.str kid)

/-- The tokens that are acceptable for the client `aud` at the issuer `iss`, when the decoded header
and payload are taken for the texts that `read` makes of them. -/
def AcceptableAs [LinearOrder D] (read : List UInt8 → List UInt8) (env : JwtEnv D)
    (jwt aud iss : List UInt8) (nonce : Option (List UInt8)) : Prop :=
  ∃ hdr payload sig hdrRaw payRaw sigRaw h p kid jwks key,
    Segments jwt hdr payload sig ∧
    (b64urlDecode hdr = some hdrRaw ∧
      JsonText jsonSpace env.strtod jsonMaxDepth (read hdrRaw) h ∧ TokenHeader h kid) ∧
    (b64urlDecode payload = some payRaw ∧
      JsonText jsonSpace env.strtod jsonMaxDepth (read payRaw) p ∧
      TokenClaims env p aud iss nonce) ∧
    JwksOf env iss jwks ∧ FirstKey jwks kid key ∧
    b64urlDecode sig = some sigRaw ∧
    env.rsaSha256 key (hdr ++ 0x2E :: payload) sigRaw = true

def Acceptable [LinearOrder D] (env : JwtEnv D) (jwt aud iss : List UInt8)
    (nonce : Option (List UInt8)) : Prop :=
  AcceptableAs id env jwt aud iss nonce

def NulFree (jwt : List UInt8) : Prop :=
  ∀ hdr payload sig raw, Segments jwt hdr payload sig →
    b64urlDecode hdr = some raw ∨ b64urlDecode payload = some raw → 0 ∉ raw

section

variable {jwt hdr payload sig : List UInt8}

theorem jwtSplit_eq_some :
    jwtSplit jwt = some (hdr, payload, sig) ↔ Segments jwt hdr payload sig := by
  constructor
  · intro split
    unfold jwtSplit at split
    cases first : jwt.dropWhile (· ≠ 0x2E) with
    | nil => rw [first] at split; cases split
    | cons d rest =>
      rw [first] at split
      dsimp only at split
      have whole := cut_some first
      split_ifs at split with empty
      cases second : rest.dropWhile (· ≠ 0x2E) with
      | nil => rw [second] at split; cases split
      | cons d' sig' =>
        rw [second] at split
        dsimp only at split
        have whole' := cut_some second
        split_ifs at split with bad
        cases split
        simp only [not_or] at bad
        refine ⟨?_, ⟨empty, bad.1, bad.2.1⟩, not_mem_takeWhile_ne _ _, not_mem_takeWhile_ne _ _,
          bad.2.2⟩
        rw [← whole']
        exact whole
  · rintro ⟨rfl, ⟨some₁, some₂, some₃⟩, plain₁, plain₂, plain₃⟩
    obtain ⟨take₁, drop₁⟩ := cut_append (payload ++ 0x2E :: sig) plain₁
    obtain ⟨take₂, drop₂⟩ := cut_append sig plain₂
    rw [jwtSplit, drop₁]
    dsimp only
    rw [take₁, if_neg some₁, drop₂]
    dsimp only
    rw [take₂, if_neg]
    simp only [not_or]
    exact ⟨some₂, some₃, plain₃⟩

theorem Segments.signed (parts : Segments jwt hdr payload sig) :
    jwt.take (jwt.length - sig.length - 1) = hdr ++ 0x2E :: payload := by
  have whole : jwt = (hdr ++ 0x2E :: payload) ++ 0x2E :: sig := by
    rw [parts.joined]
    simp
  have size : jwt.length - sig.length - 1 = (hdr ++ 0x2E :: payload).length := by
    rw [whole, List.length_append, List.length_cons]
    omega
  rw [size]
  conv_lhs => rw [whole]
  exact List.take_left

theorem b64Groups_ne_nil {s raw : List UInt8} (ne : s ≠ []) (read : b64Groups s = some raw) :
    raw ≠ [] := by
  unfold b64Groups at read
  split at read
  · exact absurd rfl ne
  · cases read
  all_goals
    split at read
    · cases read
      exact List.cons_ne_nil _ _
    · cases read

theorem b64urlDecode_ne_nil {s raw : List UInt8} (read : b64urlDecode s = some raw) :
    raw ≠ [] := by
  unfold b64urlDecode at read
  dsimp only at read
  split_ifs at read with empty
  exact b64Groups_ne_nil empty read

variable {strtod : List UInt8 → Option D} {h p : Json D}

theorem decodeJwtParts_eq_some :
    decodeJwtParts strtod jwt = some (sig, h, p) ↔
      ∃ hdr payload hdrRaw payRaw kid, Segments jwt hdr payload sig ∧
        b64urlDecode hdr = some hdrRaw ∧ b64urlDecode payload = some payRaw ∧
        JsonText jsonSpace strtod jsonMaxDepth (cString hdrRaw) h ∧
        JsonText jsonSpace strtod jsonMaxDepth (cString payRaw) p ∧ TokenHeader h kid := by
  constructor
  · intro decoded
    unfold decodeJwtParts at decoded
    obtain ⟨⟨hdr, payload, sig'⟩, split, decoded⟩ := Option.bind_eq_some_iff.mp decoded
    obtain ⟨hdrTxt, hdrSeg, decoded⟩ := Option.bind_eq_some_iff.mp decoded
    obtain ⟨payTxt, paySeg, decoded⟩ := Option.bind_eq_some_iff.mp decoded
    obtain ⟨h', hdrJ, decoded⟩ := Option.bind_eq_some_iff.mp decoded
    obtain ⟨p', payJ, decoded⟩ := Option.bind_eq_some_iff.mp decoded
    obtain ⟨alg, named, decoded⟩ := Option.bind_eq_some_iff.mp decoded
    split_ifs at decoded with other
    obtain ⟨kid, keyed, decoded⟩ := Option.bind_eq_some_iff.mp decoded
    cases decoded
    obtain ⟨hdrRaw, hdrB64, rfl⟩ := Option.map_eq_some_iff.mp hdrSeg
    obtain ⟨payRaw, payB64, rfl⟩ := Option.map_eq_some_iff.mp paySeg
    rw [not_not.mp other] at named
    exact ⟨hdr, payload, hdrRaw, payRaw, kid, jwtSplit_eq_some.mp split, hdrB64, payB64,
      jsonParse_eq_some.mp hdrJ, jsonParse_eq_some.mp payJ,
      ⟨(jsonGetStr_eq_some (by decide)).mp named, (jsonGetStr_eq_some (by decide)).mp keyed⟩⟩
  · rintro ⟨hdr, payload, hdrRaw, payRaw, kid, parts, hdrB64, payB64, hdrText, payText, header⟩
    have hdrSeg : segDecode hdr = some (cString hdrRaw) := by rw [segDecode, hdrB64]; rfl
    have paySeg : segDecode payload = some (cString payRaw) := by rw [segDecode, payB64]; rfl
    have named := (jsonGetStr_eq_some (v := h) (by decide)).mpr header.alg
    have keyed := (jsonGetStr_eq_some (v := h) (by decide)).mpr header.kid
    unfold decodeJwtParts
    rw [jwtSplit_eq_some.mpr parts]
    simp only [Option.bind_eq_bind, Option.bind_some, hdrSeg, paySeg,
      jsonParse_eq_some.mpr hdrText, jsonParse_eq_some.mpr payText, named, keyed]
    rfl

end

section

theorem str?_eq_some {v : Json D} {s : List UInt8} : v.str? = some s ↔ v = .str s := by
  cases v <;> simp [Json.str?]

theorem num?_eq_some {v : Json D} {d : D} : v.num? = some d ↔ v = .num d := by
  cases v <;> simp [Json.num?]

variable {tok : Json D}

theorem jsonGet_num {name : List UInt8} (plain : plainName name = true) {d : D} :
    (jsonGet tok name).bind Json.num? = some d ↔ tok.member name = some (.num d) := by
  rw [jsonGet_eq_member tok plain, Option.bind_eq_some_iff]
  constructor
  · rintro ⟨v, found, number⟩
    rw [found, num?_eq_some.mp number]
  · intro found
    exact ⟨_, found, rfl⟩

theorem audience_iff {aud : List UInt8} :
    (audMatches tok aud = true ∧ azpMatches tok aud = true) ↔
      (tok.member (ascii "aud") = some (.str aud) ∨
        (∃ auds, tok.member (ascii "aud") = some (.arr auds) ∧ .str aud ∈ auds) ∧
          tok.member (ascii "azp") = some (.str aud)) := by
  unfold audMatches azpMatches
  rw [jsonGet_eq_member tok (by decide : plainName (ascii "aud") = true)]
  cases tok.member (ascii "aud") with
  | none => simp
  | some v =>
    cases v with
    | arr auds =>
      have azp := jsonGetStr_eq_some (v := tok) (s := aud)
        (by decide : plainName (ascii "azp") = true)
      simp [str?_eq_some, azp]
    | _ => simp

variable [LinearOrder D] {env : JwtEnv D}

theorem timeClaim_iff {name : List UInt8} (plain : plainName name = true) :
    timeClaim env tok name = true ↔
      ∀ d, tok.member name = some (.num d) → d ≤ env.double (env.now + 60) := by
  unfold timeClaim
  cases found : (jsonGet tok name).bind Json.num? with
  | none =>
    refine ⟨fun _ d member => ?_, fun _ => rfl⟩
    rw [(jsonGet_num plain).mpr member] at found
    cases found
  | some d =>
    have here := (jsonGet_num plain).mp found
    dsimp only
    rw [decide_eq_true_eq]
    constructor
    · intro early d' member
      rw [here] at member
      cases member
      exact early
    · exact fun all => all d here

theorem validateClaims_iff {aud iss : List UInt8} {nonce : Option (List UInt8)} :
    validateClaims env tok aud iss nonce = true ↔ TokenClaims env tok aud iss nonce := by
  have issuer := jsonGetStr_eq_some (v := tok) (s := iss)
    (by decide : plainName (ascii "iss") = true)
  have nonceIs (n : List UInt8) := jsonGetStr_eq_some (v := tok) (s := n)
    (by decide : plainName (ascii "nonce") = true)
  constructor
  · intro valid
    unfold validateClaims at valid
    cases number : (jsonGet tok (ascii "exp")).bind Json.num? with
    | none => rw [number] at valid; cases valid
    | some e =>
      rw [number] at valid
      dsimp only at valid
      split_ifs at valid with late nbf iat aud₁ aud₂ iss₁
      simp only [Bool.not_eq_true', Bool.not_eq_false] at nbf iat aud₁ aud₂
      refine ⟨⟨e, (jsonGet_num (by decide)).mp number, not_le.mp late⟩,
        (timeClaim_iff (by decide)).mp nbf, (timeClaim_iff (by decide)).mp iat,
        audience_iff.mp ⟨aud₁, aud₂⟩, issuer.mp (not_not.mp iss₁), ?_⟩
      rintro n rfl
      exact (nonceIs n).mp (of_decide_eq_true valid)
  · rintro ⟨⟨e, member, late⟩, nbf, iat, aud', iss', nonce'⟩
    obtain ⟨aud₁, aud₂⟩ := audience_iff.mpr aud'
    unfold validateClaims
    rw [(jsonGet_num (by decide)).mpr member]
    dsimp only
    rw [if_neg (not_le.mpr late), (timeClaim_iff (by decide)).mpr nbf,
      (timeClaim_iff (by decide)).mpr iat, aud₁, aud₂, issuer.mpr iss']
    cases nonce with
    | none => simp
    | some n => simpa using (nonceIs n).mpr (nonce' n rfl)

end

section

variable {env : JwtEnv D} {iss kid : List UInt8} {jwks : Json D}

theorem fetchJson_eq_some {strtod : List UInt8 → Option D} {answer : HttpsAnswer} {v : Json D} :
    fetchJson strtod answer = some v ↔ Fetched strtod answer v := by
  constructor
  · intro fetched
    cases answer with
    | none => cases fetched
    | some answer =>
      obtain ⟨st, body⟩ := answer
      unfold fetchJson at fetched
      dsimp only at fetched
      split_ifs at fetched with other
      exact ⟨body, by rw [not_not.mp other], jsonParse_eq_some.mp fetched⟩
  · rintro ⟨body, rfl, text⟩
    exact jsonParse_eq_some.mpr text

theorem fetchJwks_eq_some : fetchJwks env iss = some jwks ↔ JwksOf env iss jwks := by
  constructor
  · intro fetched
    unfold fetchJwks at fetched
    obtain ⟨disc, first, fetched⟩ := Option.bind_eq_some_iff.mp fetched
    split_ifs at fetched with other
    obtain ⟨uri, named, fetched⟩ := Option.bind_eq_some_iff.mp fetched
    obtain ⟨⟨host, path⟩, split, second⟩ := Option.bind_eq_some_iff.mp fetched
    exact ⟨disc, uri, host, path, fetchJson_eq_some.mp first,
      (jsonGetStr_eq_some (by decide)).mp (not_not.mp other),
      (jsonGetStr_eq_some (by decide)).mp named, split, fetchJson_eq_some.mp second⟩
  · rintro ⟨disc, uri, host, path, first, issuer, named, split, second⟩
    have issuer' := (jsonGetStr_eq_some (v := disc) (by decide)).mpr issuer
    have named' := (jsonGetStr_eq_some (v := disc) (by decide)).mpr named
    unfold fetchJwks
    rw [fetchJson_eq_some.mpr first]
    simp only [Option.bind_eq_bind, Option.bind_some, issuer', named', split,
      fetchJson_eq_some.mpr second]
    exact if_neg (not_not.mpr rfl)

variable {key : RsaKey}

theorem jwksRsaKey_eq_some {k : Json D} :
    jwksRsaKey k = some key ↔ NumberAt k (ascii "n") key.n ∧ NumberAt k (ascii "e") key.e ∧
      2048 ≤ key.n.size ∧ 1 < key.e ∧ key.e % 2 = 1 := by
  constructor
  · intro made
    unfold jwksRsaKey at made
    obtain ⟨n, nText, made⟩ := Option.bind_eq_some_iff.mp made
    obtain ⟨e, eText, made⟩ := Option.bind_eq_some_iff.mp made
    obtain ⟨nRaw, nB64, made⟩ := Option.bind_eq_some_iff.mp made
    obtain ⟨eRaw, eB64, made⟩ := Option.bind_eq_some_iff.mp made
    split_ifs at made with empty
    dsimp only at made
    split_ifs at made with weak
    cases made
    simp only [not_or, not_lt, not_le, jwksRsaMinBits] at weak
    exact ⟨⟨n, nRaw, (jsonGetStr_eq_some (by decide)).mp nText, nB64, rfl⟩,
      ⟨e, eRaw, (jsonGetStr_eq_some (by decide)).mp eText, eB64, rfl⟩, weak.1, weak.2.1,
      Nat.mod_two_ne_zero.mp weak.2.2⟩
  · rintro ⟨⟨n, nRaw, nText, nB64, nIs⟩, ⟨e, eRaw, eText, eB64, eIs⟩, bits, large, odd⟩
    have nText' := (jsonGetStr_eq_some (v := k) (by decide)).mpr nText
    have eText' := (jsonGetStr_eq_some (v := k) (by decide)).mpr eText
    have filled : ¬ (nRaw = [] ∨ eRaw = []) := by
      rintro (empty | empty)
      · exact b64urlDecode_ne_nil nB64 empty
      · exact b64urlDecode_ne_nil eB64 empty
    unfold jwksRsaKey
    simp only [Option.bind_eq_bind, Option.bind_some, nText', eText', nB64, eB64, nIs, eIs,
      if_neg filled, jwksRsaMinBits]
    rw [if_neg]
    rintro (small | small | even) <;> omega

theorem keyFor_iff {k : Json D} : KeyFor kid k key ↔ jsonGetStr k (ascii "kid") = some kid ∧
      jsonGetStr k (ascii "use") = some (ascii "sig") ∧
      jsonGetStr k (ascii "kty") = some (ascii "RSA") ∧ jwksRsaKey k = some key := by
  rw [jsonGetStr_eq_some (by decide), jsonGetStr_eq_some (by decide),
    jsonGetStr_eq_some (by decide), jwksRsaKey_eq_some]
  constructor
  · rintro ⟨kid, use, kty, modulus, exponent, bits, odd⟩
    exact ⟨kid, use, kty, modulus, exponent, bits, odd⟩
  · rintro ⟨kid, use, kty, modulus, exponent, bits, odd⟩
    exact ⟨kid, use, kty, modulus, exponent, bits, odd⟩

theorem selectKeyLoop_cons (k : Json D) (keys : List (Json D)) :
    (∃ key, KeyFor kid k key ∧ selectKeyLoop kid (k :: keys) = some key) ∨
      (∀ key, ¬ KeyFor kid k key) ∧ selectKeyLoop kid (k :: keys) = selectKeyLoop kid keys := by
  rw [selectKeyLoop]
  by_cases named : jsonGetStr k (ascii "kid") = some kid
  · by_cases other : jsonGetStr k (ascii "use") ≠ some (ascii "sig") ∨
        jsonGetStr k (ascii "kty") ≠ some (ascii "RSA")
    · right
      rw [if_neg (not_not.mpr named), if_pos other]
      refine ⟨fun key isKey => ?_, rfl⟩
      obtain ⟨_, use, kty, _⟩ := keyFor_iff.mp isKey
      exact other.elim (fun bad => bad use) fun bad => bad kty
    · rw [if_neg (not_not.mpr named), if_neg other]
      rw [not_or, not_not, not_not] at other
      cases made : jwksRsaKey k with
      | some key => exact .inl ⟨key, keyFor_iff.mpr ⟨named, other.1, other.2, made⟩, rfl⟩
      | none =>
        refine .inr ⟨fun key isKey => ?_, rfl⟩
        rw [(keyFor_iff.mp isKey).2.2.2] at made
        cases made
  · right
    rw [if_pos named]
    exact ⟨fun key isKey => named (keyFor_iff.mp isKey).1, rfl⟩

theorem selectKeyLoop_eq_some {keys : List (Json D)} :
    selectKeyLoop kid keys = some key ↔ ∃ before k after, keys = before ++ k :: after ∧
      KeyFor kid k key ∧ ∀ k' ∈ before, ∀ key', ¬ KeyFor kid k' key' := by
  induction keys with
  | nil =>
    constructor
    · intro found
      cases found
    · rintro ⟨before, k, after, shape, _⟩
      cases before <;> cases shape
  | cons k keys ih =>
    have unique {key key' : RsaKey} (left : KeyFor kid k key) (right : KeyFor kid k key') :
        key = key' := by
      have same := (keyFor_iff.mp left).2.2.2
      rw [(keyFor_iff.mp right).2.2.2] at same
      exact (Option.some.inj same).symm
    rcases selectKeyLoop_cons k keys with ⟨first, isKey, found⟩ | ⟨other, found⟩
    · rw [found]
      constructor
      · intro same
        cases same
        exact ⟨[], k, keys, rfl, isKey, fun k' member => by cases member⟩
      · rintro ⟨before, k', after, shape, isKey', none⟩
        cases before with
        | nil =>
          cases shape
          rw [unique isKey isKey']
        | cons b before =>
          cases shape
          exact absurd isKey (none k List.mem_cons_self first)
    · rw [found, ih]
      constructor
      · rintro ⟨before, k', after, rfl, isKey, none⟩
        refine ⟨k :: before, k', after, rfl, isKey, ?_⟩
        intro b member
        rcases List.mem_cons.mp member with rfl | member
        · exact other
        · exact none b member
      · rintro ⟨before, k', after, shape, isKey, none⟩
        cases before with
        | nil =>
          cases shape
          exact absurd isKey (other key)
        | cons b before =>
          cases shape
          exact ⟨before, k', after, rfl, isKey,
            fun b' member => none b' (List.mem_cons_of_mem _ member)⟩

theorem selectJwksKey_eq_some : selectJwksKey jwks kid = some key ↔ FirstKey jwks kid key := by
  unfold selectJwksKey FirstKey
  rw [jsonGet_eq_member jwks (by decide : plainName (ascii "keys") = true)]
  cases jwks.member (ascii "keys") with
  | none => simp
  | some v =>
    cases v with
    | arr keys =>
      dsimp only
      rw [selectKeyLoop_eq_some]
      simp
    | _ => simp

theorem verifySignature_iff {jwt hdr payload sig : List UInt8}
    (parts : Segments jwt hdr payload sig) :
    verifySignature env jwt sig key = true ↔ ∃ raw, b64urlDecode sig = some raw ∧
      env.rsaSha256 key (hdr ++ 0x2E :: payload) raw = true := by
  unfold verifySignature
  rw [parts.signed]
  cases read : b64urlDecode sig with
  | none => simp
  | some raw =>
    dsimp only
    rw [if_neg (b64urlDecode_ne_nil read)]
    constructor
    · exact fun good => ⟨raw, rfl, good⟩
    · rintro ⟨raw', same, good⟩
      cases same
      exact good

end

section

variable [LinearOrder D]

theorem oidcJwtVerify_eq (env : JwtEnv D) (jwt aud iss : List UInt8)
    (nonce : Option (List UInt8)) :
    oidcJwtVerify env jwt aud iss nonce = true ↔ AcceptableAs cString env jwt aud iss nonce := by
  have kidOf {h : Json D} {kid : List UInt8} (header : TokenHeader h kid) :
      (jsonGetStr h (ascii "kid")).getD [] = kid := by
    rw [(jsonGetStr_eq_some (by decide)).mpr header.kid]
    rfl
  constructor
  · intro verified
    unfold oidcJwtVerify at verified
    cases decoded : decodeJwtParts env.strtod jwt with
    | none => rw [decoded] at verified; cases verified
    | some parts =>
      obtain ⟨sig, h, p⟩ := parts
      rw [decoded] at verified
      dsimp only at verified
      split_ifs at verified with claims
      obtain ⟨hdr, payload, hdrRaw, payRaw, kid, parts, hdrB64, payB64, hdrText, payText,
        header⟩ := decodeJwtParts_eq_some.mp decoded
      rw [kidOf header] at verified
      cases fetched : fetchJwks env iss with
      | none => rw [fetched] at verified; cases verified
      | some jwks =>
        rw [fetched] at verified
        dsimp only at verified
        cases found : selectJwksKey jwks kid with
        | none => rw [found] at verified; cases verified
        | some key =>
          rw [found] at verified
          obtain ⟨sigRaw, sigB64, good⟩ := (verifySignature_iff parts).mp verified
          rw [Bool.not_eq_true', Bool.not_eq_false] at claims
          exact ⟨hdr, payload, sig, hdrRaw, payRaw, sigRaw, h, p, kid, jwks, key, parts,
            ⟨hdrB64, hdrText, header⟩, ⟨payB64, payText, validateClaims_iff.mp claims⟩,
            fetchJwks_eq_some.mp fetched, selectJwksKey_eq_some.mp found, sigB64, good⟩
  · rintro ⟨hdr, payload, sig, hdrRaw, payRaw, sigRaw, h, p, kid, jwks, key, parts,
      ⟨hdrB64, hdrText, header⟩, ⟨payB64, payText, claims⟩, fetched, found, sigB64, good⟩
    unfold oidcJwtVerify
    rw [decodeJwtParts_eq_some.mpr
      ⟨hdr, payload, hdrRaw, payRaw, kid, parts, hdrB64, payB64, hdrText, payText, header⟩]
    dsimp only
    rw [validateClaims_iff.mpr claims, Bool.not_true, if_neg Bool.false_ne_true,
      fetchJwks_eq_some.mpr fetched]
    dsimp only
    rw [kidOf header, selectJwksKey_eq_some.mpr found]
    exact (verifySignature_iff parts).mpr ⟨sigRaw, sigB64, good⟩

variable {env : JwtEnv D} {jwt aud iss : List UInt8} {nonce : Option (List UInt8)}

theorem acceptableAs_cString_iff (free : NulFree jwt) :
    AcceptableAs cString env jwt aud iss nonce ↔ Acceptable env jwt aud iss nonce := by
  constructor
  · rintro ⟨hdr, payload, sig, hdrRaw, payRaw, sigRaw, h, p, kid, jwks, key, parts,
      ⟨hdrB64, hdrText, header⟩, ⟨payB64, payText, claims⟩, rest⟩
    rw [cString_of_text (free _ _ _ _ parts (Or.inl hdrB64))] at hdrText
    rw [cString_of_text (free _ _ _ _ parts (Or.inr payB64))] at payText
    exact ⟨hdr, payload, sig, hdrRaw, payRaw, sigRaw, h, p, kid, jwks, key, parts,
      ⟨hdrB64, hdrText, header⟩, ⟨payB64, payText, claims⟩, rest⟩
  · rintro ⟨hdr, payload, sig, hdrRaw, payRaw, sigRaw, h, p, kid, jwks, key, parts,
      ⟨hdrB64, hdrText, header⟩, ⟨payB64, payText, claims⟩, rest⟩
    refine ⟨hdr, payload, sig, hdrRaw, payRaw, sigRaw, h, p, kid, jwks, key, parts,
      ⟨hdrB64, ?_, header⟩, ⟨payB64, ?_, claims⟩, rest⟩
    · rwa [cString_of_text (free _ _ _ _ parts (Or.inl hdrB64))]
    · rwa [cString_of_text (free _ _ _ _ parts (Or.inr payB64))]

theorem Acceptable.nulFree (ok : Acceptable env jwt aud iss nonce) : NulFree jwt := by
  obtain ⟨hdr, payload, sig, hdrRaw, payRaw, _, _, _, _, _, _, parts, ⟨hdrB64, hdrText, _⟩,
    ⟨payB64, payText, _⟩, _⟩ := ok
  intro hdr' payload' sig' raw parts' read
  have same := jwtSplit_eq_some.mpr parts'
  rw [jwtSplit_eq_some.mpr parts] at same
  cases same
  rcases read with read | read
  · rw [hdrB64] at read
    cases read
    exact hdrText.no_nul
  · rw [payB64] at read
    cases read
    exact payText.no_nul

/-- The tokens on which the verdict is wrong are those with a NUL byte in a text, behind what would
make an acceptable token. -/
theorem oidcJwtVerify_iff (env : JwtEnv D) (jwt aud iss : List UInt8)
    (nonce : Option (List UInt8)) :
    (oidcJwtVerify env jwt aud iss nonce = true ↔ Acceptable env jwt aud iss nonce) ↔
      (AcceptableAs cString env jwt aud iss nonce → NulFree jwt) := by
  rw [oidcJwtVerify_eq]
  constructor
  · exact fun same cut => (same.mp cut).nulFree
  · intro free
    constructor
    · exact fun cut => (acceptableAs_cString_iff (free cut)).mp cut
    · exact fun ok => (acceptableAs_cString_iff ok.nulFree).mpr ok

end

def sampleIssuer : JwtEnv Int where
  strtod := fun _ => some 1
  double := id
  now := 0
  discovery := some (200, ascii "\x7b\"issuer\":\"i\",\"jwks_uri\":\"https://h/k\"\x7d")
  fetch := fun _ _ => some (200, ascii
    "\x7b\"keys\":[\x7b\"kid\":\"k\",\"use\":\"sig\",\"kty\":\"RSA\",\"e\":\"AQAB\",\"n\":\"" ++
    List.replicate 342 0x77 ++ ascii "\"\x7d]\x7d")
  rsaSha256 := fun _ _ _ => true

def sampleHeader : List UInt8 := ascii "eyJhbGciOiJSUzI1NiIsImtpZCI6ImsifQ"

def cutPayload : List UInt8 := ascii "eyJleHAiOjEsImF1ZCI6ImMiLCJpc3MiOiJpIn0Aew"

def cutToken : List UInt8 := sampleHeader ++ 0x2E :: (cutPayload ++ 0x2E :: ascii "AA")

/-- A payload that is no JSON text is accepted for what stands before its NUL byte. -/
theorem oidcJwtVerify_cut :
    oidcJwtVerify sampleIssuer cutToken (ascii "c") (ascii "i") none = true ∧
      ¬ Acceptable sampleIssuer cutToken (ascii "c") (ascii "i") none := by
  refine ⟨by decide +kernel, ?_⟩
  intro ok
  have split : jwtSplit cutToken = some (sampleHeader, cutPayload, ascii "AA") := by
    decide +kernel
  have holds : (b64urlDecode cutPayload).all (0 ∉ ·) = false := by decide +kernel
  cases read : b64urlDecode cutPayload with
  | none => rw [read] at holds; cases holds
  | some raw =>
    rw [read] at holds
    have free := ok.nulFree _ _ _ raw (jwtSplit_eq_some.mp split) (.inr read)
    exact of_decide_eq_false holds free

end Iwan
