import Iwan.Json.Correct

/- The JSON bodies of requests (json.c, oidc_flow.c). -/
namespace Iwan

/-- One byte of json_escape: quotes, backslashes and controls are escaped, all others stand. -/
def jsonEscapeByte (c : UInt8) : List UInt8 :=
  if c = 0x22 then [0x5C, 0x22]
  else if c = 0x5C then [0x5C, 0x5C]
  else if c < 0x20 then [0x5C, 0x75, 0x30, 0x30, hexDigit (c >>> 4), hexDigit (c &&& 0xF)]
  else [c]

/-- The function json_escape. -/
def jsonEscape (s : List UInt8) : List UInt8 := s.flatMap jsonEscapeByte

theorem hexValue_control : ∀ n < 32, hexValue 0x30 0x30 (hexDigit (UInt8.ofNat n >>> 4))
    (hexDigit (UInt8.ofNat n &&& 0xF)) = some n ∧ unitText n = [UInt8.ofNat n] := by
  decide

theorem jsonChars_escaped (s : List UInt8) (text : 0 ∉ s) :
    ∃ chars, JsonChars (jsonEscape s) chars ∧ .unit 0 ∉ chars ∧ decodeChars chars = s := by
  induction s with
  | nil => exact ⟨[], .nil, List.not_mem_nil, rfl⟩
  | cons c s ih =>
    obtain ⟨nonzero, text⟩ := List.ne_and_not_mem_of_not_mem_cons text
    obtain ⟨chars, read, units, decoded⟩ := ih text
    have first : jsonEscape (c :: s) = jsonEscapeByte c ++ jsonEscape s := List.flatMap_cons
    have byte : .unit 0 ∉ JsonChar.byte c :: chars := by simpa using units
    have bytes : decodeChars (.byte c :: chars) = c :: s := by rw [decodeChars, decoded]
    rw [first]
    unfold jsonEscapeByte
    split_ifs with quote backslash control
    · exact ⟨_, .escaped (by rw [quote]; decide) read, byte, bytes⟩
    · exact ⟨_, .escaped (by rw [backslash]; decide) read, byte, bytes⟩
    · obtain ⟨digits, unit⟩ := hexValue_control c.toNat (UInt8.lt_iff_toNat_lt.mp control)
      rw [UInt8.ofNat_toNat] at digits unit
      have small := UInt8.lt_iff_toNat_lt.mp control
      have alone : ¬ PairedWith c.toNat chars := fun paired => by
        have high := paired.1
        simp only [highSurrogate, Bool.and_eq_true, decide_eq_true_eq] at high
        have : c.toNat < 32 := small
        omega
      refine ⟨_, .unicode digits read, ?_, ?_⟩
      · simp only [List.mem_cons, JsonChar.unit.injEq, units, or_false]
        exact fun zero => nonzero (UInt8.toNat_inj.mp zero)
      · rw [decodeChars_unit alone, unit, decoded]
        rfl
    · exact ⟨_, .raw (UInt8.not_lt.mp control) quote backslash read, byte, bytes⟩

def jsonQuoted (s : List UInt8) : List UInt8 := 0x22 :: (jsonEscape s ++ [0x22])

def jsonFields : List (List UInt8 × List UInt8) → List UInt8
  | [] => []
  | [f] => jsonQuoted f.1 ++ 0x3A :: jsonQuoted f.2
  | f :: g :: fields => jsonQuoted f.1 ++ 0x3A :: jsonQuoted f.2 ++ 0x2C :: jsonFields (g :: fields)

section

variable {D : Type} {strtod : List UInt8 → Option D} {f : List UInt8 × List UInt8}

theorem blank_nil : Blank jsonSpace [] := List.forall_mem_nil _

theorem jsonMember_quoted (levels : Nat) (plain : 0 ∉ f.1 ∧ 0 ∉ f.2) :
    JsonMember jsonSpace (JsonValue jsonSpace strtod (levels + 1))
      (jsonQuoted f.1 ++ 0x3A :: jsonQuoted f.2) (f.1, .str f.2) := by
  obtain ⟨name, read, units, same⟩ := jsonChars_escaped f.1 plain.1
  obtain ⟨chars, read', units', same'⟩ := jsonChars_escaped f.2 plain.2
  have value : JsonValue jsonSpace strtod (levels + 1) (jsonQuoted f.2)
      (.str (decodeChars chars)) :=
    .str ⟨_, rfl, read'⟩ units'
  have member := JsonMember.mk ⟨_, rfl, read⟩ units blank_nil blank_nil value
  rwa [same, same'] at member

theorem jsonFields_listed (levels : Nat) (fields : List (List UInt8 × List UInt8))
    (filled : fields ≠ []) (plain : ∀ f ∈ fields, 0 ∉ f.1 ∧ 0 ∉ f.2) :
    JsonListed jsonSpace (JsonMember jsonSpace (JsonValue jsonSpace strtod (levels + 1)))
      (jsonFields fields) (fields.map fun f => (f.1, .str f.2)) := by
  induction fields with
  | nil => exact absurd rfl filled
  | cons f fields ih =>
    obtain ⟨first, others⟩ := List.forall_mem_cons.mp plain
    cases fields with
    | nil => exact .one (jsonMember_quoted levels first)
    | cons g fields =>
      exact .more (jsonMember_quoted levels first) blank_nil blank_nil
        (ih (List.cons_ne_nil _ _) others)

theorem jsonParseEx_fields (strtod : List UInt8 → Option D)
    (fields : List (List UInt8 × List UInt8)) (filled : fields ≠ [])
    (plain : ∀ f ∈ fields, 0 ∉ f.1 ∧ 0 ∉ f.2) :
    jsonParseEx strtod (0x7B :: (jsonFields fields ++ [0x7D])) =
      .ok (.obj (fields.map fun f => (f.1, .str f.2))) := by
  apply jsonParseEx_complete
  exact ⟨[], _, [], (List.append_nil _).symm, blank_nil, blank_nil,
    .obj blank_nil blank_nil (jsonFields_listed _ fields filled plain)⟩

end

def oidcDomain : List UInt8 := ascii "iwan.ustc"
def oidcClientId : List UInt8 := ascii "afc6479ffb531d71daef"
def oidcRedirect : List UInt8 := ascii "com.panabit.mobile://oauth2redirect"

/-- The body of the device requests, one snprintf of the source. -/
def oidcBuildDevBody (type deviceId username : List UInt8) : List UInt8 :=
  ascii "\x7b\"domain\":\"" ++ (jsonEscape oidcDomain ++ (ascii "\",\"type\":\"" ++
    (jsonEscape type ++ (ascii "\",\"oem_name\":\"panabit\",\"device_id\":\"" ++
    (jsonEscape deviceId ++ (ascii "\",\"userName\":\"" ++ (jsonEscape username ++
    (ascii "\",\"serverlist_version\":\"0\",\"ipfilter_version\":\"0\"," ++
    ascii "\"branding_version\":\"0\"\x7d"))))))))

/-- The body of exchange_code. -/
def exchangeCodeBody (code codeVerifier : List UInt8) : List UInt8 :=
  ascii "\x7b\"client_id\":\"" ++ (jsonEscape oidcClientId ++ (ascii "\",\"code\":\"" ++
    (jsonEscape code ++ (ascii "\",\"code_verifier\":\"" ++ (jsonEscape codeVerifier ++
    (ascii "\",\"redirect_uri\":\"" ++ (jsonEscape oidcRedirect ++
    ascii "\",\"grant_type\":\"authorization_code\"\x7d")))))))

/-- The fields that the device body is meant to have. -/
def devFields (type deviceId username : List UInt8) : List (List UInt8 × List UInt8) :=
  [(ascii "domain", oidcDomain), (ascii "type", type), (ascii "oem_name", ascii "panabit"),
    (ascii "device_id", deviceId), (ascii "userName", username),
    (ascii "serverlist_version", ascii "0"), (ascii "ipfilter_version", ascii "0"),
    (ascii "branding_version", ascii "0")]

def exchangeFields (code codeVerifier : List UInt8) : List (List UInt8 × List UInt8) :=
  [(ascii "client_id", oidcClientId), (ascii "code", code), (ascii "code_verifier", codeVerifier),
    (ascii "redirect_uri", oidcRedirect), (ascii "grant_type", ascii "authorization_code")]

set_option maxRecDepth 4096 in
theorem oidcBuildDevBody_fields (type deviceId username : List UInt8) :
    oidcBuildDevBody type deviceId username =
      0x7B :: (jsonFields (devFields type deviceId username) ++ [0x7D]) := by
  simp only [devFields, jsonFields, jsonQuoted, List.append_assoc, List.cons_append]
  rfl

theorem exchangeCodeBody_fields (code codeVerifier : List UInt8) :
    exchangeCodeBody code codeVerifier =
      0x7B :: (jsonFields (exchangeFields code codeVerifier) ++ [0x7D]) := by
  simp only [exchangeFields, jsonFields, jsonQuoted, List.append_assoc, List.cons_append]
  rfl

/-- Whatever is put into them, both bodies are read as objects of just the fields that are meant: no
value can add a field or end the text. -/
theorem requestBodies_read {D : Type} (strtod : List UInt8 → Option D)
    (type deviceId username code codeVerifier : List UInt8)
    (text : 0 ∉ type ∧ 0 ∉ deviceId ∧ 0 ∉ username ∧ 0 ∉ code ∧ 0 ∉ codeVerifier) :
    jsonParseEx strtod (oidcBuildDevBody type deviceId username) =
        .ok (.obj ((devFields type deviceId username).map fun f => (f.1, .str f.2))) ∧
      jsonParseEx strtod (exchangeCodeBody code codeVerifier) =
        .ok (.obj ((exchangeFields code codeVerifier).map fun f => (f.1, .str f.2))) := by
  rw [oidcBuildDevBody_fields, exchangeCodeBody_fields]
  constructor
  · refine jsonParseEx_fields strtod _ (List.cons_ne_nil _ _) ?_
    simp only [devFields, List.forall_mem_cons, text, not_false_eq_true, and_true]
    decide
  · refine jsonParseEx_fields strtod _ (List.cons_ne_nil _ _) ?_
    simp only [exchangeFields, List.forall_mem_cons, text, not_false_eq_true, and_true]
    decide

theorem requestBodies_read_sample :
    jsonParseEx (fun _ => some ()) (oidcBuildDevBody (ascii "d") [0x22, 0x7D] [0x5C, 0x22]) =
        .ok (.obj ((devFields (ascii "d") [0x22, 0x7D] [0x5C, 0x22]).map fun f =>
          (f.1, .str f.2))) ∧
      jsonParseEx (fun _ => some ()) (exchangeCodeBody [0x22, 0x2C, 0x0A] [0x5C]) =
        .ok (.obj ((exchangeFields [0x22, 0x2C, 0x0A] [0x5C]).map fun f => (f.1, .str f.2))) :=
  requestBodies_read _ _ _ _ _ _ (by decide)

end Iwan
