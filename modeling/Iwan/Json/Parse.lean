import Iwan.Wire.Cipher

/- The JSON parser (json.c). The empty list is where the source reads the terminator; the conversion
of a number is a parameter. -/
namespace Iwan

def jsonMaxDepth : Nat := 256

/-- The parser's tree; `D` stands for double. -/
inductive Json (D : Type) where
  | null
  | bool (boolean : Bool)
  | num (num : D)
  | str (str : List UInt8)
  | arr (arr : List (Json D))
  | obj (items : List (List UInt8 × Json D))

/-- The text left, the distance of the offending byte, whether it is the end, and the message. -/
structure JsonFail where
  s : List UInt8
  off : Nat
  eof : Bool
  msg : String

abbrev JsonStep (α : Type) : Type := Except JsonFail (α × List UInt8)

def jsonFail {α : Type} (s : List UInt8) (off : Nat) (eof : Bool) (msg : String) :
    Except JsonFail α :=
  .error ⟨s, off, eof, msg⟩

def jsonEof {α : Type} (msg : String) : Except JsonFail α := jsonFail [] 0 true msg

def JsonFail.text (start : List UInt8) (e : JsonFail) : String :=
  let i := if e.eof then start.length else start.length - e.s.length + e.off + 1
  let before := start.take i
  let line := 1 + before.count 0x0A
  let col := if 0x0A ∈ before then i - (before.length - (before.rtakeWhile (· ≠ 0x0A)).length)
    else i
  e.msg ++ " at line " ++ toString line ++ " column " ++ toString col

def jsonSpace (c : UInt8) : Bool := c = 0x20 || (0x09 ≤ c && c ≤ 0x0D)

def skipWs (s : List UInt8) : List UInt8 := s.dropWhile jsonSpace

/-- Four hexadecimal digits, or what is in their way. -/
inductive Hex4 where
  | ok (v : Nat)
  | eof
  | bad

def hexValue (a b c d : UInt8) : Option Nat :=
  match hexNibble a, hexNibble b, hexNibble c, hexNibble d with
  | some a, some b, some c, some d =>
    some (((a.toNat * 16 + b.toNat) * 16 + c.toNat) * 16 + d.toNat)
  | _, _, _, _ => none

def hex4 : List UInt8 → Hex4
  | a :: b :: c :: d :: _ =>
    match hexValue a b c d with
    | some v => .ok v
    | none => .bad
  | _ => .eof

def utf8Encode (cp : Nat) : List UInt8 :=
  if cp < 0x80 then [UInt8.ofNat cp]
  else if cp < 0x800 then
    [UInt8.ofNat (0xC0 ||| cp >>> 6), UInt8.ofNat (0x80 ||| cp &&& 0x3F)]
  else if cp < 0x10000 then
    if 0xD800 ≤ cp ∧ cp ≤ 0xDFFF then ascii "?"
    else [UInt8.ofNat (0xE0 ||| cp >>> 12), UInt8.ofNat (0x80 ||| (cp >>> 6) &&& 0x3F),
      UInt8.ofNat (0x80 ||| cp &&& 0x3F)]
  else [UInt8.ofNat (0xF0 ||| cp >>> 18), UInt8.ofNat (0x80 ||| (cp >>> 12) &&& 0x3F),
    UInt8.ofNat (0x80 ||| (cp >>> 6) &&& 0x3F), UInt8.ofNat (0x80 ||| cp &&& 0x3F)]

def jsonUnescape (e : UInt8) : Option UInt8 :=
  if e = 0x22 then some 0x22
  else if e = 0x5C then some 0x5C
  else if e = 0x2F then some 0x2F
  else if e = 0x62 then some 0x08
  else if e = 0x66 then some 0x0C
  else if e = 0x6E then some 0x0A
  else if e = 0x72 then some 0x0D
  else if e = 0x74 then some 0x09
  else none

def highSurrogate (cp : Nat) : Bool := 0xD800 ≤ cp && cp ≤ 0xDBFF
def lowSurrogate (cp : Nat) : Bool := 0xDC00 ≤ cp && cp ≤ 0xDFFF

def surrogatePair (hi lo : Nat) : Nat := 0x10000 + (hi - 0xD800) * 1024 + (lo - 0xDC00)

def parseUnicode (s : List UInt8) : Except JsonFail (List UInt8 × Nat) :=
  match hex4 (s.drop 2) with
  | .eof => jsonEof "EOF while parsing a string"
  | .bad => jsonFail s 5 false "invalid escape"
  | .ok cp =>
    if cp = 0 then jsonFail s 5 false "NUL escape (\\u0000) is not allowed"
    else if highSurrogate cp ∧ (s.drop 6).take 2 = [0x5C, 0x75] then
      match hex4 (s.drop 8) with
      | .eof => jsonEof "EOF while parsing a string"
      | .ok lo =>
        if lowSurrogate lo then .ok (utf8Encode (surrogatePair cp lo), 12)
        else .ok (utf8Encode cp, 6)
      | .bad => .ok (utf8Encode cp, 6)
    else .ok (utf8Encode cp, 6)

def parseStringLoop : Nat → List UInt8 → List UInt8 → JsonStep (List UInt8)
  | 0, _, _ => jsonEof "EOF while parsing a string"
  | fuel + 1, s, b =>
    match s with
    | [] => jsonEof "EOF while parsing a string"
    | c :: rest =>
      if c = 0x22 then .ok (b, rest)
      else if c = 0x5C then
        match rest with
        | [] => jsonEof "EOF while parsing a string"
        | e :: rest =>
          if e = 0x75 then
            match parseUnicode s with
            | .error failed => .error failed
            | .ok (enc, used) => parseStringLoop fuel (s.drop used) (b ++ enc)
          else
            match jsonUnescape e with
            | some plain => parseStringLoop fuel rest (b ++ [plain])
            | none => jsonFail s 1 false "invalid escape"
      else if c < 0x20 then
        jsonFail s 0 false "control character (\\u0000-\\u001F) found while parsing a string"
      else parseStringLoop fuel rest (b ++ [c])

def parseString (s : List UInt8) : JsonStep (List UInt8) :=
  parseStringLoop s.length (s.drop 1) []

def jsonDigit (c : UInt8) : Bool := 0x30 ≤ c && c ≤ 0x39

def numberDigits (s : List UInt8) : Except JsonFail (List UInt8) :=
  match s with
  | [] => jsonEof "EOF while parsing a value"
  | c :: _ =>
    if jsonDigit c then .ok (s.dropWhile jsonDigit) else jsonFail s 0 false "invalid number"

def numberSign (s : List UInt8) : Except JsonFail (List UInt8) :=
  match s with
  | [] => .ok []
  | c :: rest =>
    if c = 0x2D then
      match rest with
      | [] => jsonEof "EOF while parsing a value"
      | d :: _ => if jsonDigit d then .ok rest else jsonFail rest 0 false "invalid number"
    else .ok s

def numberInt (s : List UInt8) : Except JsonFail (List UInt8) :=
  match s with
  | [] => .ok []
  | c :: rest =>
    if c = 0x30 then
      if rest.head?.any jsonDigit then jsonFail rest 0 false "invalid number" else .ok rest
    else .ok (s.dropWhile jsonDigit)

def numberFrac (s : List UInt8) : Except JsonFail (List UInt8) :=
  match s with
  | [] => .ok []
  | c :: rest => if c = 0x2E then numberDigits rest else .ok s

def jsonExpMark (c : UInt8) : Bool := c = 0x65 || c = 0x45
def jsonSign (c : UInt8) : Bool := c = 0x2B || c = 0x2D

def numberExp (s : List UInt8) : Except JsonFail (List UInt8) :=
  match s with
  | [] => .ok []
  | c :: rest =>
    if jsonExpMark c then
      match rest with
      | [] => numberDigits []
      | sign :: rest' => numberDigits (if jsonSign sign then rest' else rest)
    else .ok s

def numberEnd (s : List UInt8) : Except JsonFail (List UInt8) := do
  let s ← numberSign s
  let s ← numberInt s
  let s ← numberFrac s
  numberExp s

variable {D : Type}

def parseNumber (strtod : List UInt8 → Option D) (start : List UInt8) : JsonStep (Json D) :=
  match numberEnd start with
  | .error failed => .error failed
  | .ok s =>
    let n := start.length - s.length
    if 128 ≤ n then jsonFail start 0 false "number out of range"
    else
      match strtod (start.take n) with
      | some d => .ok (.num d, s)
      | none => jsonFail s 0 false "number out of range"

/-- What arrays and objects differ in. -/
structure JsonContainer where
  close : UInt8
  eofMsg : String
  sepMsg : String

def parseItems {α : Type} (k : JsonContainer) (item : List UInt8 → JsonStep α) :
    Nat → Bool → List UInt8 → List α → JsonStep (List α)
  | 0, _, _, _ => jsonEof k.eofMsg
  | fuel + 1, afterComma, s, items =>
    match skipWs s with
    | [] => jsonEof (if afterComma then "EOF while parsing a value" else k.eofMsg)
    | c :: rest =>
      if c = k.close then
        if afterComma then jsonFail (c :: rest) 0 false "trailing comma"
        else .ok (items, rest)
      else
        match item (c :: rest) with
        | .error failed => .error failed
        | .ok (v, s) =>
          match skipWs s with
          | [] => jsonEof k.eofMsg
          | sep :: rest =>
            if sep = 0x2C then parseItems k item fuel true rest (items ++ [v])
            else if sep = k.close then .ok (items ++ [v], rest)
            else jsonFail (sep :: rest) 0 false k.sepMsg

def jsonList : JsonContainer := ⟨0x5D, "EOF while parsing a list", "expected `,` or `]`"⟩
def jsonObject : JsonContainer :=
  ⟨0x7D, "EOF while parsing an object", "expected `,` or `\x7d`"⟩

def parseArray (value : List UInt8 → JsonStep (Json D)) (s : List UInt8) : JsonStep (Json D) :=
  match parseItems jsonList value (s.length + 1) false s [] with
  | .error failed => .error failed
  | .ok (arr, s) => .ok (.arr arr, s)

def parseMember (value : List UInt8 → JsonStep (Json D)) (s : List UInt8) :
    JsonStep (List UInt8 × Json D) :=
  if s.head? ≠ some 0x22 then jsonFail s 0 false "key must be a string"
  else
    match parseString s with
    | .error failed => .error failed
    | .ok (key, s) =>
      match skipWs s with
      | [] => jsonEof "EOF while parsing an object"
      | c :: rest =>
        if c ≠ 0x3A then jsonFail (c :: rest) 0 false "expected `:`"
        else
          match value rest with
          | .error failed => .error failed
          | .ok (v, s) => .ok ((key, v), s)

def parseObject (value : List UInt8 → JsonStep (Json D)) (s : List UInt8) : JsonStep (Json D) :=
  match parseItems jsonObject (parseMember value) (s.length + 1) false s [] with
  | .error failed => .error failed
  | .ok (items, s) => .ok (.obj items, s)

def parseLit (v : Json D) : List UInt8 → List UInt8 → JsonStep (Json D)
  | [], s => .ok (v, s)
  | _ :: _, [] => jsonEof "EOF while parsing a value"
  | l :: lit, c :: s =>
    if c = l then parseLit v lit s else jsonFail (c :: s) 0 false "expected ident"

/-- A value; `levels` is the number of levels that may still be entered. -/
def parseValue (strtod : List UInt8 → Option D) : Nat → List UInt8 → JsonStep (Json D)
  | 0, s => jsonFail (skipWs s) 0 false "maximum depth exceeded"
  | levels + 1, s =>
    match skipWs s with
    | [] => jsonEof "EOF while parsing a value"
    | c :: rest =>
      if c = 0x7B then parseObject (parseValue strtod levels) rest
      else if c = 0x5B then parseArray (parseValue strtod levels) rest
      else if c = 0x22 then
        match parseString (c :: rest) with
        | .error failed => .error failed
        | .ok (str, s) => .ok (.str str, s)
      else if c = 0x74 then parseLit (.bool true) (ascii "true") (c :: rest)
      else if c = 0x66 then parseLit (.bool false) (ascii "false") (c :: rest)
      else if c = 0x6E then parseLit .null (ascii "null") (c :: rest)
      else if c = 0x2D ∨ jsonDigit c then parseNumber strtod (c :: rest)
      else jsonFail (c :: rest) 0 false "expected value"

def jsonParseEx (strtod : List UInt8 → Option D) (text : List UInt8) :
    Except String (Json D) :=
  match parseValue strtod (jsonMaxDepth + 1) text with
  | .error failed => .error (failed.text text)
  | .ok (v, s) =>
    match skipWs s with
    | [] => .ok v
    | c :: rest =>
      .error (JsonFail.text text ⟨c :: rest, 0, false, "trailing characters"⟩)

def jsonParse (strtod : List UInt8 → Option D) (text : List UInt8) : Option (Json D) :=
  (jsonParseEx strtod text).toOption

def jsonObjGet (j : Json D) (key : List UInt8) : Option (Json D) :=
  match j with
  | .obj items => items.foldl (fun found item => if item.1 = key then some item.2 else found) none
  | _ => none

def sizeMax : Nat := 2 ^ 64 - 1

def jsonIndex : List UInt8 → Nat → Option Nat
  | [], idx => some idx
  | c :: seg, idx =>
    if (sizeMax - 9) / 10 < idx then none
    else jsonIndex seg (idx * 10 + (c - 0x30).toNat)

def jsonGetSegment (cur : Json D) (seg : List UInt8) : Option (Json D) :=
  if seg = [] then none
  else
    let key := if 64 ≤ seg.length then none else jsonObjGet cur seg
    match cur with
    | .arr arr =>
      if seg.all jsonDigit then
        if 20 ≤ seg.length then none
        else
          match jsonIndex seg 0 with
          | some idx => arr[idx]?
          | none => none
      else key
    | _ => key

def jsonGet (root : Json D) (path : List UInt8) : Option (Json D) :=
  if path = [] then some root else (path.splitOn 0x2E).foldlM jsonGetSegment root

def Json.str? : Json D → Option (List UInt8)
  | .str s => some s
  | _ => none

def Json.num? : Json D → Option D
  | .num d => some d
  | _ => none

def jsonGetStr (root : Json D) (path : List UInt8) : Option (List UInt8) :=
  (jsonGet root path).bind Json.str?

end Iwan
