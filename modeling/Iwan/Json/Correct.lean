import Iwan.Json.Grammar

/- The parser reads exactly the texts of the grammar. -/
namespace Iwan

variable {D α : Type}

/-- Items with commas between them. -/
inductive JsonListed (ws : UInt8 → Bool) (item : List UInt8 → α → Prop) :
    List UInt8 → List α → Prop where
  | one {t : List UInt8} {v : α} (first : item t v) : JsonListed ws item t [v]
  | more {t w w' u : List UInt8} {v : α} {vs : List α} (first : item t v) (before : Blank ws w)
      (after : Blank ws w') (rest : JsonListed ws item u vs) :
      JsonListed ws item (t ++ (w ++ 0x2C :: (w' ++ u))) (v :: vs)

/-- A name, a colon and a value. -/
inductive JsonMember (ws : UInt8 → Bool) (value : List UInt8 → Json D → Prop) :
    List UInt8 → List UInt8 × Json D → Prop where
  | mk {key w w' t : List UInt8} {chars : List JsonChar} {v : Json D} (name : JsonString key chars)
      (nonzero : JsonChar.unit 0 ∉ chars) (before : Blank ws w) (after : Blank ws w')
      (val : value t v) :
      JsonMember ws value (key ++ (w ++ 0x3A :: (w' ++ t))) (decodeChars chars, v)

/-- The values of RFC 8259 over the values one level down, with the parser's limits on numbers and
strings. -/
inductive JsonShape (ws : UInt8 → Bool) (strtod : List UInt8 → Option D)
    (value : List UInt8 → Json D → Prop) : List UInt8 → Json D → Prop where
  | null : JsonShape ws strtod value (ascii "null") .null
  | bool (b : Bool) : JsonShape ws strtod value (ascii (if b then "true" else "false")) (.bool b)
  | num {t : List UInt8} {d : D} (number : JsonNumber t) (short : t.length < 128)
      (inRange : strtod t = some d) : JsonShape ws strtod value t (.num d)
  | str {t : List UInt8} {chars : List JsonChar} (text : JsonString t chars)
      (nonzero : JsonChar.unit 0 ∉ chars) : JsonShape ws strtod value t (.str (decodeChars chars))
  | emptyArr {w : List UInt8} (blank : Blank ws w) :
      JsonShape ws strtod value (0x5B :: (w ++ [0x5D])) (.arr [])
  | arr {w t w' : List UInt8} {vs : List (Json D)} (before : Blank ws w) (after : Blank ws w')
      (items : JsonListed ws value t vs) :
      JsonShape ws strtod value (0x5B :: (w ++ (t ++ (w' ++ [0x5D])))) (.arr vs)
  | emptyObj {w : List UInt8} (blank : Blank ws w) :
      JsonShape ws strtod value (0x7B :: (w ++ [0x7D])) (.obj [])
  | obj {w t w' : List UInt8} {ms : List (List UInt8 × Json D)} (before : Blank ws w)
      (after : Blank ws w') (items : JsonListed ws (JsonMember ws value) t ms) :
      JsonShape ws strtod value (0x7B :: (w ++ (t ++ (w' ++ [0x7D])))) (.obj ms)

def JsonValue (ws : UInt8 → Bool) (strtod : List UInt8 → Option D) :
    Nat → List UInt8 → Json D → Prop
  | 0 => fun _ _ => False
  | levels + 1 => JsonShape ws strtod (JsonValue ws strtod levels)

/-- One value, nested no deeper than `depth`, with white space around it. -/
def JsonText (ws : UInt8 → Bool) (strtod : List UInt8 → Option D) (depth : Nat)
    (text : List UInt8) (v : Json D) : Prop :=
  ∃ w t w', text = w ++ (t ++ w') ∧ Blank ws w ∧ Blank ws w' ∧
    JsonValue ws strtod (depth + 1) t v

theorem skipWs_split (s : List UInt8) : ∃ w, Blank jsonSpace w ∧ s = w ++ skipWs s :=
  ⟨s.takeWhile jsonSpace, fun _ member => List.mem_takeWhile_imp member,
    List.takeWhile_append_dropWhile.symm⟩

theorem skipWs_blank {w : List UInt8} (s : List UInt8) (blank : Blank jsonSpace w) :
    skipWs (w ++ s) = skipWs s :=
  List.dropWhile_append_of_pos blank

theorem skipWs_cons {c : UInt8} (s : List UInt8) (plain : jsonSpace c = false) :
    skipWs (c :: s) = c :: s :=
  dropWhile_of_head fun d member => by
    cases member
    exact plain

def Sound (read : List UInt8 → JsonStep α) (item : List UInt8 → α → Prop) : Prop :=
  ∀ s v rest, read s = .ok (v, rest) →
    ∃ w t, s = w ++ (t ++ rest) ∧ Blank jsonSpace w ∧ item t v

def ValueStop (rest : List UInt8) : Prop :=
  ∀ c ∈ rest.head?, jsonSpace c = true ∨ c = 0x2C ∨ c = 0x5D ∨ c = 0x7D

def Complete (read : List UInt8 → JsonStep α) (item : List UInt8 → α → Prop) : Prop :=
  ∀ t v rest, item t v → ValueStop rest → read (t ++ rest) = .ok (v, rest)

def Begins (item : List UInt8 → α → Prop) : Prop :=
  ∀ t v, item t v → ∃ c u, t = c :: u ∧ jsonSpace c = false ∧ c ≠ 0x5D ∧ c ≠ 0x7D

theorem ValueStop.blank {w rest : List UInt8} (blank : Blank jsonSpace w)
    (stop : ValueStop rest) : ValueStop (w ++ rest) := by
  cases w with
  | nil => exact stop
  | cons c w =>
    intro d member
    cases member
    exact .inl (blank c List.mem_cons_self)

theorem ValueStop.number {rest : List UInt8} (stop : ValueStop rest) : NumberStop rest := by
  have spaces : ∀ c : UInt8, jsonSpace c = true → jsonDigit c = false ∧ c ≠ 0x2E ∧
      jsonExpMark c = false := by decide +kernel
  intro c member
  rcases stop c member with space | rfl | rfl | rfl
  · exact spaces c space
  · decide
  · decide
  · decide

section

variable {k : JsonContainer} {read : List UInt8 → JsonStep α} {item : List UInt8 → α → Prop}

theorem parseItems_sound (sound : Sound read item) (fuel : Nat) {afterComma : Bool}
    {s rest : List UInt8} {items out : List α}
    (parsed : parseItems k read fuel afterComma s items = .ok (out, rest)) :
    (afterComma = false ∧ out = items ∧ ∃ w, Blank jsonSpace w ∧ s = w ++ k.close :: rest) ∨
      ∃ w t w' vs, Blank jsonSpace w ∧ Blank jsonSpace w' ∧ JsonListed jsonSpace item t vs ∧
        s = w ++ (t ++ (w' ++ k.close :: rest)) ∧ out = items ++ vs := by
  induction fuel generalizing afterComma s items with
  | zero => cases parsed
  | succ fuel ih =>
    obtain ⟨w, blank, shape⟩ := skipWs_split s
    unfold parseItems at parsed
    cases head : skipWs s with
    | nil => rw [head] at parsed; cases parsed
    | cons c s' =>
      rw [head] at parsed shape
      dsimp only at parsed
      by_cases closed : c = k.close
      · rw [if_pos closed] at parsed
        cases afterComma with
        | true =>
          rw [if_pos rfl] at parsed
          cases parsed
        | false =>
          rw [if_neg Bool.false_ne_true] at parsed
          cases parsed
          exact .inl ⟨rfl, rfl, w, blank, by rw [shape, closed]⟩
      · rw [if_neg closed] at parsed
        cases taken : read (c :: s') with
        | error failed => rw [taken] at parsed; cases parsed
        | ok pair =>
          obtain ⟨v, s₁⟩ := pair
          rw [taken] at parsed
          dsimp only at parsed
          obtain ⟨w₁, t, shape₁, blank₁, isItem⟩ := sound _ _ _ taken
          obtain ⟨w₂, blank₂, shape₂⟩ := skipWs_split s₁
          have front := blank.append blank₁
          right
          cases head₂ : skipWs s₁ with
          | nil => rw [head₂] at parsed; cases parsed
          | cons sep s₂ =>
            rw [head₂] at parsed shape₂
            dsimp only at parsed
            by_cases comma : sep = 0x2C
            · rw [if_pos comma] at parsed
              rcases ih parsed with ⟨bad, _⟩ | later
              · cases bad
              · obtain ⟨w₃, u, w₄, vs, blank₃, blank₄, listed, shape₃, rfl⟩ := later
                refine ⟨w ++ w₁, _, w₄, v :: vs, front, blank₄,
                  .more isItem blank₂ blank₃ listed, ?_, ?_⟩
                · rw [shape, shape₁, shape₂, shape₃, comma]
                  simp only [List.append_assoc, List.cons_append]
                · rw [List.append_assoc]
                  rfl
            · rw [if_neg comma] at parsed
              by_cases ended : sep = k.close
              · rw [if_pos ended] at parsed
                cases parsed
                refine ⟨w ++ w₁, t, w₂, [v], front, blank₂, .one isItem, ?_, rfl⟩
                rw [shape, shape₁, shape₂, ended, List.append_assoc]
              · rw [if_neg ended] at parsed
                cases parsed

def itemsAfter (k : JsonContainer) (read : List UInt8 → JsonStep α) (fuel : Nat)
    (items : List α) : List UInt8 → JsonStep (List α)
  | [] => jsonEof k.eofMsg
  | sep :: rest =>
    if sep = 0x2C then parseItems k read fuel true rest items
    else if sep = k.close then .ok (items, rest)
    else jsonFail (sep :: rest) 0 false k.sepMsg

variable (closes : k.close = 0x5D ∨ k.close = 0x7D)
include closes

theorem ValueStop.close (rest : List UInt8) : ValueStop (k.close :: rest) := by
  intro c member
  cases member
  exact .inr (.inr closes)

variable {w : List UInt8}

theorem skipWs_close (rest : List UInt8) (blank : Blank jsonSpace w) :
    skipWs (w ++ k.close :: rest) = k.close :: rest := by
  rw [skipWs_blank _ blank, skipWs_cons]
  rcases closes with same | same <;> rw [same] <;> rfl

theorem parseItems_empty (fuel : Nat) (rest : List UInt8) (items : List α)
    (blank : Blank jsonSpace w) :
    parseItems k read (fuel + 1) false (w ++ k.close :: rest) items = .ok (items, rest) := by
  rw [parseItems, skipWs_close closes rest blank]
  dsimp only
  rw [if_pos rfl, if_neg Bool.false_ne_true]

theorem parseItems_turn (complete : Complete read item) (begins : Begins item) (fuel : Nat)
    {t behind : List UInt8} {v : α} (afterComma : Bool) (items : List α)
    (blank : Blank jsonSpace w) (isItem : item t v) (stop : ValueStop behind) :
    parseItems k read (fuel + 1) afterComma (w ++ (t ++ behind)) items =
      itemsAfter k read fuel (items ++ [v]) (skipWs behind) := by
  have taken := complete t v behind isItem stop
  obtain ⟨c, u, rfl, plain, square, curly⟩ := begins t v isItem
  have inside : c ≠ k.close := by
    rcases closes with same | same <;> rw [same]
    · exact square
    · exact curly
  rw [List.cons_append] at taken
  rw [parseItems, skipWs_blank _ blank, List.cons_append, skipWs_cons _ plain]
  dsimp only
  rw [if_neg inside, taken]
  rfl

theorem parseItems_complete (complete : Complete read item) (begins : Begins item)
    {t w' : List UInt8} {vs : List α} (rest : List UInt8) (after : Blank jsonSpace w')
    (listed : JsonListed jsonSpace item t vs) {fuel : Nat} (afterComma : Bool)
    (items : List α) (enough : t.length ≤ fuel) (before : Blank jsonSpace w) :
    parseItems k read (fuel + 1) afterComma (w ++ (t ++ (w' ++ k.close :: rest))) items =
      .ok (items ++ vs, rest) := by
  induction listed generalizing fuel w afterComma items with
  | one isItem =>
    rw [parseItems_turn closes complete begins fuel afterComma items before isItem
      ((ValueStop.close closes rest).blank after), skipWs_close closes rest after, itemsAfter,
      if_neg, if_pos rfl]
    rcases closes with same | same <;> rw [same] <;> decide
  | @more t wa wb u v vs isItem blank blank' listed ih =>
    have stop : ValueStop (wa ++ 0x2C :: (wb ++ (u ++ (w' ++ k.close :: rest)))) := by
      apply ValueStop.blank blank
      intro c member
      cases member
      exact .inr (.inl rfl)
    have shape : w ++ (t ++ (wa ++ 0x2C :: (wb ++ u)) ++ (w' ++ k.close :: rest)) =
        w ++ (t ++ (wa ++ 0x2C :: (wb ++ (u ++ (w' ++ k.close :: rest))))) := by
      simp only [List.append_assoc, List.cons_append]
    have size : t.length + (wa.length + (wb.length + u.length + 1)) ≤ fuel := by
      simpa only [List.length_append, List.length_cons] using enough
    obtain ⟨less, rfl⟩ : ∃ less, fuel = less + 1 := ⟨fuel - 1, by omega⟩
    rw [shape, parseItems_turn closes complete begins _ afterComma items before isItem stop,
      skipWs_blank _ blank, skipWs_cons _ (by rfl), itemsAfter, if_pos rfl,
      ih true (items ++ [v]) (by omega) blank', List.append_assoc]
    rfl

end

section

variable {read : List UInt8 → JsonStep (Json D)} {value : List UInt8 → Json D → Prop}

theorem JsonString.begins {t : List UInt8} {chars : List JsonChar} (text : JsonString t chars) :
    ∃ u, t = 0x22 :: u := by
  obtain ⟨inner, rfl, _⟩ := text
  exact ⟨_, rfl⟩

theorem jsonMember_begins {ws : UInt8 → Bool} : Begins (JsonMember ws value) := by
  rintro t m ⟨name, _, _, _, _⟩
  obtain ⟨u, rfl⟩ := name.begins
  exact ⟨0x22, _, rfl, rfl, by decide, by decide⟩

theorem parseMember_sound (sound : Sound read value) :
    Sound (parseMember read) (JsonMember jsonSpace value) := by
  intro s m rest parsed
  unfold parseMember at parsed
  by_cases opened : s.head? = some 0x22
  · rw [if_neg (fun bad => bad opened)] at parsed
    cases name : parseString s with
    | error failed => rw [name] at parsed; cases parsed
    | ok pair =>
      obtain ⟨key, s₁⟩ := pair
      rw [name] at parsed
      dsimp only at parsed
      obtain ⟨t, chars, shape, text, nonzero, rfl⟩ := parseString_sound opened name
      obtain ⟨w, blank, shape₁⟩ := skipWs_split s₁
      cases head : skipWs s₁ with
      | nil => rw [head] at parsed; cases parsed
      | cons c s₂ =>
        rw [head] at parsed shape₁
        dsimp only at parsed
        by_cases colon : c = 0x3A
        · rw [if_neg (fun bad => bad colon)] at parsed
          cases inner : read s₂ with
          | error failed => rw [inner] at parsed; cases parsed
          | ok pair =>
            obtain ⟨v, s₃⟩ := pair
            rw [inner] at parsed
            cases parsed
            obtain ⟨w', u, shape₂, blank', isValue⟩ := sound _ _ _ inner
            refine ⟨[], _, ?_, List.forall_mem_nil _,
              .mk text nonzero blank blank' isValue⟩
            rw [shape, shape₁, shape₂, colon]
            simp only [List.nil_append, List.append_assoc, List.cons_append]
        · rw [if_pos colon] at parsed
          cases parsed
  · rw [if_pos opened] at parsed
    cases parsed

theorem parseMember_complete (complete : Complete read value)
    (skips : ∀ w s, Blank jsonSpace w → read (w ++ s) = read s) :
    Complete (parseMember read) (JsonMember jsonSpace value) := by
  rintro t m rest ⟨name, nonzero, before, after, isValue⟩ stop
  rename_i key w w' u chars v
  have opened : (key ++ (w ++ 0x3A :: (w' ++ (u ++ rest)))).head? = some 0x22 := by
    obtain ⟨inner, rfl⟩ := name.begins
    rfl
  have shape : key ++ (w ++ 0x3A :: (w' ++ u)) ++ rest =
      key ++ (w ++ 0x3A :: (w' ++ (u ++ rest))) := by
    simp only [List.append_assoc, List.cons_append]
  rw [shape, parseMember, if_neg (fun bad => bad opened), parseString_complete _ name nonzero]
  dsimp only
  rw [skipWs_blank _ before, skipWs_cons _ (by rfl)]
  dsimp only
  rw [if_neg (fun bad => bad rfl), skips w' _ after, complete u v rest isValue stop]

end

section

variable {strtod : List UInt8 → Option D}

variable {v : Json D} {s rest : List UInt8}

theorem parseLit_sound {out : Json D} {lit : List UInt8}
    (parsed : parseLit v lit s = .ok (out, rest)) : s = lit ++ rest ∧ out = v := by
  induction lit generalizing s with
  | nil =>
    cases parsed
    exact ⟨rfl, rfl⟩
  | cons l lit ih =>
    cases s with
    | nil => cases parsed
    | cons c s =>
      unfold parseLit at parsed
      split at parsed
      · rename_i same
        obtain ⟨rfl, same'⟩ := ih parsed
        exact ⟨by rw [same]; rfl, same'⟩
      · cases parsed

theorem parseLit_complete (v : Json D) (lit rest : List UInt8) :
    parseLit v lit (lit ++ rest) = .ok (v, rest) := by
  induction lit with
  | nil => rfl
  | cons l lit ih =>
    rw [List.cons_append, parseLit, if_pos rfl]
    exact ih

variable {read : List UInt8 → JsonStep (Json D)}

theorem parseArray_sound {value : List UInt8 → Json D → Prop} (sound : Sound read value)
    (parsed : parseArray read s = .ok (v, rest)) :
    ∃ t, 0x5B :: s = t ++ rest ∧ JsonShape jsonSpace strtod value t v := by
  unfold parseArray at parsed
  cases items : parseItems jsonList read (s.length + 1) false s [] with
  | error failed => rw [items] at parsed; cases parsed
  | ok pair =>
    obtain ⟨vs, rest'⟩ := pair
    rw [items] at parsed
    cases parsed
    rcases parseItems_sound sound _ items with ⟨_, rfl, w, blank, rfl⟩ | filled
    · refine ⟨_, ?_, .emptyArr blank⟩
      simp only [List.append_assoc, List.cons_append, List.nil_append]
      rfl
    · obtain ⟨w, t, w', vs, before, after, listed, rfl, rfl⟩ := filled
      refine ⟨_, ?_, .arr before after listed⟩
      simp only [List.append_assoc, List.cons_append, List.nil_append]
      rfl

theorem parseObject_sound {value : List UInt8 → Json D → Prop} (sound : Sound read value)
    (parsed : parseObject read s = .ok (v, rest)) :
    ∃ t, 0x7B :: s = t ++ rest ∧ JsonShape jsonSpace strtod value t v := by
  unfold parseObject at parsed
  cases items : parseItems jsonObject (parseMember read) (s.length + 1) false s [] with
  | error failed => rw [items] at parsed; cases parsed
  | ok pair =>
    obtain ⟨ms, rest'⟩ := pair
    rw [items] at parsed
    cases parsed
    rcases parseItems_sound (parseMember_sound sound) _ items with
      ⟨_, rfl, w, blank, rfl⟩ | filled
    · refine ⟨_, ?_, .emptyObj blank⟩
      simp only [List.append_assoc, List.cons_append, List.nil_append]
      rfl
    · obtain ⟨w, t, w', ms, before, after, listed, rfl, rfl⟩ := filled
      refine ⟨_, ?_, .obj before after listed⟩
      simp only [List.append_assoc, List.cons_append, List.nil_append]
      rfl

theorem parseValue_sound (levels : Nat) :
    Sound (parseValue strtod levels) (JsonValue jsonSpace strtod levels) := by
  induction levels with
  | zero =>
    intro s v rest parsed
    cases parsed
  | succ levels ih =>
    intro s v rest parsed
    obtain ⟨w, blank, shape⟩ := skipWs_split s
    -- It is enough to find the value behind the white space.
    suffices behind : ∃ t, skipWs s = t ++ rest ∧
        JsonShape jsonSpace strtod (JsonValue jsonSpace strtod levels) t v by
      obtain ⟨t, found, isValue⟩ := behind
      exact ⟨w, t, by rw [← found]; exact shape, blank, isValue⟩
    unfold parseValue at parsed
    cases head : skipWs s with
    | nil => rw [head] at parsed; cases parsed
    | cons c s' =>
      rw [head] at parsed
      dsimp only at parsed
      by_cases curly : c = 0x7B
      · rw [if_pos curly] at parsed
        rw [curly]
        exact parseObject_sound ih parsed
      rw [if_neg curly] at parsed
      by_cases square : c = 0x5B
      · rw [if_pos square] at parsed
        rw [square]
        exact parseArray_sound ih parsed
      rw [if_neg square] at parsed
      by_cases quote : c = 0x22
      · rw [if_pos quote] at parsed
        cases text : parseString (c :: s') with
        | error failed => rw [text] at parsed; cases parsed
        | ok pair =>
          obtain ⟨str, rest'⟩ := pair
          rw [text] at parsed
          cases parsed
          have opened : (c :: s').head? = some 0x22 := congrArg some quote
          obtain ⟨t, chars, found, isText, nonzero, rfl⟩ := parseString_sound opened text
          exact ⟨t, found, .str isText nonzero⟩
      rw [if_neg quote] at parsed
      by_cases t : c = 0x74
      · rw [if_pos t] at parsed
        obtain ⟨found, rfl⟩ := parseLit_sound parsed
        exact ⟨_, found, .bool true⟩
      rw [if_neg t] at parsed
      by_cases f : c = 0x66
      · rw [if_pos f] at parsed
        obtain ⟨found, rfl⟩ := parseLit_sound parsed
        exact ⟨_, found, .bool false⟩
      rw [if_neg f] at parsed
      by_cases n : c = 0x6E
      · rw [if_pos n] at parsed
        obtain ⟨found, rfl⟩ := parseLit_sound parsed
        exact ⟨_, found, .null⟩
      rw [if_neg n] at parsed
      by_cases number : c = 0x2D ∨ jsonDigit c = true
      · rw [if_pos number] at parsed
        obtain ⟨t, d, found, isNumber, short, value, rfl⟩ := parseNumber_sound number parsed
        exact ⟨t, found, .num isNumber short value⟩
      · rw [if_neg number] at parsed
        cases parsed

theorem JsonNumber.begins {t : List UInt8} (number : JsonNumber t) :
    ∃ c u, t = c :: u ∧ (c = 0x2D ∨ jsonDigit c = true) := by
  obtain ⟨minus, int, frac, exp, rfl, minusText, isInt, _, _⟩ := number
  obtain ⟨c, u, rfl, digit⟩ := isInt.head
  rcases minusText with rfl | rfl
  · exact ⟨c, _, rfl, Or.inr digit⟩
  · exact ⟨0x2D, _, rfl, Or.inl rfl⟩

theorem numberByte {c : UInt8} (first : c = 0x2D ∨ jsonDigit c = true) :
    jsonSpace c = false ∧ c ≠ 0x5D ∧ c ≠ 0x7D ∧ c ≠ 0x7B ∧ c ≠ 0x5B ∧ c ≠ 0x22 ∧ c ≠ 0x74 ∧
      c ≠ 0x66 ∧ c ≠ 0x6E := by
  have all : ∀ c : UInt8, c = 0x2D ∨ jsonDigit c = true →
      jsonSpace c = false ∧ c ≠ 0x5D ∧ c ≠ 0x7D ∧ c ≠ 0x7B ∧ c ≠ 0x5B ∧ c ≠ 0x22 ∧ c ≠ 0x74 ∧
        c ≠ 0x66 ∧ c ≠ 0x6E := by decide +kernel
  exact all c first

theorem jsonValue_begins {ws : UInt8 → Bool} (levels : Nat) :
    Begins (JsonValue ws strtod levels) := by
  cases levels with
  | zero => exact fun _ _ bad => bad.elim
  | succ levels =>
    intro t v shape
    cases shape with
    | null => exact ⟨0x6E, ascii "ull", rfl, rfl, by decide, by decide⟩
    | bool b =>
      cases b with
      | false => exact ⟨0x66, ascii "alse", rfl, rfl, by decide, by decide⟩
      | true => exact ⟨0x74, ascii "rue", rfl, rfl, by decide, by decide⟩
    | num number _ _ =>
      obtain ⟨c, u, rfl, first⟩ := number.begins
      have apart := numberByte first
      exact ⟨c, u, rfl, apart.1, apart.2.1, apart.2.2.1⟩
    | str text _ =>
      obtain ⟨u, rfl⟩ := text.begins
      exact ⟨0x22, u, rfl, rfl, by decide, by decide⟩
    | emptyObj blank => exact ⟨0x7B, _, rfl, rfl, by decide, by decide⟩
    | obj before after items => exact ⟨0x7B, _, rfl, rfl, by decide, by decide⟩
    | _ => exact ⟨0x5B, _, rfl, rfl, by decide, by decide⟩

theorem parseValue_skips (levels : Nat) {w : List UInt8} (s : List UInt8)
    (blank : Blank jsonSpace w) :
    parseValue strtod levels (w ++ s) = parseValue strtod levels s := by
  cases levels with
  | zero => rw [parseValue, parseValue, skipWs_blank s blank]
  | succ levels => rw [parseValue, parseValue, skipWs_blank s blank]

theorem parseValue_complete (levels : Nat) :
    Complete (parseValue strtod levels) (JsonValue jsonSpace strtod levels) := by
  induction levels with
  | zero => exact fun _ _ _ bad _ => bad.elim
  | succ levels ih =>
    have begins : Begins (JsonValue jsonSpace strtod levels) := jsonValue_begins levels
    have member := parseMember_complete ih fun w s blank => parseValue_skips levels s blank
    intro t v rest shape stop
    cases shape with
    | null => exact parseLit_complete .null (ascii "null") rest
    | bool b =>
      cases b with
      | false => exact parseLit_complete (.bool false) (ascii "false") rest
      | true => exact parseLit_complete (.bool true) (ascii "true") rest
    | num number short value =>
      have read := parseNumber_complete number short value stop.number
      obtain ⟨c, u, rfl, first⟩ := number.begins
      obtain ⟨plain, _, _, curly, square, quote, t, f, n⟩ := numberByte first
      rw [List.cons_append] at read ⊢
      rw [parseValue, skipWs_cons _ plain]
      dsimp only
      rw [if_neg curly, if_neg square, if_neg quote, if_neg t, if_neg f, if_neg n,
        if_pos first, read]
    | str text nonzero =>
      have read := parseString_complete rest text nonzero
      obtain ⟨u, rfl⟩ := text.begins
      rw [List.cons_append] at read ⊢
      rw [parseValue, skipWs_cons _ (by rfl)]
      dsimp only
      rw [if_neg (by decide), if_neg (by decide), if_pos rfl, read]
    | @emptyArr w blank =>
      have shape : w ++ [0x5D] ++ rest = w ++ jsonList.close :: rest := List.append_assoc _ _ _
      change parseArray (parseValue strtod levels) (w ++ [0x5D] ++ rest) = _
      rw [shape, parseArray, parseItems_empty (Or.inl rfl) _ _ _ blank]
    | @arr w t w' vs before after items =>
      have shape : w ++ (t ++ (w' ++ [0x5D])) ++ rest =
          w ++ (t ++ (w' ++ jsonList.close :: rest)) := by
        simp only [List.append_assoc]
        rfl
      have enough : t.length ≤ (w ++ (t ++ (w' ++ jsonList.close :: rest))).length := by
        simp only [List.length_append]
        omega
      change parseArray (parseValue strtod levels) (w ++ (t ++ (w' ++ [0x5D])) ++ rest) = _
      rw [shape, parseArray,
        parseItems_complete (Or.inl rfl) ih begins rest after items _ _ enough before]
      rfl
    | @emptyObj w blank =>
      have shape : w ++ [0x7D] ++ rest = w ++ jsonObject.close :: rest :=
        List.append_assoc _ _ _
      change parseObject (parseValue strtod levels) (w ++ [0x7D] ++ rest) = _
      rw [shape, parseObject, parseItems_empty (Or.inr rfl) _ _ _ blank]
    | @obj w t w' ms before after items =>
      have shape : w ++ (t ++ (w' ++ [0x7D])) ++ rest =
          w ++ (t ++ (w' ++ jsonObject.close :: rest)) := by
        simp only [List.append_assoc]
        rfl
      have enough : t.length ≤ (w ++ (t ++ (w' ++ jsonObject.close :: rest))).length := by
        simp only [List.length_append]
        omega
      change parseObject (parseValue strtod levels) (w ++ (t ++ (w' ++ [0x7D])) ++ rest) = _
      rw [shape, parseObject, parseItems_complete (Or.inr rfl) member jsonMember_begins rest
        after items _ _ enough before]
      rfl

variable {text : List UInt8}

theorem jsonParseEx_sound
    (parsed : jsonParseEx strtod text = .ok v) : JsonText jsonSpace strtod jsonMaxDepth text v := by
  unfold jsonParseEx at parsed
  cases value : parseValue strtod (jsonMaxDepth + 1) text with
  | error failed => rw [value] at parsed; cases parsed
  | ok pair =>
    obtain ⟨v', rest⟩ := pair
    rw [value] at parsed
    dsimp only at parsed
    obtain ⟨w, t, shape, blank, isValue⟩ := parseValue_sound _ _ _ _ value
    obtain ⟨w', blank', shape'⟩ := skipWs_split rest
    cases head : skipWs rest with
    | cons c s => rw [head] at parsed; cases parsed
    | nil =>
      rw [head] at parsed shape'
      rw [List.append_nil] at shape'
      cases parsed
      exact ⟨w, t, w', by rw [shape, ← shape'], blank, blank', isValue⟩

theorem jsonParseEx_complete
    (isText : JsonText jsonSpace strtod jsonMaxDepth text v) : jsonParseEx strtod text = .ok v := by
  obtain ⟨w, t, w', rfl, before, after, isValue⟩ := isText
  have stop : ValueStop w' := by
    intro c member
    exact .inl (after c (List.mem_of_mem_head? member))
  have value : parseValue strtod (jsonMaxDepth + 1) (w ++ (t ++ w')) = .ok (v, w') := by
    rw [parseValue_skips _ _ before]
    exact parseValue_complete _ t v w' isValue stop
  have ended : skipWs w' = [] := List.dropWhile_eq_nil_iff.mpr after
  rw [jsonParseEx, value]
  dsimp only
  rw [ended]

theorem jsonParse_eq_some :
    jsonParse strtod text = some v ↔ JsonText jsonSpace strtod jsonMaxDepth text v := by
  constructor
  · intro parsed
    apply jsonParseEx_sound
    unfold jsonParse at parsed
    cases result : jsonParseEx strtod text with
    | error failed => rw [result] at parsed; cases parsed
    | ok v' =>
      rw [result] at parsed
      cases parsed
      rfl
  · intro isText
    rw [jsonParse, jsonParseEx_complete isText]
    rfl

end

section

theorem hexNibble_ne_zero {c n : UInt8} (digit : hexNibble c = some n) : (0 : UInt8) ≠ c := by
  rintro rfl
  cases digit

theorem hexValue_ne_zero {a b c d : UInt8} {u : Nat} (read : hexValue a b c d = some u) :
    (0 : UInt8) ≠ a ∧ (0 : UInt8) ≠ b ∧ (0 : UInt8) ≠ c ∧ (0 : UInt8) ≠ d := by
  unfold hexValue at read
  split at read
  · rename_i first second third fourth
    exact ⟨hexNibble_ne_zero first, hexNibble_ne_zero second, hexNibble_ne_zero third,
      hexNibble_ne_zero fourth⟩
  · cases read

theorem JsonChars.no_nul {t : List UInt8} {chars : List JsonChar} (text : JsonChars t chars) :
    0 ∉ t := by
  induction text with
  | nil => exact List.not_mem_nil
  | raw printable _ _ _ ih =>
    refine List.not_mem_cons_of_ne_of_not_mem ?_ ih
    rintro rfl
    exact absurd printable (by decide)
  | escaped named _ ih =>
    have letters : ∀ pair ∈ rfcEscapes, (0 : UInt8) ≠ pair.1 := by simp [rfcEscapes]
    simp [letters _ named, ih]
  | unicode digits _ ih =>
    simp [hexValue_ne_zero digits, ih]

theorem JsonString.no_nul {t : List UInt8} {chars : List JsonChar} (text : JsonString t chars) :
    0 ∉ t := by
  obtain ⟨inner, rfl, inside⟩ := text
  simp [inside.no_nul]

theorem JsonDigits.no_nul {t : List UInt8} (digits : JsonDigits t) : 0 ∉ t := by
  intro member
  cases digits.2 0 member

theorem JsonNumber.no_nul {t : List UInt8} (number : JsonNumber t) : 0 ∉ t := by
  obtain ⟨minus, int, frac, exp, rfl, isMinus, isInt, isFrac, isExp⟩ := number
  simp only [List.mem_append, not_or]
  refine ⟨?_, ?_, ?_, ?_⟩
  · rcases isMinus with rfl | rfl <;> decide
  · rcases isInt with rfl | ⟨digits, _⟩
    · decide
    · exact digits.no_nul
  · rcases isFrac with rfl | ⟨ds, rfl, digits⟩
    · decide
    · simp [digits.no_nul]
  · rcases isExp with rfl | ⟨e, sign, ds, rfl, isMark, isSign, digits⟩
    · decide
    · rcases isMark with rfl | rfl <;> rcases isSign with rfl | rfl | rfl <;>
        simp [digits.no_nul]

theorem Blank.no_nul {w : List UInt8} (blank : Blank jsonSpace w) : 0 ∉ w := by
  intro member
  cases blank 0 member

theorem JsonListed.no_nul {item : List UInt8 → α → Prop} {t : List UInt8} {vs : List α}
    (each : ∀ t v, item t v → 0 ∉ t) (listed : JsonListed jsonSpace item t vs) : 0 ∉ t := by
  induction listed with
  | one first => exact each _ _ first
  | more first before after _ ih => simp [each _ _ first, before.no_nul, after.no_nul, ih]

theorem JsonValue.no_nul {strtod : List UInt8 → Option D} (levels : Nat) :
    ∀ t v, JsonValue jsonSpace strtod levels t v → 0 ∉ t := by
  induction levels with
  | zero => exact fun _ _ never => never.elim
  | succ levels ih =>
    intro t v shape
    cases shape with
    | null => decide
    | bool b => cases b <;> decide
    | num number => exact number.no_nul
    | str text => exact text.no_nul
    | emptyArr blank => simp [blank.no_nul]
    | emptyObj blank => simp [blank.no_nul]
    | arr before after items => simp [before.no_nul, after.no_nul, items.no_nul ih]
    | obj before after items =>
      have members : ∀ t m, JsonMember jsonSpace (JsonValue jsonSpace strtod levels) t m →
          0 ∉ t := by
        rintro _ _ ⟨name, _, between, behind, value⟩
        simp [name.no_nul, between.no_nul, behind.no_nul, ih _ _ value]
      simp [before.no_nul, after.no_nul, items.no_nul members]

/-- A JSON text holds no NUL byte. -/
theorem JsonText.no_nul {strtod : List UInt8 → Option D} {depth : Nat} {text : List UInt8}
    {v : Json D} (isText : JsonText jsonSpace strtod depth text v) : 0 ∉ text := by
  obtain ⟨w, t, w', rfl, before, after, value⟩ := isText
  simp [before.no_nul, after.no_nul, JsonValue.no_nul _ _ _ value]

end

section

/-- The parser takes the texts of the grammar, with the C locale's white space. -/
theorem jsonParseEx_iff (strtod : List UInt8 → Option D) (text : List UInt8) (v : Json D) :
    jsonParseEx strtod text = .ok v ↔ JsonText jsonSpace strtod jsonMaxDepth text v :=
  ⟨jsonParseEx_sound, jsonParseEx_complete⟩

/-- A vertical tab before a number is white space for the parser, and not for the RFC. -/
theorem jsonParseEx_verticalTab :
    jsonParseEx (fun _ => some ()) (0x0B :: ascii "1") = .ok (.num ()) ∧
      ¬ ∃ v, JsonText rfcSpace (fun _ => some ()) jsonMaxDepth (0x0B :: ascii "1") v := by
  refine ⟨rfl, ?_⟩
  rintro ⟨v, w, t, w', shape, before, _, isValue⟩
  cases w with
  | cons c w =>
    obtain ⟨rfl, _⟩ := List.cons.inj shape
    have space := before 0x0B List.mem_cons_self
    cases space
  | nil =>
    obtain ⟨c, u, rfl, plain, _⟩ := jsonValue_begins _ t v isValue
    obtain ⟨rfl, _⟩ := List.cons.inj shape
    cases plain

end

section

def Json.member (v : Json D) (name : List UInt8) : Option (Json D) :=
  match v with
  | .obj items => (items.reverse.find? (·.1 = name)).map Prod.snd
  | _ => none

theorem jsonObjGet_eq_member (v : Json D) (name : List UInt8) :
    jsonObjGet v name = v.member name := by
  cases v with
  | obj items =>
    unfold jsonObjGet Json.member
    dsimp only
    induction items using List.reverseRecOn with
    | nil => rfl
    | append_singleton items item ih =>
      rw [List.foldl_append, ih, List.reverse_append]
      by_cases same : item.1 = name
      · simp [same]
      · simp [same]
  | _ => rfl

def plainName (name : List UInt8) : Bool :=
  name ≠ [] ∧ name.splitOn 0x2E = [name] ∧ name.all jsonDigit = false ∧ name.length < 64

theorem jsonGet_eq_member {name : List UInt8} (v : Json D) (plain : plainName name = true) :
    jsonGet v name = v.member name := by
  obtain ⟨ne, whole, letters, short⟩ := of_decide_eq_true plain
  rw [jsonGet, if_neg ne, whole, ← jsonObjGet_eq_member]
  change (jsonGetSegment v name >>= fun cur => pure cur) = _
  rw [bind_pure]
  unfold jsonGetSegment
  rw [if_neg ne]
  cases v <;> dsimp only <;> rw [if_neg (Nat.not_le_of_lt short)]
  rw [letters, if_neg Bool.false_ne_true]

theorem jsonGetStr_eq_some {name s : List UInt8} {v : Json D} (plain : plainName name = true) :
    jsonGetStr v name = some s ↔ v.member name = some (.str s) := by
  rw [jsonGetStr, jsonGet_eq_member v plain, Option.bind_eq_some_iff]
  constructor
  · rintro ⟨found, same, text⟩
    cases found <;> cases text
    exact same
  · intro same
    exact ⟨_, same, rfl⟩

end

end Iwan
