import Iwan.Lib.Index
import Iwan.Lib.Span
import Iwan.Wire.Cipher

/- Query parameters (oidc_util.c). -/
namespace Iwan

open Index (findIdx_cut findIdx_front findIdx_missing lt_findIdx)

def urlPlain (c : UInt8) : Bool :=
  (0x41 ≤ c && c ≤ 0x5A) || (0x61 ≤ c && c ≤ 0x7A) || (0x30 ≤ c && c ≤ 0x39) || c = 0x2D ||
    c = 0x5F || c = 0x2E || c = 0x7E

def hexUpper (nibble : UInt8) : UInt8 := if nibble < 10 then 0x30 + nibble else 0x37 + nibble

def oidcUrlenc (s : List UInt8) : List UInt8 :=
  s.flatMap fun c =>
    if urlPlain c then [c] else [0x25, hexUpper (c >>> 4), hexUpper (c &&& 0x0F)]

def plusBlank (c : UInt8) : UInt8 := if c = 0x2B then 0x20 else c

def oidcUrldec : List UInt8 → List UInt8
  | [] => []
  | [a] => [plusBlank a]
  | [a, b] => [plusBlank a, plusBlank b]
  | a :: b :: c :: rest =>
    match a == 0x25, hexNibble b, hexNibble c with
    | true, some hi, some lo => (hi <<< 4 ||| lo) :: oidcUrldec rest
    | _, _, _ => plusBlank a :: oidcUrldec (b :: c :: rest)

def urlParamItem (name seg : List UInt8) : Option (List UInt8) :=
  let kv := seg.findIdx (· = 0x3D)
  if kv < seg.length ∧ kv = name.length ∧ seg.take name.length = name then
    some (cString (oidcUrldec (seg.drop (kv + 1))))
  else none

def urlParamLoop (name : List UInt8) : Nat → List UInt8 → Option (List UInt8)
  | 0, _ => none
  | fuel + 1, p =>
    if p = [] then none
    else
      let amp := p.findIdx (· = 0x26)
      let hash := p.findIdx (· = 0x23)
      -- the fragment ends the query
      if hash < p.length ∧ hash < amp then urlParamItem name (p.take hash)
      else
        match urlParamItem name (p.take amp) with
        | some v => some v
        | none => if amp < p.length then urlParamLoop name fuel (p.drop (amp + 1)) else none

def oidcUrlParam (s name : List UInt8) : Option (List UInt8) :=
  match s.dropWhile (· ≠ 0x3F) with
  | [] => none
  | _ :: p => urlParamLoop name (p.length + 1) p

def percentDecode : List UInt8 → List UInt8
  | [] => []
  | [a] => [a]
  | [a, b] => [a, b]
  | a :: b :: c :: rest =>
    match a == 0x25, hexNibble b, hexNibble c with
    | true, some hi, some lo => (hi <<< 4 ||| lo) :: percentDecode rest
    | _, _, _ => a :: percentDecode (b :: c :: rest)

def formDecode (s : List UInt8) : List UInt8 := percentDecode (s.map plusBlank)

/-- The items of the text that the scan goes over: from the first question mark up to the next
number sign. -/
def scanItems (u : List UInt8) : List (List UInt8) :=
  match u.dropWhile (· ≠ 0x3F) with
  | [] => []
  | _ :: p => (p.takeWhile (· ≠ 0x23)).splitOn 0x26

/-- The items of the query component: the first question mark stands before any number sign. -/
def queryItems (u : List UInt8) : List (List UInt8) := scanItems (u.takeWhile (· ≠ 0x23))

def QueryFirst (u : List UInt8) : Prop := 0x3F ∈ u → 0x23 ∉ u.takeWhile (· ≠ 0x3F)

theorem plusBlank_spec (c : UInt8) : hexNibble (plusBlank c) = hexNibble c ∧
    (plusBlank c == 0x25) = (c == 0x25) := by
  by_cases plus : c = 0x2B
  · subst plus
    decide
  · simp [plusBlank, plus]

theorem oidcUrldec_eq_formDecode (s : List UInt8) : oidcUrldec s = formDecode s := by
  unfold formDecode
  induction size : s.length using Nat.strong_induction_on generalizing s with
  | _ n ih =>
    subst size
    rcases s with _ | ⟨a, _ | ⟨b, _ | ⟨c, rest⟩⟩⟩
    · rfl
    · rfl
    · rfl
    · have skip := ih (b :: c :: rest).length (by simp) (b :: c :: rest) rfl
      have jump := ih rest.length (by simp; omega) rest rfl
      simp only [List.map_cons] at skip
      simp only [oidcUrldec, List.map_cons, percentDecode, plusBlank_spec, skip, jump]

theorem oidcUrldec_cons {a : UInt8} (rest : List UInt8) (plain : (a == 0x25) = false) :
    oidcUrldec (a :: rest) = plusBlank a :: oidcUrldec rest := by
  rcases rest with _ | ⟨b, _ | ⟨c, rest⟩⟩
  · rfl
  · rfl
  · rw [oidcUrldec, plain]

theorem urlPlain_spec (c : UInt8) (plain : urlPlain c = true) :
    (c == 0x25) = false ∧ plusBlank c = c := by
  have other {d : UInt8} (bare : urlPlain d = false) : c ≠ d := fun same => by
    rw [same, bare] at plain
    cases plain
  exact ⟨beq_false_of_ne (other (by decide)), if_neg (other (by decide))⟩

theorem hexUpper_pair (c : UInt8) :
    hexNibble (hexUpper (c >>> 4)) = some (c >>> 4) ∧
    hexNibble (hexUpper (c &&& 0x0F)) = some (c &&& 0x0F) ∧ (c >>> 4) <<< 4 ||| c &&& 0x0F = c := by
  revert c
  decide +kernel

theorem oidcUrldec_urlenc (v : List UInt8) : oidcUrldec (oidcUrlenc v) = v := by
  induction v with
  | nil => rfl
  | cons c v ih =>
    rw [oidcUrlenc, List.flatMap_cons, ← oidcUrlenc]
    cases plain : urlPlain c with
    | true =>
      obtain ⟨other, same⟩ := urlPlain_spec c plain
      rw [if_pos rfl, List.singleton_append, oidcUrldec_cons _ other, same, ih]
    | false =>
      obtain ⟨high, low, joined⟩ := hexUpper_pair c
      rw [if_neg Bool.false_ne_true]
      simp only [List.cons_append, List.nil_append, oidcUrldec, high, low, joined, ih,
        beq_self_eq_true]

theorem oidcUrlenc_bytes (v : List UInt8) :
    0x26 ∉ oidcUrlenc v ∧ 0x3D ∉ oidcUrlenc v ∧ 0x23 ∉ oidcUrlenc v := by
  have all {d : UInt8} (bare : urlPlain d = false) (percent : d ≠ 0x25)
      (digit : hexNibble d = none) : d ∉ oidcUrlenc v := by
    intro member
    obtain ⟨c, _, inside⟩ := List.mem_flatMap.mp member
    obtain ⟨high, low, _⟩ := hexUpper_pair c
    split_ifs at inside with plain
    · rw [← List.mem_singleton.mp inside, bare] at plain
      cases plain
    · simp only [List.mem_cons, List.not_mem_nil, or_false] at inside
      rcases inside with same | same | same
      · exact percent same
      · rw [same, high] at digit
        cases digit
      · rw [same, low] at digit
        cases digit
  exact ⟨all (by decide) (by decide) (by decide), all (by decide) (by decide) (by decide),
    all (by decide) (by decide) (by decide)⟩

section

variable {name : List UInt8}

theorem urlParamItem_of (plain : 0x3D ∉ name) (v : List UInt8) :
    urlParamItem name (name ++ 0x3D :: v) = some (cString (oidcUrldec v)) := by
  unfold urlParamItem
  simp only [findIdx_front v plain]
  rw [if_pos (by simp)]
  simp

theorem urlParamItem_eq_none {seg : List UInt8} (plain : 0x3D ∉ name) :
    urlParamItem name seg = none ↔ ∀ v, seg ≠ name ++ 0x3D :: v := by
  constructor
  · rintro none v rfl
    rw [urlParamItem_of plain] at none
    cases none
  · intro other
    unfold urlParamItem
    refine if_neg ?_
    rintro ⟨inside, index, same⟩
    rcases findIdx_cut seg 0x3D with ⟨_, whole⟩ | ⟨a, b, rfl, _, front⟩
    · omega
    · rw [front] at index
      rw [← index, List.take_left] at same
      exact other b (by rw [same])

theorem urlParamLoop_eq (plain : 0x3D ∉ name) (fuel : Nat) {query rest : List UInt8}
    (before : 0x23 ∉ query) (ending : rest = [] ∨ ∃ frag, rest = 0x23 :: frag)
    (enough : (query ++ rest).length < fuel) :
    urlParamLoop name fuel (query ++ rest) =
      (query.splitOn 0x26).findSome? (urlParamItem name) := by
  induction fuel generalizing query with
  | zero => omega
  | succ fuel ih =>
    have hash : (query ++ rest).findIdx (· = 0x23) = query.length := by
      rcases ending with rfl | ⟨frag, rfl⟩
      · rw [List.append_nil, findIdx_missing before]
      · exact findIdx_front frag before
    have nothing : urlParamItem name [] = none := (urlParamItem_eq_none plain).mpr fun v => by simp
    rw [urlParamLoop]
    by_cases empty : query ++ rest = []
    · obtain ⟨rfl, rfl⟩ := List.append_eq_nil_iff.mp empty
      simp [nothing]
    rw [if_neg empty]
    simp only [hash]
    rcases findIdx_cut query 0x26 with ⟨single, _⟩ | ⟨a, b, rfl, first, _⟩
    · rw [List.splitOn_eq_singleton single]
      rcases ending with rfl | ⟨frag, rfl⟩
      · simp only [List.append_nil, findIdx_missing single, lt_irrefl, false_and, if_false,
          List.take_length]
        cases found : urlParamItem name query <;> simp [found]
      · have later := lt_findIdx (c := 0x26) frag single (show 0x23 ≠ 0x26 by decide)
        rw [if_pos ⟨by simp, later⟩, List.take_left]
        simp
    · have amp : (a ++ 0x26 :: b ++ rest).findIdx (· = 0x26) = a.length := by
        rw [List.append_assoc]
        exact findIdx_front (b ++ rest) first
      have items : (a ++ 0x26 :: b).splitOn 0x26 = a :: b.splitOn 0x26 := by
        rw [List.splitOn_append_cons_self, List.splitOn_eq_singleton first]
        rfl
      have front : (a ++ 0x26 :: b ++ rest).take a.length = a := by simp
      have behind : (a ++ 0x26 :: b ++ rest).drop (a.length + 1) = b ++ rest := by simp
      have inner := @ih b (fun member => before (by simp [member])) (by
        simp only [List.length_append, List.length_cons] at enough ⊢
        omega)
      simp only [amp, front, behind, inner]
      rw [if_neg (by simp), items, List.findSome?_cons]
      cases urlParamItem name a <;> simp

theorem scanItems_of {a : List UInt8} (p : List UInt8) (mark : 0x3F ∉ a) :
    scanItems (a ++ 0x3F :: p) = (p.takeWhile (· ≠ 0x23)).splitOn 0x26 := by
  rw [scanItems, (Span.cut_append _ mark).2]

theorem scanItems_missing {u : List UInt8} (missing : 0x3F ∉ u) : scanItems u = [] := by
  have none : u.dropWhile (· ≠ 0x3F) = [] := List.dropWhile_eq_nil_iff.mpr fun c member =>
    decide_eq_true fun same => missing (same ▸ member)
  rw [scanItems, none]

theorem queryItems_first {u : List UInt8} (first : QueryFirst u) : queryItems u = scanItems u := by
  by_cases mark : 0x3F ∈ u
  · obtain ⟨a, p, rfl, missing⟩ := List.eq_append_cons_of_mem mark
    have before := first mark
    rw [(Span.cut_append p missing).1] at before
    have kept : ∀ c ∈ a, decide (c ≠ 0x23) = true := fun c member =>
      decide_eq_true fun same => before (same ▸ member)
    rw [queryItems, List.takeWhile_append_of_pos kept, List.takeWhile_cons_of_pos (by decide),
      scanItems_of _ missing, scanItems_of p missing, List.takeWhile_takeWhile]
    simp only [and_self, Bool.decide_eq_true]
  · rw [queryItems, scanItems_missing mark,
      scanItems_missing fun member => mark ((List.takeWhile_sublist _).subset member)]

theorem queryItems_late {u : List UInt8} (late : ¬ QueryFirst u) : queryItems u = [] := by
  simp only [QueryFirst, Classical.not_imp, not_not] at late
  obtain ⟨a, p, rfl, missing⟩ := List.eq_append_cons_of_mem late.1
  rw [(Span.cut_append p missing).1] at late
  obtain ⟨b, c, rfl, plain⟩ := List.eq_append_cons_of_mem late.2
  rw [queryItems, List.append_assoc, List.cons_append, (Span.cut_append _ plain).1,
    scanItems_missing fun member => missing (List.mem_append_left _ member)]

theorem oidcUrlParam_items (plain : 0x3D ∉ name) (u : List UInt8) :
    oidcUrlParam u name = (scanItems u).findSome? (urlParamItem name) := by
  by_cases mark : 0x3F ∈ u
  · obtain ⟨a, p, rfl, missing⟩ := List.eq_append_cons_of_mem mark
    have ending : p.dropWhile (· ≠ 0x23) = [] ∨ ∃ frag, p.dropWhile (· ≠ 0x23) = 0x23 :: frag := by
      cases rest : p.dropWhile (· ≠ 0x23) with
      | nil => exact .inl rfl
      | cons c frag =>
        have hash := Span.stops_dropWhile (· ≠ 0x23) p c (by rw [rest]; rfl)
        exact .inr ⟨frag, by rw [of_not_not (of_decide_eq_false hash)]⟩
    have loop := urlParamLoop_eq plain (p.length + 1)
      (Span.not_mem_takeWhile_ne 0x23 p) ending (by rw [List.takeWhile_append_dropWhile]; omega)
    rw [List.takeWhile_append_dropWhile] at loop
    rw [oidcUrlParam, (Span.cut_append p missing).2, scanItems_of p missing, ← loop]
  · have none : u.dropWhile (· ≠ 0x3F) = [] := List.dropWhile_eq_nil_iff.mpr fun c member =>
      decide_eq_true fun same => mark (same ▸ member)
    rw [oidcUrlParam, none, scanItems_missing mark]
    rfl

/-- `v` is the value of the first item of that name. -/
def FirstValue (items : List (List UInt8)) (name v : List UInt8) : Prop :=
  ∃ before after, items = before ++ (name ++ 0x3D :: v) :: after ∧
    ∀ item ∈ before, ∀ w, item ≠ name ++ 0x3D :: w

theorem FirstValue.findSome {items : List (List UInt8)} {v : List UInt8} (plain : 0x3D ∉ name)
    (found : FirstValue items name v) :
    items.findSome? (urlParamItem name) = some (cString (formDecode v)) := by
  obtain ⟨before, after, rfl, other⟩ := found
  have missed : before.findSome? (urlParamItem name) = none :=
    List.findSome?_eq_none_iff.mpr fun item member =>
      (urlParamItem_eq_none plain).mpr (other item member)
  rw [List.findSome?_append, missed, List.findSome?_cons, urlParamItem_of plain,
    oidcUrldec_eq_formDecode]
  rfl

theorem firstValue_of_mem {items : List (List UInt8)} (plain : 0x3D ∉ name)
    (member : ∃ item ∈ items, ∃ v, item = name ++ 0x3D :: v) : ∃ v, FirstValue items name v := by
  cases found : items.findSome? (urlParamItem name) with
  | none =>
    obtain ⟨item, inside, v, rfl⟩ := member
    have missed := List.findSome?_eq_none_iff.mp found _ inside
    rw [urlParamItem_of plain] at missed
    cases missed
  | some w =>
    obtain ⟨before, item, after, rfl, here, other⟩ := List.findSome?_eq_some_iff.mp found
    have named : ∃ v, item = name ++ 0x3D :: v := by
      by_contra none
      rw [(urlParamItem_eq_none plain).mpr fun v same => none ⟨v, same⟩] at here
      cases here
    obtain ⟨v, rfl⟩ := named
    exact ⟨v, before, after, rfl, fun item member => (urlParamItem_eq_none plain).mp
      (other item member)⟩

end

def urlItem (pair : List UInt8 × List UInt8) : List UInt8 := pair.1 ++ 0x3D :: oidcUrlenc pair.2

/-- A name that needs no escape in a query. -/
structure UrlName (name : List UInt8) : Prop where
  filled : name ≠ []
  amp : 0x26 ∉ name
  equals : 0x3D ∉ name
  mark : 0x3F ∉ name
  hash : 0x23 ∉ name
  percent : 0x25 ∉ name

theorem not_mem_join {c : UInt8} {items : List (List UInt8)} (other : c ≠ 0x26)
    (plain : ∀ item ∈ items, c ∉ item) : c ∉ [0x26].intercalate items := by
  induction items with
  | nil => simp [List.intercalate]
  | cons item items ih =>
    obtain ⟨first, rest⟩ := List.forall_mem_cons.mp plain
    cases items with
    | nil => simpa [List.intercalate] using first
    | cons next items =>
      rw [List.intercalate_cons_cons]
      simp [first, other, ih rest]

theorem findSome_urlItem {name : List UInt8} (plain : 0x3D ∉ name)
    {pairs : List (List UInt8 × List UInt8)}
    (valid : ∀ pair ∈ pairs, UrlName pair.1 ∧ 0 ∉ pair.2) :
    (pairs.map urlItem).findSome? (urlParamItem name) =
      (pairs.find? (·.1 = name)).map Prod.snd := by
  induction pairs with
  | nil => rfl
  | cons pair pairs ih =>
    obtain ⟨⟨here, text⟩, rest⟩ := List.forall_mem_cons.mp valid
    rw [List.map_cons, List.findSome?_cons, List.find?_cons]
    by_cases same : pair.1 = name
    · have found : urlParamItem name (urlItem pair) = some pair.2 := by
        rw [urlItem, same, urlParamItem_of plain, oidcUrldec_urlenc, cString_of_text text]
      simp [found, same]
    · have missed : urlParamItem name (urlItem pair) = none := by
        refine (urlParamItem_eq_none plain).mpr fun v equal => same ?_
        exact ((List.append_cons_inj_of_notMem here.equals (oidcUrlenc_bytes _).2.1).mp equal).1
      simp [missed, same, ih rest]

theorem scanItems_pairs {base frag : List UInt8} {pairs : List (List UInt8 × List UInt8)}
    (mark : 0x3F ∉ base) (ending : frag = [] ∨ ∃ rest, frag = 0x23 :: rest)
    (valid : ∀ pair ∈ pairs, UrlName pair.1 ∧ 0 ∉ pair.2) (some : pairs ≠ []) :
    scanItems (base ++ 0x3F :: ([0x26].intercalate (pairs.map urlItem) ++ frag)) =
      pairs.map urlItem := by
  have item : ∀ item ∈ pairs.map urlItem, 0x26 ∉ item ∧ 0x23 ∉ item := by
    intro item member
    obtain ⟨pair, inside, rfl⟩ := List.mem_map.mp member
    have name := (valid pair inside).1
    have text := oidcUrlenc_bytes pair.2
    simp [urlItem, name.amp, name.hash, text.1, text.2.2]
  have kept := not_mem_join (c := 0x23) (by decide) fun i member => (item i member).2
  have query : ([0x26].intercalate (pairs.map urlItem) ++ frag).takeWhile (· ≠ 0x23) =
      [0x26].intercalate (pairs.map urlItem) := by
    rcases ending with rfl | ⟨rest, rfl⟩
    · rw [List.append_nil]
      exact List.takeWhile_eq_self_iff.mpr fun c member =>
        decide_eq_true fun same => kept (same ▸ member)
    · exact (Span.cut_append rest kept).1
  rw [scanItems_of _ mark, query,
    List.splitOn_intercalate _ (fun i member => (item i member).1) (by simpa using some)]

/-- A parameter is looked up in the query exactly if a first item of its name that the scan meets
stands in the query and has no NUL byte in its value; encoded pairs are read back. -/
theorem oidcUrlParam_spec {name : List UInt8} (valid : UrlName name) (u : List UInt8) :
    ((oidcUrlParam u name = none ↔ ∀ item ∈ queryItems u, ∀ v, item ≠ name ++ 0x3D :: v) ∧
        (∀ v, FirstValue (queryItems u) name v → oidcUrlParam u name = some (formDecode v)) ↔
      ∀ v, FirstValue (scanItems u) name v → QueryFirst u ∧ 0 ∉ formDecode v) ∧
    ∀ (base : List UInt8) (pairs : List (List UInt8 × List UInt8)) (frag : List UInt8),
      0x3F ∉ base → 0x23 ∉ base → (frag = [] ∨ ∃ rest, frag = 0x23 :: rest) →
      (∀ pair ∈ pairs, UrlName pair.1 ∧ 0 ∉ pair.2) →
      oidcUrlParam (base ++ 0x3F :: ([0x26].intercalate (pairs.map urlItem) ++ frag)) name =
        (pairs.find? (·.1 = name)).map Prod.snd := by
  have plain := valid.equals
  rw [oidcUrlParam_items plain]
  refine ⟨⟨?_, ?_⟩, ?_⟩
  · rintro ⟨absent, reads⟩ v found
    have code := found.findSome plain
    have first : QueryFirst u := by
      by_contra late
      rw [queryItems_late late, code] at absent
      exact absurd (absent.mpr (List.forall_mem_nil _)) (Option.some_ne_none _)
    rw [queryItems_first first] at reads
    have whole := Option.some.inj (code.symm.trans (reads v found))
    have kept : 0 ∉ cString (formDecode v) := Span.not_mem_takeWhile_ne 0 (formDecode v)
    rw [whole] at kept
    exact ⟨first, kept⟩
  · intro early
    by_cases named : ∃ item ∈ scanItems u, ∃ v, item = name ++ 0x3D :: v
    · obtain ⟨v, found⟩ := firstValue_of_mem plain named
      rw [queryItems_first (early v found).1]
      constructor
      · rw [List.findSome?_eq_none_iff]
        simp only [urlParamItem_eq_none plain]
      · intro w here
        rw [here.findSome plain, cString_of_text (early w here).2]
    · have missed : (scanItems u).findSome? (urlParamItem name) = none :=
        List.findSome?_eq_none_iff.mpr fun item member => (urlParamItem_eq_none plain).mpr
          fun v same => named ⟨item, member, v, same⟩
      have items : queryItems u = scanItems u ∨ queryItems u = [] := by
        by_cases first : QueryFirst u
        · exact .inl (queryItems_first first)
        · exact .inr (queryItems_late first)
      have none : ∀ item ∈ queryItems u, ∀ v, item ≠ name ++ 0x3D :: v := by
        intro item member v same
        rcases items with scanned | empty
        · exact named ⟨item, scanned ▸ member, v, same⟩
        · rw [empty] at member
          cases member
      refine ⟨iff_of_true missed none, ?_⟩
      rintro v ⟨before, after, shape, -⟩
      exact absurd rfl (none _ (by rw [shape]; simp) v)
  · intro base pairs frag mark hash ending pairsValid
    rw [oidcUrlParam_items plain, ← findSome_urlItem plain pairsValid]
    cases pairs with
    | nil =>
      have nothing : urlParamItem name [] = none :=
        (urlParamItem_eq_none plain).mpr fun v => by simp
      rcases ending with rfl | ⟨rest, rfl⟩ <;>
        simp [scanItems_of _ mark, List.intercalate, nothing]
    | cons pair pairs => rw [scanItems_pairs mark ending pairsValid (List.cons_ne_nil _ _)]

theorem oidcUrlParam_spec_sample :
    UrlName (ascii "code") ∧
      oidcUrlParam (ascii "app:/cb?" ++ ([0x26].intercalate ([(ascii "state", ascii "1"),
        (ascii "code", ascii "a/b")].map urlItem) ++ ascii "#x")) (ascii "code") =
          some (ascii "a/b") := by
  have valid : UrlName (ascii "code") :=
    ⟨by decide, by decide, by decide, by decide, by decide, by decide⟩
  have state : UrlName (ascii "state") :=
    ⟨by decide, by decide, by decide, by decide, by decide, by decide⟩
  refine ⟨valid, (oidcUrlParam_spec valid []).2 (ascii "app:/cb") [(ascii "state", ascii "1"),
    (ascii "code", ascii "a/b")] (ascii "#x") (by decide) (by decide) (.inr ⟨_, rfl⟩) ?_⟩
  exact List.forall_mem_cons.mpr ⟨⟨state, by decide⟩,
    List.forall_mem_singleton.mpr ⟨valid, by decide⟩⟩

theorem oidcUrlParam_fragment :
    queryItems (ascii "x#?a=b") = [] ∧
      oidcUrlParam (ascii "x#?a=b") (ascii "a") = some (ascii "b") := by
  decide +kernel

end Iwan
