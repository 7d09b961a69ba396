import Iwan.Https.Parse
import Iwan.Lib.Span

/- Header fields (http_parser.c). -/
namespace Iwan

open Span

def httpFoldLine (line : List UInt8) : Bool := line.head?.any httpBlank

def foldTexts (folds : List (List UInt8)) : List UInt8 :=
  folds.flatMap fun line => 0x20 :: line.dropWhile httpBlank

def httpsHdrValueOf (hdr name : List UInt8) : Option (List UInt8) :=
  httpsHdrValue hdr (name.map asciiLower)

def chompCr (line : List UInt8) : List UInt8 :=
  if line.getLast? = some 0x0D then line.dropLast else line

/-- The lines of a header block, without their line ends, up to the first empty one. -/
def headerLines (hdr : List UInt8) : List (List UInt8) :=
  ((hdr.splitOn 0x0A).map chompCr).takeWhile (· ≠ [])

def NamedLine (name line : List UInt8) : Prop :=
  httpFoldLine line = false ∧ 0x3A ∈ line ∧
    (line.takeWhile (· ≠ 0x3A)).map asciiLower = name.map asciiLower

instance (name line : List UInt8) : Decidable (NamedLine name line) :=
  inferInstanceAs (Decidable (_ ∧ _ ∧ _))

def fieldText (line : List UInt8) : List UInt8 :=
  ((line.dropWhile (· ≠ 0x3A)).drop 1).dropWhile httpBlank

/-- The values of a name, each with the continuation lines that directly follow its line. -/
def fieldValues (name : List UInt8) : List (List UInt8) → List (List UInt8)
  | [] => []
  | line :: rest =>
    if NamedLine name line then
      (fieldText line ++ foldTexts (rest.takeWhile httpFoldLine)) :: fieldValues name rest
    else fieldValues name rest

/-- What the loop appends for a line once it has seen a line of the name. -/
def lineText (name line : List UInt8) : List UInt8 :=
  if httpFoldLine line then 0x20 :: line.dropWhile httpBlank
  else if NamedLine name line then ascii ", " ++ fieldText line
  else []

/-- What belongs to the value behind its first line; `own` tells whether the last field has the
name. -/
def ownText (name : List UInt8) : Bool → List (List UInt8) → List UInt8
  | _, [] => []
  | own, line :: rest =>
    if httpFoldLine line then (if own then lineText name line else []) ++ ownText name own rest
    else lineText name line ++ ownText name (NamedLine name line) rest

/-- Every continuation line of another field is blank and has no line of the name behind it. -/
def foldsHarmless (name : List UInt8) : Bool → List (List UInt8) → Bool
  | _, [] => true
  | own, line :: rest =>
    if httpFoldLine line then
      (own || (line.dropWhile httpBlank == [] && rest.all fun other => ¬ NamedLine name other)) &&
        foldsHarmless name own rest
    else foldsHarmless name (NamedLine name line) rest

def fromFirst (name : List UInt8) (lines : List (List UInt8)) : List (List UInt8) :=
  lines.dropWhile fun line => ¬ NamedLine name line

section

variable {name line : List UInt8} {lines : List (List UInt8)}

def joinValue (val field : List UInt8) : List UInt8 :=
  (if val = [] then [] else val ++ ascii ", ") ++ field

theorem httpsHdrLines_cons (name raw : List UInt8) (raws : List (List UInt8)) (matched : Bool)
    (val : List UInt8) :
    httpsHdrLines (name.map asciiLower) (raw :: raws) matched val =
      if chompCr raw = [] then val
      else if httpFoldLine (chompCr raw) then
        httpsHdrLines (name.map asciiLower) raws matched
          (if matched then val ++ 0x20 :: (chompCr raw).dropWhile httpBlank else val)
      else if NamedLine name (chompCr raw) then
        httpsHdrLines (name.map asciiLower) raws true (joinValue val (fieldText (chompCr raw)))
      else httpsHdrLines (name.map asciiLower) raws matched val := by
  have chomp : (if raw.getLast? = some 0x0D then raw.dropLast else raw) = chompCr raw := rfl
  rw [httpsHdrLines]
  dsimp only
  rw [chomp]
  generalize chompCr raw = line
  by_cases empty : line = []
  · rw [if_pos empty, if_pos empty]
  rw [if_neg empty, if_neg empty]
  change (if httpFoldLine line = true then _ else _) = _
  cases folded : httpFoldLine line with
  | true => rfl
  | false =>
    rw [if_neg Bool.false_ne_true, if_neg Bool.false_ne_true]
    by_cases named : NamedLine name line
    · rw [if_pos named, if_pos named.2]
      rfl
    · rw [if_neg named, if_neg fun same => named ⟨folded, same⟩]

theorem headerLines_cons (raw : List UInt8) (raws : List (List UInt8)) :
    ((raw :: raws).map chompCr).takeWhile (· ≠ []) =
      if chompCr raw = [] then [] else chompCr raw :: (raws.map chompCr).takeWhile (· ≠ []) := by
  rw [List.map_cons, List.takeWhile_cons]
  by_cases empty : chompCr raw = []
  · simp [empty]
  · simp [empty]

theorem httpsHdrLines_matched (name : List UInt8) (raws : List (List UInt8)) (val : List UInt8)
    (some : val ≠ []) :
    httpsHdrLines (name.map asciiLower) raws true val =
      val ++ ((raws.map chompCr).takeWhile (· ≠ [])).flatMap (lineText name) := by
  induction raws generalizing val with
  | nil => simp [httpsHdrLines]
  | cons raw raws ih =>
    rw [httpsHdrLines_cons, headerLines_cons]
    by_cases empty : chompCr raw = []
    · simp [empty]
    rw [if_neg empty, if_neg empty, List.flatMap_cons, lineText, if_pos rfl]
    split_ifs
    · rw [ih _ (by simp), List.append_assoc]
    · rw [joinValue, if_neg some, ih _ (by simp [some])]
      simp only [List.append_assoc]
    · rw [ih val some, List.nil_append]

theorem httpsHdrLines_first (name : List UInt8) (raws : List (List UInt8))
    (filled : ∀ line ∈ (raws.map chompCr).takeWhile (· ≠ []), NamedLine name line →
      fieldText line ≠ []) :
    let found := fromFirst name ((raws.map chompCr).takeWhile (· ≠ []))
    httpsHdrLines (name.map asciiLower) raws false [] =
      (found.head?.map fieldText).getD [] ++ found.tail.flatMap (lineText name) := by
  dsimp only
  unfold fromFirst
  induction raws with
  | nil => rfl
  | cons raw raws ih =>
    rw [headerLines_cons] at filled ⊢
    rw [httpsHdrLines_cons]
    by_cases empty : chompCr raw = []
    · simp [empty]
    rw [if_neg empty] at filled ⊢
    rw [if_neg empty]
    obtain ⟨here, later⟩ := List.forall_mem_cons.mp filled
    by_cases named : NamedLine name (chompCr raw)
    · rw [if_neg (by simp [named.1]), if_pos named, List.dropWhile_cons_of_neg (by simp [named])]
      exact httpsHdrLines_matched name raws _ (here named)
    · rw [List.dropWhile_cons_of_pos (by simp [named]), ← ih later, if_neg named,
        if_neg Bool.false_ne_true, ite_self]

theorem intercalate_cons (sep value : List UInt8) (values : List (List UInt8)) :
    sep.intercalate (value :: values) = value ++ values.flatMap fun value => sep ++ value := by
  induction values generalizing value with
  | nil => simp
  | cons next values ih =>
    rw [List.intercalate_cons_cons, ih next, List.flatMap_cons, List.append_assoc,
      List.append_assoc]

theorem ownText_eq (own : Bool) (lines : List (List UInt8)) :
    ownText name own lines =
      (if own then foldTexts (lines.takeWhile httpFoldLine) else []) ++
        (fieldValues name lines).flatMap fun value => ascii ", " ++ value := by
  induction lines generalizing own with
  | nil => simp [ownText, foldTexts, fieldValues]
  | cons line lines ih =>
    rw [ownText, fieldValues, List.takeWhile_cons, lineText]
    by_cases folded : httpFoldLine line = true
    · have other : ¬ NamedLine name line := fun named => by simp [named.1] at folded
      cases own <;> simp [folded, other, ih, foldTexts]
    · by_cases named : NamedLine name line
      · simp [folded, named, ih, foldTexts]
      · simp [folded, named, ih, foldTexts]

theorem fieldValues_first (name : List UInt8) (lines : List (List UInt8)) :
    (ascii ", ").intercalate (fieldValues name lines) =
      ((fromFirst name lines).head?.map fieldText).getD [] ++
        ownText name true (fromFirst name lines).tail := by
  unfold fromFirst
  induction lines with
  | nil => rfl
  | cons line lines ih =>
    rw [fieldValues]
    by_cases named : NamedLine name line
    · rw [if_pos named, List.dropWhile_cons_of_neg (by simp [named]), intercalate_cons]
      simp [ownText_eq]
    · rw [if_neg named, List.dropWhile_cons_of_pos (by simp [named]), ih]

theorem ownText_sublist (own : Bool) (lines : List (List UInt8)) :
    (ownText name own lines).Sublist (lines.flatMap (lineText name)) := by
  induction lines generalizing own with
  | nil => exact .slnil
  | cons line lines ih =>
    rw [ownText, List.flatMap_cons]
    split_ifs
    · exact (List.Sublist.refl _).append (ih own)
    · exact (List.nil_sublist _).append (ih own)
    · exact (List.Sublist.refl _).append (ih _)

theorem ownText_of_none (none : ∀ other ∈ lines, ¬ NamedLine name other) :
    ownText name false lines = [] := by
  induction lines with
  | nil => rfl
  | cons line lines ih =>
    obtain ⟨other, later⟩ := List.forall_mem_cons.mp none
    simp [ownText, lineText, other, ih later]

theorem nonblank_of_ne_nil {s : List UInt8} (some : s.dropWhile httpBlank ≠ []) :
    ∃ x ∈ s.dropWhile httpBlank, httpBlank x = false := by
  obtain ⟨x, rest, shape⟩ := List.exists_cons_of_ne_nil some
  have first := stops_dropWhile httpBlank s x (by rw [shape]; rfl)
  exact ⟨x, by rw [shape]; exact List.mem_cons_self, first⟩

theorem ownText_nonblank (own : Bool) {other : List UInt8} (member : other ∈ lines)
    (named : NamedLine name other) (some : fieldText other ≠ []) :
    ∃ x ∈ ownText name own lines, httpBlank x = false := by
  induction lines generalizing own with
  | nil => cases member
  | cons line lines ih =>
    rw [ownText]
    rcases List.mem_cons.mp member with rfl | later
    · obtain ⟨x, inside, nonblank⟩ := nonblank_of_ne_nil some
      refine ⟨x, ?_, nonblank⟩
      rw [named.1, if_neg Bool.false_ne_true, lineText, named.1, if_neg Bool.false_ne_true,
        if_pos named]
      exact List.mem_append_left _ (List.mem_append_right _ inside)
    · split_ifs <;> obtain ⟨x, inside, nonblank⟩ := ih _ later <;>
        exact ⟨x, List.mem_append_right _ inside, nonblank⟩

/-- A continuation line of another field: its text stays out of sight only as trailing blanks. -/
theorem strayFold_iff (a text : List UInt8)
    (filled : ∀ other ∈ lines, NamedLine name other → fieldText other ≠ [])
    (trimmed : text ≠ [] → ∃ x ∈ text, httpBlank x = false)
    (ih : ∀ b : List UInt8,
      (b ++ lines.flatMap (lineText name)).rdropWhile httpBlank =
        (b ++ ownText name false lines).rdropWhile httpBlank ↔
      foldsHarmless name false lines = true) :
    (a ++ (0x20 :: text ++ lines.flatMap (lineText name))).rdropWhile httpBlank =
        (a ++ ownText name false lines).rdropWhile httpBlank ↔
      (text = [] ∧ ∀ other ∈ lines, ¬ NamedLine name other) ∧
        foldsHarmless name false lines = true := by
  have blank : ∀ x ∈ [(0x20 : UInt8)], httpBlank x = true := List.forall_mem_singleton.mpr rfl
  constructor
  · intro same
    have none : ∀ other ∈ lines, ¬ NamedLine name other := by
      intro other member named
      -- a later value keeps the text before it: the code's result is longer
      obtain ⟨x, inside, nonblank⟩ :=
        ownText_nonblank false member named (filled other member named)
      have there := (ownText_sublist false lines).subset inside
      rw [rdropWhile_append_of_mem inside nonblank,
        rdropWhile_append_of_mem (List.mem_append_right _ there) nonblank,
        List.append_cancel_left_eq, rdropWhile_append_of_mem there nonblank] at same
      have longer := congrArg List.length same
      have short : ((ownText name false lines).rdropWhile httpBlank).length ≤ _ :=
        length_rdropWhile_le (ownText_sublist false lines)
      simp only [List.length_append, List.length_cons] at longer
      omega
    have empty : text = [] := by
      by_contra some
      obtain ⟨x, inside, nonblank⟩ := trimmed some
      rw [ownText_of_none none, List.append_nil, rdropWhile_append_of_mem
        (List.mem_append_left _ (List.mem_cons_of_mem _ inside)) nonblank] at same
      have there : x ∈ text ++ lines.flatMap (lineText name) := List.mem_append_left _ inside
      have longer := congrArg List.length same
      have front := List.rdropWhile_prefix httpBlank a
      have short := front.length_le
      rw [List.cons_append, ← List.singleton_append,
        rdropWhile_append_of_mem there nonblank] at longer
      simp only [List.length_append, List.length_singleton] at longer
      omega
    refine ⟨⟨empty, none⟩, (ih (a ++ [0x20])).mp ?_⟩
    rw [ownText_of_none none, List.append_nil, rdropWhile_append_of_all blank]
    rw [ownText_of_none none, List.append_nil, empty] at same
    simpa using same
  · rintro ⟨⟨rfl, none⟩, harmless⟩
    have same := (ih (a ++ [0x20])).mpr harmless
    rw [ownText_of_none none, List.append_nil, rdropWhile_append_of_all blank] at same
    rw [ownText_of_none none, List.append_nil, ← same]
    simp

theorem lineTexts_iff (own : Bool) (a : List UInt8)
    (filled : ∀ other ∈ lines, NamedLine name other → fieldText other ≠ []) :
    (a ++ lines.flatMap (lineText name)).rdropWhile httpBlank =
        (a ++ ownText name own lines).rdropWhile httpBlank ↔
      foldsHarmless name own lines = true := by
  induction lines generalizing own a with
  | nil => exact iff_of_true rfl rfl
  | cons line lines ih =>
    have later := (List.forall_mem_cons.mp filled).2
    rw [List.flatMap_cons, ownText, foldsHarmless]
    cases folded : httpFoldLine line with
    | false =>
      rw [if_neg Bool.false_ne_true, if_neg Bool.false_ne_true, ← List.append_assoc,
        ← List.append_assoc]
      exact ih _ _ later
    | true =>
      rw [if_pos rfl, if_pos rfl]
      cases own with
      | true =>
        rw [if_pos rfl, Bool.true_or, Bool.true_and, ← List.append_assoc, ← List.append_assoc]
        exact ih true _ later
      | false =>
        have text : lineText name line = 0x20 :: line.dropWhile httpBlank := if_pos folded
        rw [if_neg Bool.false_ne_true, List.nil_append, text,
          strayFold_iff a _ later nonblank_of_ne_nil fun b => ih false b later]
        simp

end

def fieldLookup (hdr name : List UInt8) : Option (List UInt8) :=
  if ∃ line ∈ headerLines hdr, NamedLine name line then
    some (((ascii ", ").intercalate (fieldValues name (headerLines hdr))).rdropWhile httpBlank)
  else none

def foldedBlock : List UInt8 := ascii "B: y\r\n v\r\nA: x \r\n\tz\r\na:w \r\nB: y\r\n \r\n\r\n"

end Iwan
