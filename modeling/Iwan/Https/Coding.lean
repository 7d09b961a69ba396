import Iwan.Https.Fields

/- The transfer coding that the reader looks for (http_parser.c). -/
namespace Iwan

open Span

/-- The lines of a block, ended by CR, LF or CRLF. -/
def eolLines : List UInt8 → List (List UInt8)
  | [] => [[]]
  | c :: rest =>
    if c = 0x0D ∧ rest.head? = some 0x0A then eolLines rest
    else if httpEol c then [] :: eolLines rest
    else (eolLines rest).modifyHead (c :: ·)

def TeLine (line : List UInt8) : Prop := hasScheme line (ascii "transfer-encoding:") = true

instance (line : List UInt8) : Decidable (TeLine line) := inferInstanceAs (Decidable (_ = true))

def teText (line : List UInt8) : List UInt8 := (line.drop 18).dropWhile httpBlank

/-- The values of the coding, each joined with the continuation lines behind its line. -/
def teValues : List (List UInt8) → List (List UInt8)
  | [] => []
  | line :: rest =>
    if TeLine line then
      (teText line ++ foldTexts (rest.takeWhile httpFoldLine)) :: teValues rest
    else teValues rest

def chunkedElement (elem : List UInt8) : Bool :=
  (httpTrim (elem.takeWhile (· ≠ 0x3B))).map asciiLower == ascii "chunked"

def ChunkedCoding (hdrs : List UInt8) : Prop :=
  ∃ value ∈ teValues (eolLines hdrs), ∃ elem ∈ value.splitOn 0x2C, chunkedElement elem = true

def teFound (line : List UInt8) : Bool := TeLine line && teValueChunked (teText line)

/-- No line of the coding has a continuation line, up to the first one in which the element is found
(before any NUL byte). -/
def foldsAvoided : List (List UInt8) → Bool
  | [] => true
  | line :: rest =>
    if TeLine line then
      !rest.head?.any httpFoldLine && (teValueChunked (teText line) || foldsAvoided rest)
    else foldsAvoided rest

/-- The call passes the text of a line of the coding, with its length. -/
def TrueLength (hdrs : List UInt8) (call : SbufApp) : Prop :=
  ∃ line ∈ eolLines hdrs, TeLine line ∧ teText line <+: call.bytes ∧ call.len = (teText line).length

section

variable {s line after : List UInt8}

theorem teElementChunked_eq (elem : List UInt8) : teElementChunked elem = chunkedElement elem := by
  have blanks : ∀ x, httpBlank x = true → decide (x ≠ 0x3B) = true := by decide +kernel
  have trimmed : ((httpTrim elem).takeWhile (· ≠ 0x3B)).rdropWhile httpBlank =
      httpTrim (elem.takeWhile (· ≠ 0x3B)) := by
    rw [httpTrim, rdropWhile_takeWhile blanks, httpTrim, dropWhile_takeWhile blanks]
  rw [teElementChunked, trimmed, chunkedElement]

theorem chunkedElement_concat (elem : List UInt8) {x : UInt8} (blank : httpBlank x = true) :
    chunkedElement (elem ++ [x]) = chunkedElement elem := by
  have other : decide (x ≠ 0x3B) = true := by
    have blanks : ∀ x, httpBlank x = true → decide (x ≠ 0x3B) = true := by decide +kernel
    exact blanks x blank
  have trimmed : httpTrim ((elem ++ [x]).takeWhile (· ≠ 0x3B)) =
      httpTrim (elem.takeWhile (· ≠ 0x3B)) := by
    rw [List.takeWhile_append]
    split
    · next whole =>
      have same : elem.takeWhile (· ≠ 0x3B) = elem :=
        (List.takeWhile_sublist _).eq_of_length whole
      have one : [x].takeWhile (· ≠ 0x3B) = [x] := List.takeWhile_cons_of_pos other
      rw [same, one, httpTrim, rdropWhile_dropWhile_concat blank, httpTrim]
    · rfl
  rw [chunkedElement, trimmed, chunkedElement]

theorem teValueChunked_eq (clean : 0 ∉ s) :
    teValueChunked s = (s.splitOn 0x2C).any chunkedElement := by
  have front := List.rdropWhile_prefix httpBlank s
  have whole : cString (s.rdropWhile httpBlank) = s.rdropWhile httpBlank :=
    cString_of_text fun zero => clean (front.subset zero)
  have commas : ∀ x : UInt8, httpBlank x = true → (x == 0x2C) = false := by decide +kernel
  have codes : teElementChunked = chunkedElement := funext teElementChunked_eq
  rw [teValueChunked, whole, codes]
  exact splitOn_any_rdropWhile commas (fun elem x blank => chunkedElement_concat elem blank) s

theorem eolLines_line (plain : ∀ x ∈ line, httpEol x = false) (after : List UInt8) :
    eolLines (line ++ after) = (eolLines after).modifyHead (line ++ ·) := by
  induction line with
  | nil => exact (modifyHead_nil_append _).symm
  | cons c line ih =>
    have here := plain c List.mem_cons_self
    have other : c ≠ 0x0D := by
      rintro rfl
      cases here
    rw [List.cons_append, eolLines, if_neg fun both => other both.1, if_neg (by simp [here]),
      ih fun x member => plain x (List.mem_cons_of_mem c member), List.modifyHead_modifyHead]
    rfl

theorem eolLines_eol {c : UInt8} (eol : httpEol c = true) (rest : List UInt8) :
    eolLines (c :: rest) = [] :: eolLines (httpSkipEol (c :: rest)) := by
  have either : c = 0x0D ∨ c = 0x0A := by simpa [httpEol] using eol
  rcases either with rfl | rfl
  · rw [eolLines]
    by_cases feed : rest.head? = some 0x0A
    · obtain ⟨more, rfl⟩ : ∃ more, rest = 0x0A :: more := by
        cases rest with
        | nil => cases feed
        | cons x more =>
          cases feed
          exact ⟨more, rfl⟩
      rw [if_pos ⟨rfl, rfl⟩, eolLines, if_neg (by simp), if_pos (by decide)]
      rfl
    · rw [if_neg fun both => feed both.2, if_pos eol]
      simp [httpSkipEol, feed]
  · rw [eolLines, if_neg (by simp), if_pos eol]
    rfl

theorem eolLines_ne_nil (s : List UInt8) : eolLines s ≠ [] := by
  induction s with
  | nil => exact List.cons_ne_nil _ _
  | cons c s ih =>
    rw [eolLines]
    split_ifs
    · exact ih
    · exact List.cons_ne_nil _ _
    · simpa using ih

theorem httpFoldLine_eolLines (s : List UInt8) :
    ∃ first more, eolLines s = first :: more ∧ httpFoldLine first = s.head?.any httpBlank := by
  cases s with
  | nil => exact ⟨[], [], rfl, rfl⟩
  | cons c rest =>
    cases eol : httpEol c with
    | true =>
      refine ⟨[], _, eolLines_eol eol rest, ?_⟩
      have blanks : ∀ c, httpEol c = true → httpBlank c = false := by decide +kernel
      exact (blanks c eol).symm
    | false =>
      have plain : ∀ x ∈ [c], httpEol x = false := by simpa using eol
      have lines := eolLines_line plain rest
      cases later : eolLines rest with
      | nil => exact absurd later (eolLines_ne_nil rest)
      | cons first more =>
        rw [later] at lines
        exact ⟨c :: first, more, lines, rfl⟩

theorem httpSkipEol_length {c : UInt8} (eol : httpEol c = true) (rest : List UInt8) :
    (httpSkipEol (c :: rest)).length ≤ rest.length := by
  have either : c = 0x0D ∨ c = 0x0A := by simpa [httpEol] using eol
  rcases either with rfl | rfl
  · simp only [httpSkipEol, List.head?_cons, ↓reduceIte, List.drop_one, List.tail_cons]
    split
    · simp
    · exact Nat.le_refl _
  · exact Nat.le_refl _

theorem httpSkipEol_dropWhile {c : UInt8} (eol : httpEol c = true) (rest : List UInt8) :
    (httpSkipEol (c :: rest)).dropWhile httpEol = (c :: rest).dropWhile httpEol := by
  have either : c = 0x0D ∨ c = 0x0A := by simpa [httpEol] using eol
  rw [List.dropWhile_cons_of_pos eol]
  rcases either with rfl | rfl
  · simp only [httpSkipEol, List.head?_cons, ↓reduceIte, List.drop_one, List.tail_cons]
    split
    · next feed =>
      cases rest with
      | nil => rfl
      | cons x rest =>
        cases feed
        rw [List.tail_cons, List.dropWhile_cons_of_pos (by decide)]
    · rfl
  · rfl

/-- `tail` has the lines of `next`, but for empty ones in front. -/
structure Behind (tail : List (List UInt8)) (next : List UInt8) : Prop where
  avoided : foldsAvoided tail = foldsAvoided (eolLines next)
  found : tail.any teFound = (eolLines next).any teFound
  lines : ∀ line ∈ eolLines next, TeLine line → line ∈ tail

theorem behind_nil : Behind [] [] where
  avoided := rfl
  found := rfl
  lines := by
    intro line member te
    rw [List.mem_singleton.mp member] at te
    exact absurd te (by decide)

theorem Behind.empty {tail : List (List UInt8)} (behind : Behind tail s) :
    Behind ([] :: tail) s where
  avoided := behind.avoided
  found := behind.found
  lines := fun line member te => List.mem_cons_of_mem [] (behind.lines line member te)

theorem behind_dropWhile (s : List UInt8) : Behind (eolLines s) (s.dropWhile httpEol) := by
  generalize size : s.length = n
  induction n using Nat.strong_induction_on generalizing s with
  | _ n ih =>
    cases s with
    | nil => exact behind_nil.empty
    | cons c rest =>
      cases eol : httpEol c with
      | false =>
        rw [List.dropWhile_cons_of_neg (by simp [eol])]
        exact ⟨rfl, rfl, fun line member _ => member⟩
      | true =>
        have shorter := httpSkipEol_length eol rest
        have later := ih _ (by rw [← size, List.length_cons]; omega)
          (httpSkipEol (c :: rest)) rfl
        rw [eolLines_eol eol, ← httpSkipEol_dropWhile eol]
        exact later.empty

theorem eolLines_scan (s : List UInt8) :
    ∃ tail, eolLines s = s.takeWhile (!httpEol ·) :: tail ∧
      Behind tail ((s.dropWhile (!httpEol ·)).dropWhile httpEol) ∧
      (s.dropWhile (!httpEol ·) = [] ∧ tail = [] ∨
        s.dropWhile (!httpEol ·) ≠ [] ∧
          tail = eolLines (httpSkipEol (s.dropWhile (!httpEol ·)))) := by
  have plain : ∀ x ∈ s.takeWhile (!httpEol ·), httpEol x = false := by
    intro x member
    simpa using List.mem_takeWhile_imp member
  have lines := eolLines_line plain (s.dropWhile (!httpEol ·))
  rw [List.takeWhile_append_dropWhile] at lines
  have stops := stops_dropWhile (!httpEol ·) s
  generalize s.dropWhile (!httpEol ·) = after at lines stops
  cases after with
  | nil => exact ⟨[], by rw [lines]; simp [eolLines], behind_nil, .inl ⟨rfl, rfl⟩⟩
  | cons c rest =>
    have eol : httpEol c = true := by simpa using stops c rfl
    refine ⟨eolLines (httpSkipEol (c :: rest)), ?_, ?_, .inr ⟨List.cons_ne_nil _ _, rfl⟩⟩
    · rw [lines, eolLines_eol eol]
      simp
    · rw [← httpSkipEol_dropWhile eol]
      exact behind_dropWhile _

theorem scan_length (some : s ≠ []) :
    ((s.dropWhile (!httpEol ·)).dropWhile httpEol).length < s.length := by
  cases s with
  | nil => exact absurd rfl some
  | cons c rest =>
    have inner := (List.dropWhile_suffix (l := rest) (!httpEol ·)).length_le
    cases eol : httpEol c with
    | true =>
      rw [List.dropWhile_cons_of_neg (by simp [eol]), List.dropWhile_cons_of_pos eol]
      exact Nat.lt_succ_of_le (List.dropWhile_suffix httpEol).length_le
    | false =>
      rw [List.dropWhile_cons_of_pos (by simp [eol])]
      exact Nat.lt_succ_of_le ((List.dropWhile_suffix httpEol).length_le.trans inner)

end

section

variable {after v : List UInt8} {calls : List SbufApp}

variable (fuel : Nat)

theorem teFoldLoop_unfolded (v : List UInt8) (calls : List SbufApp)
    (unfolded : (httpSkipEol after).head?.any httpBlank = false) :
    teFoldLoop (fuel + 1) after v calls = (some v, calls) := by
  rw [teFoldLoop]
  split
  · rfl
  · dsimp only
    rw [unfolded]
    rfl

theorem teFoldLoop_folded {c : UInt8} {rest : List UInt8} (eol : httpEol c = true) (fuel : Nat)
    (v : List UInt8) (calls : List SbufApp)
    (folded : (httpSkipEol (c :: rest)).head?.any httpBlank = true) :
    ∃ more, teFoldLoop (fuel + 1) (c :: rest) v calls = (none, more) := by
  have shorter := httpSkipEol_length eol rest
  have leol : (c :: rest).dropWhile (!httpEol ·) = c :: rest :=
    List.dropWhile_cons_of_neg (by simp [eol])
  have gap : (httpSkipEol (c :: rest)).length - (c :: rest).length = 0 := by
    rw [List.length_cons]
    omega
  rw [teFoldLoop, if_neg (List.cons_ne_nil _ _)]
  dsimp only
  rw [folded, if_neg (by simp), leol, gap, List.take_zero, List.drop_zero, List.dropWhile_nil,
    List.nil_append, if_pos (by rw [List.length_cons]; omega)]
  exact ⟨_, rfl⟩

variable {hdrs : List UInt8}

theorem httpsTeHeaderChunkedLoop_other (calls : List SbufApp) (some : hdrs ≠ [])
    (other : ¬ TeLine (hdrs.takeWhile (!httpEol ·))) :
    httpsTeHeaderChunkedLoop (fuel + 1) hdrs calls =
      httpsTeHeaderChunkedLoop fuel ((hdrs.dropWhile (!httpEol ·)).dropWhile httpEol) calls := by
  rw [httpsTeHeaderChunkedLoop, if_neg some]
  exact if_neg other

def teCall (hdrs : List UInt8) : SbufApp where
  bytes := teText (hdrs.takeWhile (!httpEol ·)) ++ hdrs.dropWhile (!httpEol ·)
  len := (teText (hdrs.takeWhile (!httpEol ·))).length

theorem httpsTeHeaderChunkedLoop_te (calls : List SbufApp) (some : hdrs ≠ [])
    (te : TeLine (hdrs.takeWhile (!httpEol ·)))
    (unfolded : (httpSkipEol (hdrs.dropWhile (!httpEol ·))).head?.any httpBlank = false) :
    httpsTeHeaderChunkedLoop (fuel + 1) hdrs calls =
      if teValueChunked (teText (hdrs.takeWhile (!httpEol ·))) then
        ⟨.some true, calls ++ [teCall hdrs]⟩
      else httpsTeHeaderChunkedLoop fuel ((hdrs.dropWhile (!httpEol ·)).dropWhile httpEol)
        (calls ++ [teCall hdrs]) := by
  rw [httpsTeHeaderChunkedLoop, if_neg some]
  refine (if_pos te).trans ?_
  dsimp only
  rw [teFoldLoop_unfolded _ _ _ unfolded]
  rfl

theorem httpsTeHeaderChunkedLoop_folded (calls : List SbufApp) (some : hdrs ≠ [])
    (te : TeLine (hdrs.takeWhile (!httpEol ·)))
    (folded : (httpSkipEol (hdrs.dropWhile (!httpEol ·))).head?.any httpBlank = true) :
    (httpsTeHeaderChunkedLoop (fuel + 1) hdrs calls).result = none := by
  have stops := stops_dropWhile (!httpEol ·) hdrs
  rw [httpsTeHeaderChunkedLoop, if_neg some]
  refine (congrArg TeScan.result (if_pos te)).trans ?_
  generalize hdrs.dropWhile (!httpEol ·) = after at stops folded ⊢
  cases after with
  | nil => cases folded
  | cons c rest =>
    obtain ⟨more, gone⟩ := teFoldLoop_folded (by simpa using stops c rfl) (c :: rest).length
      (teText (hdrs.takeWhile (!httpEol ·))) (calls ++
        [⟨teText (hdrs.takeWhile (!httpEol ·)) ++ c :: rest,
          (teText (hdrs.takeWhile (!httpEol ·))).length⟩]) folded
    dsimp only
    rw [← teText, gone]

theorem httpsTeHeaderChunkedLoop_eq (hdrs : List UInt8) (calls : List SbufApp)
    (enough : hdrs.length ≤ fuel) :
    (httpsTeHeaderChunkedLoop (fuel + 1) hdrs calls).result =
        (if foldsAvoided (eolLines hdrs) then some ((eolLines hdrs).any teFound) else none) ∧
      (foldsAvoided (eolLines hdrs) = true →
        ∀ call ∈ (httpsTeHeaderChunkedLoop (fuel + 1) hdrs calls).calls,
          call ∈ calls ∨ TrueLength hdrs call) := by
  induction fuel generalizing hdrs calls with
  | zero =>
    cases List.eq_nil_of_length_eq_zero (Nat.le_zero.mp enough)
    exact ⟨rfl, fun _ call member => .inl member⟩
  | succ fuel ih =>
    by_cases empty : hdrs = []
    · cases empty
      exact ⟨rfl, fun _ call member => .inl member⟩
    obtain ⟨tail, lines, behind, after⟩ := eolLines_scan hdrs
    have shorter := scan_length empty
    have later := fun calls => ih ((hdrs.dropWhile (!httpEol ·)).dropWhile httpEol) calls (by omega)
    rw [← behind.avoided, ← behind.found] at later
    have first : hdrs.takeWhile (!httpEol ·) ∈ eolLines hdrs := by
      rw [lines]
      exact List.mem_cons_self
    have widen : ∀ call, TrueLength ((hdrs.dropWhile (!httpEol ·)).dropWhile httpEol) call →
        TrueLength hdrs call := by
      rintro call ⟨line, member, te, rest⟩
      refine ⟨line, ?_, te, rest⟩
      rw [lines]
      exact List.mem_cons_of_mem _ (behind.lines line member te)
    by_cases te : TeLine (hdrs.takeWhile (!httpEol ·))
    · have own : ∀ call ∈ calls ++ [teCall hdrs], call ∈ calls ∨ TrueLength hdrs call := by
        intro call member
        rcases List.mem_append.mp member with member | member
        · exact .inl member
        · cases List.mem_singleton.mp member
          exact .inr ⟨_, first, te, List.prefix_append _ _, rfl⟩
      have fold : tail.head?.any httpFoldLine =
          (httpSkipEol (hdrs.dropWhile (!httpEol ·))).head?.any httpBlank := by
        rcases after with ⟨done, none⟩ | ⟨_, more⟩
        · rw [done, none]
          rfl
        · obtain ⟨next, others, split, same⟩ :=
            httpFoldLine_eolLines (httpSkipEol (hdrs.dropWhile (!httpEol ·)))
          rw [more, split]
          exact same
      rw [lines, foldsAvoided, if_pos te, List.any_cons, fold, teFound, decide_eq_true te,
        Bool.true_and]
      cases folded : (httpSkipEol (hdrs.dropWhile (!httpEol ·))).head?.any httpBlank with
      | true => exact ⟨httpsTeHeaderChunkedLoop_folded _ calls empty te folded, nofun⟩
      | false =>
        rw [httpsTeHeaderChunkedLoop_te _ calls empty te folded]
        cases yes : teValueChunked (teText (hdrs.takeWhile (!httpEol ·))) with
        | true => exact ⟨rfl, fun _ => own⟩
        | false =>
          obtain ⟨result, all⟩ := later (calls ++ [teCall hdrs])
          refine ⟨result, fun avoided call member => ?_⟩
          rcases all avoided call member with member | length
          · exact own call member
          · exact .inr (widen call length)
    · rw [lines, foldsAvoided, if_neg te, List.any_cons, teFound, decide_eq_false te,
        Bool.false_and, Bool.false_or, httpsTeHeaderChunkedLoop_other _ calls empty te]
      exact ⟨(later calls).1, fun avoided call member =>
        ((later calls).2 avoided call member).imp_right (widen call)⟩

end

/-- Without NUL bytes the cut texts of the lines tell what the values do. -/
theorem found_of_clean {lines : List (List UInt8)} (avoided : foldsAvoided lines = true)
    (clean : ∀ line ∈ lines, TeLine line → 0 ∉ line) :
    lines.any teFound = true ↔
      ∃ value ∈ teValues lines, ∃ elem ∈ value.splitOn 0x2C, chunkedElement elem = true := by
  induction lines with
  | nil => simp [teValues]
  | cons line lines ih =>
    obtain ⟨here, later⟩ := List.forall_mem_cons.mp clean
    rw [foldsAvoided] at avoided
    rw [List.any_cons, teFound, teValues]
    by_cases te : TeLine line
    · rw [if_pos te, Bool.and_eq_true, Bool.or_eq_true, Bool.not_eq_true'] at avoided
      have text : 0 ∉ teText line := fun zero => here te
        ((List.drop_suffix _ _).subset ((List.dropWhile_suffix _).subset zero))
      have none : lines.takeWhile httpFoldLine = [] := by
        cases lines with
        | nil => rfl
        | cons next lines => exact List.takeWhile_cons_of_neg (by simpa using avoided.1)
      rw [if_pos te, decide_eq_true te, Bool.true_and, none, foldTexts, List.flatMap_nil,
        List.append_nil, teValueChunked_eq text, Bool.or_eq_true, List.any_eq_true]
      simp only [List.mem_cons, exists_eq_or_imp]
      refine or_congr_right' fun absent => ih (avoided.2.resolve_left ?_) later
      rwa [teValueChunked_eq text, List.any_eq_true]
    · rw [if_neg te] at avoided
      rw [if_neg te, decide_eq_false te, Bool.false_and, Bool.false_or]
      exact ih avoided later

def foldedCoding : List UInt8 := ascii "Transfer-Encoding: gzip,\r\n chunked\r\n"

end Iwan
