import Iwan.Lib.Decimal
import Iwan.Lib.Span
import Iwan.Oidc.Jwt

/- The URLs and the requests of the HTTPS client (http_parser.c). -/
namespace Iwan

open Span

/-- The components of a URL behind its scheme (RFC 3986). -/
structure UrlParts where
  authority : List UInt8
  path : List UInt8
  query : Option (List UInt8)
  fragment : Option (List UInt8)

def urlPart (mark : UInt8) (part : Option (List UInt8)) : List UInt8 := part.elim [] (mark :: ·)

def UrlParts.text (p : UrlParts) : List UInt8 :=
  p.authority ++ (p.path ++ (urlPart 0x3F p.query ++ urlPart 0x23 p.fragment))

/-- The components are as RFC 3986 cuts them. -/
structure UrlParts.Generic (p : UrlParts) : Prop where
  authority : ∀ c ∈ p.authority, urlAuthorityEnd c = false
  absolute : p.path ≠ [] → p.path.head? = some 0x2F
  path : 0x3F ∉ p.path ∧ 0x23 ∉ p.path
  query : ∀ q, p.query = some q → 0x23 ∉ q

def UrlParts.target (p : UrlParts) : List UInt8 :=
  (if p.path = [] then ascii "/" else p.path) ++ urlPart 0x3F p.query

/-- The URL has the components `p`, and these are what is returned. -/
structure UrlSplit (url host path : List UInt8) (scheme : List UInt8) (p : UrlParts) : Prop where
  whole : url = scheme ++ p.text
  scheme : scheme.map asciiLower = ascii "https://"
  parts : p.Generic
  host : host = p.authority
  authority : p.authority ≠ [] ∧ 0x40 ∉ p.authority ∧ 0x3A ∉ p.authority ∧
    httpCtrlIn p.authority = false
  target : path = p.target
  plain : httpCtrlIn path = false

/-- What follows the authority. -/
def urlRest (url : List UInt8) : List UInt8 := (url.drop 8).dropWhile (!urlAuthorityEnd ·)

/-- The target in what follows an authority: the path, or a slash, and the query. -/
def restTarget (rest : List UInt8) : List UInt8 :=
  let target := rest.takeWhile (· ≠ 0x23)
  if target.head? = some 0x2F then target else ascii "/" ++ target

/-- What the code takes for it: the text from the first slash up to the next number sign. -/
def restPath (rest : List UInt8) : List UInt8 :=
  if 0x2F ∈ rest then (rest.dropWhile (· ≠ 0x2F)).takeWhile (· ≠ 0x23) else ascii "/"

/-- What may follow an authority for its first slash to start the path: nothing, the path, a
fragment without a slash, or a fragment that repeats the target behind its first slash. -/
inductive PathFound : List UInt8 → Prop where
  | ended : PathFound []
  | slash (rest : List UInt8) : PathFound (0x2F :: rest)
  | fragment {rest : List UInt8} (slashless : 0x2F ∉ rest) : PathFound (0x23 :: rest)
  | repeated {query front back : List UInt8} (start : query = [] ∨ query.head? = some 0x3F)
      (plain : 0x23 ∉ query) (slashless : 0x2F ∉ query ++ 0x23 :: front)
      (ending : Stops (· ≠ 0x23) back) :
      PathFound (query ++ 0x23 :: (front ++ 0x2F :: (query ++ back)))

section

variable {url host path rest scheme : List UInt8} {p : UrlParts}

theorem PathFound.found (found : PathFound rest) : restPath rest = restTarget rest := by
  cases found with
  | ended => rfl
  | slash rest => simp [restPath, restTarget]
  | fragment slashless => simp [restPath, restTarget, slashless]
  | @repeated query front back start plain slashless ending =>
    have shape : query ++ 0x23 :: (front ++ 0x2F :: (query ++ back)) =
        (query ++ 0x23 :: front) ++ 0x2F :: (query ++ back) := by simp
    have other : query.head? ≠ some 0x2F := fun head =>
      slashless (List.mem_append_left _ (List.mem_of_mem_head? head))
    have passes : ∀ c ∈ 0x2F :: query, decide (c ≠ 0x23) = true := by
      refine List.forall_mem_cons.mpr ⟨rfl, fun c member => decide_eq_true ?_⟩
      rintro rfl
      exact plain member
    rw [restTarget, (cut_append _ plain).1, if_neg other, restPath, shape, if_pos (by simp),
      (cut_append _ slashless).2]
    exact takeWhile_append passes ending

theorem authorityEnd_mark {c : UInt8} (starts : Stops (!urlAuthorityEnd ·) (c :: rest)) :
    c = 0x2F ∨ c = 0x3F ∨ c = 0x23 := by
  have ends : urlAuthorityEnd c = true := by simpa using starts c rfl
  simpa [urlAuthorityEnd, or_assoc] using ends

theorem pathFound_of_eq (starts : Stops (!urlAuthorityEnd ·) rest)
    (same : restPath rest = restTarget rest) : PathFound rest := by
  cases rest with
  | nil => exact .ended
  | cons c tail =>
    rcases authorityEnd_mark starts with rfl | mark
    · exact .slash tail
    have first : ((c :: tail).takeWhile (· ≠ 0x23)) = [] ∨
        ((c :: tail).takeWhile (· ≠ 0x23)).head? = some 0x3F := by
      rcases mark with rfl | rfl <;> simp
    have other : ((c :: tail).takeWhile (· ≠ 0x23)).head? ≠ some 0x2F := by
      rcases mark with rfl | rfl <;> simp
    have hash := not_mem_takeWhile_ne 0x23 (c :: tail)
    have whole : (c :: tail).takeWhile (· ≠ 0x23) ++ (c :: tail).dropWhile (· ≠ 0x23) = c :: tail :=
      List.takeWhile_append_dropWhile
    rw [restTarget, if_neg other] at same
    generalize (c :: tail).takeWhile (· ≠ 0x23) = query at *
    by_cases slash : 0x2F ∈ c :: tail
    · rw [restPath, if_pos slash] at same
      have ending := stops_dropWhile (· ≠ 0x23) (c :: tail)
      cases behind : (c :: tail).dropWhile (· ≠ 0x23) with
      | nil =>
        rw [behind, List.append_nil] at whole
        have longer := congrArg List.length same
        have short := ((List.takeWhile_sublist (· ≠ 0x23)).trans
          (List.dropWhile_sublist (l := c :: tail) (· ≠ 0x2F))).length_le
        rw [longer, ← whole] at short
        simp [ascii] at short
      | cons d frag =>
        have d_eq : d = 0x23 := by simpa using ending d (by rw [behind]; rfl)
        subst d_eq
        rw [behind] at whole
        by_cases inside : 0x2F ∈ query
        · -- the slash stands in the query: what follows it is shorter than the target
          obtain ⟨a, b, rfl, plain⟩ := List.eq_append_cons_of_mem inside
          have passes : ∀ x ∈ 0x2F :: b, decide (x ≠ 0x23) = true := fun x member =>
            decide_eq_true fun zero => hash (zero ▸ List.mem_append_right _ member)
          rw [← whole, List.append_assoc, List.cons_append, (cut_append _ plain).2,
            ← List.cons_append, takeWhile_append passes (Stops.cons _ rfl)] at same
          have longer := congrArg List.length same
          simp [ascii] at longer
          omega
        · have there : 0x2F ∈ frag := by
            rw [← whole] at slash
            simpa [inside] using slash
          obtain ⟨front, z, rfl, plain⟩ := List.eq_append_cons_of_mem there
          have slashless : 0x2F ∉ query ++ 0x23 :: front := by simp [inside, plain]
          rw [← whole, ← List.cons_append, ← List.append_assoc, (cut_append z slashless).2,
            List.takeWhile_cons_of_pos (by decide)] at same
          have repeats : z.takeWhile (· ≠ 0x23) = query := (List.cons.inj same).2
          have parts : z = query ++ z.dropWhile (· ≠ 0x23) := by
            rw [← repeats]
            exact List.takeWhile_append_dropWhile.symm
          rw [← whole, parts]
          exact .repeated first hash slashless (stops_dropWhile _ z)
    · rw [restPath, if_neg slash] at same
      have empty : query = [] := by simpa [ascii] using same
      have ending := stops_dropWhile (· ≠ 0x23) (c :: tail)
      rw [empty, List.nil_append] at whole
      rw [whole] at ending
      rcases mark with rfl | rfl
      · exact absurd (ending 0x3F rfl) (by decide)
      · exact .fragment fun inside => slash (List.mem_cons_of_mem _ inside)

theorem takeWhile_ne_append_dropWhile (mark : UInt8) (s : List UInt8) :
    ∃ part, s = s.takeWhile (· ≠ mark) ++ urlPart mark part ∧ mark ∉ s.takeWhile (· ≠ mark) := by
  cases behind : s.dropWhile (· ≠ mark) with
  | nil =>
    have whole : s = s.takeWhile (· ≠ mark) ++ s.dropWhile (· ≠ mark) :=
      List.takeWhile_append_dropWhile.symm
    rw [behind] at whole
    exact ⟨none, whole, not_mem_takeWhile_ne mark s⟩
  | cons c tail => exact ⟨some tail, cut_some behind, not_mem_takeWhile_ne mark s⟩

theorem restParts (authority : List UInt8) (plain : ∀ c ∈ authority, urlAuthorityEnd c = false)
    (starts : Stops (!urlAuthorityEnd ·) rest) :
    ∃ p : UrlParts, p.Generic ∧ p.authority = authority ∧
      rest = p.path ++ (urlPart 0x3F p.query ++ urlPart 0x23 p.fragment) := by
  obtain ⟨fragment, whole, noFragment⟩ := takeWhile_ne_append_dropWhile 0x23 rest
  obtain ⟨query, shape, noQuery⟩ :=
    takeWhile_ne_append_dropWhile 0x3F (rest.takeWhile (· ≠ 0x23))
  have absolute : (rest.takeWhile (· ≠ 0x23)).takeWhile (· ≠ 0x3F) ≠ [] →
      ((rest.takeWhile (· ≠ 0x23)).takeWhile (· ≠ 0x3F)).head? = some 0x2F := by
    cases rest with
    | nil => exact fun some => absurd rfl some
    | cons c tail =>
      rcases authorityEnd_mark starts with rfl | rfl | rfl <;> simp
  generalize (rest.takeWhile (· ≠ 0x23)).takeWhile (· ≠ 0x3F) = path at shape noQuery absolute
  rw [shape] at noFragment whole
  refine ⟨⟨authority, path, query, fragment⟩, ⟨plain, absolute, ⟨noQuery, ?_⟩, ?_⟩, rfl, ?_⟩
  · exact fun inside => noFragment (List.mem_append_left _ inside)
  · rintro q rfl inside
    exact noFragment (List.mem_append_right _ (List.mem_cons_of_mem _ inside))
  · rw [whole, List.append_assoc]

theorem hasScheme_split {s scheme : List UInt8} (begins : hasScheme s scheme = true) :
    s = s.take scheme.length ++ s.drop scheme.length ∧
      (s.take scheme.length).map asciiLower = scheme := by
  unfold hasScheme at begins
  rw [decide_eq_true_eq] at begins
  exact ⟨(List.take_append_drop _ _).symm, begins.2⟩

theorem UrlParts.Generic.delimited (generic : p.Generic) :
    (p.path ++ (urlPart 0x3F p.query ++ urlPart 0x23 p.fragment)).dropWhile (!urlAuthorityEnd ·) =
      p.path ++ (urlPart 0x3F p.query ++ urlPart 0x23 p.fragment) := by
  have absolute := generic.absolute
  cases path : p.path with
  | cons c rest =>
    rw [path] at absolute
    cases absolute (List.cons_ne_nil _ _)
    rfl
  | nil =>
    cases query : p.query with
    | some q => rfl
    | none =>
      cases fragment : p.fragment with
      | some f => rfl
      | none => rfl

theorem UrlParts.Generic.target_eq (generic : p.Generic) :
    (p.path ++ (urlPart 0x3F p.query ++ urlPart 0x23 p.fragment)).takeWhile (· ≠ 0x23) =
      p.path ++ urlPart 0x3F p.query := by
  have plain : ∀ c ∈ p.path ++ urlPart 0x3F p.query, decide (c ≠ 0x23) = true := by
    intro c member
    rw [decide_eq_true_eq]
    rintro rfl
    rcases List.mem_append.mp member with inside | inside
    · exact generic.path.2 inside
    · cases query : p.query with
      | none =>
        rw [query] at inside
        cases inside
      | some q =>
        rw [query] at inside
        rcases List.mem_cons.mp inside with bad | inside
        · cases bad
        · exact generic.query q query inside
  rw [← List.append_assoc, List.takeWhile_append_of_pos plain]
  cases p.fragment with
  | none => exact List.append_nil _
  | some f => simp [urlPart]

theorem UrlParts.Generic.restTarget_eq (generic : p.Generic) :
    restTarget (p.path ++ (urlPart 0x3F p.query ++ urlPart 0x23 p.fragment)) = p.target := by
  rw [restTarget, generic.target_eq, UrlParts.target]
  have absolute := generic.absolute
  cases front : p.path with
  | cons c tail =>
    rw [front] at absolute
    cases absolute (List.cons_ne_nil _ _)
    rfl
  | nil =>
    cases p.query with
    | none => rfl
    | some q => rfl

theorem UrlSplit.target_eq (split : UrlSplit url host path scheme p) :
    path = restTarget (urlRest url) := by
  have generic := split.parts
  have size : scheme.length = 8 := by
    have length := congrArg List.length split.scheme
    rw [List.length_map] at length
    exact length
  have plain : ∀ c ∈ p.authority, (!urlAuthorityEnd c) = true := by
    intro c member
    rw [generic.authority c member]
    rfl
  rw [split.target, urlRest, split.whole, ← size, List.drop_left, UrlParts.text,
    List.dropWhile_append_of_pos plain, generic.delimited, generic.restTarget_eq]

theorem httpsUrlSplit_some (accepted : httpsUrlSplit url = some (host, path)) :
    hasScheme url (ascii "https://") = true ∧
      host = (url.drop 8).takeWhile (!urlAuthorityEnd ·) ∧
      (host ≠ [] ∧ 0x40 ∉ host ∧ 0x3A ∉ host ∧ httpCtrlIn host = false) ∧
      path = restPath (url.drop 8) ∧ httpCtrlIn path = false := by
  have root : httpCtrlIn (ascii "/") = false := by decide
  have slashless : (url.drop 8).dropWhile (· ≠ 0x2F) = [] ↔ 0x2F ∉ url.drop 8 := by
    rw [List.dropWhile_eq_nil_iff]
    simp only [decide_eq_true_eq]
    exact ⟨fun all inside => all _ inside rfl, fun none c inside same => none (same ▸ inside)⟩
  unfold httpsUrlSplit at accepted
  rw [Option.ite_none_left_eq_some] at accepted
  obtain ⟨begins, accepted⟩ := accepted
  dsimp only at accepted
  rw [Option.ite_none_left_eq_some] at accepted
  obtain ⟨good, accepted⟩ := accepted
  simp only [not_or, Bool.not_eq_true] at good
  refine ⟨by simpa using begins, ?_⟩
  unfold restPath
  cases behind : (url.drop 8).dropWhile (· ≠ 0x2F) with
  | nil =>
    rw [behind] at accepted
    cases accepted
    rw [if_neg (slashless.mp behind)]
    exact ⟨rfl, good, rfl, root⟩
  | cons c tail =>
    have slash : 0x2F ∈ url.drop 8 := by
      by_contra none
      rw [slashless.mpr none] at behind
      cases behind
    rw [behind] at accepted
    dsimp only at accepted
    rw [Option.ite_none_left_eq_some] at accepted
    obtain ⟨clean, accepted⟩ := accepted
    cases accepted
    rw [if_pos slash]
    exact ⟨rfl, good, rfl, by simpa using clean⟩

theorem restPath_append (plain : ∀ c ∈ host, urlAuthorityEnd c = false) :
    restPath (host ++ rest) = restPath rest := by
  have slashless : 0x2F ∉ host := fun inside => absurd (plain _ inside) (by decide)
  have passes : ∀ c ∈ host, decide (c ≠ 0x2F) = true := fun c inside =>
    decide_eq_true fun same => slashless (same ▸ inside)
  simp only [restPath, List.mem_append, slashless, false_or, List.dropWhile_append_of_pos passes]

/-- An accepted URL has the parts returned exactly if its path is found at the first slash. -/
theorem httpsUrlSplit_parts (url host path : List UInt8)
    (accepted : httpsUrlSplit url = some (host, path)) :
    (∃ scheme p, UrlSplit url host path scheme p) ↔ PathFound (urlRest url) := by
  obtain ⟨begins, isHost, named, isPath, clean⟩ := httpsUrlSplit_some accepted
  obtain ⟨whole, scheme⟩ := hasScheme_split begins
  have split : url.drop 8 = host ++ urlRest url := by
    rw [isHost]
    exact List.takeWhile_append_dropWhile.symm
  have authority : ∀ c ∈ host, urlAuthorityEnd c = false := by
    intro c member
    rw [isHost] at member
    simpa using List.mem_takeWhile_imp member
  have starts : Stops (!urlAuthorityEnd ·) (urlRest url) := stops_dropWhile _ _
  rw [split, restPath_append authority] at isPath
  constructor
  · rintro ⟨_, _, parts⟩
    exact pathFound_of_eq starts (isPath.symm.trans parts.target_eq)
  · intro found
    obtain ⟨p, generic, rfl, shape⟩ := restParts host authority starts
    refine ⟨url.take 8, p, ?_, scheme, generic, rfl, named, ?_, clean⟩
    · rw [UrlParts.text, ← shape, ← split]
      exact whole
    · rw [isPath, found.found, shape, generic.restTarget_eq]

end

theorem httpsUrlSplit_parts_sample :
    ∃ scheme p, UrlSplit (ascii "HTTPS://h/a?b/c#d") (ascii "h") (ascii "/a?b/c") scheme p :=
  (httpsUrlSplit_parts _ _ _ (by decide +kernel)).mpr (PathFound.slash (ascii "a?b/c#d"))

/-- A slash in the query or the fragment is taken for the start of the path. -/
theorem httpsUrlSplit_late_slash :
    (httpsUrlSplit (ascii "https://h?x/y") = some (ascii "h", ascii "/y") ∧
      ¬ ∃ scheme p, UrlSplit (ascii "https://h?x/y") (ascii "h") (ascii "/y") scheme p) ∧
    (httpsUrlSplit (ascii "https://h#x/y") = some (ascii "h", ascii "/y") ∧
      ¬ ∃ scheme p, UrlSplit (ascii "https://h#x/y") (ascii "h") (ascii "/y") scheme p) := by
  have query : ascii "/y" ≠ restTarget (urlRest (ascii "https://h?x/y")) := by decide +kernel
  have fragment : ascii "/y" ≠ restTarget (urlRest (ascii "https://h#x/y")) := by decide +kernel
  refine ⟨⟨by decide +kernel, ?_⟩, ⟨by decide +kernel, ?_⟩⟩
  · rintro ⟨scheme, p, split⟩
    exact query split.target_eq
  · rintro ⟨scheme, p, split⟩
    exact fragment split.target_eq

def contentLengthLine (body : List UInt8) : List UInt8 :=
  ascii "Content-Length: " ++ Decimal.text body.length

def requestMethod (isGet : Bool) : List UInt8 := if isGet then ascii "GET" else ascii "POST"

def httpsReqBuild (host path : List UInt8) (body : Option (List UInt8))
    (headers : List (List UInt8)) (isGet : Bool) : Option (List UInt8) :=
  if httpCtrlIn path then none
  else if httpCtrlIn host then none
  else if headers.any httpCtrlIn then none
  else
    let body := body.getD []
    some (requestMethod isGet ++ ascii " " ++ path ++ ascii " HTTP/1.1\r\nHost: " ++ host ++
      ascii "\r\nConnection: close\r\n" ++ headers.flatMap (· ++ crlf) ++
      (if isGet then [] else contentLengthLine body ++ crlf) ++ crlf ++
      if isGet then [] else body)

def crlfLine : List UInt8 → Option (List UInt8 × List UInt8)
  | [] => none
  | c :: rest =>
    if c = 0x0D ∧ rest.head? = some 0x0A then some ([], rest.drop 1)
    else (crlfLine rest).map fun found => (c :: found.1, found.2)

def crlfHead : Nat → List UInt8 → Option (List (List UInt8) × List UInt8)
  | 0, _ => none
  | fuel + 1, s =>
    match crlfLine s with
    | none => none
    | some (line, rest) =>
      if line = [] then some ([], rest)
      else (crlfHead fuel rest).map fun found => (line :: found.1, found.2)

def splitHead (s : List UInt8) : Option (List (List UInt8) × List UInt8) := crlfHead s.length s

section

theorem crlfLine_append {line : List UInt8} (rest : List UInt8) (plain : 0x0D ∉ line) :
    crlfLine (line ++ (crlf ++ rest)) = some (line, rest) := by
  induction line with
  | nil => rfl
  | cons c line ih =>
    have other : c ≠ 0x0D := fun same => plain (same ▸ List.mem_cons_self)
    rw [List.cons_append, crlfLine, if_neg fun both => other both.1,
      ih fun inside => plain (List.mem_cons_of_mem _ inside)]
    rfl

theorem crlfHead_lines {lines : List (List UInt8)} (rest : List UInt8) {fuel : Nat}
    (enough : lines.length < fuel) (filled : ∀ line ∈ lines, line ≠ [])
    (plain : ∀ line ∈ lines, 0x0D ∉ line) :
    crlfHead fuel (lines.flatMap (· ++ crlf) ++ (crlf ++ rest)) = some (lines, rest) := by
  induction lines generalizing fuel with
  | nil =>
    cases fuel with
    | zero => exact absurd enough (Nat.not_lt_zero _)
    | succ fuel => rfl
  | cons line lines ih =>
    cases fuel with
    | zero => exact absurd enough (Nat.not_lt_zero _)
    | succ fuel =>
      have later := ih (Nat.lt_of_succ_lt_succ enough)
        (fun l member => filled l (List.mem_cons_of_mem _ member))
        (fun l member => plain l (List.mem_cons_of_mem _ member))
      have here := crlfLine_append (lines.flatMap (· ++ crlf) ++ (crlf ++ rest))
        (plain line List.mem_cons_self)
      rw [List.flatMap_cons, List.append_assoc, List.append_assoc, crlfHead, here]
      dsimp only
      rw [if_neg (filled line List.mem_cons_self), later]
      rfl

theorem splitHead_lines (lines : List (List UInt8)) (rest : List UInt8)
    (filled : ∀ line ∈ lines, line ≠ []) (plain : ∀ line ∈ lines, 0x0D ∉ line) :
    splitHead (lines.flatMap (· ++ crlf) ++ (crlf ++ rest)) = some (lines, rest) := by
  apply crlfHead_lines rest ?_ filled plain
  have size : ∀ ls : List (List UInt8), ls.length ≤ (ls.flatMap (· ++ crlf)).length := by
    intro ls
    induction ls with
    | nil => exact Nat.le_refl _
    | cons line ls ih =>
      rw [List.flatMap_cons, List.length_append, List.length_append, List.length_cons]
      have two : crlf.length = 2 := rfl
      omega
  have enough := size lines
  rw [List.length_append, List.length_append]
  have two : crlf.length = 2 := rfl
  omega

theorem cr_of_ctrl {s : List UInt8} (clean : httpCtrlIn s = false) : 0x0D ∉ s := by
  intro inside
  unfold httpCtrlIn at clean
  rw [List.any_eq_false] at clean
  exact clean _ inside (by decide)

theorem decimal_digits (n : Nat) : ∀ c ∈ Decimal.text n, 0x30 ≤ c ∧ c ≤ 0x39 := by
  intro c member
  simpa [Decimal.digit] using (Decimal.text_run n).1.2 c member

def requestLines (host path body : List UInt8) (headers : List (List UInt8)) (isGet : Bool) :
    List (List UInt8) :=
  (requestMethod isGet ++ 0x20 :: (path ++ 0x20 :: ascii "HTTP/1.1")) ::
    (ascii "Host: " ++ host) :: ascii "Connection: close" ::
      (headers ++ if isGet then [] else [contentLengthLine body])

variable {host path req : List UInt8} {body : Option (List UInt8)}
  {headers : List (List UInt8)} {isGet : Bool}

theorem httpsReqBuild_some (built : httpsReqBuild host path body headers isGet = some req) :
    (httpCtrlIn path = false ∧ httpCtrlIn host = false ∧ ∀ h ∈ headers, httpCtrlIn h = false) ∧
      req = (requestLines host path (body.getD []) headers isGet).flatMap (· ++ crlf) ++
        (crlf ++ if isGet then [] else body.getD []) := by
  unfold httpsReqBuild at built
  split_ifs at built with badPath badHost badHeader get
  · refine ⟨⟨by simpa using badPath, by simpa using badHost, by simpa using badHeader⟩, ?_⟩
    cases built
    simp [requestLines, get, crlf, ascii]
  · refine ⟨⟨by simpa using badPath, by simpa using badHost, by simpa using badHeader⟩, ?_⟩
    cases built
    simp [requestLines, get, crlf, ascii]

theorem requestMethod_plain (isGet : Bool) :
    0x0D ∉ requestMethod isGet ∧ 0x20 ∉ requestMethod isGet := by
  cases isGet <;> decide

theorem contentLengthLine_plain (body : List UInt8) : 0x0D ∉ contentLengthLine body := by
  intro inside
  rcases List.mem_append.mp inside with inside | inside
  · revert inside
    decide
  · have digit := decimal_digits body.length 0x0D inside
    revert digit
    decide

/-- A request is the lines of its head and the body: nothing handed in makes a line of its own. -/
theorem httpsReqBuild_lines (host path req : List UInt8) (body : Option (List UInt8))
    (headers : List (List UInt8)) (isGet : Bool) (named : ∀ h ∈ headers, h ≠ [])
    (built : httpsReqBuild host path body headers isGet = some req) :
    splitHead req = some (requestLines host path (body.getD []) headers isGet,
        if isGet then [] else body.getD []) ∧
      (0x20 ∉ path → (requestMethod isGet ++ 0x20 :: (path ++ 0x20 :: ascii "HTTP/1.1")).splitOn
        0x20 = [requestMethod isGet, path, ascii "HTTP/1.1"]) ∧
      ∃ digits, contentLengthLine (body.getD []) = ascii "Content-Length: " ++ digits ∧
        (∀ c ∈ digits, 0x30 ≤ c ∧ c ≤ 0x39) ∧ Decimal.value digits = (body.getD []).length := by
  obtain ⟨⟨cleanPath, cleanHost, cleanHeaders⟩, rfl⟩ := httpsReqBuild_some built
  have version : 0x0D ∉ ascii "HTTP/1.1" ∧ 0x20 ∉ ascii "HTTP/1.1" := by decide
  have hostName : 0x0D ∉ ascii "Host: " := by decide
  have method := requestMethod_plain isGet
  refine ⟨splitHead_lines _ _ ?_ ?_, fun spaceless => ?_, _, rfl, decimal_digits _,
    (Decimal.text_run _).2.1⟩
  · intro line member
    simp only [requestLines, List.mem_cons, List.mem_append] at member
    rcases member with rfl | rfl | rfl | member | member
    · simp
    · simp [ascii]
    · decide
    · exact named line member
    · cases isGet with
      | true => cases member
      | false =>
        rw [List.mem_singleton.mp member]
        simp [contentLengthLine, ascii]
  · intro line member
    simp only [requestLines, List.mem_cons, List.mem_append] at member
    rcases member with rfl | rfl | rfl | member | member
    · have plainPath := cr_of_ctrl cleanPath
      simp [method.1, plainPath, version.1]
    · have plainHost := cr_of_ctrl cleanHost
      simp [hostName, plainHost]
    · decide
    · exact cr_of_ctrl (cleanHeaders line member)
    · cases isGet with
      | true => cases member
      | false =>
        rw [List.mem_singleton.mp member]
        exact contentLengthLine_plain _
  · have joined : requestMethod isGet ++ 0x20 :: (path ++ 0x20 :: ascii "HTTP/1.1") =
        List.intercalate [0x20] [requestMethod isGet, path, ascii "HTTP/1.1"] := by
      simp [List.intercalate]
    rw [joined]
    refine List.splitOn_intercalate _ ?_ (by simp)
    intro part member
    simp only [List.mem_cons, List.not_mem_nil, or_false] at member
    rcases member with rfl | rfl | rfl
    · exact method.2
    · exact spaceless
    · exact version.2

end

theorem httpsReqBuild_lines_sample :
    ∃ req, httpsReqBuild (ascii "h") (ascii "/a") (some (ascii "b=1")) [ascii "X: y"] false =
        some req ∧
      splitHead req = some (requestLines (ascii "h") (ascii "/a") (ascii "b=1") [ascii "X: y"]
        false, ascii "b=1") :=
  ⟨_, rfl, (httpsReqBuild_lines (ascii "h") (ascii "/a") _ (some (ascii "b=1")) [ascii "X: y"] false
    (by decide) rfl).1⟩

/-- A path that https_url_split returns can have a space in it. -/
theorem httpsReqBuild_space :
    httpsUrlSplit (ascii "https://h/a b") = some (ascii "h", ascii "/a b") ∧
      (httpsReqBuild (ascii "h") (ascii "/a b") none [] true).bind
          (fun req => (splitHead req).bind fun found => found.1.head?.map (·.splitOn 0x20)) =
        some [ascii "GET", ascii "/a", ascii "b", ascii "HTTP/1.1"] := by
  decide +kernel

end Iwan
