import Iwan.Lib.Span
import Iwan.Proxy.HttpPlanes

/- The request that the relay forwards (relay_proxy.c). -/
namespace Iwan

open BigEndian Incremental

def rpOws (c : UInt8) : Bool := c = 0x20 ∨ c = 0x09

def rpHdrNameEq (line name : List UInt8) : Option Nat :=
  let j := line.findIdx (· = 0x3A)
  if line.length ≤ j then none
  else if ((line.take j).rdropWhile rpOws).map asciiLower = name then some j
  else none

def rpValued (line : List UInt8) (colon : Nat) : Bool :=
  (line.drop (colon + 1)).dropWhile rpOws ≠ []

def isConnection (line : List UInt8) : Bool := (rpHdrNameEq line (ascii "connection")).isSome

def skipByte (c : UInt8) (d : List UInt8) : List UInt8 := if d.head? = some c then d.drop 1 else d

def rpLine (d : List UInt8) : List UInt8 := d.takeWhile (!isLineEnd ·)

def rpLineNext (d : List UInt8) : List UInt8 :=
  skipByte 0x0A (skipByte 0x0D (d.dropWhile (!isLineEnd ·)))

def closeField : List UInt8 := ascii "Connection: close\r\n"

def upgradeAfter (upgrade : Bool) (line : List UInt8) : Bool :=
  match rpHdrNameEq line (ascii "upgrade") with
  | some colon => rpValued line colon
  | none => upgrade

def forceCloseScan : Nat → List UInt8 → Bool → Nat → Bool × Nat
  | 0, _, upgrade, need => (upgrade, need)
  | fuel + 1, d, upgrade, need =>
    if d = [] then (upgrade, need)
    else
      let line := rpLine d
      if line = [] then (upgrade, need + (closeField.length + 2))
      else
        forceCloseScan fuel (rpLineNext d) (upgradeAfter upgrade line)
          (if isConnection line then need else need + (line.length + 2))

def rpHttpW (outcap : Nat) (out bytes : List UInt8) : Option (List UInt8) :=
  if outcap < out.length + bytes.length then none else some (out ++ bytes)

def forceCloseWrite (outcap : Nat) : Nat → List UInt8 → List UInt8 → Option (List UInt8)
  | 0, _, out => some out
  | fuel + 1, d, out =>
    if d = [] then some out
    else
      let line := rpLine d
      if line = [] then (rpHttpW outcap out closeField).bind fun out => rpHttpW outcap out crlf
      else if isConnection line then forceCloseWrite outcap fuel (rpLineNext d) out
      else
        ((rpHttpW outcap out line).bind fun out => rpHttpW outcap out crlf).bind fun out =>
          forceCloseWrite outcap fuel (rpLineNext d) out

def rpHttpForceClose (outcap : Nat) (head : List UInt8) : Option (List UInt8) :=
  let (upgrade, need) := forceCloseScan head.length head false 0
  if upgrade then none
  else if outcap < need then none
  else forceCloseWrite outcap head.length head []

def rpHttpForward (buf : List UInt8) (hdrEnd : Nat) : List UInt8 :=
  let head := buf.take hdrEnd
  let rewritten := (rpHttpForceClose (rpHttpBuf + 32) head).getD []
  (if rewritten ≠ [] then rewritten else head) ++ buf.drop hdrEnd

def rpHttpSent (pton : InetPton) (first : List UInt8) (src : Source UInt8) :
    Option (List UInt8 × List UInt8) :=
  match src.readUntil headerRead rpHsInputMax (rpHttpBuf - 1) first with
  | some (.complete last, buf, _) =>
    match rpHttpTarget pton buf (last + 1) with
    | some (false, _) => some (buf, rpHttpForward buf (last + 1))
    | _ => none
  | _ => none

def headLinesLoop : Nat → List UInt8 → List (List UInt8) × Option (List UInt8)
  | 0, _ => ([], none)
  | fuel + 1, d =>
    if d = [] then ([], none)
    else if rpLine d = [] then ([], some (rpLineNext d))
    else
      let (lines, rest) := headLinesLoop fuel (rpLineNext d)
      (rpLine d :: lines, rest)

def headLines (d : List UInt8) : List (List UInt8) × Option (List UInt8) :=
  headLinesLoop d.length d

def startsBlank (line : List UInt8) : Bool := line.head?.any rpOws

def withoutConnection : Bool → List (List UInt8) → List (List UInt8)
  | _, [] => []
  | dropping, line :: rest =>
    if startsBlank line then
      if dropping then withoutConnection dropping rest
      else line :: withoutConnection dropping rest
    else if isConnection line then withoutConnection true rest
    else line :: withoutConnection false rest

def isUpgrade (line : List UInt8) : Bool :=
  (rpHdrNameEq line (ascii "upgrade")).any (rpValued line)

def closedHead (lines : List (List UInt8)) : List UInt8 :=
  lines.flatMap (· ++ crlf) ++ (closeField ++ crlf)

/-- The head is not to be rewritten: a protocol switch, or too long. -/
def Stays (upgrade : Bool) (lines : List (List UInt8)) : Prop :=
  upgrade = true ∨ rpHttpBuf + 32 < (closedHead lines).length

instance (upgrade : Bool) (lines : List (List UInt8)) : Decidable (Stays upgrade lines) :=
  instDecidableOr

/-- The request line and the fields that are not Connection fields. -/
def meantLines (lines : List (List UInt8)) : List (List UInt8) :=
  lines.take 1 ++ withoutConnection false (lines.drop 1)

/-- What is to be sent for the bytes received. -/
def forwarded (received : List UInt8) : List UInt8 :=
  match headLines received with
  | (lines, some rest) =>
    if Stays ((lines.drop 1).any isUpgrade) (meantLines lines) then received
    else closedHead (meantLines lines) ++ rest
  | (_, none) => received

def connectionIsolated : List (List UInt8) → Bool
  | line :: next :: rest =>
    (!isConnection line || !startsBlank next) && connectionIsolated (next :: rest)
  | _ => true

/-- The last line that is named Upgrade has a value. -/
def lastUpgrade (lines : List (List UInt8)) : Bool :=
  (lines.filter fun line => (rpHdrNameEq line (ascii "upgrade")).isSome).getLast?.any isUpgrade

/-- The lines that are not named Connection. -/
def namedLines (lines : List (List UInt8)) : List (List UInt8) := lines.filter (!isConnection ·)

/-- The heads that come out right, with the lines up to their first empty one and the `rest` behind
it. -/
inductive RightHead (head rest : List UInt8) (lines : List (List UInt8)) : Prop where
  | kept (stays : Stays (lastUpgrade lines) (namedLines lines))
      (meant : Stays ((lines.drop 1).any isUpgrade) (meantLines lines))
  | rewritten (stays : ¬ Stays (lastUpgrade lines) (namedLines lines))
      (meant : ¬ Stays ((lines.drop 1).any isUpgrade) (meantLines lines))
      (request : ∀ line ∈ lines.head?, isConnection line = false)
      (isolated : connectionIsolated (lines.drop 1) = true) (last : rest = [])
  -- the two disagree, over a head that the rewriting leaves as it is
  | unchanged (stays : ¬ Stays (lastUpgrade lines) (namedLines lines))
      (meant : Stays ((lines.drop 1).any isUpgrade) (meantLines lines))
      (same : closedHead (namedLines lines) = head)
  | closed (stays : Stays (lastUpgrade lines) (namedLines lines))
      (meant : ¬ Stays ((lines.drop 1).any isUpgrade) (meantLines lines))
      (same : closedHead (meantLines lines) ++ rest = head)

section

def forceCloseOut (lines : List (List UInt8)) (rest : Option (List UInt8)) : List UInt8 :=
  (lines.filter (!isConnection ·)).flatMap (· ++ crlf) ++
    if rest.isSome then closeField ++ crlf else []

theorem forceCloseScan_eq (fuel : Nat) (d : List UInt8) (upgrade : Bool) (need : Nat) :
    forceCloseScan fuel d upgrade need =
      ((headLinesLoop fuel d).1.foldl upgradeAfter upgrade,
        need + (forceCloseOut (headLinesLoop fuel d).1 (headLinesLoop fuel d).2).length) := by
  induction fuel generalizing d upgrade need with
  | zero => rfl
  | succ fuel ih =>
    unfold forceCloseScan headLinesLoop
    split
    · rfl
    · dsimp only
      split
      · rfl
      · rw [ih, List.foldl_cons]
        refine Prod.ext rfl ?_
        dsimp only
        unfold forceCloseOut
        cases conn : isConnection (rpLine d) with
        | true => simp [conn]
        | false =>
          simp only [conn, Bool.not_false, List.filter_cons_of_pos, List.flatMap_cons,
            List.length_append, Bool.false_eq_true, ↓reduceIte]
          have two : crlf.length = 2 := rfl
          omega

theorem rpHttpW_fits {outcap : Nat} {out bytes : List UInt8}
    (fits : (out ++ bytes).length ≤ outcap) : rpHttpW outcap out bytes = some (out ++ bytes) := by
  rw [List.length_append] at fits
  exact if_neg (Nat.not_lt.mpr fits)

theorem forceCloseWrite_eq (outcap fuel : Nat) (d out : List UInt8)
    (fits : (out ++ forceCloseOut (headLinesLoop fuel d).1 (headLinesLoop fuel d).2).length ≤
      outcap) :
    forceCloseWrite outcap fuel d out =
      some (out ++ forceCloseOut (headLinesLoop fuel d).1 (headLinesLoop fuel d).2) := by
  induction fuel generalizing d out with
  | zero => rw [forceCloseWrite]; simp [headLinesLoop, forceCloseOut]
  | succ fuel ih =>
    unfold headLinesLoop at fits ⊢
    unfold forceCloseWrite
    by_cases empty : d = []
    · rw [if_pos empty] at fits ⊢
      simp [empty, forceCloseOut]
    · rw [if_neg empty] at fits ⊢
      rw [if_neg empty]
      dsimp only
      by_cases blank : rpLine d = []
      · rw [if_pos blank] at fits ⊢
        rw [if_pos blank]
        change (out ++ (closeField ++ crlf)).length ≤ outcap at fits
        change _ = some (out ++ (closeField ++ crlf))
        rw [← List.append_assoc] at fits ⊢
        have first : (out ++ closeField).length ≤ outcap := by
          rw [List.length_append] at fits
          omega
        rw [rpHttpW_fits first, Option.bind_some, rpHttpW_fits fits]
      · rw [if_neg blank] at fits ⊢
        rw [if_neg blank]
        dsimp only at fits ⊢
        cases conn : isConnection (rpLine d) with
        | true =>
          have same : forceCloseOut (rpLine d :: (headLinesLoop fuel (rpLineNext d)).1)
              (headLinesLoop fuel (rpLineNext d)).2 =
              forceCloseOut (headLinesLoop fuel (rpLineNext d)).1
                (headLinesLoop fuel (rpLineNext d)).2 := by
            simp [forceCloseOut, conn]
          rw [same] at fits ⊢
          rw [if_pos rfl]
          exact ih (rpLineNext d) out fits
        | false =>
          have more : forceCloseOut (rpLine d :: (headLinesLoop fuel (rpLineNext d)).1)
              (headLinesLoop fuel (rpLineNext d)).2 =
              rpLine d ++ (crlf ++ forceCloseOut (headLinesLoop fuel (rpLineNext d)).1
                (headLinesLoop fuel (rpLineNext d)).2) := by
            simp [forceCloseOut, conn]
          rw [more, ← List.append_assoc, ← List.append_assoc] at fits ⊢
          have second : (out ++ rpLine d ++ crlf).length ≤ outcap := by
            rw [List.length_append] at fits
            omega
          have first : (out ++ rpLine d).length ≤ outcap := by
            rw [List.length_append] at second
            omega
          rw [if_neg Bool.false_ne_true, rpHttpW_fits first, Option.bind_some,
            rpHttpW_fits second, Option.bind_some]
          exact ih (rpLineNext d) _ fits

theorem forceClose_size (head : List UInt8) {outcap : Nat}
    (fits : (forceCloseScan head.length head false 0).2 ≤ outcap) :
    ∃ out, forceCloseWrite outcap head.length head [] = some out ∧
      out.length = (forceCloseScan head.length head false 0).2 := by
  rw [forceCloseScan_eq, Nat.zero_add] at fits ⊢
  exact ⟨_, forceCloseWrite_eq outcap head.length head [] fits, by rw [List.nil_append]⟩

end

section

variable {d more : List UInt8}

variable {lines : List (List UInt8)}

theorem headLinesLoop_fuel {fuel fuel' : Nat} {rest : List UInt8}
    (enough : fuel ≤ fuel') (read : headLinesLoop fuel d = (lines, some rest)) :
    headLinesLoop fuel' d = (lines, some rest) := by
  induction fuel generalizing fuel' d lines with
  | zero => cases read
  | succ fuel ih =>
    obtain ⟨fuel', rfl⟩ : ∃ k, fuel' = k + 1 := ⟨fuel' - 1, by omega⟩
    unfold headLinesLoop at read ⊢
    split at read
    · cases read
    · rename_i ne
      rw [if_neg ne]
      split at read
      · rename_i blank
        rw [if_pos blank]
        exact read
      · rename_i line
        rw [if_neg line]
        obtain ⟨front, behind⟩ := Prod.mk.inj read
        have tail : headLinesLoop fuel (rpLineNext d) =
            ((headLinesLoop fuel (rpLineNext d)).1, some rest) := Prod.ext rfl behind
        rw [ih (by omega) tail]
        exact Prod.ext front rfl

theorem rpLineNext_suffix (d : List UInt8) : rpLineNext d <:+ d := by
  have skip (c : UInt8) (d : List UInt8) : skipByte c d <:+ d := by
    unfold skipByte
    split
    · exact List.drop_suffix 1 d
    · exact List.suffix_rfl
  exact ((skip 0x0A _).trans (skip 0x0D _)).trans (List.dropWhile_suffix _)

theorem rpLine_append (ends : d.getLast? = some 0x0A) :
    rpLine (d ++ more) = rpLine d ∧ rpLineNext (d ++ more) = rpLineNext d ++ more := by
  have last : (0x0A : UInt8) ∈ d := List.mem_of_getLast? ends
  have ne : d.dropWhile (!isLineEnd ·) ≠ [] := by
    intro all
    have passed := List.dropWhile_eq_nil_iff.mp all 0x0A last
    cases passed
  have short : (d.takeWhile (!isLineEnd ·)).length ≠ d.length := by
    intro full
    have all := (List.takeWhile_prefix (!isLineEnd ·)).eq_of_length full
    rw [← all] at last
    cases List.mem_takeWhile_imp last
  refine ⟨?_, ?_⟩
  · unfold rpLine
    rw [List.takeWhile_append, if_neg short]
  · have ends' := Span.getLast?_suffix ends (List.dropWhile_suffix (!isLineEnd ·)) ne
    have head := List.head_dropWhile_not (!isLineEnd ·) ne
    unfold rpLineNext
    rw [List.dropWhile_append, if_neg fun empty => ne (List.isEmpty_iff.mp empty)]
    revert ne ends' head
    cases d.dropWhile (!isLineEnd ·) with
    | nil => exact fun ne => absurd rfl ne
    | cons c rest =>
      intro _ ends' head
      have kind : c = 0x0D ∨ c = 0x0A := by
        have passed : isLineEnd c = true := by simpa using head
        exact of_decide_eq_true passed
      rcases kind with rfl | rfl
      · cases rest with
        | nil => cases ends'
        | cons next rest =>
          by_cases feed : next = 0x0A
          · subst feed
            rfl
          · have stays (tail : List UInt8) : skipByte 0x0A (next :: tail) = next :: tail :=
              if_neg fun same => feed (Option.some.inj same)
            change skipByte 0x0A (next :: (rest ++ more)) = skipByte 0x0A (next :: rest) ++ more
            rw [stays, stays]
            rfl
      · rfl

theorem headLinesLoop_append {fuel : Nat} {rest : List UInt8}
    (ends : d.getLast? = some 0x0A) (read : headLinesLoop fuel d = (lines, some rest)) :
    headLinesLoop fuel (d ++ more) = (lines, some (rest ++ more)) := by
  induction fuel generalizing d lines with
  | zero => cases read
  | succ fuel ih =>
    have parts : rpLine (d ++ more) = rpLine d ∧ rpLineNext (d ++ more) = rpLineNext d ++ more :=
      rpLine_append ends
    obtain ⟨line, next⟩ := parts
    unfold headLinesLoop at read ⊢
    split at read
    · cases read
    · rename_i ne
      have ne' : d ++ more ≠ [] := fun empty => ne (List.append_eq_nil_iff.mp empty).1
      rw [if_neg ne', line, next]
      split at read
      · rename_i blank
        rw [if_pos blank]
        obtain ⟨front, behind⟩ := Prod.mk.inj read
        rw [Option.some.inj behind, front]
      · rename_i full
        rw [if_neg full]
        obtain ⟨front, behind⟩ := Prod.mk.inj read
        have tail : headLinesLoop fuel (rpLineNext d) =
            ((headLinesLoop fuel (rpLineNext d)).1, some rest) := Prod.ext rfl behind
        have ne'' : rpLineNext d ≠ [] := by
          intro empty
          rw [empty] at tail
          cases fuel <;> cases tail
        rw [ih (Span.getLast?_suffix ends (rpLineNext_suffix d) ne'') tail]
        exact Prod.ext front rfl

theorem headLines_append {rest : List UInt8} (ends : d.getLast? = some 0x0A)
    (read : headLines d = (lines, some rest)) :
    headLines (d ++ more) = (lines, some (rest ++ more)) := by
  have read' : headLinesLoop d.length (d ++ more) = (lines, some (rest ++ more)) :=
    headLinesLoop_append ends read
  exact headLinesLoop_fuel (by rw [List.length_append]; omega) read'

theorem rpLine_of_all {line : List UInt8} (plain : ∀ c ∈ line, isLineEnd c = false) {c : UInt8}
    (ends : isLineEnd c = true) (tail : List UInt8) :
    rpLine (line ++ c :: tail) = line ∧
      rpLineNext (line ++ c :: tail) = skipByte 0x0A (skipByte 0x0D (c :: tail)) := by
  have stop : (!isLineEnd c) = false := by rw [ends]; rfl
  have pass : ∀ c ∈ line, (!isLineEnd c) = true := by
    intro c member
    rw [plain c member]
    rfl
  unfold rpLine rpLineNext
  rw [List.takeWhile_append_of_pos pass, List.dropWhile_append_of_pos pass,
    List.takeWhile_cons_of_neg (by rw [stop]; exact Bool.false_ne_true),
    List.dropWhile_cons_of_neg (by rw [stop]; exact Bool.false_ne_true), List.append_nil]
  exact ⟨rfl, rfl⟩

theorem rpLine_split (ends : ∃ c ∈ d, isLineEnd c = true) : ∃ c tail,
    d = rpLine d ++ c :: tail ∧ isLineEnd c = true ∧ ∀ c ∈ rpLine d, isLineEnd c = false := by
  have ne : d.dropWhile (!isLineEnd ·) ≠ [] := by
    intro all
    obtain ⟨c, member, isEnd⟩ := ends
    have passed := List.dropWhile_eq_nil_iff.mp all c member
    rw [isEnd] at passed
    cases passed
  obtain ⟨c, tail, shape⟩ := List.exists_cons_of_ne_nil ne
  refine ⟨c, tail, ?_, ?_, ?_⟩
  · rw [rpLine, ← shape, List.takeWhile_append_dropWhile]
  · have head := List.head_dropWhile_not (!isLineEnd ·) ne
    simp only [shape, List.head_cons] at head
    simpa using head
  · intro c member
    simpa using List.mem_takeWhile_imp member

/-- Behind a line there is the last empty line, or all of the CRLFCRLF. -/
theorem rpLineNext_closed (x : List UInt8) :
    rpLineNext (x ++ ascii "\r\n\r\n") = crlf ∨
      ascii "\r\n\r\n" <:+ rpLineNext (x ++ ascii "\r\n\r\n") := by
  by_cases inner : ∃ c ∈ x, isLineEnd c = true
  · obtain ⟨c, v, shape, isEnd, plain⟩ := rpLine_split inner
    right
    rw [shape, List.append_assoc, List.cons_append, (rpLine_of_all plain isEnd _).2]
    have kind : c = 0x0D ∨ c = 0x0A := of_decide_eq_true isEnd
    rcases kind with rfl | rfl
    · change _ <:+ skipByte 0x0A (v ++ ascii "\r\n\r\n")
      cases v with
      | nil => exact List.suffix_rfl
      | cons e v =>
        unfold skipByte
        split
        · exact List.suffix_append _ _
        · exact List.suffix_append _ _
    · exact List.suffix_append _ _
  · left
    simp only [not_exists, not_and, Bool.not_eq_true] at inner
    exact (rpLine_of_all inner (c := 0x0D) rfl (ascii "\n\r\n")).2

theorem rpLineNext_length (full : rpLine d ≠ []) :
    (rpLineNext d).length < d.length := by
  have whole := congrArg List.length
    (List.takeWhile_append_dropWhile (p := (!isLineEnd ·)) (l := d))
  rw [List.length_append] at whole
  have some : 0 < (rpLine d).length := List.length_pos_of_ne_nil full
  have skip (c : UInt8) (d : List UInt8) : (skipByte c d).length ≤ d.length := by
    unfold skipByte
    split
    · rw [List.length_drop]
      omega
    · exact Nat.le_refl _
  have first := skip 0x0D (d.dropWhile (!isLineEnd ·))
  have second := skip 0x0A (skipByte 0x0D (d.dropWhile (!isLineEnd ·)))
  unfold rpLine at some
  unfold rpLineNext
  omega

/-- A head that ends with CRLFCRLF has an empty line. -/
theorem headLinesLoop_some (fuel : Nat) (d : List UInt8) (enough : d.length ≤ fuel)
    (closed : d = crlf ∨ ascii "\r\n\r\n" <:+ d) :
    ∃ lines rest, headLinesLoop fuel d = (lines, some rest) := by
  induction fuel generalizing d with
  | zero =>
    have empty : d = [] := List.length_eq_zero_iff.mp (Nat.le_zero.mp enough)
    subst empty
    rcases closed with bad | bad
    · cases bad
    · cases List.suffix_nil.mp bad
  | succ fuel ih =>
    have filled : d ≠ [] := by
      rintro rfl
      rcases closed with bad | bad
      · cases bad
      · cases List.suffix_nil.mp bad
    unfold headLinesLoop
    rw [if_neg filled]
    by_cases blank : rpLine d = []
    · rw [if_pos blank]
      exact ⟨_, _, rfl⟩
    · rw [if_neg blank]
      rcases closed with rfl | ⟨x, rfl⟩
      · exact absurd rfl blank
      · have shorter := rpLineNext_length blank
        obtain ⟨lines, rest, read⟩ := ih _ (by omega) (rpLineNext_closed x)
        rw [read]
        exact ⟨_, _, rfl⟩

theorem headLinesLoop_plain {fuel : Nat} {rest : Option (List UInt8)}
    (read : headLinesLoop fuel d = (lines, rest)) :
    ∀ line ∈ lines, line ≠ [] ∧ ∀ c ∈ line, isLineEnd c = false := by
  induction fuel generalizing d lines with
  | zero =>
    cases read
    exact List.forall_mem_nil _
  | succ fuel ih =>
    unfold headLinesLoop at read
    split at read
    · cases read
      exact List.forall_mem_nil _
    · split at read
      · cases read
        exact List.forall_mem_nil _
      · rename_i full
        obtain ⟨front, behind⟩ := Prod.mk.inj read
        rw [← front]
        refine List.forall_mem_cons.mpr ⟨⟨full, fun c member => ?_⟩, ih (Prod.ext rfl behind)⟩
        simpa using List.mem_takeWhile_imp member

/-- Lines that are written one by one are read back. -/
theorem headLinesLoop_written (tail : List UInt8)
    (plain : ∀ line ∈ lines, line ≠ [] ∧ ∀ c ∈ line, isLineEnd c = false) {fuel : Nat}
    (enough : lines.length < fuel) :
    headLinesLoop fuel (lines.flatMap (· ++ crlf) ++ (crlf ++ tail)) = (lines, some tail) := by
  induction lines generalizing fuel with
  | nil =>
    obtain ⟨fuel, rfl⟩ : ∃ k, fuel = k + 1 := ⟨fuel - 1, by omega⟩
    rfl
  | cons line rest ih =>
    obtain ⟨fuel, rfl⟩ : ∃ k, fuel = k + 1 := ⟨fuel - 1, by omega⟩
    obtain ⟨⟨full, clean⟩, others⟩ := List.forall_mem_cons.mp plain
    have shape : (line :: rest).flatMap (· ++ crlf) ++ (crlf ++ tail) =
        line ++ 0x0D :: (0x0A :: (rest.flatMap (· ++ crlf) ++ (crlf ++ tail))) := by
      simp [crlf]
    obtain ⟨here, next⟩ := rpLine_of_all clean (c := 0x0D) rfl
      (0x0A :: (rest.flatMap (· ++ crlf) ++ (crlf ++ tail)))
    have behind : skipByte 0x0A (skipByte 0x0D
        (0x0D :: (0x0A :: (rest.flatMap (· ++ crlf) ++ (crlf ++ tail))))) =
        rest.flatMap (· ++ crlf) ++ (crlf ++ tail) := rfl
    unfold headLinesLoop
    rw [shape, if_neg (by simp), here, if_neg full, next, behind,
      ih others (Nat.lt_of_succ_lt_succ enough)]

/-- Two closed heads are equal only if their lines are. -/
theorem closedHead_inj {lines' : List (List UInt8)} {tail tail' : List UInt8}
    (plain : ∀ line ∈ lines, line ≠ [] ∧ ∀ c ∈ line, isLineEnd c = false)
    (plain' : ∀ line ∈ lines', line ≠ [] ∧ ∀ c ∈ line, isLineEnd c = false)
    (same : closedHead lines ++ tail = closedHead lines' ++ tail') :
    lines = lines' ∧ tail = tail' := by
  have close : ascii "Connection: close" ≠ [] ∧
      ∀ c ∈ ascii "Connection: close", isLineEnd c = false := by decide +kernel
  have read {lines : List (List UInt8)} (tail : List UInt8)
      (plain : ∀ line ∈ lines, line ≠ [] ∧ ∀ c ∈ line, isLineEnd c = false) (fuel : Nat)
      (enough : lines.length + 1 < fuel) :
      headLinesLoop fuel (closedHead lines ++ tail) =
        (lines ++ [ascii "Connection: close"], some tail) := by
    have shape : closedHead lines ++ tail =
        (lines ++ [ascii "Connection: close"]).flatMap (· ++ crlf) ++ (crlf ++ tail) := by
      unfold closedHead
      simp only [List.flatMap_append, List.append_assoc]
      rfl
    rw [shape]
    refine headLinesLoop_written tail (fun line member => ?_) (by simpa using enough)
    rcases List.mem_append.mp member with before | last
    · exact plain line before
    · rw [List.mem_singleton.mp last]
      exact close
  have left := read tail plain (lines.length + lines'.length + 2) (by omega)
  have right := read tail' plain' (lines.length + lines'.length + 2) (by omega)
  rw [same, right] at left
  obtain ⟨front, behind⟩ := Prod.mk.inj left
  exact ⟨(List.append_cancel_right front).symm, (Option.some.inj behind).symm⟩

theorem isConnection_of_blank {line : List UInt8} (blank : startsBlank line = true) :
    isConnection line = false := by
  cases conn : isConnection line with
  | false => rfl
  | true =>
    unfold isConnection rpHdrNameEq at conn
    dsimp only at conn
    split at conn
    · cases conn
    · split at conn
      · rename_i same
        have front := (List.rdropWhile_prefix rpOws _).trans
          (List.take_prefix (line.findIdx (· = 0x3A)) line)
        revert same front
        cases (line.take (line.findIdx (· = 0x3A))).rdropWhile rpOws with
        | nil => exact fun same => nomatch same
        | cons c rest =>
          rintro same ⟨tail, rfl⟩
          have letter : asciiLower c = 0x63 := (List.cons.inj same).1
          have kind : c = 0x20 ∨ c = 0x09 := of_decide_eq_true blank
          rcases kind with rfl | rfl <;> cases letter
      · cases conn

theorem withoutConnection_sublist (fields : List (List UInt8)) (dropping : Bool) :
    (withoutConnection dropping fields).Sublist (namedLines fields) := by
  induction fields generalizing dropping with
  | nil => exact List.Sublist.refl _
  | cons line rest ih =>
    unfold withoutConnection namedLines
    split
    · rename_i blank
      rw [List.filter_cons_of_pos (by rw [isConnection_of_blank blank]; rfl)]
      split
      · exact (ih dropping).cons _
      · exact (ih dropping).cons_cons _
    · split
      · rename_i conn
        rw [List.filter_cons_of_neg (by rw [conn]; decide)]
        exact ih true
      · rename_i conn
        rw [List.filter_cons_of_pos (by rw [Bool.eq_false_iff.mpr conn]; rfl)]
        exact (ih false).cons_cons _

theorem connectionIsolated_cons {line : List UInt8} {rest : List (List UInt8)} :
    connectionIsolated (line :: rest) = true ↔
      (isConnection line = true → ∀ next ∈ rest.head?, startsBlank next = false) ∧
        connectionIsolated rest = true := by
  cases rest with
  | nil => simp [connectionIsolated]
  | cons next rest =>
    rw [connectionIsolated, Bool.and_eq_true, Bool.or_eq_true, Bool.not_eq_true',
      Bool.not_eq_true']
    refine and_congr_left fun _ => ?_
    constructor
    · rintro (other | plain) conn after here
      · rw [conn] at other
        cases other
      · obtain rfl := Option.some.inj here
        exact plain
    · intro plain
      cases conn : isConnection line with
      | false => exact .inl rfl
      | true => exact .inr (plain conn next rfl)

/-- Dropping the lines by their names alone is right just when no continuation line follows. -/
theorem withoutConnection_eq_iff (fields : List (List UInt8)) (dropping : Bool) :
    withoutConnection dropping fields = namedLines fields ↔
      (dropping = true → ∀ line ∈ fields.head?, startsBlank line = false) ∧
        connectionIsolated fields = true := by
  induction fields generalizing dropping with
  | nil =>
    refine iff_of_true rfl ⟨fun _ line none => ?_, rfl⟩
    cases none
  | cons line rest ih =>
    have shorter := (withoutConnection_sublist rest dropping).length_le
    rw [connectionIsolated_cons]
    unfold withoutConnection namedLines
    split
    · rename_i blank
      have plain := isConnection_of_blank blank
      rw [List.filter_cons_of_pos (by rw [plain]; rfl)]
      cases dropping with
      | true =>
        refine iff_of_false (fun same => ?_) fun all => ?_
        · rw [if_pos rfl] at same
          rw [same, List.length_cons] at shorter
          unfold namedLines at shorter
          omega
        · have first := all.1 rfl line rfl
          rw [blank] at first
          cases first
      | false =>
        rw [if_neg Bool.false_ne_true, List.cons.injEq]
        have later := ih false
        unfold namedLines at later
        rw [later, plain]
        simp
    · rename_i solid
      have first : startsBlank line = false := Bool.eq_false_iff.mpr solid
      split
      · rename_i conn
        have later := ih true
        unfold namedLines at later
        rw [List.filter_cons_of_neg (by rw [conn]; decide), later]
        simp [first, conn]
      · rename_i conn
        have later := ih false
        unfold namedLines at later
        rw [List.filter_cons_of_pos (by rw [Bool.eq_false_iff.mpr conn]; rfl), List.cons.injEq,
          later]
        simp [first, conn]

theorem foldl_upgradeAfter (lines : List (List UInt8)) :
    lines.foldl upgradeAfter false = lastUpgrade lines := by
  induction lines using List.reverseRecOn with
  | nil => rfl
  | append_singleton lines line ih =>
    unfold lastUpgrade at ih ⊢
    rw [List.foldl_append, List.foldl_cons, List.foldl_nil, ih, List.filter_append, upgradeAfter]
    cases found : rpHdrNameEq line (ascii "upgrade") with
    | none => simp [found]
    | some colon => simp [found, isUpgrade]

theorem namedLines_eq_meant (lines : List (List UInt8)) :
    namedLines lines = meantLines lines ↔
      (∀ line ∈ lines.head?, isConnection line = false) ∧
        connectionIsolated (lines.drop 1) = true := by
  cases lines with
  | nil => simp [namedLines, meantLines, withoutConnection, connectionIsolated]
  | cons request fields =>
    have fieldsEq := withoutConnection_eq_iff fields false
    change namedLines (request :: fields) = request :: withoutConnection false fields ↔
      _ ∧ connectionIsolated fields = true
    cases conn : isConnection request with
    | true =>
      refine iff_of_false (fun same => ?_) fun all => ?_
      · have member : request ∈ namedLines (request :: fields) := by
          rw [same]
          exact List.mem_cons_self
        have kept := (List.mem_filter.mp member).2
        rw [conn] at kept
        cases kept
      · have other := all.1 request rfl
        rw [conn] at other
        cases other
    | false =>
      have named : namedLines (request :: fields) = request :: namedLines fields :=
        List.filter_cons_of_pos (by rw [conn]; rfl)
      rw [named, List.cons.injEq, eq_comm (a := namedLines fields), fieldsEq]
      simp [conn]

end

section

variable {head rest : List UInt8} {lines : List (List UInt8)}

theorem rpHttpForward_eq (more : List UInt8) (split : headLines head = (lines, some rest)) :
    rpHttpForward (head ++ more) head.length =
      (if Stays (lastUpgrade lines) (namedLines lines) then head
        else closedHead (namedLines lines)) ++ more := by
  have lines' : headLinesLoop head.length head = (lines, some rest) := split
  have out : forceCloseOut lines (some rest) = closedHead (namedLines lines) := rfl
  have scanned : forceCloseScan head.length head false 0 =
      (lastUpgrade lines, (closedHead (namedLines lines)).length) := by
    rw [forceCloseScan_eq, lines', foldl_upgradeAfter, out, Nat.zero_add]
  unfold rpHttpForward rpHttpForceClose
  rw [List.take_left, List.drop_left]
  dsimp only
  rw [scanned]
  dsimp only
  by_cases upgrade : lastUpgrade lines = true
  · have stays : Stays (lastUpgrade lines) (namedLines lines) := .inl upgrade
    rw [if_pos upgrade, if_pos stays]
    rfl
  · rw [if_neg upgrade]
    by_cases long : rpHttpBuf + 32 < (closedHead (namedLines lines)).length
    · have stays : Stays (lastUpgrade lines) (namedLines lines) := .inr long
      rw [if_pos long, if_pos stays]
      rfl
    · have written := forceCloseWrite_eq (rpHttpBuf + 32) head.length head []
        (by rw [lines', out]; exact Nat.not_lt.mp long)
      rw [lines', out, List.nil_append] at written
      have ne : closedHead (namedLines lines) ≠ [] := by
        intro empty
        have bad := (List.append_eq_nil_iff.mp empty).2
        cases bad
      have moves : ¬ Stays (lastUpgrade lines) (namedLines lines) := fun stays =>
        stays.elim upgrade long
      rw [if_neg long, if_neg moves, written, Option.getD_some, if_pos ne]

theorem forwarded_eq (more : List UInt8) (ends : head.getLast? = some 0x0A)
    (split : headLines head = (lines, some rest)) :
    forwarded (head ++ more) =
      (if Stays ((lines.drop 1).any isUpgrade) (meantLines lines) then head
        else closedHead (meantLines lines) ++ rest) ++ more := by
  unfold forwarded
  rw [headLines_append ends split]
  dsimp only
  split
  · rfl
  · rw [List.append_assoc]

theorem rightHead_iff (more : List UInt8) (ends : head.getLast? = some 0x0A)
    (split : headLines head = (lines, some rest)) :
    rpHttpForward (head ++ more) head.length = forwarded (head ++ more) ↔
      RightHead head rest lines := by
  rw [rpHttpForward_eq more split, forwarded_eq more ends split, List.append_left_inj]
  by_cases stays : Stays (lastUpgrade lines) (namedLines lines)
  · by_cases meant : Stays ((lines.drop 1).any isUpgrade) (meantLines lines)
    · rw [if_pos stays, if_pos meant]
      exact iff_of_true rfl (.kept stays meant)
    · rw [if_pos stays, if_neg meant]
      refine ⟨fun same => .closed stays meant same.symm, fun right => ?_⟩
      cases right with
      | closed _ _ same => exact same.symm
      | kept _ meant' => exact absurd meant' meant
      | rewritten stays' => exact absurd stays stays'
      | unchanged stays' => exact absurd stays stays'
  · by_cases meant : Stays ((lines.drop 1).any isUpgrade) (meantLines lines)
    · rw [if_neg stays, if_pos meant]
      refine ⟨fun same => .unchanged stays meant same, fun right => ?_⟩
      cases right with
      | unchanged _ _ same => exact same
      | kept stays' => exact absurd stays' stays
      | rewritten _ meant' => exact absurd meant meant'
      | closed stays' => exact absurd stays' stays
    · rw [if_neg stays, if_neg meant]
      have plain := headLinesLoop_plain split
      have sub : (meantLines lines).Sublist lines := by
        have fields := (withoutConnection_sublist (lines.drop 1) false).trans
          List.filter_sublist
        have whole := (List.Sublist.refl (lines.take 1)).append fields
        rwa [List.take_append_drop] at whole
      constructor
      · intro same
        have same' :
            closedHead (namedLines lines) ++ [] = closedHead (meantLines lines) ++ rest := by
          rw [List.append_nil]
          exact same
        obtain ⟨equal, none⟩ := closedHead_inj
          (fun line member => plain line (List.mem_of_mem_filter member))
          (fun line member => plain line (sub.mem member)) same'
        obtain ⟨request, isolated⟩ := (namedLines_eq_meant lines).mp equal
        exact .rewritten stays meant request isolated none.symm
      · intro right
        cases right with
        | rewritten _ _ request isolated last =>
          rw [(namedLines_eq_meant lines).mpr ⟨request, isolated⟩, last, List.append_nil]
        | kept stays' => exact absurd stays' stays
        | unchanged _ meant' => exact absurd meant' meant
        | closed stays' => exact absurd stays' stays

end

theorem rpHttpTarget_append (pton : InetPton) (buf more : List UInt8) {hdrEnd : Nat}
    (inside : hdrEnd ≤ buf.length) :
    rpHttpTarget pton (buf ++ more) hdrEnd = rpHttpTarget pton buf hdrEnd := by
  have same (stop : UInt8 → Bool) (i : Nat) :
      scan stop (buf ++ more) i hdrEnd = scan stop buf i hdrEnd := by
    unfold scan
    rw [List.take_append_of_le_length inside]
  unfold rpHttpTarget
  rw [same]
  dsimp only
  by_cases none_left : scan isSpace buf 0 hdrEnd = 0 ∨ hdrEnd ≤ scan isSpace buf 0 hdrEnd
  · rw [if_pos none_left, if_pos none_left]
  · rw [if_neg none_left, if_neg none_left]
    have connect : (decide (scan isSpace buf 0 hdrEnd = 7 ∧
        (buf ++ more).take 7 = ascii "CONNECT")) =
        decide (scan isSpace buf 0 hdrEnd = 7 ∧ buf.take 7 = ascii "CONNECT") := by
      by_cases seven : scan isSpace buf 0 hdrEnd = 7
      · rw [List.take_append_of_le_length (by omega)]
      · simp [seven]
    rw [same, same, connect]
    split
    · rfl
    · have low := scan_ge isLineEnd buf
        (scan notSpace buf (scan isSpace buf 0 hdrEnd + 1) hdrEnd) hdrEnd
      by_cases line : scan isLineEnd buf
          (scan notSpace buf (scan isSpace buf 0 hdrEnd + 1) hdrEnd) hdrEnd < hdrEnd
      · rw [if_pos line, field_append buf more (by omega)]
      · rw [if_neg line, if_pos rfl, if_pos rfl]

theorem endsHeader_suffix {d : List UInt8} {i : Nat} (low : 3 ≤ i) (inside : i < d.length)
    (ends : endsHeader d i = true) : ascii "\r\n\r\n" <:+ d.take (i + 1) := by
  obtain ⟨k, rfl⟩ := Nat.exists_eq_add_of_le low
  obtain ⟨first, second, third, fourth⟩ := of_decide_eq_true ends
  rw [show 3 + k - 3 = k by omega] at first
  rw [show 3 + k - 2 = k + 1 by omega] at second
  rw [show 3 + k - 1 = k + 1 + 1 by omega] at third
  rw [show 3 + k = k + 1 + 1 + 1 by omega] at fourth
  have four : (d.drop k).take 4 = ascii "\r\n\r\n" := by
    rw [drop_eq_byteAt_cons d (by omega), drop_eq_byteAt_cons d (by omega),
      drop_eq_byteAt_cons d (by omega), drop_eq_byteAt_cons d (by omega), first, second, third,
      fourth]
    rfl
  refine ⟨d.take k, ?_⟩
  rw [show 3 + k + 1 = k + 4 by omega, List.take_add, four]

/-- The bytes sent upstream for an absolute-URI request are the meant ones just for the right
heads. -/
theorem rpHttpSent_forwards (pton : InetPton) {first : List UInt8} {src : Source UInt8}
    (reading : Reading first src 0) {last : Nat}
    (block : scanHeader (first ++ src.rest) 3 = some last) (short : last < rpHttpBuf - 1)
    {t : PpTarget} (target : rpHttpTarget pton (first ++ src.rest) (last + 1) = some (false, t)) :
    (∃ buf sent lines rest, rpHttpSent pton first src = some (buf, sent) ∧
        buf <+: first ++ src.rest ∧
        headLines ((first ++ src.rest).take (last + 1)) = (lines, some rest) ∧
        (sent = forwarded buf ↔ RightHead ((first ++ src.rest).take (last + 1)) rest lines)) ∧
      ∀ head outcap, (forceCloseScan head.length head false 0).2 ≤ outcap →
        ∃ out, forceCloseWrite outcap head.length head [] = some out ∧
          out.length = (forceCloseScan head.length head false 0).2 := by
  refine ⟨?_, fun head outcap fits => forceClose_size head fits⟩
  have taken := reading.taken
  have read := Source.readUntil_spec rpHsInputMax headerRead_stable
    (fun d (full : rpHttpBuf - 1 ≤ d.length) => headerRead_decides full) first src
    reading.flowing (by unfold rpHttpBuf rpHsInputMax; omega)
  have judged : headerRead (first ++ src.rest) = some (.complete last) := by
    rw [headerRead, scanHeader_take block short]
  rw [judged] at read
  obtain ⟨buf, src', found, complete, behind, _⟩ := read
  have inside := headerRead_complete complete
  obtain ⟨low, _, ends, _⟩ := scanHeader_eq_some.mp block
  rw [← behind.stream] at target ends ⊢
  rw [rpHttpTarget_append pton buf src'.rest inside] at target
  rw [List.take_append_of_le_length inside]
  rw [endsHeader_append src'.rest inside] at ends
  have closes := endsHeader_suffix low inside ends
  obtain ⟨lines, rest, split⟩ := headLinesLoop_some _ _ (Nat.le_refl _) (.inr closes)
  have feed : (buf.take (last + 1)).getLast? = some 0x0A := by
    obtain ⟨front, shape⟩ := closes
    rw [← shape]
    exact List.getLast?_append_of_ne_nil _ (by decide)
  have forward := rightHead_iff (buf.drop (last + 1)) feed split
  rw [List.take_append_drop, List.length_take_of_le inside] at forward
  refine ⟨buf, rpHttpForward buf (last + 1), lines, rest, ?_, List.prefix_append _ _, split,
    forward⟩
  unfold rpHttpSent
  rw [found]
  dsimp only
  rw [target]

def namesOnly : InetPton := ⟨fun _ => none, fun _ => none⟩

def sentUpstream (request : String) : Option (List UInt8) :=
  (rpHttpSent namesOnly (ascii request) ⟨[], 0⟩).map Prod.snd

def foldedUpgrade : List UInt8 :=
  ascii "GET http://h/ HTTP/1.1\r\nUpgrade: websocket\r\nConnection: Upgrade,\r\n x\r\n\r\n"

theorem rpHttpSent_forwards_sample :
    ∃ buf, rpHttpSent namesOnly foldedUpgrade ⟨[], 0⟩ = some (buf, forwarded buf) := by
  have whole : foldedUpgrade ++ (Source.mk [] 0).rest = foldedUpgrade := List.append_nil _
  have block : scanHeader (foldedUpgrade ++ (Source.mk [] 0).rest) 3 = some 71 := by
    decide +kernel
  have target : rpHttpTarget namesOnly (foldedUpgrade ++ (Source.mk [] 0).rest) 72 =
      some (false, { PpTarget.zero with host := ascii "h", port := 80 }) := by decide +kernel
  have lines : headLines ((foldedUpgrade ++ (Source.mk [] 0).rest).take 72) =
      ([ascii "GET http://h/ HTTP/1.1", ascii "Upgrade: websocket", ascii "Connection: Upgrade,",
        ascii " x"], some []) := by decide +kernel
  have reading : Reading foldedUpgrade ⟨[], 0⟩ 0 := ⟨List.forall_mem_nil _, Nat.zero_le _⟩
  obtain ⟨buf, sent, lines', rest, answer, _, split, right⟩ :=
    (rpHttpSent_forwards namesOnly reading block (by decide) target).1
  rw [lines] at split
  cases split
  rw [right.mpr (.kept (by decide +kernel) (by decide +kernel))] at answer
  exact ⟨buf, answer⟩

/-- A blank Upgrade field hides one with a value before it. -/
theorem rpHttpSent_differs :
    (sentUpstream "GET http://h/ HTTP/1.1\r\nUpgrade: a\r\nUpgrade:\r\n\r\n" =
          some (ascii
            "GET http://h/ HTTP/1.1\r\nUpgrade: a\r\nUpgrade:\r\nConnection: close\r\n\r\n") ∧
        forwarded (ascii "GET http://h/ HTTP/1.1\r\nUpgrade: a\r\nUpgrade:\r\n\r\n") =
          ascii "GET http://h/ HTTP/1.1\r\nUpgrade: a\r\nUpgrade:\r\n\r\n") ∧
      (sentUpstream "GET http://h/ HTTP/1.1\r\nConnection: a,\r\n b\r\n\r\n" =
          some (ascii "GET http://h/ HTTP/1.1\r\n b\r\nConnection: close\r\n\r\n") ∧
        forwarded (ascii "GET http://h/ HTTP/1.1\r\nConnection: a,\r\n b\r\n\r\n") =
          ascii "GET http://h/ HTTP/1.1\r\nConnection: close\r\n\r\n") ∧
      (sentUpstream "GET http://h/ HTTP/1.1\n\nA\r\n\r\n" =
          some (ascii "GET http://h/ HTTP/1.1\r\nConnection: close\r\n\r\n") ∧
        forwarded (ascii "GET http://h/ HTTP/1.1\n\nA\r\n\r\n") =
          ascii "GET http://h/ HTTP/1.1\r\nConnection: close\r\n\r\nA\r\n\r\n") ∧
      sentUpstream "connection: http://h/ HTTP/1.1\r\n\r\n" =
        some (ascii "Connection: close\r\n\r\n") := by
  decide +kernel

end Iwan
