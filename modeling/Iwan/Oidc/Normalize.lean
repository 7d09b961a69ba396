import Iwan.Lib.Span
import Iwan.Wire.Cipher

/- The lexical normalization of paths on POSIX (normalize_path, oidc_config.c): the components of a
path on a stack. -/
namespace Iwan

abbrev FileName : Type := List UInt8
abbrev Place : Type := List FileName

/-- What getcwd has to say: which system calls fail, by their number, and the working directory. -/
structure Kernel where
  fails : Nat → Bool
  cwdText : List UInt8

/-- Whether the next system call succeeds; the state counts the calls. -/
def callOk (k : Kernel) : StateM Nat Bool := fun calls => (!k.fails calls, calls + 1)

def pathNamesLoop : List UInt8 → FileName → List FileName
  | [], name => if name = [] then [] else [name]
  | c :: rest, name =>
    if c = 0x2F then
      if name = [] then pathNamesLoop rest [] else name :: pathNamesLoop rest []
    else pathNamesLoop rest (name ++ [c])

def pathNames (path : List UInt8) : List FileName := pathNamesLoop path []

def dotName (n : FileName) : Bool := n = ascii "." || n = ascii ".."

/-- The answer of normalize_path. -/
structure NormPath where
  path : List UInt8
  isRoot : Bool
  unresolved : Bool

/-- The component before a `..` leaves the text, down to the root. -/
def popComponent (rootEnd : Nat) (out : List UInt8) : List UInt8 :=
  out.take rootEnd ++ ((out.drop rootEnd).rdropWhile (· ≠ 0x2F)).dropLast

def normalizeLoop (rootEnd : Nat) (rooted : Bool) :
    List FileName → List UInt8 → Bool → List UInt8 × Bool
  | [], out, unresolved => (out, unresolved)
  | c :: names, out, unresolved =>
    if c = ascii "." then normalizeLoop rootEnd rooted names out unresolved
    else if c = ascii ".." then
      if rootEnd < out.length then
        normalizeLoop rootEnd rooted names (popComponent rootEnd out) unresolved
      else normalizeLoop rootEnd rooted names out (unresolved || !rooted)
    else
      let out := if out ≠ [] ∧ out.getLast? ≠ some 0x2F then out ++ [0x2F] else out
      normalizeLoop rootEnd rooted names (out ++ c) unresolved

def normalizeText (path : List UInt8) (unresolved : Bool) : NormPath :=
  let rooted : Bool := path.head? = some 0x2F
  let rootEnd := if rooted then 1 else 0
  let (out, unresolved) :=
    normalizeLoop rootEnd rooted (pathNames path) (if rooted then [0x2F] else []) unresolved
  { path := if out = [] then ascii "." else out
    isRoot := (rooted && out.length == rootEnd) || unresolved
    unresolved }

/-- A relative path is joined to the working directory; where that cannot be found the answer is
marked unresolved. -/
def normalizePath (k : Kernel) (path : List UInt8) : StateM Nat NormPath :=
  if path ≠ [] ∧ path.head? ≠ some 0x2F then do
    let found ← callOk k
    pure (if found then normalizeText (k.cwdText ++ 0x2F :: path) false
      else normalizeText path true)
  else pure (normalizeText path false)

def render (p : Place) : List UInt8 := p.flatMap (0x2F :: ·)

def CleanName (n : FileName) : Prop := n ≠ [] ∧ 0x2F ∉ n

def CleanPlace (p : Place) : Prop := ∀ n ∈ p, CleanName n ∧ dotName n = false

def lexicalStep (p : Place) (n : FileName) : Place :=
  if n = ascii "." then p else if n = ascii ".." then p.dropLast else p ++ [n]

def lexical (path : List UInt8) : Place := (pathNames path).foldl lexicalStep []

theorem render_append (p q : Place) : render (p ++ q) = render p ++ render q :=
  List.flatMap_append

theorem render_snoc (p : Place) (n : FileName) : render (p ++ [n]) = render p ++ 0x2F :: n := by
  rw [render_append]
  simp [render]

theorem render_cons (n : FileName) (p : Place) : render (n :: p) = 0x2F :: (n ++ render p) := by
  simp [render]

section

theorem pathNamesLoop_clean (path : List UInt8) {name : FileName} (slashless : 0x2F ∉ name) :
    ∀ n ∈ pathNamesLoop path name, CleanName n := by
  induction path generalizing name with
  | nil =>
    intro n member
    unfold pathNamesLoop at member
    split_ifs at member with empty
    · cases member
    · cases List.mem_singleton.mp member
      exact ⟨empty, slashless⟩
  | cons c path ih =>
    intro n member
    unfold pathNamesLoop at member
    split_ifs at member with slash empty
    · exact ih List.not_mem_nil n member
    · rcases List.mem_cons.mp member with rfl | later
      · exact ⟨empty, slashless⟩
      · exact ih List.not_mem_nil n later
    · refine ih ?_ n member
      intro inside
      rcases List.mem_append.mp inside with old | new
      · exact slashless old
      · exact slash (List.mem_singleton.mp new).symm

theorem pathNames_clean (path : List UInt8) : ∀ n ∈ pathNames path, CleanName n :=
  pathNamesLoop_clean path List.not_mem_nil

theorem pathNamesLoop_append {n : FileName} (path name : List UInt8) (slashless : 0x2F ∉ n) :
    pathNamesLoop (n ++ path) name = pathNamesLoop path (name ++ n) := by
  induction n generalizing name with
  | nil => rw [List.nil_append, List.append_nil]
  | cons c n ih =>
    have first : c ≠ 0x2F := fun same => slashless (by rw [same]; exact List.mem_cons_self)
    rw [List.cons_append, pathNamesLoop, if_neg first,
      ih (name ++ [c]) fun inside => slashless (List.mem_cons_of_mem _ inside),
      List.append_assoc]
    rfl

theorem pathNamesLoop_render {p : Place} {name : FileName} (clean : ∀ n ∈ p, CleanName n)
    (filled : name ≠ []) : pathNamesLoop (render p) name = name :: p := by
  induction p generalizing name with
  | nil => simp [render, pathNamesLoop, filled]
  | cons n p ih =>
    obtain ⟨ne, slashless⟩ := clean n List.mem_cons_self
    rw [render_cons, pathNamesLoop, if_pos rfl, if_neg filled,
      pathNamesLoop_append _ _ slashless, List.nil_append,
      ih (fun m member => clean m (List.mem_cons_of_mem _ member)) ne]

theorem pathNames_render {p : Place} (clean : ∀ n ∈ p, CleanName n) :
    pathNames (render p) = p := by
  cases p with
  | nil => rfl
  | cons n p =>
    obtain ⟨ne, slashless⟩ := clean n List.mem_cons_self
    rw [pathNames, render_cons, pathNamesLoop, if_pos rfl, if_pos rfl,
      pathNamesLoop_append _ _ slashless, List.nil_append,
      pathNamesLoop_render (fun m member => clean m (List.mem_cons_of_mem _ member)) ne]

end

section

def rootText (p : Place) : List UInt8 := if p = [] then [0x2F] else render p

variable {p : Place}

theorem rootText_of_ne (ne : p ≠ []) : rootText p = render p := if_neg ne

theorem render_ne_nil (ne : p ≠ []) : ∃ rest, render p = 0x2F :: rest := by
  cases p with
  | nil => exact absurd rfl ne
  | cons n p => exact ⟨_, render_cons n p⟩

variable {n : FileName}

theorem rdropWhile_name {q : UInt8 → Bool} (front : List UInt8)
    (stop : q 0x2F = false) (plain : ∀ c ∈ n, q c = true) :
    (front ++ 0x2F :: n).rdropWhile q = front ++ [0x2F] := by
  have all : ∀ c ∈ n.reverse, q c = true := fun c member => plain c (List.mem_reverse.mp member)
  rw [List.rdropWhile, List.reverse_append, List.reverse_cons, List.append_assoc,
    List.dropWhile_append_of_pos all, List.singleton_append,
    List.dropWhile_cons_of_neg (by rw [stop]; exact Bool.false_ne_true)]
  simp

theorem CleanName.plain (clean : CleanName n) : ∀ c ∈ n, decide (c ≠ 0x2F) = true := by
  intro c member
  simp only [decide_eq_true_eq]
  rintro rfl
  exact clean.2 member

theorem popComponent_rootText (clean : CleanName n) :
    popComponent 1 (rootText (p ++ [n])) = rootText p := by
  rw [rootText_of_ne (by simp), render_snoc, popComponent]
  by_cases empty : p = []
  · subst empty
    have whole : n.rdropWhile (· ≠ 0x2F) = [] := List.rdropWhile_eq_nil_iff.mpr clean.plain
    change [0x2F] ++ (n.rdropWhile (· ≠ 0x2F)).dropLast = _
    rw [whole]
    rfl
  · obtain ⟨rest, shape⟩ := render_ne_nil empty
    rw [rootText_of_ne empty, shape]
    change [0x2F] ++ ((rest ++ 0x2F :: n).rdropWhile (· ≠ 0x2F)).dropLast = _
    rw [rdropWhile_name rest rfl clean.plain, List.dropLast_concat]
    rfl

theorem render_getLast (q : Place) {m : FileName} (clean : CleanName m) :
    (render (q ++ [m])).getLast? ≠ some 0x2F := by
  intro ends
  rw [render_snoc, List.getLast?_append_of_ne_nil _ (List.cons_ne_nil _ _),
    List.getLast?_cons_of_ne_nil clean.1] at ends
  exact clean.2 (List.mem_of_getLast? ends)

theorem rootText_push (clean : ∀ m ∈ p, CleanName m) :
    (if rootText p ≠ [] ∧ (rootText p).getLast? ≠ some 0x2F then rootText p ++ [0x2F]
      else rootText p) ++ n = rootText (p ++ [n]) := by
  rw [rootText_of_ne (p := p ++ [n]) (by simp), render_snoc]
  rcases List.eq_nil_or_concat p with rfl | ⟨q, m, rfl⟩
  · rfl
  · have last := render_getLast q (clean m (by simp))
    rw [List.concat_eq_append, rootText_of_ne (by simp), if_pos ⟨by simp [render], last⟩,
      List.append_assoc]
    rfl

theorem normalizeLoop_rooted (names : List FileName)
    (clean : ∀ n ∈ p, CleanName n) (namesClean : ∀ n ∈ names, CleanName n) :
    normalizeLoop 1 true names (rootText p) false =
      (rootText (names.foldl lexicalStep p), false) := by
  induction names generalizing p with
  | nil => rfl
  | cons n names ih =>
    have later := fun m member => namesClean m (List.mem_cons_of_mem n member)
    unfold normalizeLoop
    rw [List.foldl_cons]
    by_cases dot : n = ascii "."
    · rw [if_pos dot, lexicalStep, if_pos dot]
      exact ih clean later
    rw [if_neg dot]
    by_cases dots : n = ascii ".."
    · rw [if_pos dots, lexicalStep, if_neg dot, if_pos dots]
      rcases List.eq_nil_or_concat p with rfl | ⟨q, m, rfl⟩
      · rw [if_neg (by decide)]
        exact ih (List.forall_mem_nil _) later
      · rw [List.concat_eq_append] at clean ⊢
        have cleanM := clean m (by simp)
        have long : 1 < (rootText (q ++ [m])).length := by
          rw [rootText_of_ne (by simp), render_snoc, List.length_append, List.length_cons]
          have := List.length_pos_iff.mpr cleanM.1
          omega
        rw [if_pos long, popComponent_rootText cleanM, List.dropLast_concat]
        exact ih (fun a member => clean a (List.mem_append_left _ member)) later
    · rw [if_neg dots, lexicalStep, if_neg dot, if_neg dots]
      dsimp only
      rw [rootText_push clean]
      refine ih (fun a member => ?_) later
      rcases List.mem_append.mp member with old | new
      · exact clean a old
      · rw [List.mem_singleton.mp new]
        exact namesClean n List.mem_cons_self

theorem lexical_clean (path : List UInt8) : CleanPlace (lexical path) := by
  have step : ∀ (names : List FileName) (p : Place), CleanPlace p →
      (∀ n ∈ names, CleanName n) → CleanPlace (names.foldl lexicalStep p) := by
    intro names
    induction names with
    | nil => exact fun p clean _ => clean
    | cons n names ih =>
      intro p clean namesClean
      rw [List.foldl_cons]
      refine ih _ ?_ fun m member => namesClean m (List.mem_cons_of_mem _ member)
      unfold lexicalStep
      split_ifs with dot dots
      · exact clean
      · exact fun m member => clean m (List.mem_of_mem_dropLast member)
      · intro m member
        rcases List.mem_append.mp member with old | new
        · exact clean m old
        · rw [List.mem_singleton.mp new]
          exact ⟨namesClean n List.mem_cons_self, by simp [dotName, dot, dots]⟩
  exact step _ [] (List.forall_mem_nil _) (pathNames_clean path)

theorem normalizeText_rooted {path : List UInt8} (rooted : path.head? = some 0x2F) :
    normalizeText path false =
      { path := rootText (lexical path), isRoot := decide (lexical path = []),
        unresolved := false } := by
  have loop : normalizeLoop 1 true (pathNames path) [0x2F] false =
      (rootText (lexical path), false) :=
    normalizeLoop_rooted (pathNames path) (List.forall_mem_nil _) (pathNames_clean path)
  have filled : rootText (lexical path) ≠ [] := by
    unfold rootText
    split_ifs with empty
    · exact List.cons_ne_nil _ _
    · obtain ⟨rest, shape⟩ := render_ne_nil empty
      rw [shape]
      exact List.cons_ne_nil _ _
  have size : ((rootText (lexical path)).length == 1) = decide (lexical path = []) := by
    rcases List.eq_nil_or_concat (lexical path) with empty | ⟨q, n, shape⟩
    · rw [empty]
      rfl
    · have clean := (lexical_clean path n (by rw [shape]; simp)).1.1
      rw [shape, List.concat_eq_append, rootText_of_ne (by simp), render_snoc,
        List.length_append, List.length_cons]
      have := List.length_pos_iff.mpr clean
      simp
      omega
  unfold normalizeText
  simp only [rooted, decide_true, if_true, loop, if_neg filled, size, Bool.true_and,
    Bool.or_false]

end

def stackStep (p : Place) (c : FileName) : Place :=
  if c = [] ∨ c = ascii "." then p else if c = ascii ".." then p.dropLast else p ++ [c]

def componentStack (path : List UInt8) : Place := (path.splitOn 0x2F).foldl stackStep []

theorem pathNamesLoop_eq_filter (path name : List UInt8) :
    pathNamesLoop path name = ((path.splitOn 0x2F).modifyHead (name ++ ·)).filter (· ≠ []) := by
  induction path generalizing name with
  | nil =>
    by_cases empty : name = [] <;> simp [pathNamesLoop, empty]
  | cons c path ih =>
    unfold List.splitOn at ih ⊢
    rw [pathNamesLoop, List.splitOnP_cons_eq_if_modifyHead]
    by_cases slash : c = 0x2F
    · have later := ih []
      rw [Span.modifyHead_nil_append] at later
      by_cases empty : name = [] <;> simp [slash, empty, later]
    · simp [slash, ih, Function.comp_def]

theorem lexical_eq_stack (path : List UInt8) : lexical path = componentStack path := by
  have names : pathNames path = (path.splitOn 0x2F).filter (· ≠ []) := by
    rw [pathNames, pathNamesLoop_eq_filter, Span.modifyHead_nil_append]
  have steps : ∀ (l : List FileName) (p : Place),
      (l.filter (· ≠ [])).foldl lexicalStep p = l.foldl stackStep p := by
    intro l
    induction l with
    | nil => exact fun p => rfl
    | cons c l ih =>
      intro p
      by_cases empty : c = [] <;> simp [empty, stackStep, lexicalStep, ← ih]
  rw [lexical, componentStack, names, steps]

theorem rootText_eq_joined (p : Place) : rootText p = 0x2F :: [0x2F].intercalate p := by
  cases p with
  | nil => rfl
  | cons n p =>
    rw [rootText_of_ne (List.cons_ne_nil n p)]
    induction p generalizing n with
    | nil => simp [render]
    | cons m p ih => rw [render_cons, ih]; simp [List.intercalate]

theorem lexical_rootText {p : Place} (clean : CleanPlace p) : lexical (rootText p) = p := by
  have plain : ∀ (names q : Place), CleanPlace names → names.foldl lexicalStep q = q ++ names := by
    intro names
    induction names with
    | nil => exact fun q _ => (List.append_nil q).symm
    | cons n names ih =>
      intro q clean
      have name := (clean n List.mem_cons_self).2
      simp only [dotName, Bool.or_eq_false_iff, decide_eq_false_iff_not] at name
      rw [List.foldl_cons, lexicalStep, if_neg name.1, if_neg name.2,
        ih _ fun m member => clean m (List.mem_cons_of_mem n member), List.append_assoc]
      rfl
  have names : pathNames (rootText p) = p := by
    by_cases empty : p = []
    · subst empty
      rfl
    · rw [rootText_of_ne empty, pathNames_render fun n member => (clean n member).1]
  rw [lexical, names, plain p [] clean, List.nil_append]

def rootedPath (k : Kernel) (path : List UInt8) : List UInt8 :=
  if path.head? = some 0x2F then path else k.cwdText ++ 0x2F :: path

def stackPath (path : List UInt8) : NormPath where
  path := 0x2F :: [0x2F].intercalate (componentStack path)
  isRoot := decide (componentStack path = [])
  unresolved := false

theorem normalizeText_stack {path : List UInt8} (rooted : path.head? = some 0x2F) :
    normalizeText path false = stackPath path := by
  rw [normalizeText_rooted rooted, rootText_eq_joined, lexical_eq_stack]
  rfl

theorem stackPath_stackPath (path : List UInt8) :
    stackPath (stackPath path).path = stackPath path := by
  have again : componentStack (stackPath path).path = componentStack path := by
    rw [← lexical_eq_stack, ← lexical_eq_stack, stackPath, ← rootText_eq_joined,
      ← lexical_eq_stack]
    exact lexical_rootText (lexical_clean path)
  calc stackPath (stackPath path).path
      = ⟨0x2F :: [0x2F].intercalate (componentStack (stackPath path).path),
          decide (componentStack (stackPath path).path = []), false⟩ := rfl
    _ = stackPath path := by rw [again]; rfl

/-- Wherever getcwd answers, normalize_path gives the stack of the components, and a second time
changes nothing. -/
theorem normalizePath_stack (k : Kernel) {path : List UInt8} (calls calls' : Nat) (ne : path ≠ [])
    (absolute : k.cwdText.head? = some 0x2F)
    (getcwd : path.head? = some 0x2F ∨ k.fails calls = false) :
    (normalizePath k path calls).1 = stackPath (rootedPath k path) ∧
    (normalizePath k (stackPath (rootedPath k path)).path calls').1 =
      stackPath (rootedPath k path) := by
  constructor
  · unfold normalizePath rootedPath
    by_cases rooted : path.head? = some 0x2F
    · rw [if_neg fun both => both.2 rooted, if_pos rooted, normalizeText_stack rooted]
      rfl
    · have working := getcwd.resolve_left rooted
      have head : (k.cwdText ++ 0x2F :: path).head? = some 0x2F := by
        cases text : k.cwdText with
        | nil => rw [text] at absolute; cases absolute
        | cons c rest => rw [text] at absolute; exact absolute
      rw [if_pos ⟨ne, rooted⟩, if_neg rooted, ← normalizeText_stack head]
      have answer : callOk k calls = (true, calls + 1) := by
        simp [callOk, working]
      simp [bind, StateT.bind, answer, pure, StateT.pure]
  · have rooted : (stackPath (rootedPath k path)).path.head? = some 0x2F := rfl
    unfold normalizePath
    rw [if_neg fun both => both.2 rooted, normalizeText_stack rooted, stackPath_stackPath]
    rfl

/-- A working directory whose name is longer than getcwd's buffer. -/
def deepKernel : Kernel where
  fails _ := true
  cwdText := (List.replicate 20 (0x2F :: List.replicate 250 0x64)).flatten

def homeKernel : Kernel := ⟨fun _ => false, ascii "/home/a"⟩

theorem normalizePath_stack_sample :
    ascii "../b//./c/.." ≠ [] ∧ homeKernel.cwdText.head? = some 0x2F ∧
    (normalizePath homeKernel (ascii "../b//./c/..") 0).1 =
      stackPath (rootedPath homeKernel (ascii "../b//./c/..")) ∧
    (stackPath (rootedPath homeKernel (ascii "../b//./c/.."))).path = ascii "/home/b" :=
  ⟨by decide, by decide, (normalizePath_stack homeKernel 0 0 (by decide) (by decide) (.inr rfl)).1,
    by decide +kernel⟩

theorem normalizePath_deep :
    4096 ≤ deepKernel.cwdText.length ∧ deepKernel.cwdText.head? = some 0x2F ∧
    (normalizePath deepKernel (ascii "a") 0).1 = ⟨ascii "a", true, true⟩ := by
  refine ⟨by decide +kernel, by decide +kernel, ?_⟩
  rfl

end Iwan
