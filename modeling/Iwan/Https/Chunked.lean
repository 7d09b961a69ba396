import Iwan.Https.Parse
import Iwan.Lib.Span

/- Chunked bodies (http_parser.c). -/
namespace Iwan

open Span

def posOf (input suffix : List UInt8) : Nat := input.length - suffix.length

/-- A size line at offset `i`, and where the loop looks for its data. -/
structure ChunkLine (input : List UInt8) (i sz data : Nat) : Prop where
  size : hexParseSz ((input.drop i).takeWhile fun c => !httpEol c && c != 0x3B) = some sz
  data : data = posOf input (((input.drop i).dropWhile (!httpEol ·)).dropWhile httpEol)

/-- The offsets at which the loop reads a size line. -/
inductive ChunkAt (input : List UInt8) : Nat → Prop where
  | first : ChunkAt input 0
  | next {i sz data : Nat} (here : ChunkAt input i) (line : ChunkLine input i sz data)
      (some : sz ≠ 0) (inside : data + sz ≤ input.length) :
      ChunkAt input (posOf input ((input.drop (data + sz)).dropWhile httpEol))

def IsChunk (input piece : List UInt8) : Prop :=
  ∃ i sz data, ChunkAt input i ∧ ChunkLine input i sz data ∧ data + sz ≤ input.length ∧
    piece = (input.drop data).take sz

section

variable {input suffix : List UInt8}

theorem drop_posOf (ends : suffix <:+ input) : input.drop (posOf input suffix) = suffix :=
  (List.suffix_iff_eq_drop.mp ends).symm

theorem chunkDecodeLoop_chunks (whole : List UInt8) (fuel i off : Nat) (out : List UInt8)
    (here : ChunkAt whole off) :
    ∃ pieces : List (List UInt8), (∀ piece ∈ pieces, IsChunk whole piece) ∧
      (chunkDecodeLoop fuel i (whole.drop off) out).2 = out ++ pieces.flatten ∧
      ((chunkDecodeLoop fuel i (whole.drop off) out).1 = .ok () →
        ∃ j data, ChunkAt whole j ∧ ChunkLine whole j 0 data) := by
  induction fuel generalizing i off out with
  | zero => exact ⟨[], by simp, by simp [chunkDecodeLoop], nofun⟩
  | succ fuel ih =>
    unfold chunkDecodeLoop
    by_cases empty : whole.drop off = []
    · rw [if_pos empty]
      exact ⟨[], by simp, by simp, nofun⟩
    rw [if_neg empty]
    cases read : hexParseSz ((whole.drop off).takeWhile fun c => !httpEol c && c != 0x3B) with
    | none => exact ⟨[], by simp, by simp, nofun⟩
    | some sz =>
      dsimp only
      generalize behind : ((whole.drop off).dropWhile (!httpEol ·)).dropWhile httpEol = rest
      have ends : rest <:+ whole := by
        rw [← behind]
        exact ((List.dropWhile_suffix _).trans (List.dropWhile_suffix _)).trans
          (List.drop_suffix _ _)
      have line : ChunkLine whole off sz (posOf whole rest) := ⟨read, by rw [behind]⟩
      by_cases zero : sz = 0
      · rw [if_pos zero]
        exact ⟨[], by simp, by simp, fun _ => ⟨off, _, here, zero ▸ line⟩⟩
      rw [if_neg zero]
      by_cases short : rest.length < sz
      · rw [if_pos short]
        exact ⟨[], by simp, by simp, nofun⟩
      rw [if_neg short]
      have bound : posOf whole rest + sz ≤ whole.length := by
        have := ends.length_le
        unfold posOf
        omega
      have piece : rest.take sz = (whole.drop (posOf whole rest)).take sz := by
        rw [drop_posOf ends]
      have jump : whole.drop (posOf whole rest + sz) = rest.drop sz := by
        rw [← List.drop_drop, drop_posOf ends]
      have reached := ChunkAt.next here line zero bound
      rw [jump] at reached
      have ends' : (rest.drop sz).dropWhile httpEol <:+ whole :=
        ((List.dropWhile_suffix _).trans (List.drop_suffix _ _)).trans ends
      have later := ih
        (i + ((whole.drop off).length - ((rest.drop sz).dropWhile httpEol).length))
        _ (out ++ rest.take sz) reached
      rw [drop_posOf ends'] at later
      obtain ⟨pieces, chunks, appended, terminal⟩ := later
      refine ⟨rest.take sz :: pieces, ?_, ?_, terminal⟩
      · intro q member
        rcases List.mem_cons.mp member with rfl | member
        · exact ⟨off, sz, _, here, line, bound, piece⟩
        · exact chunks q member
      · rw [appended, List.flatten_cons, List.append_assoc]

end

def hexNumber (digits : List UInt8) (v : Nat) : Option Nat :=
  digits.foldlM (fun v c => (hexNibble c).map fun h => v * 16 + h.toNat) v

/-- A chunk as a sender writes it: its length in hexadecimal digits, an extension, the data. -/
structure Chunk where
  size : List UInt8
  ext : List UInt8
  data : List UInt8

/-- A chunk with a size line of RFC 9112. -/
structure Chunk.Valid (c : Chunk) : Prop where
  filled : c.data ≠ []
  short : c.data.length < httpsChunkSzCap
  size : hexNumber c.size 0 = some c.data.length
  ext : c.ext = [] ∨ c.ext.head? = some 0x3B ∧ ∀ x ∈ c.ext, httpEol x = false

theorem crlf_eol : ∀ x ∈ crlf, httpEol x = true := by simp [crlf, httpEol]

def Chunk.encode (c : Chunk) : List UInt8 := c.size ++ (c.ext ++ (crlf ++ (c.data ++ crlf)))

def encodeChunks (chunks : List Chunk) (trailer : List UInt8) : List UInt8 :=
  chunks.flatMap Chunk.encode ++ (0x30 :: (crlf ++ (trailer ++ crlf)))

/-- The data does not start with CR or LF. -/
def Chunk.Plain (c : Chunk) : Prop := Stops httpEol c.data

section

variable {digits : List UInt8} {v n : Nat} {c : Chunk}

theorem hexNumber_cons {x : UInt8} (read : hexNumber (x :: digits) v = some n) :
    ∃ h, hexNibble x = some h ∧ hexNumber digits (v * 16 + h.toNat) = some n := by
  unfold hexNumber at read
  rw [List.foldlM_cons] at read
  cases digit : hexNibble x with
  | none =>
    rw [digit] at read
    cases read
  | some h =>
    rw [digit] at read
    exact ⟨h, rfl, read⟩

theorem hexNumber_le (read : hexNumber digits v = some n) : v ≤ n := by
  induction digits generalizing v with
  | nil =>
    cases read
    exact Nat.le_refl _
  | cons x digits ih =>
    obtain ⟨h, _, later⟩ := hexNumber_cons read
    have bound := ih later
    omega

theorem hexParseSzLoop_of_number (read : hexNumber digits v = some n)
    (small : n ≤ httpsChunkSzCap) : hexParseSzLoop digits v = some n := by
  induction digits generalizing v with
  | nil =>
    cases read
    rfl
  | cons x digits ih =>
    obtain ⟨h, digit, later⟩ := hexNumber_cons read
    have bound := hexNumber_le later
    have room : ¬ (httpsChunkSzCap - h.toNat) / 16 < v := by omega
    rw [hexParseSzLoop, digit]
    dsimp only
    rw [if_neg room]
    exact ih later

theorem hexNumber_digits (read : hexNumber digits v = some n) :
    ∀ x ∈ digits, httpEol x = false ∧ x ≠ 0x3B := by
  induction digits generalizing v with
  | nil => exact fun x member => absurd member List.not_mem_nil
  | cons y digits ih =>
    obtain ⟨h, digit, later⟩ := hexNumber_cons read
    intro x member
    rcases List.mem_cons.mp member with rfl | member
    · have eol : ∀ x : UInt8, (hexNibble x).isSome → httpEol x = false ∧ x ≠ 0x3B := by
        decide +kernel
      exact eol x (by rw [digit]; rfl)
    · exact ih later x member

theorem Chunk.Valid.digit (valid : c.Valid) : ∃ x rest, c.size = x :: rest := by
  cases spelled : c.size with
  | cons x rest => exact ⟨x, rest, rfl⟩
  | nil =>
    have read := valid.size
    rw [spelled] at read
    have empty : c.data.length = 0 := (Option.some.inj read).symm
    exact absurd (List.eq_nil_of_length_eq_zero empty) valid.filled

theorem encodeChunks_stops (chunks : List Chunk) (trailer : List UInt8)
    (valid : ∀ c ∈ chunks, c.Valid) : Stops httpEol (encodeChunks chunks trailer) := by
  cases chunks with
  | nil => exact Stops.cons _ rfl
  | cons c chunks =>
    have here := valid c List.mem_cons_self
    obtain ⟨x, rest, spelled⟩ := here.digit
    have digit := hexNumber_digits here.size x (by rw [spelled]; exact List.mem_cons_self)
    unfold encodeChunks
    rw [List.flatMap_cons, Chunk.encode, spelled]
    exact Stops.cons _ digit.1

/-- One turn on an encoded chunk: the data is looked for behind all line ends that follow. -/
theorem chunkDecodeLoop_line (valid : c.Valid) (fuel i : Nat) (rest out : List UInt8) :
    ∃ j, chunkDecodeLoop (fuel + 1) i (c.encode ++ rest) out =
      let tail := (c.data ++ (crlf ++ rest)).dropWhile httpEol
      if tail.length < c.data.length then (.error (.overruns i), out)
      else chunkDecodeLoop fuel j ((tail.drop c.data.length).dropWhile httpEol)
        (out ++ tail.take c.data.length) := by
  have digits := hexNumber_digits valid.size
  have extLine : ∀ x ∈ c.ext, httpEol x = false := by
    rcases valid.ext with none | ⟨_, line⟩
    · rw [none]
      exact fun x member => absurd member List.not_mem_nil
    · exact line
  have shape : c.encode ++ rest =
      c.size ++ (c.ext ++ (crlf ++ (c.data ++ (crlf ++ rest)))) := by
    simp [Chunk.encode]
  have filled : c.encode ++ rest ≠ [] := by
    obtain ⟨x, tail, spelled⟩ := valid.digit
    rw [shape, spelled]
    exact List.cons_ne_nil _ _
  have size : (c.encode ++ rest).takeWhile (fun x => !httpEol x && x != 0x3B) = c.size := by
    rw [shape]
    apply takeWhile_append
    · intro x member
      simp [digits x member]
    · rcases valid.ext with none | ⟨mark, _⟩
      · rw [none]
        exact Stops.cons _ rfl
      · intro x head
        rw [List.head?_append, mark] at head
        cases head
        rfl
  have line : (c.encode ++ rest).dropWhile (!httpEol ·) =
      crlf ++ (c.data ++ (crlf ++ rest)) := by
    rw [shape, ← List.append_assoc]
    apply dropWhile_append
    · intro x member
      rcases List.mem_append.mp member with member | member
      · rw [(digits x member).1]
        rfl
      · rw [extLine x member]
        rfl
    · exact Stops.cons _ rfl
  have some : c.data.length ≠ 0 := fun zero => valid.filled (List.eq_nil_of_length_eq_zero zero)
  refine ⟨i + ((c.encode ++ rest).length - ((((c.data ++ (crlf ++ rest)).dropWhile
    httpEol).drop c.data.length).dropWhile httpEol).length), ?_⟩
  rw [chunkDecodeLoop, if_neg filled, size, hexParseSz,
    hexParseSzLoop_of_number valid.size (Nat.le_of_lt valid.short)]
  dsimp only
  rw [if_neg some, line, List.dropWhile_append_of_pos crlf_eol]

theorem chunkDecodeLoop_chunk (valid : c.Valid) (plain : c.Plain) (fuel i : Nat)
    (rest out : List UInt8) (stops : Stops httpEol rest) :
    ∃ j, chunkDecodeLoop (fuel + 1) i (c.encode ++ rest) out =
      chunkDecodeLoop fuel j rest (out ++ c.data) := by
  have data : (c.data ++ (crlf ++ rest)).dropWhile httpEol = c.data ++ (crlf ++ rest) := by
    refine Stops.dropWhile fun x head => plain x ?_
    rwa [List.head?_append_of_ne_nil _ valid.filled] at head
  have next : (crlf ++ rest).dropWhile httpEol = rest := dropWhile_append crlf_eol stops
  obtain ⟨j, turn⟩ := chunkDecodeLoop_line valid fuel i rest out
  refine ⟨j, turn.trans ?_⟩
  dsimp only
  rw [data, if_neg (by simp), List.drop_left, List.take_left, next]

/-- What is appended for a chunk starts with no line end, so only plain data comes back. -/
theorem chunkDecodeLoop_plain (valid : c.Valid) (fuel i : Nat) (rest out more : List UInt8)
    (decoded : chunkDecodeLoop (fuel + 1) i (c.encode ++ rest) out =
      (.ok (), out ++ (c.data ++ more))) : c.Plain := by
  obtain ⟨j, turn⟩ := chunkDecodeLoop_line valid fuel i rest out
  rw [turn] at decoded
  dsimp only at decoded
  generalize behind : (c.data ++ (crlf ++ rest)).dropWhile httpEol = tail at decoded
  split_ifs at decoded with short
  · cases decoded
  · obtain ⟨pieces, -, appended, -⟩ := chunkDecodeLoop_chunks
      ((tail.drop c.data.length).dropWhile httpEol) fuel j 0 (out ++ tail.take c.data.length)
      .first
    rw [List.drop_zero, decoded, List.append_assoc, List.append_cancel_left_eq] at appended
    intro x head
    have size := List.length_pos_iff.mpr valid.filled
    have first := congrArg List.head? appended
    have some : tail.take c.data.length ≠ [] := by
      rw [← List.length_pos_iff, List.length_take]
      omega
    rw [List.head?_append_of_ne_nil _ valid.filled, head, List.head?_append_of_ne_nil _ some,
      List.head?_take, if_neg size.ne'] at first
    rw [← behind] at first
    exact stops_dropWhile httpEol _ x first.symm

theorem encodeChunks_cons (c : Chunk) (chunks : List Chunk) (trailer : List UInt8) :
    encodeChunks (c :: chunks) trailer = c.encode ++ encodeChunks chunks trailer := by
  simp [encodeChunks]

theorem chunkDecodeLoop_encode (chunks : List Chunk) (trailer : List UInt8)
    (valid : ∀ c ∈ chunks, c.Valid) (fuel i : Nat) (out : List UInt8)
    (enough : chunks.length < fuel) :
    chunkDecodeLoop fuel i (encodeChunks chunks trailer) out =
      (.ok (), out ++ chunks.flatMap Chunk.data) ↔ ∀ c ∈ chunks, c.Plain := by
  induction chunks generalizing fuel i out with
  | nil =>
    obtain ⟨fuel, rfl⟩ := Nat.exists_eq_succ_of_ne_zero enough.ne'
    rw [List.flatMap_nil, List.append_nil]
    exact iff_of_true rfl (List.forall_mem_nil _)
  | cons c chunks ih =>
    obtain ⟨fuel, rfl⟩ := Nat.exists_eq_succ_of_ne_zero (Nat.ne_zero_of_lt enough)
    obtain ⟨here, later⟩ := List.forall_mem_cons.mp valid
    rw [encodeChunks_cons, List.flatMap_cons, List.forall_mem_cons]
    by_cases plain : c.Plain
    · obtain ⟨j, turn⟩ := chunkDecodeLoop_chunk here plain fuel i _ out
        (encodeChunks_stops chunks trailer later)
      rw [turn, ← List.append_assoc, ih later fuel j _ (Nat.lt_of_succ_lt_succ enough)]
      exact (and_iff_right plain).symm
    · exact iff_of_false (fun decoded => plain (chunkDecodeLoop_plain here fuel i _ out _ decoded))
        fun all => plain all.1

theorem encodeChunks_length (chunks : List Chunk) (trailer : List UInt8)
    (valid : ∀ c ∈ chunks, c.Valid) : chunks.length < (encodeChunks chunks trailer).length := by
  induction chunks with
  | nil => simp [encodeChunks]
  | cons c chunks ih =>
    have later := ih fun c' member => valid c' (List.mem_cons_of_mem c member)
    have some : 0 < c.encode.length := by simp [Chunk.encode, crlf]
    rw [encodeChunks_cons, List.length_append, List.length_cons]
    omega

end

/-- An encoded body is taken apart again exactly if no chunk's data starts with a line end. -/
theorem chunkDecode_encode (chunks : List Chunk) (trailer : List UInt8)
    (valid : ∀ c ∈ chunks, c.Valid) :
    (chunkDecode (encodeChunks chunks trailer) = (.ok (), chunks.flatMap Chunk.data) ↔
        ∀ c ∈ chunks, c.Plain) ∧
      ∀ input, (∃ pieces : List (List UInt8), (∀ piece ∈ pieces, IsChunk input piece) ∧
          (chunkDecode input).2 = pieces.flatten) ∧
        ((chunkDecode input).1 = .ok () →
          ∃ i data, ChunkAt input i ∧ ChunkLine input i 0 data) := by
  constructor
  · exact chunkDecodeLoop_encode chunks trailer valid _ 0 []
      (encodeChunks_length chunks trailer valid)
  · intro input
    obtain ⟨pieces, inside, appended, terminal⟩ :=
      chunkDecodeLoop_chunks input input.length 0 0 [] ChunkAt.first
    exact ⟨⟨pieces, inside, appended⟩, terminal⟩

def sampleChunks : List Chunk :=
  [⟨ascii "0A", ascii ";a=b", ascii "0123456789"⟩, ⟨ascii "1", [], ascii "x"⟩]

theorem chunkDecode_encode_sample :
    chunkDecode (encodeChunks sampleChunks []) = (.ok (), ascii "0123456789x") := by
  refine (chunkDecode_encode sampleChunks [] ?_).1.mpr ?_
  · refine List.forall_mem_cons.mpr ⟨?_, List.forall_mem_singleton.mpr ?_⟩
    · exact ⟨by decide, by decide, by decide, .inr (by decide +kernel)⟩
    · exact ⟨by decide, by decide, by decide, .inl rfl⟩
  · exact List.forall_mem_cons.mpr
      ⟨Stops.cons _ rfl, List.forall_mem_singleton.mpr (Stops.cons _ rfl)⟩

def newlineChunk : Chunk := ⟨ascii "3", [], ascii "\nab"⟩

/-- The LF is taken for part of the line end. -/
theorem chunkDecode_newline :
    newlineChunk.Valid ∧
      encodeChunks [newlineChunk] [] = ascii "3\r\n\nab\r\n0\r\n\r\n" ∧
      chunkDecode (encodeChunks [newlineChunk] []) = (.ok (), ascii "ab\r") :=
  ⟨⟨by decide, by decide, by decide, .inl rfl⟩, by decide, by decide⟩

end Iwan
