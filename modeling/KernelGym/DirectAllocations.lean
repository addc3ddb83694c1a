import KernelGym.Library.Texts
import Mathlib.Data.List.Sort
import Mathlib.Data.String.Basic

/-! Calls of allocation functions that bypass the allocator of PyTorch, as they are found in the source of a candidate,
and the comments of a C++ source. -/

namespace KernelGym.DirectAllocations

open Library

abbrev Text := List Char

def directCudaAllocationApis : List String :=
  ["cudaMalloc3D", "cudaMalloc3DArray", "cudaMallocArray", "cudaMalloc", "cudaMallocAsync", "cudaMallocManaged",
    "cudaMallocPitch", "cuMemAlloc", "cuMemAllocAsync", "cuMemAllocFromPoolAsync", "cuArray3DCreate", "cuArrayCreate",
    "cuMipmappedArrayCreate", "cuMemAllocManaged", "cuMemAllocPitch", "cuMemCreate"]

/-! ### Blanking of comments -/

/-- A character of a blanked text; lines are kept. -/
def blank (c : Char) : Char := if c = '\n' then '\n' else ' '

/-- The substitution of `/\*.*?\*/`: a block is entered if it ends somewhere. -/
def blankBlocks : Bool → Text → Text
  | _, [] => []
  | true, '*' :: '/' :: rest => ' ' :: ' ' :: blankBlocks false rest
  | true, c :: rest => blank c :: blankBlocks true rest
  | false, '/' :: '*' :: rest =>
    if ['*', '/'] <:+: rest then ' ' :: ' ' :: blankBlocks true rest else '/' :: blankBlocks false ('*' :: rest)
  | false, c :: rest => c :: blankBlocks false rest

/-- The substitution of `//[^\n]*`. -/
def blankLines : Bool → Text → Text
  | _, [] => []
  | true, c :: rest => if c = '\n' then '\n' :: blankLines false rest else ' ' :: blankLines true rest
  | false, '/' :: '/' :: rest => ' ' :: ' ' :: blankLines true rest
  | false, c :: rest => c :: blankLines false rest

/-- `_strip_cpp_comments` -/
def stripCppComments (source : Text) : Text := blankLines false (blankBlocks false source)

/-! ### Detection -/

/-- The names as the alternatives of the pattern: the longest first. -/
def alternatives : List Text :=
  (directCudaAllocationApis.map String.toList).insertionSort fun a b => b.length ≤ a.length

/-- What follows `\s*\(`. -/
def opened (u : Unicode) (text : Text) : Option Text :=
  match text.dropWhile u.isSpace with
  | '(' :: rest => some rest
  | _ => none

/-- A match of `_DIRECT_CUDA_ALLOCATION_PATTERN` at a text behind a character: the name and what follows. -/
def matchAt (u : Unicode) (before : Option Char) (text : Text) : Option (Text × Text) :=
  if before.any u.isWord = text.head?.any u.isWord then none
  else
    alternatives.findSome? fun api =>
      if api.isPrefixOf text then (opened u (text.drop api.length)).map fun rest => (api, rest) else none

/-- `finditer`: the names with the places where they start. The first `skip` characters belong to a match. -/
def finditerFrom (u : Unicode) : ℕ → ℕ → Option Char → Text → List (Text × ℕ)
  | _, _, _, [] => []
  | skip + 1, start, _, c :: rest => finditerFrom u skip (start + 1) (some c) rest
  | 0, start, before, c :: rest =>
    match matchAt u before (c :: rest) with
    | some (api, after) => (api, start) :: finditerFrom u (rest.length - after.length) (start + 1) (some c) rest
    | none => finditerFrom u 0 (start + 1) (some c) rest

structure Match where
  api : Text
  line : ℕ
  snippet : Text
  deriving DecidableEq

/-- One entry of the report; nothing if the list of lines is too short. -/
def report (u : Unicode) (source searchable : Text) (api : Text) (start : ℕ) : Option Match :=
  let lineNumber := (searchable.take start).count '\n' + 1
  ((splitLines source)[lineNumber - 1]?).map fun line =>
    { api, line := lineNumber, snippet := (u.strip line).take 240 }

def directMatches (u : Unicode) (source : Text) : Option (List Match) :=
  (finditerFrom u 0 0 none (stripCppComments source)).mapM fun found =>
    report u source (stripCppComments source) found.1 found.2

structure AllocationCheck where
  severity : String
  measurementImpact : String
  directCudaAllocationDetected : Bool
  directCudaAllocationApis : List Text
  directCudaAllocationMatches : List Match
  warning : Option String

/-- `detect_direct_cuda_allocations`; nothing for an `IndexError`. -/
def detectDirectCudaAllocations (u : Unicode) (source : Text) : Option AllocationCheck :=
  (directMatches u source).map fun found =>
    { severity := if found = [] then "none" else "warning"
      measurementImpact := if found = [] then "none_detected" else "may_underestimate"
      directCudaAllocationDetected := found ≠ []
      directCudaAllocationApis := (found.map Match.api).dedup.insertionSort fun a b => String.ofList a ≤ String.ofList b
      directCudaAllocationMatches := found
      warning :=
        if found = [] then none
        else some ("Direct CUDA allocation APIs were found. torch.cuda peak-memory counters only track allocations " ++
          "managed by PyTorch's CUDA caching allocator, so the reported memory can be an underestimate.") }

/-! ### The pieces of a C++ source -/

inductive Piece
  | code (text : Text)
  | literal (text : Text)
  | lineComment (text : Text)
  | blockComment (text : Text)
  /-- A block comment that does not end. -/
  | unclosed (text : Text)
  deriving DecidableEq, Repr

namespace Piece

def text : Piece → Text
  | code t | literal t | lineComment t | blockComment t | unclosed t => t

/-- What is left of a piece when comments are blanks. -/
def visible : Piece → Text
  | code t | literal t => t
  | lineComment t | blockComment t | unclosed t => t.map blank

end Piece

/-- A line comment up to the end of its line; a newline behind a backslash does not end it. -/
def lineBody : Text → Text × Text
  | [] => ([], [])
  | '\\' :: '\n' :: rest => let (body, after) := lineBody rest; ('\\' :: '\n' :: body, after)
  | '\\' :: '\r' :: '\n' :: rest => let (body, after) := lineBody rest; ('\\' :: '\r' :: '\n' :: body, after)
  | c :: rest => if c = '\n' then ([], c :: rest) else let (body, after) := lineBody rest; (c :: body, after)

/-- A block comment up to its end, if it has one. -/
def blockBody : Text → Option (Text × Text)
  | [] => none
  | '*' :: '/' :: rest => some (['*', '/'], rest)
  | c :: rest => (blockBody rest).map fun (body, after) => (c :: body, after)

/-- A literal up to its quote; one that is not closed ends with its line. -/
def quotedBody (quote : Char) : Text → Text × Text
  | [] => ([], [])
  | '\\' :: c :: rest => let (body, after) := quotedBody quote rest; ('\\' :: c :: body, after)
  | c :: rest =>
    if c = quote then ([c], rest)
    else if c = '\n' then ([], c :: rest)
    else let (body, after) := quotedBody quote rest; (c :: body, after)

/-- A text up to the first occurrence of another. -/
def upTo (close : Text) : Text → Text × Text
  | [] => ([], [])
  | c :: rest =>
    if close.isPrefixOf (c :: rest) then (close, (c :: rest).drop close.length)
    else let (body, after) := upTo close rest; (c :: body, after)

/-- A raw literal behind its first quote. -/
def rawBody (text : Text) : Text × Text :=
  upTo (')' :: text.takeWhile (· ≠ '(') ++ ['\"']) text

/-- A number with the separators of its digits. -/
def numberBody (u : Unicode) : Text → Text × Text
  | [] => ([], [])
  | '\'' :: c :: rest =>
    if u.isWord c then let (body, after) := numberBody u (c :: rest); ('\'' :: body, after) else ([], '\'' :: c :: rest)
  | c :: rest => if u.isWord c then let (body, after) := numberBody u rest; (c :: body, after) else ([], c :: rest)

def rawPrefixes : List Text := ["R", "LR", "uR", "UR", "u8R"].map String.toList

/-- The next piece of a text that is not empty, and what follows. -/
def nextPiece (u : Unicode) : Text → Piece × Text
  | [] => (.code [], [])
  | '/' :: '/' :: rest => let (body, after) := lineBody rest; (.lineComment ('/' :: '/' :: body), after)
  | '/' :: '*' :: rest =>
    match blockBody rest with
    | some (body, after) => (.blockComment ('/' :: '*' :: body), after)
    | none => (.unclosed ('/' :: '*' :: rest), [])
  | c :: rest =>
    if c = '\"' ∨ c = '\'' then let (body, after) := quotedBody c rest; (.literal (c :: body), after)
    else if c.isDigit then let (body, after) := numberBody u rest; (.code (c :: body), after)
    else if u.isWord c then
      let word := c :: rest.takeWhile u.isWord
      match rest.dropWhile u.isWord with
      | '\"' :: quoted =>
        if word ∈ rawPrefixes then let (body, after) := rawBody quoted; (.literal (word ++ '\"' :: body), after)
        else (.code word, '\"' :: quoted)
      | after => (.code word, after)
    else (.code [c], rest)

def piecesFrom (u : Unicode) : ℕ → Text → List Piece
  | 0, _ => []
  | _ + 1, [] => []
  | n + 1, c :: rest => let (piece, after) := nextPiece u (c :: rest); piece :: piecesFrom u n after

/-- The pieces of a source. -/
def pieces (u : Unicode) (source : Text) : List Piece := piecesFrom u source.length source

/-- The source with blanks for its comments. -/
def uncommented (u : Unicode) (source : Text) : Text := (pieces u source).flatMap Piece.visible

/-! ### Calls -/

/-- A function is called at a place of a text: its name stands there as a whole identifier, and white space and a
parenthesis follow. -/
def IsCall (u : Unicode) (text : Text) (api : Text) (start : ℕ) : Prop :=
  (text.take start).getLast?.any u.isWord = false ∧ api <+: text.drop start ∧
    ((text.drop (start + api.length)).dropWhile u.isSpace).head? = some '('

instance (u : Unicode) (text api : Text) (start : ℕ) : Decidable (IsCall u text api start) :=
  inferInstanceAs (Decidable (_ ∧ _ ∧ _))

/-- The line of a place. -/
def lineAt (source : Text) (start : ℕ) : Text :=
  ((source.take start).reverse.takeWhile (· ≠ '\n')).reverse ++ (source.drop start).takeWhile (· ≠ '\n')

/-- The entry for a call. -/
def expectedMatch (u : Unicode) (source api : Text) (start : ℕ) : Match where
  api
  line := (source.take start).count '\n' + 1
  snippet := (u.strip (lineAt source start)).take 240

/-- The entries for the calls outside comments, in the order of their places. -/
def expectedMatches (u : Unicode) (source : Text) : List Match :=
  (List.range source.length).flatMap fun start =>
    ((directCudaAllocationApis.map String.toList).filter fun api => IsCall u (uncommented u source) api start).map fun api =>
      expectedMatch u source api start

end KernelGym.DirectAllocations
