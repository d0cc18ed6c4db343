import ArcAdmin.PartitionPoint
import ArcAdmin.Flow.Audit.Config

/-!
# The comments of a source

`comment_ranges` goes over the bytes of a source, with the state of a small lexer, and
`is_comment_offset` looks an offset up in the ranges that it leaves.
-/

namespace ArcAdmin

namespace Flow

namespace Audit

/-- `start..end`. -/
abbrev Range := Nat × Nat

inductive LexicalState where
  | code
  | string (string : StringSyntax)
  | lineComment (start : Nat)
  | blockComment (block : BlockCommentSyntax) (start depth : Nat)

def tokenAt (bytes : List UInt8) (offset : Nat) (token : Text) : Bool :=
  (Utf8.encode token).isPrefixOf (bytes.drop offset)

/-- `Iterator::max_by_key`: the last of the greatest. -/
def maxByKey {α : Type} (key : α → Nat) (xs : List α) : Option α :=
  xs.foldl (fun best x =>
    match best with
    | none => some x
    | some y => if key y ≤ key x then some x else some y) none

/-- The locals of `comment_ranges`. -/
structure Scan where
  state : LexicalState
  offset : Nat
  ranges : List Range

namespace CommentSyntax

variable (commentSyntax : CommentSyntax) (bytes : List UInt8)

/-- The tokens of a kind that stand at the offset. -/
def standing {α : Type} (bytes : List UInt8) (offset : Nat) (token : α → Text) (tokens : List α) :
    Option α :=
  maxByKey (fun x => Utf8.size (token x)) (tokens.filter fun x => tokenAt bytes offset (token x))

def stepCode (scan : Scan) : Scan :=
  match standing bytes scan.offset StringSyntax.start commentSyntax.strings with
  | some string =>
    { scan with offset := scan.offset + Utf8.size string.start, state := .string string }
  | none =>
    match standing bytes scan.offset BlockCommentSyntax.start commentSyntax.block with
    | some block =>
      { scan with
        offset := scan.offset + Utf8.size block.start
        state := .blockComment block scan.offset 1 }
    | none =>
      match standing bytes scan.offset id commentSyntax.line with
      | some line =>
        { scan with offset := scan.offset + Utf8.size line, state := .lineComment scan.offset }
      | none => { scan with offset := scan.offset + 1 }

def stepString (string : StringSyntax) (scan : Scan) : Scan :=
  match string.escape.filter (tokenAt bytes scan.offset) with
  | some escape => { scan with offset := min (scan.offset + Utf8.size escape + 1) bytes.length }
  | none =>
    if tokenAt bytes scan.offset string.stop then
      { scan with offset := scan.offset + Utf8.size string.stop, state := .code }
    else { scan with offset := scan.offset + 1 }

def stepLineComment (start : Nat) (scan : Scan) : Scan :=
  if bytes[scan.offset]? = some 10 then
    { state := .code, offset := scan.offset + 1, ranges := scan.ranges ++ [(start, scan.offset)] }
  else { scan with offset := scan.offset + 1 }

def stepBlockComment (block : BlockCommentSyntax) (start depth : Nat) (scan : Scan) : Scan :=
  if block.nested && tokenAt bytes scan.offset block.start then
    { scan with
      offset := scan.offset + Utf8.size block.start
      state := .blockComment block start (depth + 1) }
  else if tokenAt bytes scan.offset block.stop then
    let offset := scan.offset + Utf8.size block.stop
    if depth - 1 = 0 then
      { state := .code, offset := offset, ranges := scan.ranges ++ [(start, offset)] }
    else { scan with offset := offset, state := .blockComment block start (depth - 1) }
  else { scan with offset := scan.offset + 1 }

/-- The body of the loop. -/
def step (scan : Scan) : Scan :=
  match scan.state with
  | .code => stepCode commentSyntax bytes scan
  | .string string => stepString bytes string scan
  | .lineComment start => stepLineComment bytes start scan
  | .blockComment block start depth => stepBlockComment bytes block start depth scan

/-- `while offset < bytes.len()`, with a bound on the number of turns. -/
def loop : Nat → Scan → Option Scan
  | 0, scan => if scan.offset < bytes.length then none else some scan
  | turns + 1, scan =>
    if scan.offset < bytes.length then loop turns (step commentSyntax bytes scan) else some scan

/-- What is left to do at the end of the text. -/
def close (scan : Scan) : List Range :=
  match scan.state with
  | .lineComment start | .blockComment _ start _ => scan.ranges ++ [(start, bytes.length)]
  | .code | .string _ => scan.ranges

def begin : Scan := { state := .code, offset := 0, ranges := [] }

end CommentSyntax

/-- `comment_ranges`, with a turn of its loop for every byte. -/
def commentRanges (content : Text) (commentSyntax : CommentSyntax) : Option (List Range) :=
  let bytes := Utf8.encode content
  (commentSyntax.loop bytes bytes.length CommentSyntax.begin).map (CommentSyntax.close bytes)

def isCommentOffset (ranges : List Range) (offset : Nat) : Bool :=
  let index := PartitionPoint.partitionPoint (fun range : Range => decide (range.1 ≤ offset)) ranges
  decide (0 < index) && ranges[index - 1]?.any fun range =>
    decide (range.1 ≤ offset) && decide (offset < range.2)

end Audit

end Flow

end ArcAdmin
