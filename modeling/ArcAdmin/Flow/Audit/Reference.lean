import ArcAdmin.Flow.Audit.Comments

/-!
# The reference scanner

What the comments of a text are, character by character: the same tokens read from left to right,
without offsets and ranges.
-/

namespace ArcAdmin

namespace Flow

namespace Audit

inductive Mode where
  | code
  | string (string : StringSyntax)
  | line
  | block (block : BlockCommentSyntax) (depth : Nat)

/-- What is read at once: its length, whether it belongs to a comment, and the mode behind it. -/
structure Turn where
  mode : Mode
  length : Nat
  comment : Bool

namespace CommentSyntax

/-- The longest of the tokens that stand in front of the text. -/
def longest {α : Type} (token : α → Text) (tokens : List α) (text : Text) : Option α :=
  maxByKey (fun x => (token x).length) (tokens.filter fun x => (token x).isPrefixOf text)

variable (commentSyntax : CommentSyntax)

def turnCode (text : Text) : Turn :=
  match longest StringSyntax.start commentSyntax.strings text with
  | some string => ⟨.string string, string.start.length, false⟩
  | none =>
    match longest BlockCommentSyntax.start commentSyntax.block text with
    | some block => ⟨.block block 1, block.start.length, true⟩
    | none =>
      match longest id commentSyntax.line text with
      | some line => ⟨.line, line.length, true⟩
      | none => ⟨.code, 1, false⟩

/-- In a string an escape takes the next character with it. -/
def turnString (string : StringSyntax) (text : Text) : Turn :=
  match string.escape.filter (·.isPrefixOf text) with
  | some escape => ⟨.string string, escape.length + 1, false⟩
  | none =>
    if string.stop.isPrefixOf text then ⟨.code, string.stop.length, false⟩
    else ⟨.string string, 1, false⟩

def turnLine (text : Text) : Turn :=
  if ['\n'].isPrefixOf text then ⟨.code, 1, false⟩ else ⟨.line, 1, true⟩

def turnBlock (block : BlockCommentSyntax) (depth : Nat) (text : Text) : Turn :=
  if block.nested && block.start.isPrefixOf text then
    ⟨.block block (depth + 1), block.start.length, true⟩
  else if block.stop.isPrefixOf text then
    ⟨if depth = 1 then .code else .block block (depth - 1), block.stop.length, true⟩
  else ⟨.block block depth, 1, true⟩

def turn (mode : Mode) (text : Text) : Turn :=
  match mode with
  | .code => turnCode commentSyntax text
  | .string string => turnString string text
  | .line => turnLine text
  | .block block depth => turnBlock block depth text

/-- For each character whether it belongs to a comment; `left` characters of the last turn are still
to come. -/
def classify : Mode → Nat → Bool → Text → List Bool
  | _, _, _, [] => []
  | mode, left + 1, comment, _ :: rest => comment :: classify mode left comment rest
  | mode, 0, _, c :: rest =>
    let next := turn commentSyntax mode (c :: rest)
    next.comment :: classify next.mode (next.length - 1) next.comment rest

/-- The class of each character, once for each of its bytes. -/
def perByte : Text → List Bool → List Bool
  | c :: rest, flag :: flags => List.replicate c.utf8Size flag ++ perByte rest flags
  | _, _ => []

/-- Whether the byte at the offset belongs to a comment. -/
def isCommentByte (content : Text) (offset : Nat) : Bool :=
  (perByte content (classify commentSyntax .code 0 false content))[offset]?.getD false

end CommentSyntax

end Audit

end Flow

end ArcAdmin
