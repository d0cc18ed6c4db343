import ArcAdmin.Flow.Audit.Reference

/-!
# The comments of Rust sources

The delimiters that are shipped for `rs`, and what a comment is by the lexical grammar of Rust:
line comments and nested block comments, outside of string, byte string, C string, raw string,
character and byte literals, and beside identifiers, raw identifiers, lifetimes and literal suffixes.
-/

namespace ArcAdmin

namespace Flow

namespace Audit

/-- `[engine.comment_syntax.rs]` -/
def rustSyntax : CommentSyntax where
  line := ["//".toList]
  block := [⟨"/*".toList, "*/".toList, true⟩]
  strings :=
    [⟨"r###\"".toList, "\"###".toList, none⟩,
      ⟨"r##\"".toList, "\"##".toList, none⟩,
      ⟨"r#\"".toList, "\"#".toList, none⟩,
      ⟨"r\"".toList, "\"".toList, none⟩,
      ⟨"\"".toList, "\"".toList, some "\\".toList⟩]

/-- What the lexer of Rust asks of Unicode, and of a first line that begins with `#!`. -/
structure RustLexer where
  isIdStart : Char → Bool
  isIdContinue : Char → Bool
  /-- the text begins with a line that is for the loader -/
  isShebang : Text → Bool

inductive RustMode where
  /-- between tokens, or behind the first character of a word: an identifier, a lifetime, a number or
  the suffix of a literal -/
  | code (inWord : Bool)
  | string
  | rawString (hashes : Nat)
  | line
  | block (depth : Nat)
  | shebang
  deriving DecidableEq

structure RustTurn where
  mode : RustMode
  length : Nat
  comment : Bool

/-! ## Literals

The literals of Rust in which a delimiter of a comment means nothing, and what looks like one of
them.
-/

/-- The number of hashes in front of a quotation mark. -/
def hashesBeforeQuote : Text → Option Nat
  | [] => none
  | c :: rest =>
    if c = '"' then some 0
    else if c = '#' then (hashesBeforeQuote rest).map (· + 1) else none

/-- `r`, `br` or `cr` in front of a raw string: the number of letters and of hashes. -/
def rawPrefix : Text → Option (Nat × Nat)
  | [] => none
  | c :: rest =>
    if c = 'r' then (hashesBeforeQuote rest).map fun n => (1, n)
    else if c = 'b' ∨ c = 'c' then
      match rest with
      | [] => none
      | d :: rest => if d = 'r' then (hashesBeforeQuote rest).map fun n => (2, n) else none
    else none

def isHexDigit (c : Char) : Bool :=
  isAsciiDigit c || ('a' ≤ c && c ≤ 'f') || ('A' ≤ c && c ≤ 'F')

/-- The length of an escape behind its backslash. -/
def escapeLength : Text → Option Nat
  | [] => none
  | c :: rest =>
    if "nrt\\0'\"".toList.contains c then some 1
    else if c = 'x' then
      match rest with
      | a :: b :: _ => if isHexDigit a && isHexDigit b then some 3 else none
      | _ => none
    else if c = 'u' then
      match rest with
      | [] => none
      | d :: rest =>
        let digits := (rest.takeWhile fun c => isHexDigit c || c == '_').length
        if d = '\x7b' ∧ 0 < digits ∧ (rest.drop digits).head? = some '\x7d' then some (digits + 3)
        else none
    else none

/-- The length of what stands between the quotation marks of a character literal. -/
def bodyLength : Text → Option Nat
  | [] => none
  | c :: rest =>
    if c = '\\' then (escapeLength rest).map (· + 1)
    else if ['\'', '\n', '\r', '\t'].contains c then none else some 1

/-- The length of the character literal in front of the text. -/
def charLiteral : Text → Option Nat
  | [] => none
  | c :: rest =>
    if c = '\'' then
      match bodyLength rest with
      | some n => if (rest.drop n).head? = some '\'' then some (n + 2) else none
      | none => none
    else none

namespace RustLexer

variable (lexer : RustLexer)

/-- The opening of a raw string; inside a word it is none. -/
def openRaw (inWord : Bool) (text : Text) : Option (Nat × Nat) :=
  if inWord then none else rawPrefix text

/-- `r#` in front of an identifier. -/
def isRawIdentifier (inWord : Bool) : Text → Bool
  | c :: d :: e :: _ => !inWord && c == 'r' && d == '#' && lexer.isIdStart e
  | _ => false

def turnCode (inWord : Bool) (text : Text) : RustTurn :=
  if ['/', '/'].isPrefixOf text then ⟨.line, 2, true⟩
  else if ['/', '*'].isPrefixOf text then ⟨.block 1, 2, true⟩
  else
    match openRaw inWord text with
    | some (letters, hashes) => ⟨.rawString hashes, letters + hashes + 1, false⟩
    | none =>
      if text.head? = some '"' then ⟨.string, 1, false⟩
      else
        match charLiteral text with
        | some length => ⟨.code true, length, false⟩
        | none =>
          if lexer.isRawIdentifier inWord text then ⟨.code true, 2, false⟩
          else
            -- a single quotation mark begins a lifetime
            ⟨.code (text.head?.any fun c => c == '\'' || lexer.isIdContinue c), 1, false⟩

/-- Behind a string stands its suffix. -/
def turnString (text : Text) : RustTurn :=
  if text.head? = some '\\' then ⟨.string, 2, false⟩
  else if text.head? = some '"' then ⟨.code true, 1, false⟩
  else ⟨.string, 1, false⟩

def turnRawString (hashes : Nat) (text : Text) : RustTurn :=
  if ('"' :: List.replicate hashes '#').isPrefixOf text then ⟨.code true, hashes + 1, false⟩
  else ⟨.rawString hashes, 1, false⟩

def turnLine (text : Text) : RustTurn :=
  if ['\n'].isPrefixOf text then ⟨.code false, 1, false⟩ else ⟨.line, 1, true⟩

def turnBlock (depth : Nat) (text : Text) : RustTurn :=
  if ['/', '*'].isPrefixOf text then ⟨.block (depth + 1), 2, true⟩
  else if ['*', '/'].isPrefixOf text then
    ⟨if depth = 1 then .code false else .block (depth - 1), 2, true⟩
  else ⟨.block depth, 1, true⟩

def turnShebang (text : Text) : RustTurn :=
  if ['\n'].isPrefixOf text then ⟨.code false, 1, false⟩ else ⟨.shebang, 1, false⟩

def turn (mode : RustMode) (text : Text) : RustTurn :=
  match mode with
  | .code inWord => lexer.turnCode inWord text
  | .string => turnString text
  | .rawString hashes => turnRawString hashes text
  | .line => turnLine text
  | .block depth => turnBlock depth text
  | .shebang => turnShebang text

/-- For each character whether it belongs to a comment; `left` characters of the last turn are still
to come. -/
def classify : RustMode → Nat → Bool → Text → List Bool
  | _, _, _, [] => []
  | mode, left + 1, comment, _ :: rest => comment :: classify mode left comment rest
  | mode, 0, _, c :: rest =>
    let next := lexer.turn mode (c :: rest)
    next.comment :: classify next.mode (next.length - 1) next.comment rest

def start (content : Text) : RustMode := if lexer.isShebang content then .shebang else .code false

/-- Whether the byte at the offset belongs to a comment of the source. -/
def isCommentByte (content : Text) (offset : Nat) : Bool :=
  (CommentSyntax.perByte content (lexer.classify (lexer.start content) 0 false content))[offset]?.getD
    false

/-! ## What the shipped delimiters take into account

A text is regular where the delimiters of the configuration see what the lexer sees. The condition
is decided at each turn of the lexer, on what stands there.
-/

/-- `r`, with up to three hashes, in front of a quotation mark. -/
def looksRaw : Text → Bool
  | [] => false
  | c :: rest => c == 'r' && (hashesBeforeQuote rest).any (decide <| · ≤ 3)

/-- A place between tokens: a raw string has at most three hashes, nothing else looks like the
opening of a raw string, and a character literal has no quotation mark in it. -/
def regularCode (inWord : Bool) (text : Text) : Bool :=
  (match openRaw inWord text with
    | some (_, hashes) => decide (hashes ≤ 3)
    | none => !looksRaw text) &&
    (charLiteral text).all fun length => !(text.take length).contains '"'

/-- A place in a first line for the loader: no string and no comment seems to begin. -/
def regularShebang (text : Text) : Bool :=
  [['"'], ['/', '/'], ['/', '*']].all (fun token => !token.isPrefixOf text) && !looksRaw text

def regularTurn (mode : RustMode) (text : Text) : Bool :=
  match mode with
  | .code inWord => regularCode inWord text
  | .shebang => regularShebang text
  | .string | .rawString _ | .line | .block _ => true

/-- All the turns of the lexer are taken into account. -/
def regularFrom : RustMode → Nat → Text → Bool
  | _, _, [] => true
  | mode, left + 1, _ :: rest => regularFrom mode left rest
  | mode, 0, c :: rest =>
    regularTurn mode (c :: rest) &&
      regularFrom (lexer.turn mode (c :: rest)).mode ((lexer.turn mode (c :: rest)).length - 1) rest

def regular (content : Text) : Bool := lexer.regularFrom (lexer.start content) 0 content

end RustLexer

end Audit

end Flow

end ArcAdmin
