import ArcAdmin.Flow.Audit.Report

/-!
# A small audit

A checkout with one source and patterns that are plain texts.
-/

namespace ArcAdmin

namespace Flow

namespace Audit

/-- A pattern without special characters. -/
def literal (pattern : Text) : Regex where
  matchAt text start :=
    if tokenAt (Utf8.encode text) start pattern ∧ start ≤ Utf8.size text then
      some (start + Utf8.size pattern)
    else none
  start_le := by
    intro text start stop h
    split at h
    · cases h
      exact Nat.le_add_right _ _
    · exact nomatch h
  stop_le := by
    intro text start stop h
    split at h
    · rename_i htoken
      cases h
      have hlength := (List.isPrefixOf_iff_prefix.1 htoken.1).length_le
      rw [List.length_drop] at hlength
      have hstart := htoken.2
      unfold Utf8.size at hstart ⊢
      omega
    · exact nomatch h

/-- Where the next `last` stands with no semicolon in front of it, in bytes behind the offset. -/
def distance (bytes : List UInt8) (offset : Nat) (last : Text) : Option Nat :=
  (List.range (bytes.length + 1)).find? fun k =>
    tokenAt bytes (offset + k) last && !((bytes.drop offset).take k).contains 59 &&
      decide (offset + k + Utf8.size last ≤ bytes.length)

/-- The pattern `first[^;]*?last`. -/
def between (first last : Text) : Regex where
  matchAt text start :=
    if tokenAt (Utf8.encode text) start first then
      (distance (Utf8.encode text) (start + Utf8.size first) last).map
        fun k => start + Utf8.size first + k + Utf8.size last
    else none
  start_le := by
    intro text start stop h
    split at h
    · obtain ⟨k, -, rfl⟩ := Option.map_eq_some_iff.1 h
      omega
    · exact nomatch h
  stop_le := by
    intro text start stop h
    split at h
    · obtain ⟨k, hk, rfl⟩ := Option.map_eq_some_iff.1 h
      have hfound := List.find?_some hk
      rw [Bool.and_eq_true] at hfound
      exact of_decide_eq_true hfound.2
    · exact nomatch h

/-- A checkout in `/repo` with a source in `src`. -/
def smallCheckout (name content : Text) : Checkout where
  projectRoot := ["repo".toList]
  resolveRepoPath path _ _ := .ok ("repo".toList :: StdPath.segments path)
  newRegex _ pattern := .ok (literal pattern)
  walk _ roots := .ok (roots.map fun root => ⟨root ++ [name], false, .ok content⟩)

/-- The same with the pattern `log\([^;]*?password`. -/
def logCheckout (content : Text) : Checkout :=
  { smallCheckout "a.rs".toList content with
    newRegex := fun _ _ => .ok (between "log(".toList "password".toList) }

def smallEngine (extension : Text) (commentSyntax : CommentSyntax) : EngineConfig where
  ignoreFilename := ".auditignore".toList
  jsonReportFilename := "review_context.json".toList
  markdownReportFilename := "review_context.md".toList
  markdownMaxBytes := 4096
  markdownOccurrencesPerRule := 3
  commentSyntax := [(extension, commentSyntax)]

def slashes : CommentSyntax where
  line := ["//".toList]
  block := [⟨"/*".toList, "*/".toList, true⟩]
  strings := [⟨"\"".toList, "\"".toList, some "\\".toList⟩]

def smallRule (name : Text) (patterns : List Text) : HardRule where
  name := name
  severity := "error".toList
  paths := ["src".toList]
  extensions := ["rs".toList]
  patterns := patterns
  excludePatterns := []
  allowlist := []

def smallConfig (rules : List HardRule) : Config where
  version := 2
  engine := smallEngine "rs".toList slashes
  paths := ⟨[], []⟩
  hardRules := rules
  archRules := []

example : (smallCheckout "a.rs".toList "// DROP\nDROP".toList).scanHardRules
    (smallConfig [smallRule "sql".toList ["DROP".toList]]) [] =
      .ok [⟨["src".toList, "a.rs".toList], 2, "DROP".toList, "sql:DROP".toList⟩] := by
  decide +kernel

end Audit

end Flow

end ArcAdmin
