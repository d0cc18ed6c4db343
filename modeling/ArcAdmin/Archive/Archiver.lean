import ArcAdmin.Schema
import Mathlib.Data.List.Sort
import Mathlib.Logic.Function.Basic

/-!
# The audit archiver

`bin/archive_audit_logs.rs` with the two queries of `repositories/audit_logs.rs` that only it uses.
Several archivers can run against one database and one directory; each is a sequence of system
calls and statements, between which the others proceed and each can be killed. A file that was
created exclusively is written line by line, synced and renamed over the final name; a manifest
goes the same way; then the rows are deleted.

The database keeps `audit_logs` append-only: its triggers let no statement change or delete a row
but that of `delete_archived`, so that everyone else only adds rows. Times are in microseconds.
-/

namespace ArcAdmin

namespace Archive

/-- A row of `audit_logs` with its id. -/
abbrev Record := Nat × AuditLogRow

/-! ## Queries

The queries as functions of the table. `affected` selects by the ids of the batch and by the
cutoff once more.
-/

/-- `created_at < $1`. -/
def expired (table : List Record) (cutoff : Int) : List Record :=
  table.filter fun r => r.2.createdAt < cutoff

/-- `audit_logs::archive_batch`. -/
def archiveBatch (table : List Record) (cutoff : Int) (batchSize : Nat) : List Record :=
  ((expired table cutoff).insertionSort fun a b => a.1 ≤ b.1).take batchSize

/-- The rows that the `DELETE` of `delete_archived` finds. -/
def affected (table : List Record) (ids : List Nat) (cutoff : Int) : List Record :=
  table.filter fun r => ids.contains r.1 && r.2.createdAt < cutoff

/-- The rows that it leaves. -/
def remaining (table : List Record) (ids : List Nat) (cutoff : Int) : List Record :=
  table.filter fun r => !(ids.contains r.1 && r.2.createdAt < cutoff)

/-! ## Files

A file has content, and a mark whether it has been synced. A rename replaces whatever had the
name.
-/

/-- What the names of a batch are made of: the first and the last id, and the cutoff, formatted as
`%Y%m%dT%H%M%SZ`, which is a function of its second. -/
structure Stem where
  first : Nat
  last : Nat
  second : Int
  deriving DecidableEq

/-- The stem of a batch, unless it is empty. -/
def stem (cutoff : Int) (rows : List Record) : Option Stem :=
  rows.head?.bind fun first => rows.getLast?.map fun last =>
    { first := first.1, last := last.1, second := cutoff / 1000000 }

/-- The names in the output directory. -/
inductive Name where
  | archive (stem : Stem)
  | archiveTemp (stem : Stem) (pid : Nat)
  | manifest (stem : Stem)
  | manifestTemp (stem : Stem) (pid : Nat)
  deriving DecidableEq

section Text

-- `cutoff.format("%Y%m%dT%H%M%SZ")` of the second of a cutoff
variable (format : Int → String)

def Stem.text (stem : Stem) : String :=
  s!"audit-{stem.first}-{stem.last}-{format stem.second}"

def Name.text : Name → String
  | .archive stem => s!"{stem.text format}.jsonl"
  | .archiveTemp stem pid => s!".{stem.text format}.jsonl.{pid}.tmp"
  | .manifest stem => s!"{stem.text format}.manifest.json"
  | .manifestTemp stem pid => s!".{stem.text format}.manifest.json.{pid}.tmp"

end Text

/-- `ArchiveManifest`. -/
structure Manifest where
  schemaVersion : Nat
  archiveFile : String
  sha256 : String
  recordCount : Nat
  firstId : Nat
  lastId : Nat
  cutoff : Int
  createdAt : Int
  deriving DecidableEq

/-- What a file holds: the rows of an archive, one a line, or a manifest once it is written. -/
inductive Content where
  | archive (lines : List Record)
  | manifest (manifest : Option Manifest)
  deriving DecidableEq

structure File where
  content : Content
  synced : Bool
  deriving DecidableEq

abbrev Directory := Name → Option File

/-! ## State

A run is at one stage of one batch at a time. What it has read of the table is in its stage; the
table itself may have changed since.
-/

/-- Where an archiver stands with its batch: the next thing that it does. -/
inductive Stage where
  | createArchive
  | writeArchive (rest : List Record)
  | syncArchive
  | renameArchive
  | createManifest
  | writeManifest
  | syncManifest
  | renameManifest
  | syncDirectory
  | delete
  | commit
  deriving DecidableEq

inductive Phase where
  /-- the head of the loop -/
  | select
  | working (stem : Stem) (rows : List Record) (stage : Stage)
  | done
  | failed
  | killed
  deriving DecidableEq

/-- One run of the archiver. -/
structure Run where
  cutoff : Int
  batchSize : Nat
  pid : Nat
  phase : Phase
  deriving DecidableEq

/-- The ids that a run has locked: those that its open transaction has deleted. -/
def Run.locks (run : Run) : List Nat :=
  match run.phase with
  | .working _ rows .commit => rows.map (·.1)
  | _ => []

structure System where
  table : List Record
  directory : Directory
  runs : List Run
  /-- auxiliary: every row that was ever in the table -/
  recorded : List Record
  /-- auxiliary: the batches that were deleted -/
  deleted : List (Stem × List Record)

namespace System

/-- The table and the directory before the first archiver. -/
def start (table : List Record) (directory : Directory) : System :=
  { table := table, directory := directory, runs := [], recorded := table, deleted := [] }

def setPhase (s : System) (i : Nat) (run : Run) (phase : Phase) : System :=
  { s with runs := s.runs.set i { run with phase := phase } }

/-- A file is created, written, synced or, with `none`, goes away. -/
def setFile (s : System) (name : Name) (file : Option File) : System :=
  { s with directory := Function.update s.directory name file }

end System

/-! ## Steps

One step is one system call or one statement of one run. A run may be killed before any of them,
and its files stay.
-/

section Step

variable (format : Int → String)
-- SHA-256 of the lines of an archive, in hexadecimal
variable (sha256 : List Record → String)

/-- The manifest of a batch. -/
def manifestOf (cutoff createdAt : Int) (stem : Stem) (rows : List Record) : Manifest := {
  schemaVersion := 1
  archiveFile := (Name.archive stem).text format
  sha256 := sha256 rows
  recordCount := rows.length
  firstId := stem.first
  lastId := stem.last
  cutoff := cutoff
  createdAt := createdAt }

/-- `create_new`, after which the run goes on with `stage`. -/
def createNew (s : System) (i : Nat) (run : Run) (stem : Stem) (rows : List Record) (name : Name)
    (content : Content) (stage : Stage) : System :=
  match s.directory name with
  | some _ => s.setPhase i run .failed
  | none => (s.setFile name (some ⟨content, false⟩)).setPhase i run (.working stem rows stage)

/-- `rename`, after which the run goes on with `stage`. -/
def rename (s : System) (i : Nat) (run : Run) (stem : Stem) (rows : List Record)
    (source target : Name) (stage : Stage) : System :=
  match s.directory source with
  | none => s.setPhase i run .failed
  | some file =>
    ((s.setFile target (some file)).setFile source none).setPhase i run (.working stem rows stage)

/-- One thing that a run does for its batch: the system calls of `write_archive` and the statements
of `delete_archived`. The `DELETE` waits while another run has locked one of its rows. -/
def work (s : System) (i : Nat) (run : Run) (now : Int) (stem : Stem) (rows : List Record) :
    Stage → Option System
  | .createArchive =>
    some (createNew s i run stem rows (.archiveTemp stem run.pid) (.archive [])
      (.writeArchive rows))
  -- one record at a time, so that a crash may leave half an archive
  | .writeArchive (row :: rest) =>
    match s.directory (.archiveTemp stem run.pid) with
    | some ⟨.archive lines, _⟩ =>
      some ((s.setFile (.archiveTemp stem run.pid) (some ⟨.archive (lines ++ [row]), false⟩)).setPhase
        i run (.working stem rows (.writeArchive rest)))
    | _ => some (s.setPhase i run .failed)
  | .writeArchive [] => some (s.setPhase i run (.working stem rows .syncArchive))
  | .syncArchive =>
    match s.directory (.archiveTemp stem run.pid) with
    | some ⟨content, _⟩ =>
      some ((s.setFile (.archiveTemp stem run.pid) (some ⟨content, true⟩)).setPhase i run
        (.working stem rows .renameArchive))
    | none => some (s.setPhase i run .failed)
  -- from here on the archive has its final name
  | .renameArchive =>
    some (rename s i run stem rows (.archiveTemp stem run.pid) (.archive stem) .createManifest)
  | .createManifest =>
    some (createNew s i run stem rows (.manifestTemp stem run.pid) (.manifest none) .writeManifest)
  | .writeManifest =>
    some ((s.setFile (.manifestTemp stem run.pid)
      (some ⟨.manifest (some (manifestOf format sha256 run.cutoff now stem rows)), false⟩)).setPhase
        i run (.working stem rows .syncManifest))
  | .syncManifest =>
    match s.directory (.manifestTemp stem run.pid) with
    | some ⟨content, _⟩ =>
      some ((s.setFile (.manifestTemp stem run.pid) (some ⟨content, true⟩)).setPhase i run
        (.working stem rows .renameManifest))
    | none => some (s.setPhase i run .failed)
  | .renameManifest =>
    some (rename s i run stem rows (.manifestTemp stem run.pid) (.manifest stem) .syncDirectory)
  | .syncDirectory => some (s.setPhase i run (.working stem rows .delete))
  -- the DELETE waits for rows that another run has locked, and has to hit them all
  | .delete =>
    let ids := rows.map (·.1)
    if s.runs.any fun other => other.locks.any ids.contains then none
    else if (affected s.table ids run.cutoff).length ≠ ids.length then
      some (s.setPhase i run .failed)
    else some (s.setPhase i run (.working stem rows .commit))
  -- only now are the rows gone; the loop selects the next batch
  | .commit =>
    let ids := rows.map (·.1)
    some ({ s with
      table := remaining s.table ids run.cutoff
      deleted := (stem, rows) :: s.deleted }.setPhase i run .select)

/-- The next thing that a run does: at the head of the loop it selects a batch, and ends when there
is none. -/
def advance (s : System) (i : Nat) (run : Run) (now : Int) : Option System :=
  match run.phase with
  | .select =>
    let rows := archiveBatch s.table run.cutoff run.batchSize
    match stem run.cutoff rows with
    | none => some (s.setPhase i run .done)
    | some stem => some (s.setPhase i run (.working stem rows .createArchive))
  | .working stem rows stage => work format sha256 s i run now stem rows stage
  | .done | .failed | .killed => none

/-- What can happen. -/
inductive Event where
  /-- a request records an audit row -/
  | record (row : Record)
  /-- an archiver is started -/
  | start (now : Int) (retentionDays batchSize : Nat) (pid : Nat)
  /-- a run does its next step, at a time -/
  | advance (i : Nat) (now : Int)
  /-- a system call or a statement of a run returns an error -/
  | fail (i : Nat)
  /-- a run is killed -/
  | kill (i : Nat)

/-- Whether a run is still going. -/
def Run.isLive (run : Run) : Bool :=
  match run.phase with
  | .select | .working _ _ _ => true
  | .done | .failed | .killed => false

def step (s : System) : Event → Option System
  | .record row =>
    -- `BIGSERIAL` gives every id once
    if s.recorded.any fun r => r.1 == row.1 then none
    else some { s with table := row :: s.table, recorded := row :: s.recorded }
  | .start now retentionDays batchSize pid =>
    if retentionDays == 0 || batchSize == 0 then none
    else some { s with runs := s.runs ++ [{
      cutoff := now - retentionDays * 86400000000
      batchSize := min batchSize 100000
      pid := pid
      phase := .select }] }
  | .advance i now => s.runs[i]?.bind fun run => advance format sha256 s i run now
  | .fail i => (s.runs[i]?.filter Run.isLive).map fun run => s.setPhase i run .failed
  | .kill i => (s.runs[i]?.filter Run.isLive).map fun run => s.setPhase i run .killed

/-- The states that the system can reach by steps that satisfy `good`. -/
inductive Reached (good : System → Event → Prop) (s₀ : System) : System → Prop
  | start : Reached good s₀ s₀
  | step {s s' : System} {e : Event} (h : Reached good s₀ s) (hgood : good s e)
      (hstep : step format sha256 s e = some s') : Reached good s₀ s'

end Step

end Archive

end ArcAdmin
