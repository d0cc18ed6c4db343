import ArcAdmin.Archive.Archiver

/-!
# What an archiver deletes is archived

Two runs can put their archives under one name: the name says the cutoff only to the second. As
long as batches that share a name are the same, whatever order the steps of the runs come in and
wherever they are killed, each row that was deleted is in a complete archive with its manifest.

* **`Unambiguous`** — no two runs hold different batches under one name;
* **`Inv`** — what holds between the steps: of the table, of each run, and of any two;
* **`inv_step`** — every step keeps it;
* **`archive_keepsRows`** — nothing is lost, nothing young is deleted, and a run alone ends;
* **`archive_overwritten`** — two runs in one second lose a row.
-/

namespace ArcAdmin

namespace Archive

section Invariant

variable (format : Int → String) (sha256 : List Record → String)

/-! ## Archives and manifests

What has to be on the disk for a row that is no longer in the table, and the condition under which
it stays there.
-/

/-- A manifest that fits an archive. -/
def Matches (manifest : Manifest) (stem : Stem) (rows : List Record) : Prop :=
  manifest.archiveFile = (Name.archive stem).text format ∧ manifest.sha256 = sha256 rows ∧
    manifest.recordCount = rows.length ∧ manifest.firstId = stem.first ∧
    manifest.lastId = stem.last

/-- The archive of a batch is complete, synced and under its final name. -/
def HasArchive (d : Directory) (stem : Stem) (rows : List Record) : Prop :=
  d (.archive stem) = some ⟨.archive rows, true⟩

/-- The manifest of a batch is. -/
def HasManifest (d : Directory) (stem : Stem) (rows : List Record) : Prop :=
  ∃ manifest, Matches format sha256 manifest stem rows ∧
    d (.manifest stem) = some ⟨.manifest (some manifest), true⟩

/-- The row is in a complete archive that has its manifest. -/
def Archived (d : Directory) (r : Record) : Prop :=
  ∃ stem rows, r ∈ rows ∧ HasArchive d stem rows ∧ HasManifest format sha256 d stem rows

/-- A run that selects its next batch while another holds one under the same name selects the same
batch. -/
def Unambiguous (s : System) : Event → Prop
  | .advance i _ => ∀ run stem', s.runs[i]? = some run → run.phase = .select →
      stem run.cutoff (archiveBatch s.table run.cutoff run.batchSize) = some stem' →
      ∀ (j : Nat) (other : Run) (rows : List Record) (stage : Stage), j ≠ i →
        s.runs[j]? = some other → other.phase = .working stem' rows stage →
        rows = archiveBatch s.table run.cutoff run.batchSize
  | _ => True

/-! ## The invariant

Three kinds of facts: about the table and the batches that are gone, about the batch of each run,
and about the batches of any two runs. The last kind is what the condition on names is for.
-/

/-- The stages in which the run has its temporary archive. -/
def Stage.archiveTemp : Stage → Bool
  | .writeArchive _ | .syncArchive | .renameArchive => true
  | _ => false

/-- The stages in which the run has its temporary manifest. -/
def Stage.manifestTemp : Stage → Bool
  | .writeManifest | .syncManifest | .renameManifest => true
  | _ => false

/-- The files that a run needs for what it does next. Once the archive has its final name the run
needs it there to the end, with the same content and synced; the same holds of the manifest. -/
def Wants (pid : Nat) (stem : Stem) (rows : List Record) (d : Directory) : Stage → Prop
  | .createArchive => True
  | .writeArchive rest => ∃ lines, lines ++ rest = rows ∧
      d (.archiveTemp stem pid) = some ⟨.archive lines, false⟩
  | .syncArchive => d (.archiveTemp stem pid) = some ⟨.archive rows, false⟩
  | .renameArchive => d (.archiveTemp stem pid) = some ⟨.archive rows, true⟩
  | .createManifest => HasArchive d stem rows
  | .writeManifest => HasArchive d stem rows ∧
      d (.manifestTemp stem pid) = some ⟨.manifest none, false⟩
  | .syncManifest => HasArchive d stem rows ∧ ∃ manifest,
      Matches format sha256 manifest stem rows ∧
      d (.manifestTemp stem pid) = some ⟨.manifest (some manifest), false⟩
  | .renameManifest => HasArchive d stem rows ∧ ∃ manifest,
      Matches format sha256 manifest stem rows ∧
      d (.manifestTemp stem pid) = some ⟨.manifest (some manifest), true⟩
  | .syncDirectory | .delete | .commit => HasArchive d stem rows ∧
      HasManifest format sha256 d stem rows

/-- The table, and the batches that are gone from it. A row that was ever recorded is in the
table or in a batch that was deleted, never in both, and what was deleted is in its archive.
The first row of a deleted batch tells its name. -/
structure TableOk (s : System) : Prop where
  ids : (s.recorded.map (·.1)).Nodup
  tableIds : (s.table.map (·.1)).Nodup
  known : ∀ r ∈ s.table, r ∈ s.recorded
  accounted : ∀ r ∈ s.recorded, r ∈ s.table ∨ ∃ b ∈ s.deleted, r ∈ b.2
  gone : ∀ b ∈ s.deleted, ∀ r ∈ b.2, r ∈ s.recorded ∧ r ∉ s.table
  first : ∀ b ∈ s.deleted, ∃ r ∈ b.2, r.1 = b.1.first
  archived : ∀ b ∈ s.deleted, HasArchive s.directory b.1 b.2 ∧
    HasManifest format sha256 s.directory b.1 b.2

/-- A batch that a run works on. Its rows are known and lie before the cutoff of the run. While
they are locked for the commit, they are all in the table. -/
structure BatchOk (s : System) (run : Run) (stem' : Stem) (rows : List Record) (stage : Stage) :
    Prop where
  stem : stem run.cutoff rows = some stem'
  ids : (rows.map (·.1)).Nodup
  old : ∀ r ∈ rows, r.2.createdAt < run.cutoff
  known : ∀ r ∈ rows, r ∈ s.recorded
  /-- a batch that was deleted under the same name was the same -/
  sameDeleted : ∀ b ∈ s.deleted, b.1 = stem' → b.2 = rows
  locked : stage = .commit → ∀ r ∈ rows, r ∈ s.table
  wants : Wants format sha256 run.pid stem' rows s.directory stage

/-- Two batches that two runs work on. -/
structure Apart (run run' : Run) (stem stem' : Stem) (rows rows' : List Record)
    (stage stage' : Stage) : Prop where
  same : stem = stem' → rows = rows'
  archiveTemp : stage.archiveTemp = true → stage'.archiveTemp = true →
    (stem, run.pid) ≠ (stem', run'.pid)
  manifestTemp : stage.manifestTemp = true → stage'.manifestTemp = true →
    (stem, run.pid) ≠ (stem', run'.pid)
  locks : stage = .commit → stage' = .commit → ∀ r ∈ rows, r ∉ rows'

theorem Apart.symm {run run' : Run} {stem stem' : Stem} {rows rows' : List Record}
    {stage stage' : Stage} (h : Apart run run' stem stem' rows rows' stage stage') :
    Apart run' run stem' stem rows' rows stage' stage where
  same heq := (h.same heq.symm).symm
  archiveTemp ha ha' heq := h.archiveTemp ha' ha heq.symm
  manifestTemp hm hm' heq := h.manifestTemp hm' hm heq.symm
  locks hc hc' r hr hr' := h.locks hc' hc r hr' hr

/-- **What holds between the steps.** -/
structure Inv (s : System) : Prop where
  table : TableOk format sha256 s
  batch : ∀ {i : Nat} {run stem rows stage}, s.runs[i]? = some run →
    run.phase = .working stem rows stage → BatchOk format sha256 s run stem rows stage
  apart : ∀ {i j : Nat} {run run' stem stem' rows rows' stage stage'}, i ≠ j →
    s.runs[i]? = some run → s.runs[j]? = some run' → run.phase = .working stem rows stage →
    run'.phase = .working stem' rows' stage' → Apart run run' stem stem' rows rows' stage stage'

variable {format sha256} {s : System} {i : Nat} {run : Run} {stem' : Stem} {rows : List Record}
  {stage stage' : Stage} {d d' : Directory}

theorem TableOk.eq_of_id (h : TableOk format sha256 s) {r r' : Record} (hr : r ∈ s.recorded)
    (hr' : r' ∈ s.recorded) (hid : r.1 = r'.1) : r = r' :=
  List.inj_on_of_nodup_map h.ids hr hr' hid

/-- A step that changes one run keeps the invariant, if what it does suits that run, and the
others. -/
theorem Inv.set (h : Inv format sha256 s) {s' : System} {run' : Run}
    (hruns : s'.runs = s.runs.set i run') (htable : TableOk format sha256 s')
    (hothers : ∀ (j : Nat) other stem rows stage, j ≠ i → s.runs[j]? = some other →
      other.phase = .working stem rows stage → BatchOk format sha256 s' other stem rows stage)
    (hrun : ∀ stem rows stage, run'.phase = .working stem rows stage →
      BatchOk format sha256 s' run' stem rows stage ∧
      ∀ (j : Nat) other stem' rows' stage', j ≠ i → s.runs[j]? = some other →
        other.phase = .working stem' rows' stage' →
        Apart run' other stem stem' rows rows' stage stage') : Inv format sha256 s' := by
  have hself : ∀ {run₁}, s'.runs[i]? = some run₁ → run₁ = run' := by
    intro run₁ hrun₁
    rw [hruns, List.getElem?_set_self'] at hrun₁
    obtain ⟨_, _, rfl⟩ := Option.map_eq_some_iff.1 hrun₁
    rfl
  have hother : ∀ {j run₁}, j ≠ i → s'.runs[j]? = some run₁ → s.runs[j]? = some run₁ := by
    intro j run₁ hne hrun₁
    rwa [hruns, List.getElem?_set_ne (Ne.symm hne)] at hrun₁
  refine ⟨htable, ?_, ?_⟩
  · intro j run₁ stem rows stage hget hphase
    by_cases hj : j = i
    · subst hj
      obtain rfl := hself hget
      exact (hrun stem rows stage hphase).1
    · exact hothers j run₁ stem rows stage hj (hother hj hget) hphase
  · intro j k run₁ run₂ stem stem' rows rows' stage stage' hne hget₁ hget₂ hphase₁ hphase₂
    by_cases hj : j = i
    · subst hj
      obtain rfl := hself hget₁
      exact (hrun stem rows stage hphase₁).2 k run₂ stem' rows' stage' hne.symm
        (hother hne.symm hget₂) hphase₂
    · by_cases hk : k = i
      · subst hk
        obtain rfl := hself hget₂
        exact ((hrun stem' rows' stage' hphase₂).2 j run₁ stem rows stage hj (hother hj hget₁)
          hphase₁).symm
      · exact h.apart hne (hother hj hget₁) (hother hk hget₂) hphase₁ hphase₂

/-- A run that ends leaves everything as it is. -/
theorem Inv.end (h : Inv format sha256 s) {phase : Phase}
    (hphase : ∀ stem rows stage, phase ≠ .working stem rows stage) :
    Inv format sha256 (s.setPhase i run phase) :=
  h.set rfl ⟨h.table.ids, h.table.tableIds, h.table.known, h.table.accounted, h.table.gone,
      h.table.first, h.table.archived⟩
    (fun _ _ _ _ _ _ hget hp => by
      obtain ⟨h₁, h₂, h₃, h₄, h₅, h₆, h₇⟩ := h.batch hget hp
      exact ⟨h₁, h₂, h₃, h₄, h₅, h₆, h₇⟩)
    fun stem rows stage hp => absurd hp (hphase stem rows stage)

/-! ## Files

A step writes to a temporary file of its own run, or renames one. Final names are shared, so a
rename is where two runs can meet.
-/

/-- The files that a run needs are still there if its temporary files are untouched and no final
file is replaced by another. -/
theorem Wants.frame {pid : Nat} (h : Wants format sha256 pid stem' rows d stage)
    (htempA : stage.archiveTemp = true → d' (.archiveTemp stem' pid) = d (.archiveTemp stem' pid))
    (htempM : stage.manifestTemp = true →
      d' (.manifestTemp stem' pid) = d (.manifestTemp stem' pid))
    (harchive : HasArchive d stem' rows → HasArchive d' stem' rows)
    (hmanifest : HasManifest format sha256 d stem' rows → HasManifest format sha256 d' stem' rows) :
    Wants format sha256 pid stem' rows d' stage := by
  cases stage with
  | createArchive => trivial
  | writeArchive rest =>
    obtain ⟨lines, hlines, htemp⟩ := h
    exact ⟨lines, hlines, (htempA rfl).trans htemp⟩
  | syncArchive => exact (htempA rfl).trans h
  | renameArchive => exact (htempA rfl).trans h
  | createManifest => exact harchive h
  | writeManifest => exact ⟨harchive h.1, (htempM rfl).trans h.2⟩
  | syncManifest => exact ⟨harchive h.1, h.2.imp fun _ hm => ⟨hm.1, (htempM rfl).trans hm.2⟩⟩
  | renameManifest => exact ⟨harchive h.1, h.2.imp fun _ hm => ⟨hm.1, (htempM rfl).trans hm.2⟩⟩
  | syncDirectory => exact h.imp harchive hmanifest
  | delete => exact h.imp harchive hmanifest
  | commit => exact h.imp harchive hmanifest

/-- **A step that changes files** keeps the invariant if it touches no temporary file of another
run and replaces no final file that another run or a deleted batch relies on. -/
theorem Inv.files (h : Inv format sha256 s) (hget : s.runs[i]? = some run)
    (hphase : run.phase = .working stem' rows stage) (hstage : stage' ≠ .commit)
    (htempA : ∀ (j : Nat) other st rs sg, j ≠ i → s.runs[j]? = some other →
      other.phase = .working st rs sg → sg.archiveTemp = true →
      d' (.archiveTemp st other.pid) = s.directory (.archiveTemp st other.pid) ∧
        (stage'.archiveTemp = true → (stem', run.pid) ≠ (st, other.pid)))
    (htempM : ∀ (j : Nat) other st rs sg, j ≠ i → s.runs[j]? = some other →
      other.phase = .working st rs sg → sg.manifestTemp = true →
      d' (.manifestTemp st other.pid) = s.directory (.manifestTemp st other.pid) ∧
        (stage'.manifestTemp = true → (stem', run.pid) ≠ (st, other.pid)))
    (harchive : ∀ st rs, (st = stem' → rs = rows) → HasArchive s.directory st rs →
      HasArchive d' st rs)
    (hmanifest : ∀ st rs, (st = stem' → rs = rows) → HasManifest format sha256 s.directory st rs →
      HasManifest format sha256 d' st rs)
    (hwants : Wants format sha256 run.pid stem' rows d' stage') :
    Inv format sha256 ({ s with directory := d' }.setPhase i run (.working stem' rows stage')) := by
  have hbatch := h.batch hget hphase
  refine h.set rfl ⟨h.table.ids, h.table.tableIds, h.table.known, h.table.accounted, h.table.gone,
    h.table.first, fun b hb => ?_⟩ (fun j other st rs sg hj hgetj hp => ?_) fun st rs sg hp => ?_
  · have hsame : b.1 = stem' → b.2 = rows := hbatch.sameDeleted b hb
    exact ⟨harchive b.1 b.2 hsame (h.table.archived b hb).1,
      hmanifest b.1 b.2 hsame (h.table.archived b hb).2⟩
  · have hother := h.batch hgetj hp
    have hsame : st = stem' → rs = rows := (h.apart hj hgetj hget hp hphase).same
    exact ⟨hother.stem, hother.ids, hother.old, hother.known, hother.sameDeleted, hother.locked,
      hother.wants.frame (fun htemp => (htempA j other st rs sg hj hgetj hp htemp).1)
        (fun htemp => (htempM j other st rs sg hj hgetj hp htemp).1) (harchive st rs hsame)
        (hmanifest st rs hsame)⟩
  · cases hp
    refine ⟨⟨hbatch.stem, hbatch.ids, hbatch.old, hbatch.known, hbatch.sameDeleted,
      fun hc => absurd hc hstage, hwants⟩, fun j other st rs sg hj hgetj hp => ?_⟩
    exact ⟨(h.apart hj.symm hget hgetj hphase hp).same,
      fun ha ha' => (htempA j other st rs sg hj hgetj hp ha').2 ha,
      fun hm hm' => (htempM j other st rs sg hj hgetj hp hm').2 hm, fun hc => absurd hc hstage⟩

/-- A run that only goes on to its next stage. -/
theorem Inv.proceed (h : Inv format sha256 s) (hget : s.runs[i]? = some run)
    (hphase : run.phase = .working stem' rows stage) (hstage : stage' ≠ .commit)
    (hA : stage'.archiveTemp = true → stage.archiveTemp = true)
    (hM : stage'.manifestTemp = true → stage.manifestTemp = true)
    (hwants : Wants format sha256 run.pid stem' rows s.directory stage') :
    Inv format sha256 (s.setPhase i run (.working stem' rows stage')) :=
  h.files hget hphase hstage
    (fun _ _ _ _ _ hj hgetj hp ha =>
      ⟨rfl, fun ha' => (h.apart hj.symm hget hgetj hphase hp).archiveTemp (hA ha') ha⟩)
    (fun _ _ _ _ _ hj hgetj hp hm =>
      ⟨rfl, fun hm' => (h.apart hj.symm hget hgetj hphase hp).manifestTemp (hM hm') hm⟩)
    (fun _ _ _ hx => hx) (fun _ _ _ hx => hx) hwants

/-- A step on the archive of a batch, or on its temporary file. -/
theorem Inv.archiveFiles (h : Inv format sha256 s) (hget : s.runs[i]? = some run)
    (hphase : run.phase = .working stem' rows stage) (hstage : stage' ≠ .commit)
    (hapart : ∀ (j : Nat) other st rs sg, j ≠ i → s.runs[j]? = some other →
      other.phase = .working st rs sg → sg.archiveTemp = true → (stem', run.pid) ≠ (st, other.pid))
    (hd : ∀ name, name ≠ .archiveTemp stem' run.pid → name ≠ .archive stem' →
      d' name = s.directory name)
    (hfinal : HasArchive s.directory stem' rows → HasArchive d' stem' rows)
    (hM : stage'.manifestTemp = false)
    (hwants : Wants format sha256 run.pid stem' rows d' stage') :
    Inv format sha256 ({ s with directory := d' }.setPhase i run (.working stem' rows stage')) := by
  refine h.files hget hphase hstage (fun j other st rs sg hj hgetj hp ha => ?_)
    (fun j other st rs sg _ _ _ _ => ⟨hd _ Name.noConfusion Name.noConfusion, fun hm => ?_⟩)
    (fun st rs hsame hx => ?_)
    (fun st rs _ ⟨m, hm, hx⟩ => ⟨m, hm, (hd _ Name.noConfusion Name.noConfusion).trans hx⟩) hwants
  · have hne := hapart j other st rs sg hj hgetj hp ha
    refine ⟨hd _ (fun heq => hne ?_) Name.noConfusion, fun _ => hne⟩
    injection heq with hst hpid
    rw [hst, hpid]
  · rw [hM] at hm
    cases hm
  · by_cases hst : st = stem'
    · subst hst
      obtain rfl := hsame rfl
      exact hfinal hx
    · exact (hd _ Name.noConfusion fun heq => hst (Name.archive.inj heq)).trans hx

/-- A step on the manifest of a batch, or on its temporary file. -/
theorem Inv.manifestFiles (h : Inv format sha256 s) (hget : s.runs[i]? = some run)
    (hphase : run.phase = .working stem' rows stage) (hstage : stage' ≠ .commit)
    (hapart : ∀ (j : Nat) other st rs sg, j ≠ i → s.runs[j]? = some other →
      other.phase = .working st rs sg → sg.manifestTemp = true → (stem', run.pid) ≠ (st, other.pid))
    (hd : ∀ name, name ≠ .manifestTemp stem' run.pid → name ≠ .manifest stem' →
      d' name = s.directory name)
    (hfinal : HasManifest format sha256 s.directory stem' rows →
      HasManifest format sha256 d' stem' rows)
    (hA : stage'.archiveTemp = false)
    (hwants : Wants format sha256 run.pid stem' rows d' stage') :
    Inv format sha256 ({ s with directory := d' }.setPhase i run (.working stem' rows stage')) := by
  refine h.files hget hphase hstage
    (fun j other st rs sg _ _ _ _ => ⟨hd _ Name.noConfusion Name.noConfusion, fun ha => ?_⟩)
    (fun j other st rs sg hj hgetj hp hm => ?_)
    (fun st rs _ hx => (hd _ Name.noConfusion Name.noConfusion).trans hx)
    (fun st rs hsame hx => ?_) hwants
  · rw [hA] at ha
    cases ha
  · have hne := hapart j other st rs sg hj hgetj hp hm
    refine ⟨hd _ (fun heq => hne ?_) Name.noConfusion, fun _ => hne⟩
    injection heq with hst hpid
    rw [hst, hpid]
  · by_cases hst : st = stem'
    · subst hst
      obtain rfl := hsame rfl
      exact hfinal hx
    · obtain ⟨m, hm, hx⟩ := hx
      exact ⟨m, hm, (hd _ Name.noConfusion fun heq => hst (Name.manifest.inj heq)).trans hx⟩

/-- A run that has its temporary archive shares it with no other. -/
theorem Inv.archiveTemp_apart (h : Inv format sha256 s) (hget : s.runs[i]? = some run)
    (hphase : run.phase = .working stem' rows stage) (hA : stage.archiveTemp = true) :
    ∀ (j : Nat) other st rs sg, j ≠ i → s.runs[j]? = some other →
      other.phase = .working st rs sg → sg.archiveTemp = true →
      (stem', run.pid) ≠ (st, other.pid) :=
  fun _ _ _ _ _ hj hgetj hp ha => (h.apart hj.symm hget hgetj hphase hp).archiveTemp hA ha

theorem Inv.manifestTemp_apart (h : Inv format sha256 s) (hget : s.runs[i]? = some run)
    (hphase : run.phase = .working stem' rows stage) (hM : stage.manifestTemp = true) :
    ∀ (j : Nat) other st rs sg, j ≠ i → s.runs[j]? = some other →
      other.phase = .working st rs sg → sg.manifestTemp = true →
      (stem', run.pid) ≠ (st, other.pid) :=
  fun _ _ _ _ _ hj hgetj hp hm => (h.apart hj.symm hget hgetj hphase hp).manifestTemp hM hm

theorem Wants.archiveTemp_isSome {pid : Nat} (h : Wants format sha256 pid stem' rows d stage)
    (hA : stage.archiveTemp = true) : d (.archiveTemp stem' pid) ≠ none := by
  cases stage with
  | writeArchive rest =>
    obtain ⟨_, _, h⟩ := h
    rw [h]
    exact Option.some_ne_none _
  | syncArchive => exact fun hnone => Option.some_ne_none _ (h.symm.trans hnone)
  | renameArchive => exact fun hnone => Option.some_ne_none _ (h.symm.trans hnone)
  | _ => cases hA

theorem Wants.manifestTemp_isSome {pid : Nat} (h : Wants format sha256 pid stem' rows d stage)
    (hM : stage.manifestTemp = true) : d (.manifestTemp stem' pid) ≠ none := by
  cases stage with
  | writeManifest => exact fun hnone => Option.some_ne_none _ (h.2.symm.trans hnone)
  | syncManifest =>
    obtain ⟨_, _, _, h⟩ := h
    exact fun hnone => Option.some_ne_none _ (h.symm.trans hnone)
  | renameManifest =>
    obtain ⟨_, _, _, h⟩ := h
    exact fun hnone => Option.some_ne_none _ (h.symm.trans hnone)
  | _ => cases hM

/-- **`create_new` keeps runs apart**: the name of a new temporary file is nobody's. -/
theorem Inv.createArchive (h : Inv format sha256 s) (hget : s.runs[i]? = some run)
    (hphase : run.phase = .working stem' rows .createArchive) :
    Inv format sha256 (createNew s i run stem' rows (.archiveTemp stem' run.pid) (.archive [])
      (.writeArchive rows)) := by
  unfold createNew
  split
  · exact h.end fun _ _ _ heq => (nomatch heq)
  · next hnone =>
    refine h.archiveFiles hget hphase Stage.noConfusion (fun j other st rs sg _ hgetj hp ha heq => ?_)
      (fun name hne _ => Function.update_of_ne hne _ _)
      (fun hx => (Function.update_of_ne Name.noConfusion _ _).trans hx) rfl
      ⟨[], rfl, Function.update_self _ _ _⟩
    obtain ⟨rfl, hpid⟩ := Prod.mk.inj heq
    rw [hpid] at hnone
    exact (h.batch hgetj hp).wants.archiveTemp_isSome ha hnone

theorem Inv.createManifest (h : Inv format sha256 s) (hget : s.runs[i]? = some run)
    (hphase : run.phase = .working stem' rows .createManifest) :
    Inv format sha256 (createNew s i run stem' rows (.manifestTemp stem' run.pid) (.manifest none)
      .writeManifest) := by
  unfold createNew
  split
  · exact h.end fun _ _ _ heq => (nomatch heq)
  · next hnone =>
    have hwants : HasArchive s.directory stem' rows := (h.batch hget hphase).wants
    refine h.manifestFiles hget hphase Stage.noConfusion
      (fun j other st rs sg _ hgetj hp hm heq => ?_)
      (fun name hne _ => Function.update_of_ne hne _ _)
      (fun ⟨m, hm, hx⟩ => ⟨m, hm, (Function.update_of_ne Name.noConfusion _ _).trans hx⟩) rfl
      ⟨(Function.update_of_ne Name.noConfusion _ _).trans hwants, Function.update_self _ _ _⟩
    obtain ⟨rfl, hpid⟩ := Prod.mk.inj heq
    rw [hpid] at hnone
    exact (h.batch hgetj hp).wants.manifestTemp_isSome hm hnone

/-- Writing to the temporary archive that the run has. -/
theorem Inv.setArchiveTemp (h : Inv format sha256 s) (hget : s.runs[i]? = some run)
    (hphase : run.phase = .working stem' rows stage) (hA : stage.archiveTemp = true)
    (hstage : stage' ≠ .commit) (hM : stage'.manifestTemp = false) (file : Option File)
    (hwants : Wants format sha256 run.pid stem' rows
      (Function.update s.directory (.archiveTemp stem' run.pid) file) stage') :
    Inv format sha256 ((s.setFile (.archiveTemp stem' run.pid) file).setPhase i run
      (.working stem' rows stage')) :=
  h.archiveFiles hget hphase hstage (h.archiveTemp_apart hget hphase hA)
    (fun _ hne _ => Function.update_of_ne hne _ _)
    (fun hx => (Function.update_of_ne Name.noConfusion _ _).trans hx) hM hwants

theorem Inv.setManifestTemp (h : Inv format sha256 s) (hget : s.runs[i]? = some run)
    (hphase : run.phase = .working stem' rows stage) (hM : stage.manifestTemp = true)
    (hstage : stage' ≠ .commit) (hA : stage'.archiveTemp = false) (file : Option File)
    (hwants : Wants format sha256 run.pid stem' rows
      (Function.update s.directory (.manifestTemp stem' run.pid) file) stage') :
    Inv format sha256 ((s.setFile (.manifestTemp stem' run.pid) file).setPhase i run
      (.working stem' rows stage')) :=
  h.manifestFiles hget hphase hstage (h.manifestTemp_apart hget hphase hM)
    (fun _ hne _ => Function.update_of_ne hne _ _)
    (fun ⟨m, hm, hx⟩ => ⟨m, hm, (Function.update_of_ne Name.noConfusion _ _).trans hx⟩) hA hwants

/-- **The archive gets its final name**: what stood there under this name was the same. -/
theorem Inv.renameArchive (h : Inv format sha256 s) (hget : s.runs[i]? = some run)
    (hphase : run.phase = .working stem' rows .renameArchive) :
    Inv format sha256 (rename s i run stem' rows (.archiveTemp stem' run.pid) (.archive stem')
      .createManifest) := by
  have hwants : s.directory (.archiveTemp stem' run.pid) = some ⟨.archive rows, true⟩ :=
    (h.batch hget hphase).wants
  unfold rename
  rw [hwants]
  have hnew : HasArchive (Function.update
      (Function.update s.directory (.archive stem') (some ⟨.archive rows, true⟩))
      (.archiveTemp stem' run.pid) none) stem' rows :=
    (Function.update_of_ne Name.noConfusion _ _).trans (Function.update_self _ _ _)
  exact h.archiveFiles hget hphase Stage.noConfusion (h.archiveTemp_apart hget hphase rfl)
    (fun name hne hne' => (Function.update_of_ne hne _ _).trans (Function.update_of_ne hne' _ _))
    (fun _ => hnew) rfl hnew

theorem Inv.renameManifest (h : Inv format sha256 s) (hget : s.runs[i]? = some run)
    (hphase : run.phase = .working stem' rows .renameManifest) :
    Inv format sha256 (rename s i run stem' rows (.manifestTemp stem' run.pid) (.manifest stem')
      .syncDirectory) := by
  obtain ⟨harchive, m, hm, hwants⟩ := (h.batch hget hphase).wants
  unfold rename
  rw [hwants]
  have hnew : HasManifest format sha256 (Function.update
      (Function.update s.directory (.manifest stem') (some ⟨.manifest (some m), true⟩))
      (.manifestTemp stem' run.pid) none) stem' rows :=
    ⟨m, hm, (Function.update_of_ne Name.noConfusion _ _).trans (Function.update_self _ _ _)⟩
  refine h.manifestFiles hget hphase Stage.noConfusion (h.manifestTemp_apart hget hphase rfl)
    (fun name hne hne' => (Function.update_of_ne hne _ _).trans (Function.update_of_ne hne' _ _))
    (fun _ => hnew) rfl ⟨?_, hnew⟩
  show Function.update (Function.update s.directory (.manifest stem') _) _ none (.archive stem') = _
  rw [Function.update_of_ne Name.noConfusion, Function.update_of_ne Name.noConfusion]
  exact harchive

/-! ## Statements

Selecting reads the table as it is. A `DELETE` counts the rows that it finds, and its locks keep
other runs from deleting them before the commit.
-/

theorem stem_eq {cutoff : Int} (h : stem cutoff rows = some stem') :
    ∃ r ∈ rows, r.1 = stem'.first := by
  obtain ⟨first, hfirst, h₁⟩ := Option.bind_eq_some_iff.1 h
  obtain ⟨last, _, rfl⟩ := Option.map_eq_some_iff.1 h₁
  exact ⟨first, List.mem_of_head? hfirst, rfl⟩

theorem stem_eq_none {cutoff : Int} : stem cutoff rows = none ↔ rows = [] := by
  cases rows with
  | nil => exact ⟨fun _ => rfl, fun _ => rfl⟩
  | cons r rs =>
    unfold stem
    rw [List.head?_cons, Option.bind_some, Option.map_eq_none_iff, List.getLast?_eq_none_iff]

theorem mem_archiveBatch {table : List Record} {cutoff : Int} {batchSize : Nat} {r : Record}
    (h : r ∈ archiveBatch table cutoff batchSize) : r ∈ table ∧ r.2.createdAt < cutoff := by
  have hsorted := List.mem_of_mem_take h
  rw [(List.perm_insertionSort _ _).mem_iff] at hsorted
  obtain ⟨hmem, hold⟩ := List.mem_filter.1 hsorted
  exact ⟨hmem, by simpa using hold⟩

theorem archiveBatch_ids {table : List Record} {cutoff : Int} {batchSize : Nat}
    (h : (table.map (·.1)).Nodup) : ((archiveBatch table cutoff batchSize).map (·.1)).Nodup := by
  have hexpired : ((expired table cutoff).map (·.1)).Nodup :=
    (List.filter_sublist.map _).nodup h
  have hsorted := (((List.perm_insertionSort (fun a b : Record => a.1 ≤ b.1)
    (expired table cutoff)).map (·.1)).nodup_iff).2 hexpired
  exact ((List.take_sublist _ _).map _).nodup hsorted

/-- **Selecting a batch**: its first row is still there, so no batch was deleted under its name. -/
theorem Inv.select (h : Inv format sha256 s) (hget : s.runs[i]? = some run)
    (hphase : run.phase = .select) {now : Int} (hgood : Unambiguous s (.advance i now))
    (hstem : stem run.cutoff (archiveBatch s.table run.cutoff run.batchSize) = some stem') :
    Inv format sha256 (s.setPhase i run (.working stem'
      (archiveBatch s.table run.cutoff run.batchSize) .createArchive)) := by
  refine h.set rfl ⟨h.table.ids, h.table.tableIds, h.table.known, h.table.accounted, h.table.gone,
    h.table.first, h.table.archived⟩ (fun _ _ _ _ _ _ hgetj hp => ?_) fun st rs sg hp => ?_
  · obtain ⟨h₁, h₂, h₃, h₄, h₅, h₆, h₇⟩ := h.batch hgetj hp
    exact ⟨h₁, h₂, h₃, h₄, h₅, h₆, h₇⟩
  · cases hp
    refine ⟨⟨hstem, archiveBatch_ids h.table.tableIds, fun r hr => (mem_archiveBatch hr).2,
      fun r hr => h.table.known r (mem_archiveBatch hr).1, fun b hb heq => ?_,
      Stage.noConfusion, trivial⟩, fun j other st rs sg hj hgetj hp => ?_⟩
    · obtain ⟨r, hr, hid⟩ := h.table.first b hb
      obtain ⟨r', hr', hid'⟩ := stem_eq hstem
      obtain ⟨hknown, hgone⟩ := h.table.gone b hb r hr
      have hsame : r = r' := h.table.eq_of_id hknown (h.table.known r' (mem_archiveBatch hr').1)
        (by rw [hid, hid', heq])
      exact absurd (hsame ▸ (mem_archiveBatch hr').1) hgone
    · refine ⟨fun heq => ?_, fun ha => (nomatch ha), fun hm => (nomatch hm), Stage.noConfusion⟩
      subst heq
      exact (hgood run _ hget hphase hstem j other rs sg hj hgetj hp).symm

/-- The `DELETE` finds as many rows as it wants only if it finds all of them. -/
theorem mem_of_affected (h : TableOk format sha256 s)
    (hknown : ∀ r ∈ rows, r ∈ s.recorded) {cutoff : Int}
    (hcount : (affected s.table (rows.map (·.1)) cutoff).length = (rows.map (·.1)).length) :
    ∀ r ∈ rows, r ∈ s.table := by
  have hsub : (affected s.table (rows.map (·.1)) cutoff).map (·.1) ⊆ rows.map (·.1) := by
    intro id hid
    obtain ⟨r, hr, rfl⟩ := List.mem_map.1 hid
    have hcond := (List.mem_filter.1 hr).2
    rw [Bool.and_eq_true, List.contains_iff_mem] at hcond
    exact hcond.1
  have hnodup : ((affected s.table (rows.map (·.1)) cutoff).map (·.1)).Nodup :=
    (List.filter_sublist.map _).nodup h.tableIds
  have hperm := (List.subperm_of_subset hnodup hsub).perm_of_length_le
    (by simpa using hcount.ge)
  intro r hr
  obtain ⟨r', hr', hid⟩ := List.mem_map.1 (hperm.mem_iff.2 (List.mem_map_of_mem hr))
  have htable : r' ∈ s.table := (List.mem_filter.1 hr').1
  rwa [← h.eq_of_id (h.known r' htable) (hknown r hr) hid]

/-- **The `DELETE`**: it has found all its rows, and nobody else has locked one of them. -/
theorem Inv.delete (h : Inv format sha256 s) (hget : s.runs[i]? = some run)
    (hphase : run.phase = .working stem' rows .delete)
    (hfree : (s.runs.any fun other => other.locks.any (rows.map (·.1)).contains) = false)
    (hcount : (affected s.table (rows.map (·.1)) run.cutoff).length = (rows.map (·.1)).length) :
    Inv format sha256 (s.setPhase i run (.working stem' rows .commit)) := by
  have hbatch := h.batch hget hphase
  have hall : ∀ r ∈ rows, r ∈ s.table := mem_of_affected h.table hbatch.known hcount
  refine h.set rfl ⟨h.table.ids, h.table.tableIds, h.table.known, h.table.accounted, h.table.gone,
    h.table.first, h.table.archived⟩ (fun _ _ _ _ _ _ hgetj hp => ?_) fun st rs sg hp => ?_
  · obtain ⟨h₁, h₂, h₃, h₄, h₅, h₆, h₇⟩ := h.batch hgetj hp
    exact ⟨h₁, h₂, h₃, h₄, h₅, h₆, h₇⟩
  · cases hp
    refine ⟨⟨hbatch.stem, hbatch.ids, hbatch.old, hbatch.known, hbatch.sameDeleted,
      fun _ => hall, hbatch.wants⟩,
      fun j other st rs sg hj hgetj hp => ?_⟩
    refine ⟨(h.apart hj.symm hget hgetj hphase hp).same, fun ha => (nomatch ha),
      fun hm => (nomatch hm), fun _ hc r hr hr' => ?_⟩
    subst hc
    have hlocks : other.locks = rs.map (·.1) := by
      unfold Run.locks
      rw [hp]
    rw [List.any_eq_false] at hfree
    refine hfree other (List.mem_of_getElem? hgetj) ?_
    rw [hlocks, List.any_eq_true]
    exact ⟨r.1, List.mem_map_of_mem hr', by simpa using ⟨r.2, hr⟩⟩

/-- **The commit**: the rows that go are those of the batch, which is in its archive. -/
theorem Inv.commit (h : Inv format sha256 s) (hget : s.runs[i]? = some run)
    (hphase : run.phase = .working stem' rows .commit) :
    Inv format sha256 ({ s with
      table := remaining s.table (rows.map fun r : Record => r.1) run.cutoff
      deleted := (stem', rows) :: s.deleted }.setPhase i run .select) := by
  have hbatch := h.batch hget hphase
  -- a row stays exactly when it is not in the batch
  have hmem : ∀ r, r ∈ remaining s.table (rows.map (·.1)) run.cutoff ↔
      r ∈ s.table ∧ r ∉ rows := by
    intro r
    unfold remaining
    rw [List.mem_filter]
    refine and_congr_right fun hr => ?_
    rw [Bool.not_eq_true', Bool.and_eq_false_imp, List.contains_iff_mem]
    constructor
    · intro hcond hin
      have hold := hcond (List.mem_map_of_mem hin)
      simp [hbatch.old r hin] at hold
    · intro hnot hid
      obtain ⟨r', hr', heq⟩ := List.mem_map.1 hid
      rw [h.table.eq_of_id (hbatch.known r' hr') (h.table.known r hr) heq] at hr'
      exact absurd hr' hnot
  refine h.set rfl ⟨h.table.ids, (List.filter_sublist.map _).nodup h.table.tableIds,
    fun r hr => h.table.known r ((hmem r).1 hr).1, fun r hr => ?_, ?_, ?_, ?_⟩
    (fun j other st rs sg hj hgetj hp => ?_) fun _ _ _ hp => (nomatch hp)
  · by_cases hin : r ∈ rows
    · exact .inr ⟨(stem', rows), List.mem_cons_self, hin⟩
    · rcases h.table.accounted r hr with htable | ⟨b, hb, hrb⟩
      · exact .inl ((hmem r).2 ⟨htable, hin⟩)
      · exact .inr ⟨b, List.mem_cons_of_mem _ hb, hrb⟩
  · refine List.forall_mem_cons.2 ⟨fun r hr => ⟨hbatch.known r hr, fun hin => ?_⟩,
      fun b hb r hr => ⟨(h.table.gone b hb r hr).1, fun hin => ?_⟩⟩
    · exact ((hmem r).1 hin).2 hr
    · exact (h.table.gone b hb r hr).2 ((hmem r).1 hin).1
  · exact List.forall_mem_cons.2 ⟨stem_eq hbatch.stem, h.table.first⟩
  · exact List.forall_mem_cons.2 ⟨hbatch.wants, h.table.archived⟩
  · obtain ⟨h₁, h₂, h₃, h₄, h₅, h₆, h₇⟩ := h.batch hgetj hp
    have hapart := h.apart hj hgetj hget hp hphase
    refine ⟨h₁, h₂, h₃, h₄, List.forall_mem_cons.2 ⟨fun heq => (hapart.same heq.symm).symm, h₅⟩,
      fun hc r hr => (hmem r).2 ⟨h₆ hc r hr, hapart.locks hc rfl r hr⟩, h₇⟩

/-! ## Runs

The step lemma, by the stage of the run that moves, and the induction over the steps.
-/

theorem Inv.work (h : Inv format sha256 s) (hget : s.runs[i]? = some run)
    (hphase : run.phase = .working stem' rows stage) {now : Int} {s' : System}
    (hstep : work format sha256 s i run now stem' rows stage = some s') : Inv format sha256 s' := by
  have hbatch := h.batch hget hphase
  have hwants := hbatch.wants
  -- one case for each stage: where it writes into its own temporary files, the invariant asks for
  -- what they hold so far
  cases stage with
  | createArchive =>
    cases hstep
    exact h.createArchive hget hphase
  | writeArchive rest =>
    obtain ⟨lines, hlines, htemp⟩ := hwants
    cases rest with
    | nil =>
      cases hstep
      rw [List.append_nil] at hlines
      subst hlines
      exact h.proceed hget hphase Stage.noConfusion (fun _ => rfl) (fun hm => (nomatch hm)) htemp
    | cons row rest =>
      simp only [Archive.work, htemp] at hstep
      cases hstep
      refine h.setArchiveTemp hget hphase rfl Stage.noConfusion rfl _
        ⟨lines ++ [row], ?_, Function.update_self _ _ _⟩
      rw [List.append_assoc]
      exact hlines
  | syncArchive =>
    change s.directory _ = _ at hwants
    simp only [Archive.work, hwants] at hstep
    cases hstep
    exact h.setArchiveTemp hget hphase rfl Stage.noConfusion rfl _ (Function.update_self _ _ _)
  | renameArchive =>
    cases hstep
    exact h.renameArchive hget hphase
  | createManifest =>
    cases hstep
    exact h.createManifest hget hphase
  | writeManifest =>
    cases hstep
    exact h.setManifestTemp hget hphase rfl Stage.noConfusion rfl _
      ⟨(Function.update_of_ne Name.noConfusion _ _).trans hwants.1,
        manifestOf format sha256 run.cutoff now stem' rows, ⟨rfl, rfl, rfl, rfl, rfl⟩,
        Function.update_self _ _ _⟩
  | syncManifest =>
    obtain ⟨harchive, m, hm, htemp⟩ := hwants
    simp only [Archive.work, htemp] at hstep
    cases hstep
    exact h.setManifestTemp hget hphase rfl Stage.noConfusion rfl _
      ⟨(Function.update_of_ne Name.noConfusion _ _).trans harchive, m, hm,
        Function.update_self _ _ _⟩
  | renameManifest =>
    cases hstep
    exact h.renameManifest hget hphase
  | syncDirectory =>
    cases hstep
    exact h.proceed hget hphase Stage.noConfusion (fun ha => (nomatch ha)) (fun hm => (nomatch hm))
      hwants
  | delete =>
    -- rows are deleted only behind the renamed archive and manifest, and not while another run has
    -- locked them
    simp only [Archive.work] at hstep
    split at hstep
    · cases hstep
    · next hfree =>
      split at hstep
      · cases hstep
        exact h.end fun _ _ _ heq => (nomatch heq)
      · next hcount =>
        cases hstep
        rw [Bool.not_eq_true] at hfree
        exact h.delete hget hphase hfree (not_not.1 hcount)
  | commit =>
    cases hstep
    exact h.commit hget hphase

/-- **Every step keeps the invariant.** -/
theorem inv_step {s' : System} {e : Event} (h : Inv format sha256 s) (hgood : Unambiguous s e)
    (hstep : step format sha256 s e = some s') : Inv format sha256 s' := by
  cases e with
  | record row =>
    simp only [step] at hstep
    split at hstep
    · cases hstep
    · next hnew =>
      cases hstep
      rw [List.any_eq_true, not_exists] at hnew
      have hfresh : ∀ r ∈ s.recorded, r.1 ≠ row.1 := fun r hr heq => hnew r ⟨hr, by simp [heq]⟩
      refine ⟨⟨List.nodup_cons.2 ⟨fun hid => ?_, h.table.ids⟩,
        List.nodup_cons.2 ⟨fun hid => ?_, h.table.tableIds⟩, fun r hr => ?_, fun r hr => ?_,
        fun b hb r hr => ⟨List.mem_cons_of_mem _ (h.table.gone b hb r hr).1, fun hin => ?_⟩,
        h.table.first, h.table.archived⟩, fun hget hp => ?_, fun hne hget hget' => ?_⟩
      · obtain ⟨r, hr, heq⟩ := List.mem_map.1 hid
        exact hfresh r hr heq
      · obtain ⟨r, hr, heq⟩ := List.mem_map.1 hid
        exact hfresh r (h.table.known r hr) heq
      · rcases List.mem_cons.1 hr with rfl | hr
        · exact List.mem_cons_self
        · exact List.mem_cons_of_mem _ (h.table.known r hr)
      · rcases List.mem_cons.1 hr with rfl | hr
        · exact .inl List.mem_cons_self
        · exact (h.table.accounted r hr).imp_left (List.mem_cons_of_mem _)
      · rcases List.mem_cons.1 hin with rfl | hin
        · exact hfresh r (h.table.gone b hb r hr).1 rfl
        · exact (h.table.gone b hb r hr).2 hin
      · obtain ⟨h₁, h₂, h₃, h₄, h₅, h₆, h₇⟩ := h.batch hget hp
        exact ⟨h₁, h₂, h₃, fun r hr => List.mem_cons_of_mem _ (h₄ r hr), h₅,
          fun hc r hr => List.mem_cons_of_mem _ (h₆ hc r hr), h₇⟩
      · exact h.apart hne hget hget'
  | start now retentionDays batchSize pid =>
    simp only [step] at hstep
    split at hstep
    · cases hstep
    · cases hstep
      -- the new run stands at the head of its loop
      have hold : ∀ {j : Nat} {other : Run} {stem rows stage},
          (s.runs ++ [(⟨now - retentionDays * 86400000000, min batchSize 100000, pid, .select⟩ :
            Run)])[j]? = some other → other.phase = .working stem rows stage →
          s.runs[j]? = some other := by
        intro j other stem rows stage hget hp
        rcases lt_or_ge j s.runs.length with hlt | hge
        · rwa [List.getElem?_append_left hlt] at hget
        · rw [List.getElem?_append_right hge] at hget
          obtain rfl := List.mem_singleton.1 (List.mem_of_getElem? hget)
          cases hp
      refine ⟨⟨h.table.ids, h.table.tableIds, h.table.known, h.table.accounted, h.table.gone,
        h.table.first, h.table.archived⟩, fun hget hp => ?_, fun hne hget hget' hp hp' => ?_⟩
      · obtain ⟨h₁, h₂, h₃, h₄, h₅, h₆, h₇⟩ := h.batch (hold hget hp) hp
        exact ⟨h₁, h₂, h₃, h₄, h₅, h₆, h₇⟩
      · exact h.apart hne (hold hget hp) (hold hget' hp') hp hp'
  | advance i now =>
    obtain ⟨run, hget, hadvance⟩ := Option.bind_eq_some_iff.1 hstep
    unfold advance at hadvance
    split at hadvance
    · next hphase =>
      simp only at hadvance
      split at hadvance
      · cases hadvance
        exact h.end fun _ _ _ heq => (nomatch heq)
      · next stem' hstem =>
        cases hadvance
        exact h.select hget hphase hgood hstem
    · next stem' rows stage hphase => exact h.work hget hphase hadvance
    · cases hadvance
    · cases hadvance
    · cases hadvance
  | fail i =>
    obtain ⟨run, _, rfl⟩ := Option.map_eq_some_iff.1 hstep
    exact h.end fun _ _ _ heq => (nomatch heq)
  | kill i =>
    obtain ⟨run, _, rfl⟩ := Option.map_eq_some_iff.1 hstep
    exact h.end fun _ _ _ heq => (nomatch heq)

/-- **Nothing is lost** in a run of the system in which batches that share a name are the same. -/
theorem inv_reached {table : List Record} (hids : (table.map (·.1)).Nodup) {directory : Directory}
    (h : Reached format sha256 Unambiguous (System.start table directory) s) :
    Inv format sha256 s := by
  induction h with
  | start =>
    exact ⟨⟨hids, hids, fun _ hr => hr, fun _ hr => .inl hr, fun _ hb => (nomatch hb),
      fun _ hb => (nomatch hb), fun _ hb => (nomatch hb)⟩, fun hget => (nomatch hget),
      fun _ hget => (nomatch hget)⟩
  | step _ hgood hstep ih => exact inv_step ih hgood hstep

/-! ## One step of one run

What a run has left to do gets less with every step, unless it fails.
-/

/-- How many steps of a run are left for its batch. Each step leaves less, which makes a run
alone end. -/
def Stage.left (rows : List Record) : Stage → Nat
  | .createArchive => rows.length + 11
  | .writeArchive rest => rest.length + 10
  | .syncArchive => 9
  | .renameArchive => 8
  | .createManifest => 7
  | .writeManifest => 6
  | .syncManifest => 5
  | .renameManifest => 4
  | .syncDirectory => 3
  | .delete => 2
  | .commit => 1

/-- A step of a run on its batch: the run fails, gets on with the batch, or has deleted it. -/
inductive Proceeds (s : System) (i : Nat) (run : Run) (stem : Stem) (rows : List Record)
    (stage : Stage) (s' : System) : Prop
  | failed (htable : s'.table = s.table) (hruns : s'.runs = s.runs.set i { run with phase := .failed })
  | next (stage' : Stage) (htable : s'.table = s.table)
      (hruns : s'.runs = s.runs.set i { run with phase := .working stem rows stage' })
      (hleft : stage'.left rows < stage.left rows)
  | deleted (htable : s'.table = remaining s.table (rows.map (·.1)) run.cutoff)
      (hruns : s'.runs = s.runs.set i { run with phase := .select })

theorem createNew_proceeds {name : Name} {content : Content}
    (hleft : stage'.left rows < stage.left rows) :
    Proceeds s i run stem' rows stage (createNew s i run stem' rows name content stage') := by
  unfold createNew
  split
  · exact .failed rfl rfl
  · exact .next stage' rfl rfl hleft

theorem rename_proceeds {source target : Name} (hleft : stage'.left rows < stage.left rows) :
    Proceeds s i run stem' rows stage (rename s i run stem' rows source target stage') := by
  unfold rename
  split
  · exact .failed rfl rfl
  · exact .next stage' rfl rfl hleft

theorem work_proceeds {now : Int} {s' : System}
    (h : work format sha256 s i run now stem' rows stage = some s') :
    Proceeds s i run stem' rows stage s' := by
  -- every stage goes on to the next one or fails; only the commit deletes
  cases stage with
  | createArchive =>
    cases h
    exact createNew_proceeds (by simp [Stage.left])
  | writeArchive rest =>
    cases rest with
    | nil =>
      cases h
      exact .next .syncArchive rfl rfl (by simp [Stage.left])
    | cons row rest =>
      simp only [work] at h
      split at h
      · cases h
        exact .next (.writeArchive rest) rfl rfl (by simp [Stage.left])
      · cases h
        exact .failed rfl rfl
  | syncArchive =>
    simp only [work] at h
    split at h
    · cases h
      exact .next .renameArchive rfl rfl (by simp [Stage.left])
    · cases h
      exact .failed rfl rfl
  | renameArchive =>
    cases h
    exact rename_proceeds (by simp [Stage.left])
  | createManifest =>
    cases h
    exact createNew_proceeds (by simp [Stage.left])
  | writeManifest =>
    cases h
    exact .next .syncManifest rfl rfl (by simp [Stage.left])
  | syncManifest =>
    simp only [work] at h
    split at h
    · cases h
      exact .next .renameManifest rfl rfl (by simp [Stage.left])
    · cases h
      exact .failed rfl rfl
  | renameManifest =>
    cases h
    exact rename_proceeds (by simp [Stage.left])
  | syncDirectory =>
    cases h
    exact .next .delete rfl rfl (by simp [Stage.left])
  | delete =>
    simp only [work] at h
    split at h
    · cases h
    · split at h
      · cases h
        exact .failed rfl rfl
      · cases h
        exact .next .commit rfl rfl (by simp [Stage.left])
  | commit =>
    cases h
    exact .deleted rfl rfl

/-- **Only rows before the cutoff of a run are deleted.** -/
theorem step_deletes {s' : System} {e : Event} (h : step format sha256 s e = some s') {r : Record}
    (hr : r ∈ s.table) (hgone : r ∉ s'.table) : ∃ i now run, e = .advance i now ∧
      s.runs[i]? = some run ∧ r.2.createdAt < run.cutoff := by
  cases e with
  | record row =>
    simp only [step] at h
    split at h
    · cases h
    · cases h
      exact absurd (List.mem_cons_of_mem _ hr) hgone
  | start now retentionDays batchSize pid =>
    simp only [step] at h
    split at h
    · cases h
    · cases h
      exact absurd hr hgone
  | advance i now =>
    obtain ⟨run, hget, hadvance⟩ := Option.bind_eq_some_iff.1 h
    refine ⟨i, now, run, rfl, hget, ?_⟩
    unfold advance at hadvance
    split at hadvance
    · simp only at hadvance
      split at hadvance
      · cases hadvance
        exact absurd hr hgone
      · cases hadvance
        exact absurd hr hgone
    · -- of the steps of a run, only the commit takes rows out of the table
      cases work_proceeds hadvance with
      | failed htable _ => exact absurd (htable ▸ hr) hgone
      | next _ htable _ _ => exact absurd (htable ▸ hr) hgone
      | deleted htable _ =>
        rw [htable, remaining, List.mem_filter, not_and] at hgone
        have hcond := hgone hr
        simp only [Bool.not_eq_true', Bool.not_eq_false, Bool.and_eq_true, decide_eq_true_eq]
          at hcond
        exact hcond.2
    · cases hadvance
    · cases hadvance
    · cases hadvance
  | fail i =>
    obtain ⟨run, _, rfl⟩ := Option.map_eq_some_iff.1 h
    exact absurd hr hgone
  | kill i =>
    obtain ⟨run, _, rfl⟩ := Option.map_eq_some_iff.1 h
    exact absurd hr hgone

/-! ## A run alone

With all other runs ended nobody holds a lock, so each `DELETE` finds its rows. Every round takes
at least one row out of the table.
-/

/-- Every other run has ended. -/
def Alone (s : System) (i : Nat) : Prop :=
  ∀ (j : Nat) other, j ≠ i → s.runs[j]? = some other → other.isLive = false

/-- A bound on the steps that a run has left. -/
def todo (table : List Record) (run : Run) : Nat :=
  match run.phase with
  | .select => 13 * (expired table run.cutoff).length + 1
  | .working _ rows stage =>
    stage.left rows +
      (13 * (expired (remaining table (rows.map (·.1)) run.cutoff) run.cutoff).length + 1)
  | .done | .failed | .killed => 0

/-- What a `DELETE` finds and what it leaves. -/
theorem length_expired (table : List Record) (ids : List Nat) (cutoff : Int) :
    (expired table cutoff).length = (affected table ids cutoff).length +
      (expired (remaining table ids cutoff) cutoff).length := by
  induction table with
  | nil => rfl
  | cons r rs ih =>
    unfold expired affected remaining at ih ⊢
    by_cases hold : r.2.createdAt < cutoff
    · by_cases hid : r.1 ∈ ids
      · simp [hold, hid]
        simp at ih
        omega
      · simp [hold, hid]
        simp at ih
        omega
    · simp [hold]
      simpa using ih

/-- A batch is found again by its ids. -/
theorem length_archiveBatch_le (table : List Record) (cutoff : Int) (batchSize : Nat) :
    (archiveBatch table cutoff batchSize).length ≤
      (affected table ((archiveBatch table cutoff batchSize).map (·.1)) cutoff).length := by
  let found : Record → Bool :=
    fun r => ((archiveBatch table cutoff batchSize).map (·.1)).contains r.1
  have hall : (archiveBatch table cutoff batchSize).filter found =
      archiveBatch table cutoff batchSize :=
    List.filter_eq_self.2 fun r hr => List.contains_iff_mem.2 (List.mem_map_of_mem hr)
  have hsub : ((archiveBatch table cutoff batchSize).filter found).Sublist
      (((expired table cutoff).insertionSort fun a b => a.1 ≤ b.1).filter found) :=
    (List.take_sublist _ _).filter _
  have hperm := (List.perm_insertionSort (fun a b : Record => a.1 ≤ b.1)
    (expired table cutoff)).filter found
  have haffected : (expired table cutoff).filter found =
      affected table ((archiveBatch table cutoff batchSize).map (·.1)) cutoff := by
    unfold expired affected
    rw [List.filter_filter]
  rw [← haffected, ← hperm.length_eq, ← hall]
  exact hsub.length_le

theorem stem_length {cutoff : Int} (h : stem cutoff rows = some stem') : 1 ≤ rows.length := by
  obtain ⟨r, hr, _⟩ := stem_eq h
  exact List.length_pos_of_mem hr

variable (format sha256) in
/-- A run alone does not wait. -/
theorem work_isSome (hget : s.runs[i]? = some run) (hphase : run.phase = .working stem' rows stage)
    (halone : Alone s i) (now : Int) :
    ∃ s', work format sha256 s i run now stem' rows stage = some s' := by
  cases stage with
  | delete =>
    -- a run that has ended holds no locks, so that nobody else has locked the rows
    have hfree : (s.runs.any fun other => other.locks.any (rows.map (·.1)).contains) = false := by
      rw [List.any_eq_false]
      intro other hother
      obtain ⟨j, hj⟩ := List.getElem?_of_mem hother
      have hlocks : other.locks = [] := by
        by_cases hji : j = i
        · subst hji
          obtain rfl := Option.some.inj (hget.symm.trans hj)
          unfold Run.locks
          rw [hphase]
        · have hended := halone j other hji hj
          unfold Run.locks
          split
          · next hp =>
            unfold Run.isLive at hended
            rw [hp] at hended
            cases hended
          · rfl
      rw [hlocks]
      exact Bool.false_ne_true
    simp only [work, hfree]
    split
    · next hf => cases hf
    · split
      · exact ⟨_, rfl⟩
      · exact ⟨_, rfl⟩
  | writeArchive rest =>
    cases rest with
    | nil => exact ⟨_, rfl⟩
    | cons row rest =>
      simp only [work]
      split
      · exact ⟨_, rfl⟩
      · exact ⟨_, rfl⟩
  | syncArchive =>
    simp only [work]
    split
    · exact ⟨_, rfl⟩
    · exact ⟨_, rfl⟩
  | syncManifest =>
    simp only [work]
    split
    · exact ⟨_, rfl⟩
    · exact ⟨_, rfl⟩
  | _ => exact ⟨_, rfl⟩

/-- A batch is empty only if no row is left before the cutoff. -/
theorem expired_of_archiveBatch_nil {table : List Record} {cutoff : Int} {batchSize : Nat}
    (hsize : 0 < batchSize) (h : archiveBatch table cutoff batchSize = []) :
    ∀ r ∈ table, cutoff ≤ r.2.createdAt := by
  intro r hr
  by_contra hold
  have hmem : r ∈ expired table cutoff := List.mem_filter.2 ⟨hr, by simpa using hold⟩
  have hsorted := ((List.perm_insertionSort (fun a b : Record => a.1 ≤ b.1)
    (expired table cutoff)).mem_iff).2 hmem
  rcases List.take_eq_nil_iff.1 h with hzero | hnil
  · omega
  · rw [hnil] at hsorted
    cases hsorted

variable (format sha256) in
/-- **A step of a run alone** brings it nearer to its end, where no row before its cutoff is left
unless it fails. -/
theorem advance_alone (hget : s.runs[i]? = some run) (hsize : 0 < run.batchSize)
    (hlive : run.isLive = true) (halone : Alone s i) (now : Int) :
    ∃ s' phase, step format sha256 s (.advance i now) = some s' ∧
      s'.runs = s.runs.set i { run with phase := phase } ∧
      todo s'.table { run with phase := phase } < todo s.table run ∧
      (({ run with phase := phase } : Run).isLive = true ∨ phase = .failed ∨
        phase = .done ∧ ∀ r ∈ s'.table, run.cutoff ≤ r.2.createdAt) := by
  have hstep : step format sha256 s (.advance i now) = advance format sha256 s i run now := by
    simp only [step, hget, Option.bind_some]
  rw [hstep]
  unfold advance
  unfold Run.isLive at hlive
  split at hlive
  · next hphase =>
    -- the run selects its next batch: there is none, or its work begins
    cases hstem : stem run.cutoff (archiveBatch s.table run.cutoff run.batchSize) with
    | none =>
      refine ⟨s.setPhase i run .done, .done, by simp only [hstem], rfl, ?_, .inr (.inr ⟨rfl, ?_⟩)⟩
      · simp only [todo, hphase]
        omega
      · exact expired_of_archiveBatch_nil hsize (stem_eq_none.1 hstem)
    | some stem' =>
      refine ⟨s.setPhase i run (.working stem' (archiveBatch s.table run.cutoff run.batchSize)
        .createArchive), _, by simp only [hstem], rfl, ?_, .inl rfl⟩
      have hlength := length_expired s.table
        ((archiveBatch s.table run.cutoff run.batchSize).map (·.1)) run.cutoff
      have hbatch := length_archiveBatch_le s.table run.cutoff run.batchSize
      have hpos := stem_length hstem
      show (archiveBatch s.table run.cutoff run.batchSize).length + 11 + _ < todo s.table run
      simp only [todo, hphase]
      show _ + (13 * (expired (remaining s.table _ run.cutoff) run.cutoff).length + 1) < _
      omega
  · next stem' rows stage hphase =>
    -- the run works on its batch: some stage is over, or the run has failed
    obtain ⟨s', hwork⟩ := work_isSome format sha256 hget hphase halone now
    have htodo : todo s.table run = stage.left rows +
        (13 * (expired (remaining s.table (rows.map (·.1)) run.cutoff) run.cutoff).length + 1) := by
      simp only [todo, hphase]
    rw [htodo]
    cases work_proceeds hwork with
    | failed htable hruns => exact ⟨s', .failed, hwork, hruns, by simp only [todo]; omega, .inr (.inl rfl)⟩
    | next stage' htable hruns hleft =>
      refine ⟨s', _, hwork, hruns, ?_, .inl rfl⟩
      simp only [todo, htable]
      omega
    | deleted htable hruns =>
      refine ⟨s', _, hwork, hruns, ?_, .inl rfl⟩
      have hpos : 1 ≤ stage.left rows := by cases stage <;> simp [Stage.left]
      simp only [todo, htable]
      omega
  · cases hlive
  · cases hlive
  · cases hlive

variable (format sha256) in
/-- The steps of one run at the given times, with no other step between them. -/
def solo (s : System) (i : Nat) : List Int → System
  | [] => s
  | now :: rest =>
    match step format sha256 s (.advance i now) with
    | some s' => solo s' i rest
    | none => s

/-- **A run alone ends**, and if it does not fail, no row before its cutoff is left. -/
theorem solo_ends {nows : List Int} (hget : s.runs[i]? = some run) (hsize : 0 < run.batchSize)
    (hlive : run.isLive = true) (halone : Alone s i) (hlong : todo s.table run ≤ nows.length) :
    ∃ ended, (solo format sha256 s i nows).runs[i]? = some ended ∧ (ended.phase = .failed ∨
      ended.phase = .done ∧ ∀ r ∈ (solo format sha256 s i nows).table,
        run.cutoff ≤ r.2.createdAt) := by
  -- the induction is on the steps that are left; each of them decreases what is to do
  induction nows generalizing s run with
  | nil =>
    have hpos : 0 < todo s.table run := by
      unfold Run.isLive at hlive
      split at hlive
      · next hphase =>
        simp only [todo, hphase]
        omega
      · next hphase =>
        simp only [todo, hphase]
        omega
      · cases hlive
      · cases hlive
      · cases hlive
    rw [List.length_nil] at hlong
    omega
  | cons now rest ih =>
    obtain ⟨s', phase, hstep, hruns, htodo, hend⟩ :=
      advance_alone format sha256 hget hsize hlive halone now
    have hget' : s'.runs[i]? = some { run with phase := phase } := by
      rw [hruns, List.getElem?_set_self (List.getElem?_eq_some_iff.1 hget).1]
    have halone' : Alone s' i := by
      intro j other hj hgetj
      rw [hruns, List.getElem?_set_ne hj.symm] at hgetj
      exact halone j other hj hgetj
    have hsolo : solo format sha256 s i (now :: rest) = solo format sha256 s' i rest := by
      simp only [solo, hstep]
    rw [hsolo]
    by_cases hlive' : ({ run with phase := phase } : Run).isLive = true
    · rw [List.length_cons] at hlong
      have hrest := ih hget' hsize hlive' halone' (by omega)
      exact hrest
    · -- nothing happens any more
      have hstay : solo format sha256 s' i rest = s' := by
        cases rest with
        | nil => rfl
        | cons next rest =>
          have hnone : step format sha256 s' (.advance i next) = none := by
            simp only [step, hget', Option.bind_some, advance]
            unfold Run.isLive at hlive'
            split at hlive' <;> simp_all
          simp only [solo, hnone]
      rw [hstay]
      exact ⟨_, hget', hend.resolve_left hlive'⟩

/-- Every run was started with a batch size. -/
theorem batchSize_pos {good : System → Event → Prop} {table : List Record} {directory : Directory}
    (h : Reached format sha256 good (System.start table directory) s) :
    ∀ run ∈ s.runs, 0 < run.batchSize := by
  induction h with
  | start => exact fun _ hrun => (nomatch hrun)
  | @step s s' e _ _ hstep ih =>
    -- a step changes the phase of one run, and no batch size
    have hset : ∀ (i : Nat) (run : Run) (phase : Phase), run ∈ s.runs →
        ∀ run' ∈ s.runs.set i { run with phase := phase }, 0 < run'.batchSize := by
      intro i run phase hrun run' hrun'
      rcases List.mem_or_eq_of_mem_set hrun' with hold | rfl
      · exact ih run' hold
      · exact ih run hrun
    cases e with
    | record row =>
      simp only [Archive.step] at hstep
      split at hstep
      · cases hstep
      · cases hstep
        exact ih
    | start now retentionDays batchSize pid =>
      simp only [Archive.step] at hstep
      split at hstep
      · cases hstep
      · next hvalid =>
        cases hstep
        intro run hrun
        rcases List.mem_append.1 hrun with hold | hnew
        · exact ih run hold
        · obtain rfl := List.mem_singleton.1 hnew
          simp only [Bool.or_eq_true, beq_iff_eq, not_or] at hvalid
          show 0 < min batchSize 100000
          omega
    | advance i now =>
      obtain ⟨run, hget, hadvance⟩ := Option.bind_eq_some_iff.1 hstep
      have hrun := List.mem_of_getElem? hget
      unfold advance at hadvance
      split at hadvance
      · simp only at hadvance
        split at hadvance
        · cases hadvance
          exact hset i run _ hrun
        · cases hadvance
          exact hset i run _ hrun
      · cases work_proceeds hadvance with
        | failed _ hruns => exact hruns ▸ hset i run _ hrun
        | next _ _ hruns _ => exact hruns ▸ hset i run _ hrun
        | deleted _ hruns => exact hruns ▸ hset i run _ hrun
      · cases hadvance
      · cases hadvance
      · cases hadvance
    | fail i =>
      obtain ⟨run, hrun, rfl⟩ := Option.map_eq_some_iff.1 hstep
      exact hset i run _ (List.mem_of_getElem? (Option.filter_eq_some_iff.1 hrun).1)
    | kill i =>
      obtain ⟨run, hrun, rfl⟩ := Option.map_eq_some_iff.1 hstep
      exact hset i run _ (List.mem_of_getElem? (Option.filter_eq_some_iff.1 hrun).1)

variable (format sha256) in
/-- **Archiving loses nothing** as long as no two runs hold different batches under one name: every
row that was ever recorded is in the table or in a complete archive that has its manifest. Whatever
the runs do, a row is only deleted by a run whose cutoff it lies before, and a run alone ends, with
no row before its cutoff left unless it fails. -/
theorem archive_keepsRows (table : List Record) (hids : (table.map (·.1)).Nodup)
    (directory : Directory) :
    (∀ s, Reached format sha256 Unambiguous (System.start table directory) s →
      ∀ r ∈ s.recorded, r ∈ s.table ∨ Archived format sha256 s.directory r) ∧
    (∀ s s' e, step format sha256 s e = some s' → ∀ r ∈ s.table, r ∉ s'.table →
      ∃ i now run, e = .advance i now ∧ s.runs[i]? = some run ∧ r.2.createdAt < run.cutoff) ∧
    ∀ s, Reached format sha256 (fun _ _ => True) (System.start table directory) s →
      ∀ (i : Nat) (run : Run) (nows : List Int), s.runs[i]? = some run → run.isLive = true →
        Alone s i → todo s.table run ≤ nows.length →
        ∃ ended, (solo format sha256 s i nows).runs[i]? = some ended ∧ (ended.phase = .failed ∨
          ended.phase = .done ∧ ∀ r ∈ (solo format sha256 s i nows).table,
            run.cutoff ≤ r.2.createdAt) := by
  refine ⟨fun s hs r hr => ?_, fun s s' e hstep r hr hgone => step_deletes hstep hr hgone,
    fun s hs i run nows hget hlive halone hlong =>
      solo_ends hget (batchSize_pos hs run (List.mem_of_getElem? hget)) hlive halone hlong⟩
  have hinv := inv_reached hids hs
  rcases hinv.table.accounted r hr with htable | ⟨b, hb, hrb⟩
  · exact .inl htable
  · exact .inr ⟨b.1, b.2, hrb, hinv.table.archived b hb⟩

end Invariant

/-! ## Two runs in one second

The names of two batches are equal where their first and last ids are and the cutoffs lie in one
second. The batches need not be equal: the ids are not in the order of the times.
-/

/-- A row that was created at a time. -/
def sampleRow (createdAt : Int) : AuditLogRow := {
  actorUserId := none, action := "sample", targetType := "user", targetId := none, details := []
  organizationId := none, departmentId := none, createdAt := createdAt }

/-- Three rows; the second id was created last, by a transaction that began later than that of the
third. -/
def sampleTable : List Record :=
  [(1, sampleRow 0), (2, sampleRow 550000), (3, sampleRow 400000)]

def sampleFormat (second : Int) : String := toString second

def sampleDigest (rows : List Record) : String := toString rows.length

/-- Steps one after the other. -/
def steps (s : System) : List Event → Option System
  | [] => some s
  | e :: rest => (step sampleFormat sampleDigest s e).bind fun s' => steps s' rest

theorem reached_of_steps {s₀ s s' : System} {es : List Event}
    (h : Reached sampleFormat sampleDigest (fun _ _ => True) s₀ s) (hsteps : steps s es = some s') :
    Reached sampleFormat sampleDigest (fun _ _ => True) s₀ s' := by
  induction es generalizing s with
  | nil =>
    cases hsteps
    exact h
  | cons e rest ih =>
    obtain ⟨s₁, hstep, hrest⟩ := Option.bind_eq_some_iff.1 hsteps
    exact ih (.step h trivial hstep) hrest

/-- Two runs whose cutoffs are half a second and six tenths after the epoch. The first selects its
batch; the second selects, archives and deletes its own; then the first renames its archive. -/
def overtaken : List Event :=
  [.start 86400500000 1 100 7, .start 86400600000 1 100 8, .advance 0 0] ++
    List.replicate 15 (.advance 1 0) ++ List.replicate 6 (.advance 0 0)

/-- What the directory goes through. -/
def writes : List (Name × Option File) :=
  let name : Stem := ⟨1, 3, 0⟩
  let one : Record := (1, sampleRow 0)
  let two : Record := (2, sampleRow 550000)
  let three : Record := (3, sampleRow 400000)
  let manifest := manifestOf sampleFormat sampleDigest 600000 0 name [one, two, three]
  [(.archiveTemp name 8, some ⟨.archive [], false⟩),
    (.archiveTemp name 8, some ⟨.archive [one], false⟩),
    (.archiveTemp name 8, some ⟨.archive [one, two], false⟩),
    (.archiveTemp name 8, some ⟨.archive [one, two, three], false⟩),
    (.archiveTemp name 8, some ⟨.archive [one, two, three], true⟩),
    (.archive name, some ⟨.archive [one, two, three], true⟩), (.archiveTemp name 8, none),
    (.manifestTemp name 8, some ⟨.manifest none, false⟩),
    (.manifestTemp name 8, some ⟨.manifest (some manifest), false⟩),
    (.manifestTemp name 8, some ⟨.manifest (some manifest), true⟩),
    (.manifest name, some ⟨.manifest (some manifest), true⟩), (.manifestTemp name 8, none),
    (.archiveTemp name 7, some ⟨.archive [], false⟩),
    (.archiveTemp name 7, some ⟨.archive [one], false⟩),
    (.archiveTemp name 7, some ⟨.archive [one, three], false⟩),
    (.archiveTemp name 7, some ⟨.archive [one, three], true⟩),
    (.archive name, some ⟨.archive [one, three], true⟩), (.archiveTemp name 7, none)]

def written (d : Directory) : List (Name × Option File) → Directory
  | [] => d
  | (name, file) :: rest => written (Function.update d name file) rest

theorem written_of_not_mem {name : Name} {ws : List (Name × Option File)}
    (h : name ∉ ws.map (·.1)) (d : Directory) : written d ws name = d name := by
  induction ws generalizing d with
  | nil => rfl
  | cons w rest ih =>
    rw [List.map_cons, List.mem_cons, not_or] at h
    exact (ih h.2 _).trans (Function.update_of_ne h.1 _ _)

/-- **A later file replaces one whose rows are gone**: the second row is neither in the table nor
in an archive. -/
theorem archive_overwritten : ∃ s, Reached sampleFormat sampleDigest (fun _ _ => True)
    (System.start sampleTable fun _ => none) s ∧ ∃ r ∈ s.recorded, r ∉ s.table ∧
      ¬Archived sampleFormat sampleDigest s.directory r := by
  obtain ⟨s, hsteps, hrecorded, htable, hdirectory⟩ : ∃ s,
      steps (System.start sampleTable fun _ => none) overtaken = some s ∧
      s.recorded = sampleTable ∧ s.table = [] ∧ s.directory = written (fun _ => none) writes :=
    ⟨_, rfl, rfl, rfl, rfl⟩
  refine ⟨s, reached_of_steps .start hsteps, (2, sampleRow 550000), ?_, ?_, ?_⟩
  · rw [hrecorded]
    decide
  · rw [htable]
    exact List.not_mem_nil
  · rintro ⟨name, rows, hr, harchive, _⟩
    rw [hdirectory] at harchive
    by_cases hname : name = ⟨1, 3, 0⟩
    · subst hname
      have hlast : written (fun _ => none) writes (.archive ⟨1, 3, 0⟩) =
          some ⟨.archive [(1, sampleRow 0), (3, sampleRow 400000)], true⟩ := rfl
      cases hlast.symm.trans harchive
      revert hr
      decide
    · have hnone : written (fun _ => none) writes (.archive name) = none :=
        written_of_not_mem (by simp [writes, hname]) _
      cases hnone.symm.trans harchive

/-- A run with nobody else about ends. -/
theorem archive_keepsRows_sample : ∃ s ended,
    steps (System.start sampleTable fun _ => none) [.start 86400500000 1 100 7] = some s ∧
    (solo sampleFormat sampleDigest s 0 (List.replicate 40 0)).runs[0]? = some ended ∧
    (ended.phase = .failed ∨ ended.phase = .done ∧
      ∀ r ∈ (solo sampleFormat sampleDigest s 0 (List.replicate 40 0)).table,
        500000 ≤ r.2.createdAt) := by
  obtain ⟨s, hsteps, hruns, htable⟩ : ∃ s,
      steps (System.start sampleTable fun _ => none) [.start 86400500000 1 100 7] = some s ∧
      s.runs = [⟨500000, 100, 7, .select⟩] ∧ s.table = sampleTable := ⟨_, rfl, rfl, rfl⟩
  have halone : Alone s 0 := by
    intro j other hj hget
    rw [hruns] at hget
    obtain ⟨hlt, _⟩ := List.getElem?_eq_some_iff.1 hget
    simp only [List.length_singleton] at hlt
    omega
  obtain ⟨ended, hended, hphase⟩ := (archive_keepsRows sampleFormat sampleDigest sampleTable
    (by decide) fun _ => none).2.2 s (reached_of_steps .start hsteps) 0
    ⟨500000, 100, 7, .select⟩ (List.replicate 40 0) (by rw [hruns]; rfl) rfl halone
    (by rw [htable]; decide)
  exact ⟨s, ended, hsteps, hended, hphase⟩

end Archive

end ArcAdmin
