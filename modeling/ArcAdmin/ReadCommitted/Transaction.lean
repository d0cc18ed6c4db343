import ArcAdmin.ReadCommitted.Store

/-!
# Transactions and what one connection does

One client connection of a PostgreSQL server under READ COMMITTED. The committed state is a
`Server`; a connection holds at most one open transaction, whose writes are private until it
commits and whose row locks keep other writers out. A statement is a short sequence of `Act`s, the
points between which other connections may run:

* `query` takes the statement snapshot of a statement inside the transaction, `poolQuery` that of
  a statement on another pooled connection, which does not see the transaction's own writes;
* `lock`, `update` and `delete` visit one row: they wait for the row lock, re-check the statement's
  condition on the row as it is now (PostgreSQL's EvalPlanQual), and act on that version; a
  `delete` passes over a row that has been deleted and inserted again since the statement selected
  it (`seen`);
* `insert` fails on a duplicate key; its key may be the next number of a sequence.

Every write carries the proof that it respects the row protocol of the schema, so no program can
be written that breaks it. Waiting itself is decided by the world of all connections
(`ReadCommitted.World`).
-/

namespace ReadCommitted

open Schema (Id Row Ev serialNo clash Allowed)

variable {T : Type} [Schema T]

/-! ## Row locks

PostgreSQL has four row lock modes. The three below are those that the statements of this library
take; a key update is not among them, as no statement changes a primary key.
-/

/-- The row lock modes that statements take: a foreign key check, an update of non-key columns,
and a delete or `SELECT … FOR UPDATE`. -/
inductive LockMode where
  | keyShare
  | noKeyUpdate
  | update
deriving DecidableEq, Repr

namespace LockMode

/-- PostgreSQL's conflict table for the three modes. -/
def conflicts : LockMode → LockMode → Bool
  | .keyShare, .update => true
  | .update, .keyShare => true
  | .keyShare, _ => false
  | _, .keyShare => false
  | _, _ => true

/-- The modes that a writer holds. -/
def exclusive : LockMode → Bool
  | .keyShare => false
  | _ => true

theorem conflicts_comm (m n : LockMode) : m.conflicts n = n.conflicts m := by
  cases m <;> cases n <;> rfl

/-- **Two writers of one row conflict.** -/
theorem conflicts_of_exclusive {m n : LockMode} (hm : m.exclusive = true)
    (hn : n.exclusive = true) : m.conflicts n = true := by
  cases m <;> cases n <;> simp_all [exclusive, conflicts]

/-- The strongest mode conflicts with every other. -/
theorem update_conflicts (m : LockMode) : LockMode.update.conflicts m = true := by
  cases m <;> rfl

end LockMode

/-! ## Transactions and the committed state

The writes of a transaction are a list, laid over the committed tables: reading goes through
`Tx.view`, and a commit puts the list into the tables and the events into the journal. Nothing has
to be undone by a rollback, which drops the list.
-/

/-- One row written by a transaction; `none` is a deletion. -/
structure Write (T : Type) [Schema T] where
  table : T
  id : Id table
  value : Option (Row table)

/-- The address that a write goes to. -/
def Write.key (w : Write T) : Key T := ⟨w.table, w.id⟩

/-- A journal entry: the connection that committed it, the row it is about (if any), and the
event. -/
structure Entry (T : Type) [Schema T] where
  pid : Nat
  key : Option (Key T)
  ev : Ev T

/-- An open transaction: when it started, its writes (latest first), the row locks it holds, and
the events it has left so far (earliest first). -/
structure Tx (T : Type) [Schema T] where
  start : Nat
  writes : List (Write T)
  locks : List (Key T × LockMode)
  notes : List (Option (Key T) × Ev T)

/-- The committed state: the tables, the journal of everything committed so far, the clock, and
the next number of the sequences. One counter serves all of them: a sequence promises increasing
numbers, not consecutive ones. -/
structure Server (T : Type) [Schema T] where
  store : Store T
  log : List (Entry T)
  clock : Nat
  seq : Nat

namespace Tx

/-- The tables as the transaction sees them: its own writes over the committed rows. -/
def view (tx : Tx T) (s : Store T) : Store T :=
  tx.writes.foldr (fun w s => s.set w.table w.id w.value) s

/-- Take one more row lock. -/
def acquire (tx : Tx T) (k : Key T) (m : LockMode) : Tx T :=
  { tx with locks := (k, m) :: tx.locks }

/-- Write one row under a lock, leaving events about it. -/
def write (tx : Tx T) (t : T) (id : Id t) (m : LockMode) (v : Option (Row t))
    (evs : List (Ev T)) : Tx T :=
  { tx with
    writes := ⟨t, id, v⟩ :: tx.writes
    locks := (⟨t, id⟩, m) :: tx.locks
    notes := tx.notes ++ evs.map fun e => (some ⟨t, id⟩, e) }

/-- The transaction holds the row lock of a writer on `k`. -/
def Owns (tx : Tx T) (k : Key T) : Prop := ∃ m, m.exclusive = true ∧ (k, m) ∈ tx.locks

@[simp] theorem view_acquire (tx : Tx T) (k : Key T) (m : LockMode) (s : Store T) :
    (tx.acquire k m).view s = tx.view s := rfl

@[simp] theorem view_write (tx : Tx T) (t : T) (id : Id t) (m : LockMode) (v : Option (Row t))
    (evs : List (Ev T)) (s : Store T) :
    (tx.write t id m v evs).view s = (tx.view s).set t id v := rfl

@[simp] theorem start_acquire (tx : Tx T) (k : Key T) (m : LockMode) :
    (tx.acquire k m).start = tx.start := rfl

@[simp] theorem start_write (tx : Tx T) (t : T) (id : Id t) (m : LockMode) (v : Option (Row t))
    (evs : List (Ev T)) : (tx.write t id m v evs).start = tx.start := rfl

@[simp] theorem notes_write (tx : Tx T) (t : T) (id : Id t) (m : LockMode) (v : Option (Row t))
    (evs : List (Ev T)) :
    (tx.write t id m v evs).notes = tx.notes ++ evs.map fun e => (some ⟨t, id⟩, e) := rfl

@[simp] theorem notes_acquire (tx : Tx T) (k : Key T) (m : LockMode) :
    (tx.acquire k m).notes = tx.notes := rfl

/-- **A key without a write of the transaction reads as committed.** -/
theorem view_get_of_unwritten (tx : Tx T) (s : Store T) (t : T) (id : Id t)
    (h : ∀ w ∈ tx.writes, w.key ≠ ⟨t, id⟩) : (tx.view s).get t id = s.get t id := by
  unfold view
  generalize tx.writes = writes at h
  induction writes with
  | nil => rfl
  | cons w ws ih =>
    have hw : (⟨t, id⟩ : Key T) ≠ ⟨w.table, w.id⟩ := fun e => h w (by simp) e.symm
    rw [List.foldr_cons, Store.get_set_of_key_ne _ w.value hw]
    exact ih fun w' hw' => h w' (by simp [hw'])

/-- What a transaction reads at a key depends on the committed row under that key only. -/
theorem view_get_congr (tx : Tx T) {s s' : Store T} (t : T) (id : Id t)
    (h : s.get t id = s'.get t id) : (tx.view s).get t id = (tx.view s').get t id := by
  unfold view
  induction tx.writes with
  | nil => exact h
  | cons w ws ih =>
    by_cases hw : (⟨t, id⟩ : Key T) = ⟨w.table, w.id⟩
    · obtain ⟨u, wid, v⟩ := w
      cases hw
      simp
    · rw [List.foldr_cons, List.foldr_cons, Store.get_set_of_key_ne _ w.value hw,
        Store.get_set_of_key_ne _ w.value hw]
      exact ih

end Tx

namespace Server

/-- Commit a transaction of connection `p`. -/
def commit (s : Server T) (p : Nat) (tx : Tx T) : Server T :=
  { s with
    store := tx.view s.store
    log := s.log ++ tx.notes.map fun n => ⟨p, n.1, n.2⟩ }

@[simp] theorem commit_store (s : Server T) (p : Nat) (tx : Tx T) :
    (s.commit p tx).store = tx.view s.store := rfl

theorem commit_log (s : Server T) (p : Nat) (tx : Tx T) :
    (s.commit p tx).log = s.log ++ tx.notes.map fun n => ⟨p, n.1, n.2⟩ := rfl

@[simp] theorem commit_clock (s : Server T) (p : Nat) (tx : Tx T) :
    (s.commit p tx).clock = s.clock := rfl

@[simp] theorem commit_seq (s : Server T) (p : Nat) (tx : Tx T) :
    (s.commit p tx).seq = s.seq := rfl

end Server

/-! ## Connections

A connection is the pair of what is private to it and what is common to all. Everything that a
program can observe is a function of its connection, which is what makes reasoning about one
connection at a time possible.
-/

/-- What one connection works on: its transaction, if one is open, and the committed state. -/
structure Conn (T : Type) [Schema T] where
  tx : Option (Tx T)
  server : Server T

/-- A statement snapshot: the tables, the value of `now()`, and how much of the journal had been
written when it was taken. -/
structure Snapshot (T : Type) [Schema T] where
  store : Store T
  now : Nat
  asOf : Nat

namespace Conn

/-- The tables as the connection sees them. -/
def view (c : Conn T) : Store T :=
  match c.tx with
  | some tx => tx.view c.server.store
  | none => c.server.store

/-- `now()`: the start of the transaction, or the clock outside one. -/
def now (c : Conn T) : Nat :=
  match c.tx with
  | some tx => tx.start
  | none => c.server.clock

/-- The snapshot of a statement on this connection. -/
def snapshot (c : Conn T) : Snapshot T := ⟨c.view, c.now, c.server.log.length⟩

/-- The row at `k` is locked by a writer: this connection. -/
def Owns (c : Conn T) (k : Key T) : Prop := ∃ tx, c.tx = some tx ∧ tx.Owns k

/-- The events that the open transaction has left so far. -/
def notes (c : Conn T) : List (Option (Key T) × Ev T) :=
  match c.tx with
  | some tx => tx.notes
  | none => []

@[simp] theorem view_some (tx : Tx T) (s : Server T) :
    (⟨some tx, s⟩ : Conn T).view = tx.view s.store := rfl

@[simp] theorem view_none (s : Server T) : (⟨none, s⟩ : Conn T).view = s.store := rfl

@[simp] theorem notes_some (tx : Tx T) (s : Server T) :
    (⟨some tx, s⟩ : Conn T).notes = tx.notes := rfl

@[simp] theorem notes_none (s : Server T) : (⟨none, s⟩ : Conn T).notes = [] := rfl

end Conn

/-! ## Acts

An act is indivisible; between two acts of a program any number of acts of other programs may take
place. A statement is several acts: its snapshot, and one act for each row that it visits.
-/

/-- One indivisible action of a connection. The last argument of each writing act is the proof
that the change is one the row protocol allows. -/
inductive Act (T : Type) [Schema T] : Type where
  | begin
  | commit
  | rollback
  | query
  | poolQuery
  | clock
  | fresh
  | note (e : Ev T)
  | lock (t : T) (id : Id t) (m : LockMode) (recheck : Row t → Bool)
  | update (t : T) (id : Id t) (recheck : Row t → Bool) (set : Row t → Row t)
      (evs : Row t → List (Ev T))
      (ok : ∀ r, recheck r = true → Allowed t id (some r) (some (set r)) (evs r))
  | delete (t : T) (id : Id t) (seen recheck : Row t → Bool)
      (ok : ∀ r, recheck r = true → Allowed t id (some r) none [])
  | insert (t : T) (key : Nat → Id t) (row : Nat → Row t) (evs : Nat → List (Ev T))
      (hkey : ∀ n m, serialNo t (key n) = some m → m = n)
      (ok : ∀ n, Allowed t (key n) none (some (row n)) (evs n))
  | upsert (t : T) (id : Id t) (row : Row t) (set : Row t → Option (Row t))
      (hkey : serialNo t id = none)
      (okInsert : Allowed t id none (some row) [])
      (okUpdate : ∀ r r', set r = some r' → Allowed t id (some r) (some r') [])

/-- What an act returns. An `upsert` says whether it inserted; it returns nothing where the new values
of a row that is there cannot be computed, and leaves that row locked. -/
def Act.Res : Act T → Type
  | .begin | .commit | .rollback | .note _ => Unit
  | .query | .poolQuery => Snapshot T
  | .clock | .fresh => Nat
  | .lock t .. | .update t .. => Option (Row t)
  | .delete .. => Bool
  | .insert t .. => Option (Id t)
  | .upsert t .. => Option (Row t × Bool)

/-- Some row of the table under another key stands in a unique index with `row`, or the key is
taken. -/
def Store.blocks (s : Store T) (t : T) (id : Id t) (row : Row t) : Bool :=
  (s.get t id).isSome || (s.rows t).any fun e => clash t e.2 row

/-- A row is inserted under a key that is free. -/
theorem Store.get_of_blocks {s : Store T} {t : T} {id : Id t} {row : Row t}
    (h : s.blocks t id row = false) : s.get t id = none := by
  simp only [Store.blocks, Bool.or_eq_false_iff] at h
  simpa using h.1

/-- **The effect of one act** on the acting connection `p`. An act that needs a transaction does
nothing when none is open. -/
def Act.step (p : Nat) : (a : Act T) → Conn T → a.Res × Conn T
  | .begin, c => ((), { c with tx := some ⟨c.server.clock, [], [], []⟩ })
  | .commit, c =>
    match c.tx with
    | some tx => ((), ⟨none, c.server.commit p tx⟩)
    | none => ((), c)
  | .rollback, c => ((), { c with tx := none })
  | .query, c => (c.snapshot, c)
  | .poolQuery, c => ((⟨none, c.server⟩ : Conn T).snapshot, c)
  | .clock, c => (c.server.clock, c)
  | .fresh, c => (c.server.seq, { c with server := { c.server with seq := c.server.seq + 1 } })
  | .note e, c =>
    match c.tx with
    | some tx => ((), { c with tx := some { tx with notes := tx.notes ++ [(none, e)] } })
    | none => ((), c)
  -- `SELECT … FOR`: the row is locked whether or not it still satisfies the condition
  | .lock t id m recheck, c =>
    match c.tx, c.view.get t id with
    | some tx, some r =>
      (if recheck r then some r else none, { c with tx := some (tx.acquire ⟨t, id⟩ m) })
    | _, _ => (none, c)
  | .update t id recheck set evs _, c =>
    match c.tx, c.view.get t id with
    | some tx, some r =>
      if recheck r then
        (some (set r), { c with tx := some (tx.write t id .noKeyUpdate (some (set r)) (evs r)) })
      else (none, { c with tx := some (tx.acquire ⟨t, id⟩ .noKeyUpdate) })
    | _, _ => (none, c)
  | .delete t id seen recheck _, c =>
    match c.tx, (c.view.get t id).filter seen with
    | some tx, some r =>
      if recheck r then (true, { c with tx := some (tx.write t id .update none []) })
      else (false, { c with tx := some (tx.acquire ⟨t, id⟩ .update) })
    | _, _ => (false, c)
  -- the number of the sequence is gone even when the unique index refuses the row
  | .insert t key row evs _ _, c =>
    let n := c.server.seq
    let server := { c.server with seq := n + 1 }
    match c.tx with
    | some tx =>
      if c.view.blocks t (key n) (row n) then (none, { c with server })
      else (some (key n), ⟨some (tx.write t (key n) .update (some (row n)) (evs n)), server⟩)
    | none => (none, { c with server })
  -- `ON CONFLICT … DO UPDATE`; no new values means that their arithmetic failed
  | .upsert t id row set _ _ _, c =>
    match c.tx with
    | some tx =>
      match c.view.get t id with
      | some r =>
        match set r with
        | some r' =>
          (some (r', false), { c with tx := some (tx.write t id .noKeyUpdate (some r') []) })
        | none => (none, { c with tx := some (tx.acquire ⟨t, id⟩ .noKeyUpdate) })
      | none => (some (row, true), { c with tx := some (tx.write t id .update (some row) []) })
    | none => (none, c)

/-- **What the visit of an `UPDATE` leaves behind** in the rows of its table. -/
theorem Act.view_update (p : Nat) {t : T} (id : Id t) {recheck : Row t → Bool}
    {set : Row t → Row t} {evs : Row t → List (Ev T)}
    (ok : ∀ r, recheck r = true → Allowed t id (some r) (some (set r)) (evs r)) (tx : Tx T)
    (s : Server T) (i : Id t) :
    ((Act.update t id recheck set evs ok).step p ⟨some tx, s⟩).2.view.get t i =
      if i = id then ((tx.view s.store).get t id).map fun r => if recheck r then set r else r
      else (tx.view s.store).get t i := by
  cases hr : (tx.view s.store).get t id with
  | none =>
    by_cases hi : i = id
    · subst hi
      simp [Act.step, hr]
    · simp [Act.step, hr, hi]
  | some r =>
    by_cases hc : recheck r = true
    · simp [Act.step, hr, hc, Store.get_set]
    · by_cases hi : i = id
      · subst hi
        simp [Act.step, hr, hc]
      · simp [Act.step, hr, hc, hi]

/-- An `UPDATE` changes nothing that is committed. -/
theorem Act.server_update (p : Nat) {t : T} (id : Id t) {recheck : Row t → Bool}
    {set : Row t → Row t} {evs : Row t → List (Ev T)}
    (ok : ∀ r, recheck r = true → Allowed t id (some r) (some (set r)) (evs r)) (c : Conn T) :
    ((Act.update t id recheck set evs ok).step p c).2.server = c.server := by
  obtain ⟨otx, s⟩ := c
  cases otx with
  | none => rfl
  | some tx =>
    cases hr : (tx.view s.store).get t id with
    | none => simp [Act.step, hr]
    | some r => by_cases hc : recheck r = true <;> simp [Act.step, hr, hc]

end ReadCommitted
