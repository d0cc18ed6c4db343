import ArcAdmin.ReadCommitted.Contract

/-!
# SQL statements as programs

A statement takes one snapshot and then visits the rows it selects, one by one. A row that
another transaction has changed in between is waited for and tested again on its newest version;
a row that appears after the snapshot is not visited.

* **`Update`**, **`Delete`** — `UPDATE … WHERE` and `DELETE … WHERE`;
* **`SelectForUpdate`** — `SELECT … FOR UPDATE`;
* **`Insert`** — `INSERT … VALUES`, with the error of a violated unique index;
* **`references`** — a foreign key check, which locks the parent row in share mode;
* **`Triple.visit`** and the `Ends` lemmas — what a statement does, under interference and alone.
-/

namespace ReadCommitted

open Schema (Id Row Ev serialNo clash Allowed)
open Prog (perform)

variable {T : Type} [Schema T] {ε α β ι : Type}

/-! ## Statements without rows

The acts that are statements by themselves. The clock of the application and the random numbers
are drawn from the server as well, so that a run has one source of both.
-/

/-- The snapshot of a statement inside the open transaction. -/
def query : Prog T ε (Snapshot T) := perform .query

/-- The snapshot of a statement on another connection of the pool. -/
def poolQuery : Prog T ε (Snapshot T) := perform .poolQuery

/-- The clock of the application server. -/
def utcNow : Prog T ε Nat := perform .clock

/-- A number that has never been drawn before: a random value. -/
def fresh : Prog T ε Nat := perform .fresh

/-- `BEGIN`. -/
def beginTx : Prog T ε Unit := perform .begin

/-- `COMMIT`. -/
def commitTx : Prog T ε Unit := perform .commit

/-- `ROLLBACK`. -/
def rollbackTx : Prog T ε Unit := perform .rollback

/-- Leave an event that is not about one row. -/
def noteEvent (e : Ev T) : Prog T ε Unit := perform (.note e)

/-- Do `f` for every element of the list, in order, and collect what it returns. -/
def visit : List ι → (ι → Prog T ε (Option β)) → Prog T ε (List β)
  | [], _ => .ret []
  | i :: is, f => do
    let b ← f i
    let bs ← visit is f
    return b.toList ++ bs

/-- The keys of the rows of table `t` that satisfy `cond` in the snapshot. -/
def Snapshot.matching (s : Snapshot T) (t : T) (cond : Id t → Row t → Bool) : List (Id t) :=
  ((s.store.rows t).filter fun e => cond e.1 e.2).map Prod.fst

/-! ## Statements over rows

The condition of a statement is tested twice: on the row of the snapshot, where it selects, and on
the newest version once the row lock is held. Subqueries of the condition keep reading the
snapshot, as they do in PostgreSQL.
-/

/-- `UPDATE t SET set WHERE cond`: subqueries of the condition read the statement snapshot, and
`evs` is what the change of one row leaves in the journal. -/
structure Update (T : Type) [Schema T] (t : T) where
  cond : Snapshot T → Id t → Row t → Bool
  set : Snapshot T → Row t → Row t
  evs : Snapshot T → Row t → List (Ev T)
  ok : ∀ s id r, cond s id r = true → Allowed t id (some r) (some (set s r)) (evs s r)

/-- Visit the rows that the statement selects in the snapshot `s`. -/
def Update.execOn {t : T} (u : Update T t) (s : Snapshot T) : Prog T ε (List (Row t)) :=
  visit (s.matching t (u.cond s)) fun id =>
    perform (.update t id (u.cond s id) (u.set s) (u.evs s) (u.ok s id))

/-- Run the statement; its result is the list of the new rows. -/
def Update.exec {t : T} (u : Update T t) : Prog T ε (List (Row t)) := do
  let s ← query
  u.execOn s

/-- `DELETE FROM t WHERE cond`. `seen` tells whether a row is the one that was selected: where keys
are not used twice it always is. -/
structure Delete (T : Type) [Schema T] (t : T) where
  cond : Snapshot T → Id t → Row t → Bool
  seen : Snapshot T → Id t → Row t → Bool := fun _ _ _ => true
  ok : ∀ s id r, cond s id r = true → Allowed t id (some r) none []

/-- Visit the rows that the statement selects in the snapshot `s`. -/
def Delete.execOn {t : T} (d : Delete T t) (s : Snapshot T) : Prog T ε (List (Id t)) :=
  visit (s.matching t (d.cond s)) fun id => do
    let gone : Bool ← perform (.delete t id (d.seen s id) (d.cond s id) (d.ok s id))
    return if gone then some id else none

/-- Run the statement; its result is the list of the deleted keys. -/
def Delete.exec {t : T} (d : Delete T t) : Prog T ε (List (Id t)) := do
  let s ← query
  d.execOn s

/-- `SELECT … FROM t WHERE cond FOR UPDATE`. -/
def selectForUpdate (t : T) (cond : Snapshot T → Id t → Row t → Bool) :
    Prog T ε (List (Id t × Row t)) := do
  let s ← query
  visit (s.matching t (cond s)) fun id => do
    let row : Option (Row t) ← perform (.lock t id .update (cond s id))
    return row.map fun r => (id, r)

/-- `INSERT INTO t VALUES …`: the key may use the next number of the table's sequence. -/
structure Insert (T : Type) [Schema T] (t : T) where
  key : Nat → Id t
  row : Nat → Row t
  evs : Nat → List (Ev T)
  hkey : ∀ n m, serialNo t (key n) = some m → m = n
  ok : ∀ n, Allowed t (key n) none (some (row n)) (evs n)

/-- Run the statement; `dup` is the error of a violated unique index. -/
def Insert.exec {t : T} (i : Insert T t) (dup : ε) : Prog T ε (Id t) := do
  let key ← perform (.insert t i.key i.row i.evs i.hkey i.ok)
  Prog.okOr key dup

/-- `REFERENCES t`: the parent row must exist and agree on the referenced columns (`cond`); it
stays locked against deletion. -/
def references (t : T) (id : Id t) (cond : Row t → Bool) (missing : ε) : Prog T ε Unit := do
  let row : Option (Row t) ← perform (.lock t id .keyShare cond)
  Prog.reject row.isNone missing

/-- `INSERT INTO t VALUES … ON CONFLICT DO UPDATE` on a natural primary key. The new values of a row
that is there may be ones that cannot be computed. -/
structure Upsert (T : Type) [Schema T] (t : T) where
  id : Id t
  row : Row t
  set : Row t → Option (Row t)
  hkey : serialNo t id = none
  okInsert : Allowed t id none (some row) []
  okUpdate : ∀ r r', set r = some r' → Allowed t id (some r) (some r') []

/-- Run the statement; its result is the new row, and whether it was inserted. It fails with `e` where
the new values cannot be computed. -/
def Upsert.exec {t : T} (u : Upsert T t) (e : ε) : Prog T ε (Row t × Bool) := do
  let row : Option (Row t × Bool) ←
    perform (.upsert t u.id u.row u.set u.hkey u.okInsert u.okUpdate)
  Prog.okOr row e

/-! ## Harmless statements

A statement is harmless if each of the acts that it may perform is; these lemmas reduce the one to
the other.
-/

namespace Prog.All

variable {ok : Act T → Prop}

theorem visit {is : List ι} {f : ι → Prog T ε (Option β)} (hf : ∀ i, (f i).All ok) :
    (ReadCommitted.visit is f).All ok := by
  induction is with
  | nil => exact .ret
  | cons i is ih => exact bind (hf i) fun _ => bind ih fun _ => .ret

theorem updateOn {t : T} {u : Update T t} {s : Snapshot T}
    (h : ∀ id, ok (.update t id (u.cond s id) (u.set s) (u.evs s) (u.ok s id))) :
    (u.execOn s : Prog T ε _).All ok :=
  visit fun id => all_perform (h id)

theorem update {t : T} {u : Update T t}
    (h : ∀ s id, ok (.update t id (u.cond s id) (u.set s) (u.evs s) (u.ok s id)))
    (hq : ok .query) : (u.exec : Prog T ε _).All ok :=
  bind (all_perform hq) fun s => updateOn (h s)

theorem deleteOn {t : T} {d : Delete T t} {s : Snapshot T}
    (h : ∀ id, ok (.delete t id (d.seen s id) (d.cond s id) (d.ok s id))) :
    (d.execOn s : Prog T ε _).All ok :=
  visit fun id => bind (all_perform (h id)) fun _ => .ret

theorem delete {t : T} {d : Delete T t}
    (h : ∀ s id, ok (.delete t id (d.seen s id) (d.cond s id) (d.ok s id))) (hq : ok .query) :
    (d.exec : Prog T ε _).All ok :=
  bind (all_perform hq) fun s => deleteOn (h s)

theorem selectForUpdate {t : T} {cond : Snapshot T → Id t → Row t → Bool}
    (h : ∀ s id, ok (.lock t id .update (cond s id))) (hq : ok .query) :
    (ReadCommitted.selectForUpdate t cond : Prog T ε _).All ok :=
  bind (all_perform hq) fun s => visit fun id => bind (all_perform (h s id)) fun _ => .ret

theorem insert {t : T} {i : Insert T t} {dup : ε}
    (h : ok (.insert t i.key i.row i.evs i.hkey i.ok)) : (i.exec dup).All ok :=
  bind (all_perform h) fun _ => all_okOr _ _

theorem references {t : T} {id : Id t} {cond : Row t → Bool} {missing : ε}
    (h : ok (.lock t id .keyShare cond)) :
    (ReadCommitted.references t id cond missing).All ok :=
  bind (all_perform h) fun _ => all_reject _ _

end Prog.All

/-! ## Statements under interference

The rows are visited in the order of the snapshot, and between two visits the others may commit.
So the loop invariant speaks about the rows that have been visited, and has to be stable.
-/

/-- **The loop rule of a statement.** `I done` holds once the rows in `done` have been visited. -/
theorem Triple.visit {J : Judge T} {p : Nat} {I : List ι → Conn T → Prop} {is : List ι}
    {f : ι → Prog T ε (Option β)} (hst : ∀ done, J.Stable (I done))
    (h : ∀ done, ∀ i ∈ is, Triple J p (I done) (f i) fun _ => I (done ++ [i])) (done : List ι) :
    Triple J p (I done) (ReadCommitted.visit is f) fun _ => I (done ++ is) := by
  induction is generalizing done with
  | nil =>
    rw [List.append_nil]
    exact Triple.ret (hst done) fun _ _ hc => hc
  | cons i is ih =>
    refine (h done i (by simp)).bind fun b => ?_
    refine (ih (fun done' j hj => h done' j (by simp [hj])) (done ++ [i])).bind fun bs => ?_
    rw [List.append_assoc, List.singleton_append]
    exact Triple.ret (hst _) fun _ _ hc => hc

/-! ## Statements alone

How a program that runs alone ends with each of the statements.
-/

section Ends

variable {p : Nat} {c c' : Conn T}

@[simp] theorem ends_query {s : Snapshot T} :
    Ends p (query : Prog T ε _) c s c' ↔ s = c.snapshot ∧ c' = c := ends_perform

@[simp] theorem ends_poolQuery {s : Snapshot T} :
    Ends p (poolQuery : Prog T ε _) c s c' ↔ s = (⟨none, c.server⟩ : Conn T).snapshot ∧ c' = c :=
  ends_perform

@[simp] theorem ends_utcNow {n : Nat} :
    Ends p (utcNow : Prog T ε _) c n c' ↔ n = c.server.clock ∧ c' = c := ends_perform

/-- The connection after a number has been drawn. -/
def Conn.drawn (c : Conn T) : Conn T :=
  ⟨c.tx, { c.server with seq := c.server.seq + 1 }⟩

@[simp] theorem ends_fresh {n : Nat} :
    Ends p (fresh : Prog T ε _) c n c' ↔ n = c.server.seq ∧ c' = c.drawn := ends_perform

/-- The connection with a new transaction. -/
def Conn.begun (c : Conn T) : Conn T := ⟨some ⟨c.server.clock, [], [], []⟩, c.server⟩

@[simp] theorem ends_beginTx {u : Unit} :
    Ends p (beginTx : Prog T ε _) c u c' ↔ c' = c.begun := by
  simp [beginTx, perform, Ends, Prog.run, Act.step, Conn.begun, eq_comm]

theorem ends_commitTx {u : Unit} {tx : Tx T} (htx : c.tx = some tx) :
    Ends p (commitTx : Prog T ε _) c u c' ↔ c' = ⟨none, c.server.commit p tx⟩ := by
  obtain ⟨otx, s⟩ := c
  cases htx
  simp [commitTx, perform, Ends, Prog.run, Act.step, eq_comm]

@[simp] theorem ends_rollbackTx {u : Unit} :
    Ends p (rollbackTx : Prog T ε _) c u c' ↔ c' = ⟨none, c.server⟩ := by
  simp [rollbackTx, perform, Ends, Prog.run, Act.step, eq_comm]

/-- `ON CONFLICT DO UPDATE`, when there is no row yet. -/
theorem ends_upsert_none {t : T} {u : Upsert T t} {e : ε} {tx : Tx T} {s : Server T}
    {r : Row t × Bool} (hrow : (tx.view s.store).get t u.id = none) :
    Ends p (u.exec e) ⟨some tx, s⟩ r c' ↔
      r = (u.row, true) ∧ c' = ⟨some (tx.write t u.id .update (some u.row) []), s⟩ := by
  unfold Upsert.exec
  refine ends_bind.trans ?_
  simp [perform, Ends, Prog.run, Act.step, hrow, Prog.okOr, eq_comm]

/-- `ON CONFLICT DO UPDATE`, when there is one: it ends if the new values can be computed. -/
theorem ends_upsert_some {t : T} {u : Upsert T t} {e : ε} {tx : Tx T} {s : Server T}
    {r : Row t × Bool} {old : Row t} (hrow : (tx.view s.store).get t u.id = some old) :
    Ends p (u.exec e) ⟨some tx, s⟩ r c' ↔ ∃ new, u.set old = some new ∧ r = (new, false) ∧
      c' = ⟨some (tx.write t u.id .noKeyUpdate (some new) []), s⟩ := by
  unfold Upsert.exec
  refine ends_bind.trans ?_
  cases hset : u.set old with
  | none => simp [perform, Ends, Prog.run, Act.step, hrow, hset, Prog.okOr]
  | some new => simp [perform, Ends, Prog.run, Act.step, hrow, hset, Prog.okOr, eq_comm]

end Ends

end ReadCommitted
