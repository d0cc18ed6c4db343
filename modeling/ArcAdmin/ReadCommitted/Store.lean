import Mathlib.Data.List.AList

/-!
# Tables, rows and stores

The vocabulary of the read-committed library. A `Schema` names the tables of a database, the type
of the keys and of the rows of each table, the unique indexes besides the primary key, and the
**row protocol**: which change of one row a statement may make, and which events that change
leaves behind. Nothing here knows what the tables are about.

Keys come in two kinds. A key with a serial number is drawn from a sequence when its row is
inserted, so it is never used for another row; a natural key may be taken, given back and taken
again. The laws of single rows in the later modules depend on this difference.

* **`Store`** — one finite map per table, from key to row;
* **`Store.get_set`** — reading back after a write;
* **`Store.mem_rows`** — a table scan lists exactly the rows of the table.
-/

namespace ReadCommitted

/-- **A database schema.** `T` names the tables.

`serialNo` is the number of a key that a sequence hands out, and `none` for a natural key (a
username hash, a pair of foreign keys). `clash` is a unique index: two rows of one table that may
not stand in it together. `Allowed t id old new evs` is the row protocol: a statement may turn
the row `old` under `id` into `new`, leaving the events `evs` (`none` stands for "no row"). -/
class Schema (T : Type) where
  [decTable : DecidableEq T]
  Id : T → Type
  [decId : ∀ t, DecidableEq (Id t)]
  Row : T → Type
  Ev : Type
  serialNo : (t : T) → Id t → Option Nat
  clash : (t : T) → Row t → Row t → Bool
  Allowed : (t : T) → Id t → Option (Row t) → Option (Row t) → List Ev → Prop

attribute [instance, reducible] Schema.decTable Schema.decId

open Schema (Id Row Ev serialNo clash Allowed)

variable {T : Type} [Schema T]

/-- A row's address: its table and its primary key. -/
abbrev Key (T : Type) [Schema T] := Σ t : T, Id t

/-- The number that a sequence has put into a key, if one has. -/
def Key.serialNo (k : Key T) : Option Nat := Schema.serialNo k.1 k.2

/-- A store: for each table, the finite map from primary keys to rows. -/
def Store (T : Type) [Schema T] := (t : T) → AList fun _ : Id t => Row t

namespace Store

/-- The empty store. -/
def empty : Store T := fun _ => ∅

/-- The row of table `t` under `id`. -/
def get (s : Store T) (t : T) (id : Id t) : Option (Row t) := (s t).lookup id

/-- Put a row under a key, or remove the row there (`none`). -/
def set (s : Store T) (t : T) (id : Id t) (v : Option (Row t)) : Store T := fun u =>
  if h : t = u then
    h ▸ match v with
      | some row => (s t).insert id row
      | none => (s t).erase id
  else s u

/-- A table scan: every key of the table with its row. -/
def rows (s : Store T) (t : T) : List (Id t × Row t) :=
  (s t).entries.map fun e => (e.1, e.2)

@[simp] theorem get_empty (t : T) (id : Id t) : (empty : Store T).get t id = none := rfl

@[simp] theorem get_set_self (s : Store T) (t : T) (id : Id t) (v : Option (Row t)) :
    (s.set t id v).get t id = v := by
  cases v <;> simp [get, set]

/-- A write leaves every other key of its table alone. -/
theorem get_set_of_ne (s : Store T) (t : T) {id id' : Id t} (v : Option (Row t)) (h : id' ≠ id) :
    (s.set t id v).get t id' = s.get t id' := by
  cases v <;> simp [get, set, h]

/-- A write leaves every other table alone. -/
theorem set_apply_of_ne (s : Store T) {t u : T} (id : Id t) (v : Option (Row t)) (h : u ≠ t) :
    s.set t id v u = s u := by
  have h' : ¬t = u := fun e => h e.symm
  simp [set, h']

/-- A write leaves the rows of every other table alone. -/
theorem get_set_of_table_ne (s : Store T) {t u : T} (id : Id t) (v : Option (Row t)) (id' : Id u)
    (h : u ≠ t) : (s.set t id v).get u id' = s.get u id' := by
  unfold get
  rw [set_apply_of_ne s id v h]

/-- Reading a key of the written table back. -/
theorem get_set (s : Store T) (t : T) (id id' : Id t) (v : Option (Row t)) :
    (s.set t id v).get t id' = if id' = id then v else s.get t id' := by
  by_cases h : id' = id
  · subst h
    simp
  · rw [if_neg h, get_set_of_ne s t v h]

/-- **A write is local to its address**: what another address holds is unchanged. -/
theorem get_set_of_key_ne (s : Store T) {t u : T} {id : Id t} {id' : Id u} (v : Option (Row t))
    (h : (⟨u, id'⟩ : Key T) ≠ ⟨t, id⟩) : (s.set t id v).get u id' = s.get u id' := by
  by_cases htab : u = t
  · subst htab
    have hid : id' ≠ id := fun e => h (by rw [e])
    exact get_set_of_ne s u v hid
  · exact get_set_of_table_ne s id v id' htab

/-- **A scan lists exactly the rows that the store holds.** -/
@[simp] theorem mem_rows {s : Store T} {t : T} {id : Id t} {row : Row t} :
    (id, row) ∈ s.rows t ↔ s.get t id = some row := by
  have hmem : (id, row) ∈ s.rows t ↔ (⟨id, row⟩ : Sigma fun _ : Id t => Row t) ∈ (s t).entries := by
    constructor
    · intro h
      obtain ⟨e, he, heq⟩ := List.mem_map.1 h
      cases heq
      exact he
    · intro h
      exact List.mem_map.2 ⟨_, h, rfl⟩
  rw [hmem]
  exact (AList.mem_lookup_iff (s := s t)).symm

/-- A table without rows holds nothing. -/
theorem get_of_rows_nil {s : Store T} {t : T} (h : s.rows t = []) (id : Id t) :
    s.get t id = none := by
  cases hr : s.get t id with
  | none => rfl
  | some row =>
    have hmem : (id, row) ∈ s.rows t := mem_rows.2 hr
    rw [h] at hmem
    cases hmem

/-- A scan lists no key twice. -/
theorem rows_keys_nodup (s : Store T) (t : T) : ((s.rows t).map Prod.fst).Nodup := by
  have h : (s.rows t).map Prod.fst = (s t).keys := by
    simp [rows, AList.keys, List.keys, Function.comp_def]
  rw [h]
  exact (s t).keys_nodup

end Store

end ReadCommitted
