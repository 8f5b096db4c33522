import RepoCatalog.Dict.Lemmas

/-!
# Tables

A table holds rows by id. Ids count up from one; a new row gets an id that no row of the table ever
had.
-/
namespace RepoCatalog

/-- Rows by id, with the last id that was given out. -/
structure Table (α : Type) where
  rows : Dict Int α
  lastId : Int
  le_lastId : ∀ e ∈ rows.entries, e.1 ≤ lastId

namespace Table

variable {α : Type}

def empty : Table α :=
  ⟨∅, 0, by intro e he; cases he⟩

instance : Inhabited (Table α) := ⟨empty⟩

def get? (t : Table α) (id : Int) : Option α :=
  t.rows.get? id

def contains (t : Table α) (id : Int) : Bool :=
  t.rows.contains id

/-- The rows with their ids, in the order of the ids. -/
def toList (t : Table α) : List (Int × α) :=
  t.rows.entries

def nextId (t : Table α) : Int :=
  t.lastId + 1

/-- Adds a row under the next id. -/
def append (t : Table α) (row : α) : Table α where
  rows := t.rows.insert t.nextId row
  lastId := t.nextId
  le_lastId := by
    intro e he
    rcases Dict.mem_place he with rfl | he
    · exact Int.le_refl _
    · exact Int.le_trans (t.le_lastId e he) (by unfold nextId; omega)

def map (t : Table α) (f : Int → α → α) : Table α where
  rows := t.rows.mapEntries f
  lastId := t.lastId
  le_lastId := by
    intro e he
    obtain ⟨x, hx, rfl⟩ := List.mem_map.mp he
    exact t.le_lastId x hx

def modify (t : Table α) (id : Int) (f : α → α) : Table α :=
  t.map fun k row => if k = id then f row else row

def filter (t : Table α) (p : Int → α → Bool) : Table α where
  rows := t.rows.filter p
  lastId := t.lastId
  le_lastId := fun e he => t.le_lastId e (List.mem_filter.mp he).1

def count (t : Table α) (p : Int → α → Bool) : Nat :=
  t.rows.entries.countP fun e => p e.1 e.2

theorem get?_eq_some_iff {t : Table α} {id : Int} {row : α} :
    t.get? id = some row ↔ (id, row) ∈ t.toList :=
  Dict.get?_eq_some_iff

theorem contains_iff {t : Table α} {id : Int} :
    t.contains id = true ↔ ∃ row, (id, row) ∈ t.toList :=
  Dict.contains_iff

theorem not_mem_empty (e : Int × α) : e ∉ (empty : Table α).toList := by
  intro he
  cases he

theorem mem_append {t : Table α} {row : α} {e : Int × α} (h : e ∈ (t.append row).toList) :
    e = (t.nextId, row) ∨ e ∈ t.toList :=
  Dict.mem_place h

theorem ne_nextId {t : Table α} {e : Int × α} (h : e ∈ t.toList) : e.1 ≠ t.nextId := by
  have hle := t.le_lastId e h
  unfold nextId
  omega

theorem contains_append {t : Table α} {id : Int} (row : α) (h : t.contains id = true) :
    (t.append row).contains id = true :=
  Dict.contains_insert_of_contains t.nextId row h

theorem mem_map {t : Table α} {f : Int → α → α} {e : Int × α} :
    e ∈ (t.map f).toList ↔ ∃ x ∈ t.toList, (x.1, f x.1 x.2) = e :=
  List.mem_map

@[simp] theorem contains_map (t : Table α) (f : Int → α → α) (id : Int) :
    (t.map f).contains id = t.contains id :=
  Dict.contains_mapEntries f t.rows id

theorem mem_filter {t : Table α} {p : Int → α → Bool} {e : Int × α} :
    e ∈ (t.filter p).toList ↔ e ∈ t.toList ∧ p e.1 e.2 = true :=
  List.mem_filter

end Table

end RepoCatalog
