import RepoCatalog.Store.Schema

/-!
# The store

A store is a catalog that is read and written through statements, one table or several at a time.
Transactions nest: beginning one keeps the catalog as it is, and rolling it back returns to that. A
step that fails keeps what it wrote before, unless it stands inside a transaction that is rolled
back. The system clock moves on with every reading.
-/
namespace RepoCatalog

open Time (Instant)

/-- A catalog with the states to which open transactions can return, the innermost first. -/
structure Store where
  catalog : Catalog
  saved : List Catalog
  /-- The next reading of the system clock. -/
  clock : Instant
deriving Inhabited

/-- A step that reads and writes a store. -/
abbrev StoreM := ExceptT StoreError (StateM Store)

namespace Store

def fresh (clock : Instant) : Store :=
  ⟨.empty, [], clock⟩

def isInTransaction (s : Store) : Bool :=
  !s.saved.isEmpty

/-- The store outside of the innermost transaction, whose changes are lost. -/
def undo (s : Store) : Store :=
  match s.saved with
  | [] => s
  | c :: rest => { s with catalog := c, saved := rest }

def begin : StoreM Unit :=
  modify fun s => { s with saved := s.catalog :: s.saved }

def commit : StoreM Unit :=
  modify fun s => { s with saved := s.saved.tail }

def rollback : StoreM Unit :=
  modify undo

/-- Reads the system clock. Two readings differ. -/
def now : StoreM Instant :=
  modifyGet fun s => (s.clock, { s with clock := ⟨s.clock.nanoseconds + 1000⟩ })

def invalid {α : Type} (detail : String) : StoreM α :=
  throw (.invalid detail)

/-- Refuses a statement if a table that it names is missing. -/
def require (tables : List TableName) (refusal : DatabaseFault → DatabaseError) : StoreM Unit := do
  let c := (← get).catalog
  match tables.find? fun t => !c.hasTable t with
  | some t => throw (.database (refusal (.missingTable t.text)))
  | none => pure ()

def read {α : Type} (tables : List TableName) (f : Catalog → α) : StoreM α := do
  require tables .refusedRead
  return f (← get).catalog

/-- A statement that writes to the first of the given tables. -/
def write {α : Type} (tables : List TableName) (f : Catalog → Catalog.Change α) : StoreM α := do
  require tables .refusedWrite
  match f (← get).catalog with
  | .ok (a, c) => do
    modify fun s => { s with catalog := c }
    return a
  | .error e => throw (.database e)

/-- A statement that writes to the first of the given tables and cannot break a rule. -/
def update (tables : List TableName) (f : Catalog → Catalog) : StoreM Unit :=
  write tables fun c => .ok ((), f c)

end Store

end RepoCatalog
