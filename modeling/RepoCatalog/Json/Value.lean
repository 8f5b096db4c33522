import RepoCatalog.Json.Binary64

/-!
# JSON values

Values keep the members of an object in the order in which they are listed.
-/
namespace RepoCatalog.Json

inductive Number where
  | integer (n : Int)
  | real (x : Binary64)
deriving DecidableEq, Inhabited

inductive Value where
  | null
  | bool (b : Bool)
  | number (n : Number)
  | string (s : String)
  | array (items : List Value)
  | object (members : List (String × Value))
deriving Inhabited

namespace Value

def int (n : Int) : Value :=
  .number (.integer n)

def nat (n : Nat) : Value :=
  .int (Int.ofNat n)

def ofOption {α : Type} (f : α → Value) : Option α → Value
  | none => .null
  | some a => f a

/-- The first member of an object with this name. -/
def member? (v : Value) (name : String) : Option Value :=
  match v with
  | .object members => (members.find? fun m => m.1 == name).map (·.2)
  | _ => none

end Value

end RepoCatalog.Json
