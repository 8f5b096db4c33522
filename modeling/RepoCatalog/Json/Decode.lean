import RepoCatalog.Dict
import RepoCatalog.Json.Printer
import RepoCatalog.Text.Quoted

/-!
# Reading typed data from JSON values

A record is read from an object, or from an array of its fields in the order of their declaration.
Of an object the members are looked at first, in the order in which they stand, and the first bad
one is reported; then the fields that are missing, in the order of their declaration. Members of
other names are passed over.
-/
namespace RepoCatalog.Json

/-- Why a value cannot be read. -/
inductive DecodeError where
  | wrongType (found expected : String)
  | wrongValue (found expected : String)
  | wrongLength (length : Nat) (expected : String)
  | missingField (name : String)
  | unknownVariant (name : String) (choices : List String)
  | badTimestamp (reason : String)
deriving DecidableEq, Inhabited

def DecodeError.choicesText : List String → String
  | [] => "there are no variants"
  | [a] => s!"expected `{a}`"
  | [a, b] => s!"expected `{a}` or `{b}`"
  | cs => "expected one of " ++ ", ".intercalate (cs.map fun c => s!"`{c}`")

def DecodeError.message : DecodeError → String
  | .wrongType found expected => s!"invalid type: {found}, expected {expected}"
  | .wrongValue found expected => s!"invalid value: {found}, expected {expected}"
  | .wrongLength length expected => s!"invalid length {length}, expected {expected}"
  | .missingField name => s!"missing field `{name}`"
  | .unknownVariant name choices => s!"unknown variant `{name}`, {choicesText choices}"
  | .badTimestamp reason => reason

abbrev Decoder (α : Type) := Value → Except DecodeError α

def Value.describe : Value → String
  | .null => "null"
  | .bool true => "boolean `true`"
  | .bool false => "boolean `false`"
  | .number (.integer n) => s!"integer `{n}`"
  | .number (.real x) => s!"floating point `{x.text}`"
  | .string s => s!"string {Text.quoted s}"
  | .array _ => "sequence"
  | .object _ => "map"

namespace Decoder

def refuse {α : Type} (expected : String) : Decoder α := fun v =>
  .error (.wrongType v.describe expected)

def string : Decoder String
  | .string s => .ok s
  | v => refuse "a string" v

def bool : Decoder Bool
  | .bool b => .ok b
  | v => refuse "a boolean" v

def integer (type : String) (least most : Int) : Decoder Int
  | .number (.integer n) =>
    if least ≤ n ∧ n ≤ most then .ok n
    else .error (.wrongValue (Value.describe (.number (.integer n))) type)
  | v => refuse type v

def int32 : Decoder Int :=
  integer "i32" (-2147483648) 2147483647

def natural (type : String) (most : Nat) : Decoder Nat := fun v =>
  (integer type 0 most v).map Int.toNat

def nat32 : Decoder Nat :=
  natural "u32" 4294967295

def nat64 : Decoder Nat :=
  natural "u64" 18446744073709551615

def natSize : Decoder Nat :=
  natural "usize" 18446744073709551615

def nullable {α : Type} (d : Decoder α) : Decoder (Option α)
  | .null => .ok none
  | v => (d v).map some

def array {α : Type} (d : Decoder α) : Decoder (List α)
  | .array items => items.mapM d
  | v => refuse "a sequence" v

/-- A dictionary: the members of an object, of which the last of a name counts. -/
def dict {α : Type} (d : Decoder α) : Decoder (Dict String α)
  | .object members => do
    return Dict.ofList (← members.mapM fun m => return (m.1, ← d m.2))
  | v => refuse "a map" v

/-- One of several named variants without content. -/
def variant {α : Type} (name : α → String) (choices : List α) : Decoder α
  | .string s => find s
  | .object [(s, content)] => do
    let a ← find s
    match content with
    | .null => return a
    | v => refuse "unit" v
  | .object _ => .error (.wrongValue "map" "map with a single key")
  | v => refuse "string or map" v
where
  /-- The variant of this name. -/
  find (s : String) : Except DecodeError α :=
    match choices.find? fun a => name a == s with
    | some a => .ok a
    | none => .error (.unknownVariant s (choices.map name))

end Decoder

/-- A field of a record: its name, and whether a value can be read as its content. -/
structure Field where
  name : String
  check : Value → Except DecodeError Unit

def Field.of {α : Type} (name : String) (d : Decoder α) : Field :=
  ⟨name, fun v => (d v).map fun _ => ()⟩

/-- The fields found in a value that stands for a record. -/
structure Members where
  found : List (String × Value)
  /-- What is said of a field that is missing. -/
  missing : String → DecodeError
  /-- Whether an optional field may be missing. -/
  mayOmit : Bool

namespace Members

def get? (m : Members) (name : String) : Option Value :=
  (m.found.find? fun e => e.1 == name).map (·.2)

def required {α : Type} (m : Members) (name : String) (d : Decoder α) : Except DecodeError α :=
  match m.get? name with
  | some v => d v
  | none => .error (m.missing name)

def optional {α : Type} (m : Members) (name : String) (d : Decoder α) :
    Except DecodeError (Option α) :=
  match m.get? name with
  | some v => d.nullable v
  | none => if m.mayOmit then .ok none else .error (m.missing name)

/-- A field that is `a` where it is missing. -/
def withDefault {α : Type} (m : Members) (name : String) (d : Decoder α) (a : α) :
    Except DecodeError α :=
  match m.get? name with
  | some v => d v
  | none => .ok a

/-- Finds the fields of a record in a value. -/
def ofValue (type : String) (fields : List Field) : Decoder Members
  | .object members => do
    for m in members do
      match fields.find? fun f => f.name == m.1 with
      | some f => f.check m.2
      | none => pure ()
    return ⟨members, .missingField, true⟩
  | .array items => do
    let expected := s!"struct {type} with {fields.length} elements"
    for (f, v) in fields.zip items do
      f.check v
    if fields.length < items.length ∧ 0 < fields.length then
      throw (.wrongLength items.length "fewer elements in array")
    return ⟨(fields.map (·.name)).zip items, fun _ => .wrongLength items.length expected, false⟩
  | v => Decoder.refuse s!"struct {type}" v

end Members

end RepoCatalog.Json
