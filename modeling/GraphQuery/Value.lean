import GraphQuery.Json
import GraphQuery.Kind
import GraphQuery.Table

/-!
# Values bound to parameters

Values are what a caller supplies for the parameters of a statement. A value has
a kind, and it may fit declarations of other kinds too: null fits everywhere,
and a whole number fits where a float is declared.
-/

set_option autoImplicit false

namespace GraphQuery

/-- Values. A map keeps the order of its keys. -/
inductive Value where
  | null
  | bool (b : Bool)
  | int (n : Int)
  | double (x : Number.Binary64)
  | string (s : String)
  | list (items : List Value)
  | map (entries : List (String × Value))

namespace Value

/-- The map of a list of entries; of a repeated key the last value counts. -/
def ofEntries (entries : List (String × Value)) : Value := .map (Entries.ofList entries)

/-- Whether a value is null. -/
def isNull : Value → Bool
  | .null => true
  | _ => false

/-- The kind on which all kinds of a list agree, `any` if they differ or there
are none. -/
def commonKind : List Kind → Kind
  | [] => .any
  | k :: rest => if rest.all (· == k) then k else .any

mutual

/-- Kind of a value. Nulls have no say in the element kind of a list. -/
def kind : Value → Kind
  | .null => .any
  | .bool _ => .boolean
  | .int _ => .integer
  | .double _ => .float
  | .string _ => .string
  | .list items => .list (commonKind (elementKinds items))
  | .map _ => .map

/-- Kinds of the elements that are not null. -/
def elementKinds : List Value → List Kind
  | [] => []
  | v :: rest => if v.isNull then elementKinds rest else v.kind :: elementKinds rest

end

mutual

/-- Whether a value may be bound where `expected` is declared. -/
def fits : Value → Kind → Bool
  | _, .any => true
  | .null, _ => true
  | .int _, .float => true
  | .list items, .list element => allFit items element
  | v, expected => expected == v.kind

/-- Whether every element may be bound at the element kind. -/
def allFit : List Value → Kind → Bool
  | [], _ => true
  | v :: rest, element => v.fits element && allFit rest element

end

/-- How a message names a value without showing it. -/
def description : Value → String
  | .null => "null"
  | v => v.kind.name ++ " value"

mutual

/-- A value as JSON. -/
def toJson : Value → Json
  | .null => .null
  | .bool b => .bool b
  | .int n => .int n
  | .double x => .ofDouble x
  | .string s => .string s
  | .list items => .array (itemsToJson items)
  | .map entries => .object (entriesToJson entries)

/-- Items of a list as JSON. -/
def itemsToJson : List Value → List Json
  | [] => []
  | v :: rest => v.toJson :: itemsToJson rest

/-- Entries of a map as members of a JSON object. -/
def entriesToJson : List (String × Value) → List (String × Json)
  | [] => []
  | (key, v) :: rest => (key, v.toJson) :: entriesToJson rest

end

mutual

/-- Equality of values: doubles as numbers, maps without regard to order. -/
def same : Value → Value → Bool
  | .null, .null => true
  | .bool a, .bool b => a == b
  | .int a, .int b => a == b
  | .double a, .double b => a.sameNumber b
  | .string a, .string b => a == b
  | .list as, .list bs => sameItems as bs
  | .map es, .map fs => es.length == fs.length && sameEntries es fs
  | _, _ => false

/-- Equality item by item. -/
def sameItems : List Value → List Value → Bool
  | [], [] => true
  | a :: as, b :: bs => a.same b && sameItems as bs
  | _, _ => false

/-- Whether every entry has an equal one under the same key. -/
def sameEntries : List (String × Value) → List (String × Value) → Bool
  | [], _ => true
  | (key, a) :: rest, others =>
      (match others.lookup key with
        | some b => a.same b
        | none => false) && sameEntries rest others

end

end Value

end GraphQuery
