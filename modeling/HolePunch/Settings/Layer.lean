import HolePunch.Assoc
import HolePunch.Binary64.Text
import HolePunch.Toml.Value

/-!
# Layers of settings

Settings can come from several sources, each a tree of values. `Node.set` lays a value over a tree
at a key: tables are merged key by key, and anything else takes the place of what was there. Keys
have no case, so that two entries of one table can be about the same key; then the later one wins.
Which one is later is for an `EntryOrder` to say.
-/

namespace HolePunch.Settings

inductive Node where
  | nothing
  | boolean (b : Bool)
  | integer (i : Int)
  | float (x : Binary64)
  | text (s : String)
  | list (items : List Node)
  | table (entries : List (String × Node))

namespace Node

mutual

/-- The value that a TOML value lays down; dates are text. -/
def ofToml : Toml.Value → Node
  | .string s => .text s
  | .integer i => .integer i
  | .float x => .float x
  | .boolean b => .boolean b
  | .datetime d => .text (String.ofList d.text)
  | .array items => .list (ofItems items)
  | .tables items => .list (ofItems items)
  | .table _ entries => .table (ofEntries entries)

def ofItems : List Toml.Value → List Node
  | [] => []
  | v :: rest => ofToml v :: ofItems rest

def ofEntries : List (String × Toml.Value) → List (String × Node)
  | [] => []
  | (key, v) :: rest => (key, ofToml v) :: ofEntries rest

end

/-- The entries of a table; anything else has none. -/
def entries : Node → List (String × Node)
  | .table es => es
  | _ => []

mutual

/-- Lays a value over a tree at a key. What is not a table becomes one. -/
def set (tree : Node) (key : String) : (value : Node) → Node
  | .table incoming =>
    let old := (tree.entries.lookup key.toLower).getD (.table [])
    .table (Assoc.put key.toLower (setAll old incoming) tree.entries)
  | value => .table (Assoc.put key.toLower value tree.entries)

/-- Lays entries over a tree, one after the other. -/
def setAll (tree : Node) : List (String × Node) → Node
  | [] => tree
  | (key, v) :: rest => setAll (set tree key v) rest

end

/-! ### Paths -/

/-- A step of a path below its first key. -/
inductive PathStep where
  | key (name : String)
  | index (i : Int)
  deriving DecidableEq, Repr

def isPathChar (c : Char) : Bool := c.isAlphanum || c == ' ' || c == '_' || c == '-'

def pathKey (s : List Char) : Option (String × List Char) :=
  let name := s.takeWhile isPathChar
  if name = [] then none else some (String.ofList name, s.dropWhile isPathChar)

/-- A number in brackets, after the opening one. -/
def pathIndex (s : List Char) : Option (Int × List Char) :=
  match s.span (· != ']') with
  | (inside, ']' :: rest) =>
    let signed := match inside with
      | '-' :: digits => (Text.digitsNat? digits).map fun n => -(n : Int)
      | digits => (Text.digitsNat? digits).map Int.ofNat
    (signed.bind Text.inSigned64?).map fun i => (i, rest)
  | _ => none

/-- At most so many steps, to the end of the text. -/
def pathSteps : (most : Nat) → List Char → Option (List PathStep)
  | _, [] => some []
  | 0, _ => none
  | most + 1, '.' :: rest => do
    let (name, rest) ← pathKey rest
    return .key name :: (← pathSteps most rest)
  | most + 1, '[' :: rest => do
    let (i, rest) ← pathIndex rest
    return .index i :: (← pathSteps most rest)
  | _, _ => none

/-- The path that a key of a source is: keys between dots, and indices in brackets. -/
def path? (key : String) : Option (String × List PathStep) := do
  let (first, rest) ← pathKey key.toList
  return (first, ← pathSteps rest.length rest)

/-- Where an index lies in a list; one below zero counts from the end. -/
def position (i : Int) (length : Nat) : Nat := (if i < 0 then length + i else i).toNat

/-- The items with another one at a place, after as many empty ones as it takes. -/
def putAt (items : List Node) (place : Nat) (value : Node) : List Node :=
  (items ++ List.replicate (place + 1 - items.length) Node.nothing).set place value

def setSteps (tree : Node) (value : Node) : List PathStep → Node
  | [] => value
  | [.key name] => tree.set name value
  | .key name :: steps =>
    let key := name.toLower
    let inner := (tree.entries.lookup key).getD .nothing
    .table (Assoc.put key (setSteps inner value steps) tree.entries)
  | .index i :: steps =>
    let items := match tree with
      | .list items => items
      | _ => []
    let place := position i items.length
    let inner := (items[place]?).getD .nothing
    .list (putAt items place (setSteps inner value steps))

/-- Lays a value over a tree at a key that may be a path. -/
def setPath (tree : Node) (key : String) (value : Node) : Node :=
  match path? key with
  | some (first, steps) => tree.setSteps value (.key first :: steps)
  | none => tree.set key value

/-- Lays a source over a tree, one key after the other. -/
def overlay (tree : Node) (source : List (String × Node)) : Node :=
  source.foldl (fun t (key, v) => t.setPath key v) tree

end Node

/-! ### Orders of entries -/

/-- The order in which the entries of each table of a source are gone through. It may be any, and
another one each time. A table is told by the keys that lead to it, the last one first. -/
structure EntryOrder where
  arrange : List String → List (String × Node) → List (String × Node)
  perm : ∀ place entries, (arrange place entries).Perm entries

namespace EntryOrder

/-- The order in which the entries are written. -/
def asWritten : EntryOrder := ⟨fun _ entries => entries, fun _ _ => .refl _⟩

mutual

/-- A value with the entries of its tables in order. -/
def node (order : EntryOrder) (place : List String) : Node → Node
  | .table entries => .table (order.arrange place (order.nodes place entries))
  | value => value

def nodes (order : EntryOrder) (place : List String) :
    List (String × Node) → List (String × Node)
  | [] => []
  | (key, value) :: rest => (key, order.node (key :: place) value) :: order.nodes place rest

end

/-- A source with its entries, and those of its tables, in order. -/
def source (order : EntryOrder) (entries : List (String × Node)) : List (String × Node) :=
  order.arrange [] (order.nodes [] entries)

mutual

theorem node_asWritten (place : List String) (value : Node) : asWritten.node place value = value := by
  cases value with
  | table entries =>
    rw [node, nodes_asWritten place entries]
    rfl
  | _ => rfl

theorem nodes_asWritten (place : List String) (entries : List (String × Node)) :
    asWritten.nodes place entries = entries := by
  match entries with
  | [] => rfl
  | (key, value) :: rest => rw [nodes, node_asWritten (key :: place) value, nodes_asWritten place rest]

end

theorem source_asWritten (entries : List (String × Node)) : asWritten.source entries = entries :=
  nodes_asWritten [] entries

end EntryOrder

end HolePunch.Settings
