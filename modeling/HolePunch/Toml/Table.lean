import HolePunch.Assoc
import HolePunch.Toml.Value

/-!
# Defining TOML tables

A document defines tables by headers, by dotted keys and between braces, and what was defined one
way may not be added to in another. `within` walks a path of keys, making the tables that are
missing, and applies a change at its end.
-/

namespace HolePunch.Toml

structure KeyPath where
  parents : List String
  key : String
  deriving DecidableEq, Repr

/-- How a path may go through tables: the form of those it makes, and those it may enter. -/
structure Walk where
  makes : TableForm
  enters : TableForm → Bool

/-- The walk of a header: through all tables that are not between braces. -/
def Walk.header : Walk := ⟨.implied, (· != .braced)⟩

/-- The walk of a dotted key: through tables without a header of their own. -/
def Walk.dotted : Walk := ⟨.dotted, fun form => form == .implied || form == .dotted⟩

namespace Entries

/-- Applies a change to the table at the end of a path, which starts in a table of a given form. An
array of tables stands for its last one. -/
def within {α : Type} (walk : Walk) (change : TableForm → Entries → Option (Entries × α)) :
    List String → TableForm → Entries → Option (Entries × α)
  | [], form, entries => change form entries
  | key :: path, _, entries =>
    match entries.lookup key with
    | none => do
      let (inner, a) ← within walk change path walk.makes []
      return (Assoc.put key (.table walk.makes inner) entries, a)
    | some (.table form inner) =>
      if walk.enters form then do
        let (inner, a) ← within walk change path form inner
        return (Assoc.put key (.table form inner) entries, a)
      else none
    | some (.tables items) =>
      match items.getLast? with
      | some (.table form inner) => do
        let (inner, a) ← within walk change path form inner
        return (Assoc.put key (.tables (items.dropLast ++ [.table form inner])) entries, a)
      | _ => none
    | some _ => none

/-- Adds a value under a dotted key. Its table must be the one that it starts in or be made by
dotted keys only, and the key must be new. -/
def insert (entries : Entries) (path : KeyPath) (value : Value) : Option Entries :=
  let change (form : TableForm) (inner : Entries) : Option (Entries × Unit) :=
    if !path.parents.isEmpty && form != .dotted then none
    else if (inner.lookup path.key).isSome then none
    else some (inner ++ [(path.key, value)], ())
  (·.1) <$> within .dotted change path.parents .header entries

/-- Takes the table that a header opens out of its parent, with what is already known of it: a
table that only its parts have defined so far. -/
def openTable (entries : Entries) (path : KeyPath) : Option (Entries × Entries) :=
  let change (_ : TableForm) (inner : Entries) : Option (Entries × Entries) :=
    match inner.lookup path.key with
    | none => some (inner, [])
    | some (.table .implied known) => some (Assoc.erase path.key inner, known)
    | some _ => none
  within .header change path.parents .header entries

def closeTable (entries : Entries) (path : KeyPath) (table : Entries) : Option Entries :=
  let change (_ : TableForm) (inner : Entries) : Option (Entries × Unit) :=
    some (Assoc.put path.key (.table .header table) inner, ())
  (·.1) <$> within .header change path.parents .header entries

/-- Puts a table at the end of an array of tables, which it may be the first of. -/
def closeItem (entries : Entries) (path : KeyPath) (table : Entries) : Option Entries :=
  let change (_ : TableForm) (inner : Entries) : Option (Entries × Unit) :=
    match inner.lookup path.key with
    | none => some (Assoc.put path.key (.tables [.table .header table]) inner, ())
    | some (.tables items) =>
      some (Assoc.put path.key (.tables (items ++ [.table .header table])) inner, ())
    | some _ => none
  (·.1) <$> within .header change path.parents .header entries

def ofPairs (pairs : List (KeyPath × Value)) : Option Entries :=
  pairs.foldlM (fun entries (path, value) => insert entries path value) []

end Entries

end HolePunch.Toml
