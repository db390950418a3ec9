import HolePunch.Toml.Parser

/-!
# Keys of a document

A table has each of its keys once, wherever it stands in a document: `parse_distinct`. Every way of
defining a table keeps this, because a key is looked up before it is added (`Entries.within_distinct`
carries it along a path of keys).
-/

namespace HolePunch.Toml

/-! ### Tests on the keys of tables -/

mutual

/-- True of a value if the keys of each table in it, taken together, pass a test. -/
def Value.everyTable (test : List String → Bool) : Value → Bool
  | .array items => everyItem test items
  | .tables items => everyItem test items
  | .table _ entries => test (entries.map Prod.fst) && everyEntry test entries
  | _ => true

def everyItem (test : List String → Bool) : List Value → Bool
  | [] => true
  | v :: rest => v.everyTable test && everyItem test rest

def everyEntry (test : List String → Bool) : List (String × Value) → Bool
  | [] => true
  | (_, v) :: rest => v.everyTable test && everyEntry test rest

end

/-- True of a document if the keys of each table pass a test, its own keys among them. -/
def Entries.everyTable (entries : Entries) (test : List String → Bool) : Bool :=
  test (entries.map Prod.fst) && everyEntry test entries

theorem everyItem_iff {test : List String → Bool} {items : List Value} :
    everyItem test items = true ↔ ∀ v ∈ items, v.everyTable test = true := by
  induction items with
  | nil => simp [everyItem]
  | cons v rest ih => simp [everyItem, ih]

theorem everyEntry_iff {test : List String → Bool} {entries : Entries} :
    everyEntry test entries = true ↔ ∀ entry ∈ entries, entry.2.everyTable test = true := by
  induction entries with
  | nil => simp [everyEntry]
  | cons entry rest ih => simp [everyEntry, ih]

theorem Entries.everyTable_iff {test : List String → Bool} {entries : Entries} :
    entries.everyTable test = true ↔
      test (entries.map Prod.fst) = true ∧ ∀ entry ∈ entries, entry.2.everyTable test = true := by
  rw [Entries.everyTable, Bool.and_eq_true, everyEntry_iff]

/-- Every table in the value has each of its keys once. -/
def Value.Distinct (v : Value) : Prop := v.everyTable (fun keys => decide keys.Nodup) = true

def Entries.Distinct (entries : Entries) : Prop :=
  (entries.map Prod.fst).Nodup ∧ ∀ entry ∈ entries, entry.2.Distinct

theorem distinct_array {items : List Value} :
    (Value.array items).Distinct ↔ ∀ v ∈ items, v.Distinct := everyItem_iff

theorem distinct_tables {items : List Value} :
    (Value.tables items).Distinct ↔ ∀ v ∈ items, v.Distinct := everyItem_iff

theorem distinct_table {form : TableForm} {entries : Entries} :
    (Value.table form entries).Distinct ↔ entries.Distinct := by
  rw [Value.Distinct, Value.everyTable, Bool.and_eq_true, everyEntry_iff, decide_eq_true_eq]
  rfl

/-! ### Entries -/

namespace Entries

variable {entries after : Entries} {v : Value} {key : String}

theorem distinct_nil : Distinct [] := ⟨List.nodup_nil, fun _ none => nomatch none⟩

theorem Distinct.lookup (distinct : Distinct entries) (found : entries.lookup key = some v) :
    v.Distinct :=
  distinct.2 (key, v) (Assoc.mem_of_lookup found)

theorem Distinct.concat (distinct : Distinct entries) (new : entries.lookup key = none)
    (value : v.Distinct) : Distinct (entries ++ [(key, v)]) := by
  constructor
  · rw [List.map_append, List.nodup_append]
    refine ⟨distinct.1, by simp, ?_⟩
    intro old member other single same
    rw [List.map_cons, List.map_nil, List.mem_singleton] at single
    rw [same, single] at member
    exact Assoc.not_mem_of_lookup new member
  · rw [List.forall_mem_append, List.forall_mem_singleton]
    exact ⟨distinct.2, value⟩

theorem Distinct.put (distinct : Distinct entries) (value : v.Distinct) (key : String) :
    Distinct (Assoc.put key v entries) := by
  by_cases member : key ∈ entries.map Prod.fst
  · refine ⟨by rw [Assoc.map_fst_put_of_mem member]; exact distinct.1, ?_⟩
    intro entry inside
    rcases Assoc.mem_put inside with rfl | old
    · exact value
    · exact distinct.2 entry old
  · rw [Assoc.put_of_not_mem member]
    exact distinct.concat (Assoc.lookup_of_not_mem member) value

theorem Distinct.erase (distinct : Distinct entries) (key : String) :
    Distinct (Assoc.erase key entries) := by
  have part : (Assoc.erase key entries).Sublist entries := List.filter_sublist
  exact ⟨distinct.1.sublist (part.map _), fun entry member => distinct.2 entry (part.subset member)⟩

/-! ### Changes along a path -/

section

variable {α : Type} {walk : Walk} {change : TableForm → Entries → Option (Entries × α)}
variable {P : α → Prop}

/-- What a change keeps of the table that it is applied to, the walk to that table keeps. -/
theorem within_distinct
    (step : ∀ form inner after a, Distinct inner → change form inner = some (after, a) →
      Distinct after ∧ P a)
    {path : List String} {form : TableForm} {a : α} (distinct : Distinct entries)
    (walked : within walk change path form entries = some (after, a)) :
    Distinct after ∧ P a := by
  induction path generalizing form entries after a with
  | nil => exact step form entries after a distinct walked
  | cons key path ih =>
    rw [within] at walked
    split at walked
    · simp only [bind, Option.bind_eq_some_iff, pure, Option.some.injEq, Prod.mk.injEq] at walked
      obtain ⟨⟨inner, a⟩, found, rfl, rfl⟩ := walked
      obtain ⟨kept, good⟩ := ih distinct_nil found
      exact ⟨distinct.put (distinct_table.mpr kept) key, good⟩
    · next form inner known =>
      have before : Distinct inner := distinct_table.mp (distinct.lookup known)
      split at walked
      · simp only [bind, Option.bind_eq_some_iff, pure, Option.some.injEq, Prod.mk.injEq] at walked
        obtain ⟨⟨inner, a⟩, found, rfl, rfl⟩ := walked
        obtain ⟨kept, good⟩ := ih before found
        exact ⟨distinct.put (distinct_table.mpr kept) key, good⟩
      · cases walked
    · next items known =>
      have each := distinct_tables.mp (distinct.lookup known)
      split at walked
      · next form inner isLast =>
        have before : Distinct inner := distinct_table.mp (each _ (List.mem_of_getLast? isLast))
        simp only [bind, Option.bind_eq_some_iff, pure, Option.some.injEq, Prod.mk.injEq] at walked
        obtain ⟨⟨inner, a⟩, found, rfl, rfl⟩ := walked
        obtain ⟨kept, good⟩ := ih before found
        refine ⟨distinct.put (distinct_tables.mpr ?_) key, good⟩
        rw [List.forall_mem_append, List.forall_mem_singleton]
        have front : ∀ v ∈ items.dropLast, v.Distinct :=
          fun v member => each v ((List.dropLast_sublist items).subset member)
        exact ⟨front, distinct_table.mpr kept⟩
      · cases walked
    · cases walked

end

variable {path : KeyPath}

theorem insert_distinct (distinct : Distinct entries) (value : v.Distinct)
    (inserted : entries.insert path v = some after) : Distinct after := by
  simp only [insert, Option.map_eq_map, Option.map_eq_some_iff] at inserted
  obtain ⟨⟨result, ⟨⟩⟩, walked, rfl⟩ := inserted
  refine (within_distinct (P := fun _ => True) ?_ distinct walked).1
  intro form inner after a kept changed
  split at changed
  · cases changed
  · split at changed
    · cases changed
    · next new =>
      cases changed
      have absent : inner.lookup path.key = none := Option.not_isSome_iff_eq_none.mp new
      exact ⟨kept.concat absent value, trivial⟩

theorem openTable_distinct {known : Entries} (distinct : Distinct entries)
    (opened : entries.openTable path = some (after, known)) : Distinct after ∧ Distinct known := by
  refine within_distinct ?_ distinct opened
  intro form inner after known kept changed
  split at changed
  · cases changed
    exact ⟨kept, distinct_nil⟩
  · next found =>
    cases changed
    exact ⟨kept.erase path.key, distinct_table.mp (kept.lookup found)⟩
  · cases changed

theorem closeTable_distinct {table : Entries} (distinct : Distinct entries)
    (finished : Distinct table) (closed : entries.closeTable path table = some after) :
    Distinct after := by
  simp only [closeTable, Option.map_eq_map, Option.map_eq_some_iff] at closed
  obtain ⟨⟨result, ⟨⟩⟩, walked, rfl⟩ := closed
  refine (within_distinct (P := fun _ => True) ?_ distinct walked).1
  intro form inner after a kept changed
  cases changed
  exact ⟨kept.put (distinct_table.mpr finished) path.key, trivial⟩

theorem closeItem_distinct {table : Entries} (distinct : Distinct entries)
    (finished : Distinct table) (closed : entries.closeItem path table = some after) :
    Distinct after := by
  simp only [closeItem, Option.map_eq_map, Option.map_eq_some_iff] at closed
  obtain ⟨⟨result, ⟨⟩⟩, walked, rfl⟩ := closed
  have item : (Value.table .header table).Distinct := distinct_table.mpr finished
  refine (within_distinct (P := fun _ => True) ?_ distinct walked).1
  intro form inner after a kept changed
  split at changed
  · cases changed
    exact ⟨kept.put (distinct_tables.mpr (List.forall_mem_singleton.mpr item)) path.key, trivial⟩
  · next items found =>
    cases changed
    refine ⟨kept.put (distinct_tables.mpr ?_) path.key, trivial⟩
    rw [List.forall_mem_append, List.forall_mem_singleton]
    exact ⟨distinct_tables.mp (kept.lookup found), item⟩
  · cases changed

theorem foldlM_insert_distinct {pairs : List (KeyPath × Value)} (distinct : Distinct entries)
    (values : ∀ pair ∈ pairs, pair.2.Distinct)
    (folded : pairs.foldlM (fun known (path, value) => insert known path value) entries =
      some after) : Distinct after := by
  induction pairs generalizing entries with
  | nil =>
    cases folded
    exact distinct
  | cons pair pairs ih =>
    obtain ⟨here, later⟩ := List.forall_mem_cons.mp values
    rw [List.foldlM_cons, Option.bind_eq_bind, Option.bind_eq_some_iff] at folded
    obtain ⟨known, inserted, rest⟩ := folded
    exact ih (insert_distinct distinct here inserted) later rest

end Entries

/-! ### Values -/

section

variable {item : Text.Parse Value} (items : ∀ s v rest, item s = some (v, rest) → v.Distinct)
include items

theorem arrayRest_distinct {most : Nat} {s rest : List Char} {vs : List Value}
    (found : arrayRest item most s = some (vs, rest)) : ∀ v ∈ vs, v.Distinct := by
  induction most generalizing s vs rest with
  | zero => cases found
  | succ most ih =>
    rw [arrayRest] at found
    split at found
    · cases found
      exact fun _ none => nomatch none
    · simp only [bind, Option.bind_eq_some_iff] at found
      obtain ⟨⟨v, after⟩, isItem, found⟩ := found
      have first := items _ _ _ isItem
      split at found
      · cases found
        exact List.forall_mem_singleton.mpr first
      · simp only [Option.bind_eq_some_iff, pure, Option.some.injEq, Prod.mk.injEq] at found
        obtain ⟨⟨later, after⟩, isLater, rfl, rfl⟩ := found
        exact List.forall_mem_cons.mpr ⟨first, ih isLater⟩
      · cases found

theorem pair_distinct {s rest : List Char} {path : KeyPath} {v : Value}
    (found : pair item s = some ((path, v), rest)) : v.Distinct := by
  simp only [pair, bind, Option.bind_eq_some_iff, pure, Option.some.injEq, Prod.mk.injEq] at found
  obtain ⟨_, -, _, -, ⟨w, after⟩, isItem, ⟨-, rfl⟩, -⟩ := found
  exact items _ _ _ isItem

theorem pairsRest_distinct {most : Nat} {s rest : List Char} {pairs : List (KeyPath × Value)}
    (found : pairsRest item most s = some (pairs, rest)) : ∀ p ∈ pairs, p.2.Distinct := by
  induction most generalizing s pairs rest with
  | zero => cases found
  | succ most ih =>
    simp only [pairsRest, bind, Option.bind_eq_some_iff] at found
    obtain ⟨⟨p, after⟩, isPair, found⟩ := found
    have first : p.2.Distinct := pair_distinct items isPair
    split at found
    · cases found
      exact List.forall_mem_singleton.mpr first
    · simp only [Option.bind_eq_some_iff, pure, Option.some.injEq, Prod.mk.injEq] at found
      obtain ⟨⟨later, after⟩, isLater, rfl, rfl⟩ := found
      exact List.forall_mem_cons.mpr ⟨first, ih isLater⟩
    · cases found

theorem bracedRest_distinct {s rest : List Char} {v : Value}
    (found : bracedRest item s = some (v, rest)) : v.Distinct := by
  have table : ∀ {pairs : List (KeyPath × Value)} {entries : Entries},
      (∀ p ∈ pairs, p.2.Distinct) → Entries.ofPairs pairs = some entries →
        (Value.table .braced entries).Distinct := by
    intro pairs entries values defined
    rw [distinct_table]
    exact Entries.foldlM_insert_distinct Entries.distinct_nil values defined
  rw [bracedRest] at found
  split at found
  · simp only [bind, Option.bind_eq_some_iff, pure, Option.some.injEq, Prod.mk.injEq] at found
    obtain ⟨_, rfl, entries, defined, rfl, -⟩ := found
    have values : ∀ p ∈ ([] : List (KeyPath × Value)), p.2.Distinct := fun _ none => nomatch none
    exact table values defined
  · simp only [bind, Option.bind_eq_some_iff, pure, Option.some.injEq, Prod.mk.injEq] at found
    obtain ⟨⟨pairs, after⟩, isPairs, entries, defined, rfl, -⟩ := found
    exact table (pairsRest_distinct items isPairs) defined

end

theorem numeric_distinct {s rest : List Char} {v : Value} (found : numeric s = some (v, rest)) :
    v.Distinct := by
  simp only [numeric, Option.or_eq_some_iff, Option.map_eq_some_iff, Prod.mk.injEq] at found
  rcases found with ⟨_, -, rfl, -⟩ | ⟨-, ⟨_, -, rfl, -⟩ | ⟨-, ⟨_, -, rfl, -⟩ | ⟨-, _, -, rfl, -⟩⟩⟩
  all_goals rfl

theorem word_value {s rest w : List Char} {v value : Value}
    (found : Text.Parse.word value w s = some (v, rest)) : v = value := by
  induction w generalizing s with
  | nil =>
    cases found
    rfl
  | cons c w ih =>
    cases s with
    | nil => cases found
    | cons x s =>
      rw [Text.Parse.word] at found
      split at found
      · exact ih found
      · cases found

theorem value_distinct {depth : Nat} {s rest : List Char} {v : Value}
    (found : value depth s = some (v, rest)) : v.Distinct := by
  induction depth using Nat.strongRecOn generalizing s v rest with
  | ind depth ih =>
    unfold value at found
    split at found
    · split at found
      · cases found
      · next depth =>
        simp only [Option.map_eq_some_iff, Prod.mk.injEq] at found
        obtain ⟨⟨vs, after⟩, isArray, rfl, -⟩ := found
        have inner := fun s v rest => @ih depth (Nat.lt_succ_self depth) s rest v
        exact distinct_array.mpr (arrayRest_distinct inner isArray)
    · split at found
      · cases found
      · next depth =>
        have inner := fun s v rest => @ih depth (Nat.lt_succ_self depth) s rest v
        exact bracedRest_distinct inner found
    · rw [word_value found]
      rfl
    · rw [word_value found]
      rfl
    · simp only [Option.map_eq_some_iff, Prod.mk.injEq] at found
      obtain ⟨_, -, rfl, -⟩ := found
      rfl
    · simp only [Option.map_eq_some_iff, Prod.mk.injEq] at found
      obtain ⟨_, -, rfl, -⟩ := found
      rfl
    · exact numeric_distinct found

/-! ### Documents -/

namespace Progress

/-- Every table that is finished or at hand has each of its keys once. -/
structure Distinct (p : Progress) : Prop where
  document : p.document.Distinct
  entries : p.entries.Distinct

variable {p q : Progress}

theorem Distinct.close {document : Entries} (distinct : p.Distinct)
    (closed : p.close = some document) : document.Distinct := by
  unfold Progress.close at closed
  split at closed
  · cases closed
    exact distinct.entries
  · exact Entries.closeTable_distinct distinct.document distinct.entries closed
  · exact Entries.closeItem_distinct distinct.document distinct.entries closed

theorem Distinct.openSection {header : Section} (distinct : p.Distinct)
    (opened : p.openSection header = some q) : q.Distinct := by
  unfold Progress.openSection at opened
  split at opened
  · simp only [bind, Option.bind_eq_some_iff, pure, Option.some.injEq] at opened
    obtain ⟨document, closed, ⟨after, known⟩, isTable, rfl⟩ := opened
    obtain ⟨kept, old⟩ := Entries.openTable_distinct (distinct.close closed) isTable
    exact ⟨kept, old⟩
  · simp only [bind, Option.bind_eq_some_iff, pure, Option.some.injEq] at opened
    obtain ⟨document, closed, rfl⟩ := opened
    exact ⟨distinct.close closed, Entries.distinct_nil⟩

theorem Distinct.add {path : KeyPath} {v : Value} (distinct : p.Distinct) (value : v.Distinct)
    (added : p.add path v = some q) : q.Distinct := by
  simp only [Progress.add, bind, Option.bind_eq_some_iff, pure, Option.some.injEq] at added
  obtain ⟨entries, inserted, rfl⟩ := added
  exact ⟨distinct.document, Entries.insert_distinct distinct.entries value inserted⟩

theorem Distinct.line {s rest : List Char} (distinct : p.Distinct)
    (read : line p s = some (q, rest)) : q.Distinct := by
  unfold Toml.line at read
  split at read
  · simp only [bind, Option.bind_eq_some_iff, pure, Option.some.injEq, Prod.mk.injEq] at read
    obtain ⟨_, -, after, opened, _, -, rfl, -⟩ := read
    exact distinct.openSection opened
  · split at read
    · simp only [bind, Option.bind_eq_some_iff, pure, Option.some.injEq, Prod.mk.injEq] at read
      obtain ⟨_, -, rfl, -⟩ := read
      exact distinct
    · simp only [bind, Option.bind_eq_some_iff, pure, Option.some.injEq, Prod.mk.injEq] at read
      obtain ⟨⟨⟨path, v⟩, after⟩, isPair, next, added, _, -, rfl, -⟩ := read
      exact distinct.add (pair_distinct (fun _ _ _ => value_distinct) isPair) added
  · cases read
    exact distinct

theorem Distinct.lines {most : Nat} {s : List Char} (distinct : p.Distinct)
    (read : lines most p s = some q) : q.Distinct := by
  induction most generalizing p s with
  | zero =>
    unfold Toml.lines at read
    split at read
    · cases read
      exact distinct
    · cases read
  | succ most ih =>
    unfold Toml.lines at read
    split at read
    · cases read
      exact distinct
    · simp only [bind, Option.bind_eq_some_iff] at read
      obtain ⟨⟨next, rest⟩, isLine, later⟩ := read
      exact ih (distinct.line isLine) later

end Progress

/-- Every table of a document has each of its keys once, and so has the document. -/
theorem parse_distinct {s : List Char} {document : Entries} (parsed : parse s = some document) :
    document.Distinct := by
  simp only [parse, bind, Option.bind_eq_some_iff] at parsed
  obtain ⟨progress, read, closed⟩ := parsed
  have start : Progress.start.Distinct := ⟨Entries.distinct_nil, Entries.distinct_nil⟩
  exact (start.lines read).close closed

end HolePunch.Toml
