import HolePunch.Settings.Load

/-!
# Trees of settings

What a tree holds at a key after a value was laid over it. `Node.tableAt_overlay` says when a section
stays a table, and `Node.leaf_setPath` that setting one field of a section changes no other field.
-/

namespace HolePunch.Settings.Node

def IsTable (n : Node) : Prop := ∃ entries, n = .table entries

/-- What a tree holds at a key. -/
def child (tree : Node) (key : String) : Option Node := tree.entries.lookup key

/-- What a tree holds at a field of a section. -/
def leaf (tree : Node) (key field : String) : Option Node :=
  (tree.child key).bind fun inner => inner.child field

/-- If the tree holds anything at a key, it is a table. -/
def TableAt (tree : Node) (key : String) : Prop := ∀ n, tree.child key = some n → n.IsTable

theorem child_put (entries : List (String × Node)) (key other : String) (value : Node) :
    (table (Assoc.put key value entries)).child other =
      if other = key then some value else entries.lookup other :=
  Assoc.lookup_put key other value entries

theorem tableAt_put {tree : Node} {key other : String} {value : Node} (kept : tree.TableAt other)
    (isTable : other = key → value.IsTable) :
    (table (Assoc.put key value tree.entries)).TableAt other := by
  intro n found
  rw [child_put] at found
  split at found
  · next same =>
    obtain rfl := Option.some.inj found
    exact isTable same
  · exact kept n found

/-! ### Laying a value over a tree -/

theorem set_of_not_isTable {value : Node} (scalar : ¬value.IsTable) (tree : Node) (key : String) :
    tree.set key value = .table (Assoc.put key.toLower value tree.entries) := by
  rw [set]
  intro entries same
  exact scalar ⟨entries, same⟩

theorem isTable_set (tree : Node) (key : String) (value : Node) : (tree.set key value).IsTable := by
  by_cases scalar : value.IsTable
  · obtain ⟨incoming, rfl⟩ := scalar
    rw [set]
    exact ⟨_, rfl⟩
  · rw [set_of_not_isTable scalar]
    exact ⟨_, rfl⟩

theorem isTable_setAll {tree : Node} (isTable : tree.IsTable) (incoming : List (String × Node)) :
    (tree.setAll incoming).IsTable := by
  induction incoming generalizing tree with
  | nil => rwa [setAll]
  | cons entry rest ih =>
    rw [setAll]
    exact ih (isTable_set tree entry.1 entry.2)

theorem tableAt_set {tree : Node} {key other : String} {value : Node} (kept : tree.TableAt other)
    (isTable : other = key.toLower → value.IsTable) : (tree.set key value).TableAt other := by
  by_cases scalar : value.IsTable
  · obtain ⟨incoming, rfl⟩ := scalar
    rw [set]
    apply tableAt_put kept
    rintro rfl
    apply isTable_setAll
    cases old : tree.child key.toLower with
    | none =>
      rw [child] at old
      rw [old]
      exact ⟨[], rfl⟩
    | some n =>
      have found := kept n old
      rw [child] at old
      rwa [old]
  · rw [set_of_not_isTable scalar]
    exact tableAt_put kept isTable

/-! ### Paths -/

theorem pathKey_append {s rest : List Char} {name : String} (found : pathKey s = some (name, rest)) :
    s = name.toList ++ rest := by
  simp only [pathKey] at found
  split at found
  · cases found
  · cases found
    rw [String.toList_ofList, List.takeWhile_append_dropWhile]

/-- Without a bracket a path goes through keys, and a path of one key is that key. -/
theorem path?_cases {key first : String} {steps : List PathStep} (plain : '[' ∉ key.toList)
    (found : path? key = some (first, steps)) :
    (steps = [] ∧ first = key) ∨ ∃ name more, steps = .key name :: more := by
  simp only [path?, bind, Option.bind_eq_some_iff] at found
  obtain ⟨⟨name, rest⟩, isKey, later, isSteps, same⟩ := found
  obtain ⟨rfl, rfl⟩ := Prod.mk.inj (Option.some.inj same)
  have parts := pathKey_append isKey
  match rest with
  | [] =>
    rw [pathSteps] at isSteps
    rw [List.append_nil, String.toList_inj] at parts
    exact .inl ⟨(Option.some.inj isSteps).symm, parts.symm⟩
  | c :: rest =>
    simp only [List.length_cons] at isSteps
    unfold pathSteps at isSteps
    split at isSteps
    · next empty => cases empty
    · next none _ => cases none
    · simp only [bind, Option.bind_eq_some_iff] at isSteps
      obtain ⟨⟨next, after⟩, -, more, -, same⟩ := isSteps
      exact .inr ⟨next, more, (Option.some.inj same).symm⟩
    · next bracket =>
      obtain ⟨rfl, -⟩ := List.cons.inj bracket
      exact absurd (parts ▸ List.mem_append_right _ List.mem_cons_self) plain
    · cases isSteps

theorem isTable_setSteps (tree value : Node) (name : String) (more : List PathStep) :
    (tree.setSteps value (.key name :: more)).IsTable := by
  cases more with
  | nil =>
    rw [setSteps]
    exact isTable_set tree name value
  | cons step more => exact ⟨_, by rw [setSteps]; exact List.cons_ne_nil step more⟩

theorem tableAt_setPath {tree : Node} {key other : String} {value : Node} (plain : '[' ∉ key.toList)
    (kept : tree.TableAt other) (isTable : other = key.toLower → value.IsTable) :
    (tree.setPath key value).TableAt other := by
  unfold setPath
  split
  · next first steps found =>
    rcases path?_cases plain found with ⟨rfl, rfl⟩ | ⟨name, more, rfl⟩
    · rw [setSteps]
      exact tableAt_set kept isTable
    · rw [setSteps]
      · apply tableAt_put kept
        intro _
        exact isTable_setSteps _ value name more
      · exact List.cons_ne_nil _ _
  · exact tableAt_set kept isTable

theorem tableAt_overlay {tree : Node} {other : String} {source : List (String × Node)}
    (kept : tree.TableAt other)
    (plain : ∀ entry ∈ source,
      '[' ∉ entry.1.toList ∧ (other = entry.1.toLower → entry.2.IsTable)) :
    (tree.overlay source).TableAt other := by
  induction source generalizing tree with
  | nil => exact kept
  | cons entry rest ih =>
    obtain ⟨here, later⟩ := List.forall_mem_cons.mp plain
    exact ih (tableAt_setPath here.1 kept here.2) later

/-! ### One field of a section -/

section

variable {key : String} {first field : String} (isPath : path? key = some (first, [.key field]))
variable {value : Node} (scalar : ¬value.IsTable) (tree : Node)

include isPath scalar

theorem setPath_field :
    tree.setPath key value =
      let inner := (tree.child first.toLower).getD .nothing
      .table (Assoc.put first.toLower (.table (Assoc.put field.toLower value inner.entries))
        tree.entries) := by
  rw [setPath, isPath]
  simp only [setSteps, set_of_not_isTable scalar]
  rfl

theorem leaf_setPath (k f : String) :
    (tree.setPath key value).leaf k f =
      if k = first.toLower ∧ f = field.toLower then some value else tree.leaf k f := by
  rw [setPath_field isPath scalar, leaf, child_put]
  by_cases sameKey : k = first.toLower
  · subst k
    rw [if_pos rfl, Option.bind_some, child_put]
    by_cases sameField : f = field.toLower
    · rw [if_pos sameField, if_pos ⟨rfl, sameField⟩]
    · rw [if_neg sameField, if_neg (fun both => sameField both.2), leaf]
      cases tree.child first.toLower <;> rfl
  · rw [if_neg sameKey, if_neg (fun both => sameKey both.1)]
    rfl

theorem tableAt_setPath_field {other : String} (kept : tree.TableAt other) :
    (tree.setPath key value).TableAt other := by
  rw [setPath_field isPath scalar]
  exact tableAt_put kept fun _ => ⟨_, rfl⟩

end

end HolePunch.Settings.Node
