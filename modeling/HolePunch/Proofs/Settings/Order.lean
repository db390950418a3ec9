import HolePunch.Proofs.Settings.Layering
import Mathlib.Data.List.Forall2

/-!
# The order of a file's entries

`Node.writes` lists what an entry of a file says about one field of a section. What a tree of
settings holds there is decided by all of it, one after the other (`Node.leaf_overlay`). Where the
entries of a file say at most one thing about each setting, no order of the entries changes what is
loaded (`loadIn_eq_of_unclashing`).
-/

namespace HolePunch.Settings

namespace Node

/-- What the entries of a section say about a field: values with no steps below the field. -/
def fieldWrites (field : String) (entries : List (String × Node)) :
    List (List PathStep × Node) :=
  entries.filterMap fun inner => if inner.1.toLower = field then some ([], inner.2) else none

/-- What an entry says about a field of a section: the steps below the field, and a value. -/
def writes (key field : String) (entry : String × Node) : List (List PathStep × Node) :=
  match path? entry.1 with
  | some (first, .key second :: steps) =>
    if first.toLower = key ∧ second.toLower = field then [(steps, entry.2)] else []
  | _ =>
    if entry.1.toLower = key then fieldWrites field entry.2.entries else []

theorem writes_of_path {name first second : String} {steps : List PathStep}
    (isPath : path? name = some (first, .key second :: steps)) (key field : String) (value : Node) :
    writes key field (name, value) =
      if first.toLower = key ∧ second.toLower = field then [(steps, value)] else [] := by
  rw [writes, isPath]

/-- What a field holds after a value was laid over what it held before. -/
def after (before : Option Node) : List PathStep × Node → Node
  | ([], .table incoming) => setAll (before.getD (.table [])) incoming
  | ([], value) => value
  | (step :: steps, value) => setSteps (before.getD .nothing) value (step :: steps)

/-- What a field holds after values were laid over it one after the other. -/
def afterAll (before : Option Node) (all : List (List PathStep × Node)) : Option Node :=
  all.foldl (fun held write => some (after held write)) before

theorem afterAll_append (before : Option Node) (xs ys : List (List PathStep × Node)) :
    afterAll before (xs ++ ys) = afterAll (afterAll before xs) ys := List.foldl_append

/-! ### One field of a tree -/

theorem child_set (tree : Node) (key : String) (value : Node) (field : String) :
    (tree.set key value).child field =
      if field = key.toLower then some (after (tree.child field) ([], value))
      else tree.child field := by
  by_cases isTable : value.IsTable
  · obtain ⟨incoming, rfl⟩ := isTable
    rw [set, child_put]
    split
    · next same =>
      subst same
      rfl
    · rfl
  · rw [set_of_not_isTable isTable, child_put]
    split
    · rw [after]
      rintro incoming rfl
      exact isTable ⟨incoming, rfl⟩
    · rfl

theorem child_setAll_eq (tree : Node) (incoming : List (String × Node)) (field : String) :
    (tree.setAll incoming).child field =
      afterAll (tree.child field) (fieldWrites field incoming) := by
  induction incoming generalizing tree with
  | nil =>
    rw [setAll]
    rfl
  | cons entry rest ih =>
    rw [setAll, ih, child_set, fieldWrites, fieldWrites, List.filterMap_cons]
    by_cases same : entry.1.toLower = field
    · rw [if_pos same.symm, if_pos same]
      rfl
    · rw [if_neg (Ne.symm same), if_neg same]

theorem child_setSteps (tree value : Node) (name field : String) (steps : List PathStep) :
    (tree.setSteps value (.key name :: steps)).child field =
      if field = name.toLower then some (after (tree.child field) (steps, value))
      else tree.child field := by
  cases steps with
  | nil => rw [setSteps, child_set]
  | cons step steps =>
    rw [setSteps, child_put]
    · split
      · next same =>
        subst same
        rfl
      · rfl
    · exact List.cons_ne_nil step steps

/-- The field of a section that is not there holds nothing. -/
theorem leaf_eq (tree : Node) (key field : String) :
    tree.leaf key field = ((tree.child key).getD .nothing).child field := by
  rw [leaf]
  cases tree.child key <;> rfl

theorem leaf_set {tree value : Node} {name : String} (key field : String)
    (isTable : key = name.toLower → value.IsTable) :
    (tree.set name value).leaf key field =
      afterAll (tree.leaf key field)
        (if name.toLower = key then fieldWrites field value.entries else []) := by
  rw [leaf, child_set]
  by_cases same : key = name.toLower
  · obtain ⟨incoming, rfl⟩ := isTable same
    rw [if_pos same, if_pos same.symm, Option.bind_some, after, child_setAll_eq, leaf]
    cases tree.child key <;> rfl
  · rw [if_neg same, if_neg (Ne.symm same)]
    rfl

theorem leaf_setPath_eq {tree value : Node} {name : String} (key field : String)
    (plain : '[' ∉ name.toList) (isTable : key = name.toLower → value.IsTable) :
    (tree.setPath name value).leaf key field =
      afterAll (tree.leaf key field) (writes key field (name, value)) := by
  cases found : path? name with
  | none =>
    rw [setPath, writes, found]
    exact leaf_set key field isTable
  | some path =>
    obtain ⟨first, steps⟩ := path
    rcases path?_cases plain found with ⟨rfl, rfl⟩ | ⟨second, more, rfl⟩
    · simp only [setPath, writes, found, setSteps]
      exact leaf_set key field isTable
    · rw [writes_of_path found, setPath, found]
      simp only
      rw [leaf, child_setSteps]
      by_cases same : key = first.toLower
      · have inner : after (tree.child key) (.key second :: more, value) =
            ((tree.child key).getD .nothing).setSteps value (.key second :: more) := by rw [after]
        rw [if_pos same, Option.bind_some, inner, child_setSteps, ← leaf_eq]
        by_cases here : field = second.toLower
        · rw [if_pos here, if_pos ⟨same.symm, here.symm⟩]
          rfl
        · rw [if_neg here, if_neg fun both => here both.2.symm]
          rfl
      · rw [if_neg same, if_neg fun both => same both.1.symm]
        rfl

/-- A field of a section holds what the entries of a source say about it, laid over what it held. -/
theorem leaf_overlay {tree : Node} {source : List (String × Node)} (key field : String)
    (plain : ∀ entry ∈ source,
      '[' ∉ entry.1.toList ∧ (key = entry.1.toLower → entry.2.IsTable)) :
    (tree.overlay source).leaf key field =
      afterAll (tree.leaf key field) (source.flatMap (writes key field)) := by
  induction source generalizing tree with
  | nil => rfl
  | cons entry rest ih =>
    obtain ⟨⟨here, isTable⟩, later⟩ := List.forall_mem_cons.mp plain
    rw [List.flatMap_cons, afterAll_append, ← leaf_setPath_eq key field here isTable]
    exact ih later

/-! ### Rearranged sources -/

/-- The same value, or two that hold others: no setting takes either. -/
def Alike (a b : Node) : Prop := a = b ∨ (a.isSection = true ∧ b.isSection = true)

theorem alike_node (order : EntryOrder) (place : List String) (value : Node) :
    Alike (order.node place value) value := by
  cases value with
  | table entries => exact .inr ⟨rfl, rfl⟩
  | _ => exact .inl rfl

/-- The same steps with alike values, in whatever order. -/
def SameWrites (xs ys : List (List PathStep × Node)) : Prop :=
  ∃ zs, xs.Perm zs ∧ List.Forall₂ (fun z y => z.1 = y.1 ∧ Alike z.2 y.2) zs ys

namespace SameWrites

variable {ws xs ys zs : List (List PathStep × Node)}

theorem nil : SameWrites [] [] := ⟨[], .refl [], .nil⟩

theorem singleton {a b : Node} (steps : List PathStep) (alike : Alike a b) :
    SameWrites [(steps, a)] [(steps, b)] :=
  ⟨_, .refl _, .cons ⟨rfl, alike⟩ .nil⟩

theorem append (front : SameWrites ws xs) (back : SameWrites ys zs) :
    SameWrites (ws ++ ys) (xs ++ zs) := by
  obtain ⟨us, order, alike⟩ := front
  obtain ⟨vs, order', alike'⟩ := back
  exact ⟨us ++ vs, order.append order', List.rel_append alike alike'⟩

theorem of_perm (order : ws.Perm xs) (same : SameWrites xs ys) : SameWrites ws ys := by
  obtain ⟨us, order', alike⟩ := same
  exact ⟨us, order.trans order', alike⟩

end SameWrites

theorem isTable_node {value : Node} (isTable : value.IsTable) (order : EntryOrder)
    (place : List String) : (order.node place value).IsTable := by
  obtain ⟨entries, rfl⟩ := isTable
  exact ⟨_, by rw [EntryOrder.node]⟩

theorem mem_nodes {order : EntryOrder} {place : List String} {source : List (String × Node)}
    {entry : String × Node} (member : entry ∈ order.nodes place source) :
    ∃ value, (entry.1, value) ∈ source ∧ entry.2 = order.node (entry.1 :: place) value := by
  induction source with
  | nil => cases member
  | cons first rest ih =>
    obtain ⟨key, value⟩ := first
    rw [EntryOrder.nodes, List.mem_cons] at member
    rcases member with rfl | later
    · exact ⟨value, List.mem_cons_self, rfl⟩
    · obtain ⟨value, member, same⟩ := ih later
      exact ⟨value, List.mem_cons_of_mem _ member, same⟩

theorem Regular.source {source : List (String × Node)} (regular : Regular source)
    (order : EntryOrder) : Regular (order.source source) := by
  intro entry member
  obtain ⟨value, before, same⟩ := mem_nodes ((order.perm [] _).mem_iff.mp member)
  obtain ⟨plain, isTable⟩ := regular _ before
  exact ⟨plain, fun isSection => same ▸ isTable_node (isTable isSection) order _⟩

theorem sameWrites_fieldWrites (order : EntryOrder) (place : List String) (field : String)
    (entries : List (String × Node)) :
    SameWrites (fieldWrites field (order.nodes place entries)) (fieldWrites field entries) := by
  induction entries with
  | nil => exact .nil
  | cons entry rest ih =>
    obtain ⟨key, value⟩ := entry
    rw [EntryOrder.nodes, fieldWrites, fieldWrites, List.filterMap_cons, List.filterMap_cons]
    by_cases same : key.toLower = field
    · rw [if_pos same, if_pos same]
      exact (SameWrites.singleton [] (alike_node order (key :: place) value)).append ih
    · rw [if_neg same, if_neg same]
      exact ih

theorem sameWrites_entries (order : EntryOrder) (place : List String) (field : String)
    (value : Node) :
    SameWrites (fieldWrites field (order.node place value).entries)
      (fieldWrites field value.entries) := by
  cases value with
  | table entries =>
    rw [EntryOrder.node]
    exact .of_perm ((order.perm place _).filterMap _) (sameWrites_fieldWrites order place field entries)
  | _ => exact .nil

theorem sameWrites_writes (order : EntryOrder) (place : List String) (key field name : String)
    (value : Node) :
    SameWrites (writes key field (name, order.node place value)) (writes key field (name, value)) := by
  simp only [writes]
  split
  · split
    · exact .singleton _ (alike_node order place value)
    · exact .nil
  · split
    · exact sameWrites_entries order place field value
    · exact .nil

theorem sameWrites_source (order : EntryOrder) (key field : String)
    (source : List (String × Node)) :
    SameWrites ((order.source source).flatMap (writes key field))
      (source.flatMap (writes key field)) := by
  refine .of_perm ((order.perm [] _).flatMap_right _) ?_
  induction source with
  | nil => exact .nil
  | cons entry rest ih =>
    obtain ⟨name, value⟩ := entry
    rw [EntryOrder.nodes, List.flatMap_cons, List.flatMap_cons]
    exact (sameWrites_writes order [name] key field name value).append ih

/-! ### One write at the most -/

theorem isSection_after {value : Node} (isSection : value.isSection = true) :
    (steps : List PathStep) → (after none (steps, value)).isSection = true
  | [] => by
    cases value with
    | table incoming =>
      obtain ⟨entries, same⟩ := isTable_setAll ⟨[], rfl⟩ incoming
      rw [after, Option.getD_none, same]
      rfl
    | list items => rfl
    | _ => cases isSection
  | .key name :: steps => by
    obtain ⟨entries, same⟩ := isTable_setSteps .nothing value name steps
    rw [after, Option.getD_none, same]
    rfl
  | .index _ :: _ => rfl

theorem Alike.after {a b : Node} (alike : Alike a b) (steps : List PathStep) :
    Alike (Node.after none (steps, a)) (Node.after none (steps, b)) := by
  rcases alike with rfl | ⟨left, right⟩
  · exact .inl rfl
  · exact .inr ⟨isSection_after left steps, isSection_after right steps⟩

/-- One write is the same in every order. -/
theorem SameWrites.rel_afterAll {xs ys : List (List PathStep × Node)} (same : SameWrites xs ys)
    (few : ys.length ≤ 1) : Option.Rel Alike (afterAll none xs) (afterAll none ys) := by
  obtain ⟨zs, order, each⟩ := same
  match ys, each with
  | [], .nil =>
    obtain rfl := List.perm_nil.mp order
    exact .none
  | [(steps, b)], .cons (a := z) ⟨atSteps, alike⟩ .nil =>
    obtain rfl := List.perm_singleton.mp order
    obtain ⟨_, a⟩ := z
    obtain rfl := atSteps
    exact .some (alike.after _)
  | _ :: _ :: _, _ => simp at few

end Node

/-! ### Settings that are read alike -/

section

variable {n : Node} (isSection : n.isSection = true)

include isSection

theorem toText?_of_isSection : n.toText? = none := by
  cases n with
  | table | list => rfl
  | _ => cases isSection

theorem toBoolean?_of_isSection : n.toBoolean? = none := by
  cases n with
  | table | list => rfl
  | _ => cases isSection

theorem toUnsigned?_of_isSection : n.toUnsigned? = none := by
  cases n with
  | table | list => rfl
  | _ => cases isSection

theorem toAddress?_of_isSection : n.toAddress? = none := by
  rw [Node.toAddress?, toText?_of_isSection isSection]
  rfl

theorem toOptionalUnsigned?_of_isSection : n.toOptionalUnsigned? = none := by
  cases n with
  | table | list => rfl
  | _ => cases isSection

end

theorem fieldOr_of_alike {α : Type} (standard : α) {read : Node → Option α}
    (refuses : ∀ {n : Node}, n.isSection = true → read n = none) {x y : Option Node}
    (alike : Option.Rel Node.Alike x y) : fieldOr standard read x = fieldOr standard read y := by
  cases alike with
  | none => rfl
  | some alike =>
    rcases alike with rfl | ⟨left, right⟩
    · rfl
    · exact (refuses left).trans (refuses right).symm

theorem read_iff_of_alike {value other : Setting → Option Node} {s : Settings}
    (alike : ∀ k, Option.Rel Node.Alike (value k) (other k)) : Read value s ↔ Read other s := by
  have level := fieldOr_of_alike standard.level toText?_of_isSection (alike .level)
  have json := fieldOr_of_alike standard.json toBoolean?_of_isSection (alike .json)
  have size := fieldOr_of_alike standard.recvBufferSize toUnsigned?_of_isSection
    (alike .recvBufferSize)
  have addr := fieldOr_of_alike standard.bindAddress toAddress?_of_isSection (alike .bindAddress)
  have timeout := fieldOr_of_alike standard.readTimeoutMs toOptionalUnsigned?_of_isSection
    (alike .readTimeoutMs)
  constructor
  · rintro ⟨isLevel, isJson, isSize, isAddr, isTimeout⟩
    exact ⟨level ▸ isLevel, json ▸ isJson, size ▸ isSize, addr ▸ isAddr, timeout ▸ isTimeout⟩
  · rintro ⟨isLevel, isJson, isSize, isAddr, isTimeout⟩
    exact ⟨level ▸ isLevel, json ▸ isJson, size ▸ isSize, addr ▸ isAddr, timeout ▸ isTimeout⟩

/-! ### Loading in any order -/

/-- The entries of a source say at most one thing about each setting. -/
def Node.Unclashing (source : List (String × Node)) : Prop :=
  ∀ k : Setting, (source.flatMap (Node.writes k.sectionName k.fieldName)).length ≤ 1

instance (source : List (String × Node)) : Decidable (Node.Unclashing source) :=
  inferInstanceAs (Decidable (∀ k : Setting,
    (source.flatMap (Node.writes k.sectionName k.fieldName)).length ≤ 1))

theorem valueAt_overlay {source : List (String × Node)} (regular : Node.Regular source)
    (k : Setting) :
    ((Node.table []).overlay source).valueAt k =
      Node.afterAll none (source.flatMap (Node.writes k.sectionName k.fieldName)) := by
  have isSection : k.sectionName ∈ sectionNames := by cases k <;> decide
  refine Node.leaf_overlay k.sectionName k.fieldName fun entry member => ?_
  obtain ⟨plain, isTable⟩ := regular entry member
  exact ⟨plain, fun same => isTable (same ▸ isSection)⟩

/-- What a file says about the settings is read off its entries, in their order. -/
theorem loadIn_eq_ok_iff_read {order : EntryOrder} {file : FileChoice}
    {source : List (String × Node)} (found : file.entries? = some source)
    (regular : Node.Regular source) {env : Environment}
    (noVariables : ∀ entry ∈ env, IsForeign entry.1) {s : Settings} :
    loadIn order file env = .ok s ↔
      Read (fun k => Node.afterAll none ((order.source source).flatMap
        (Node.writes k.sectionName k.fieldName))) s ∧ s.check = .ok () := by
  have values := funext (valueAt_overlay (regular.source order))
  simp only [loadIn_eq_ok_iff, found, Option.some.injEq, exists_eq_left', layers,
    ofEnvironment_of_isForeign noVariables]
  rw [← values]
  exact and_congr_left' (ofNode_eq_some_iff (regular.source order).sectioned)

theorem alike_layers {source : List (String × Node)} (regular : Node.Regular source)
    (unclashing : Node.Unclashing source) (order : EntryOrder) {env : Environment}
    (known : env.Known) (once : env.Once) (k : Setting) :
    Option.Rel Node.Alike ((layers (order.source source) env).valueAt k)
      ((layers source env).valueAt k) := by
  cases named : env.names k with
  | false =>
    rw [layers, layers, (valueAt_overlay_environment known once _ k).1 named,
      (valueAt_overlay_environment known once _ k).1 named, valueAt_overlay (regular.source order),
      valueAt_overlay regular]
    exact (Node.sameWrites_source order _ _ source).rel_afterAll (unclashing k)
  | true =>
    obtain ⟨entry, member, isNamed⟩ := List.any_eq_true.mp named
    rw [layers, layers, (valueAt_overlay_environment known once _ k).2 entry member isNamed,
      (valueAt_overlay_environment known once _ k).2 entry member isNamed]
    exact .some (.inl rfl)

theorem ofLayers_source {source : List (String × Node)} (regular : Node.Regular source)
    (unclashing : Node.Unclashing source) (order : EntryOrder) {env : Environment}
    (known : env.Known) (once : env.Once) :
    ofLayers (order.source source) env = ofLayers source env := by
  have tree : ofNode (layers (order.source source) env) = ofNode (layers source env) := by
    ext s
    have arranged := sectioned_overlay_environment known (regular.source order).sectioned
    have given := sectioned_overlay_environment known regular.sectioned
    rw [layers, ofNode_eq_some_iff arranged, layers, ofNode_eq_some_iff given]
    exact read_iff_of_alike (alike_layers regular unclashing order known once)
  rw [ofLayers, ofLayers, tree]

/-- Where the entries of a file say at most one thing about each setting, their order does not
matter. -/
theorem loadIn_eq_of_unclashing {file : FileChoice} {source : List (String × Node)}
    (found : file.entries? = some source) (regular : Node.Regular source)
    (unclashing : Node.Unclashing source) {env : Environment} (known : env.Known)
    (once : env.Once) (order other : EntryOrder) : loadIn order file env = loadIn other file env := by
  simp only [loadIn, found, ofLayers_source regular unclashing _ known once]

end HolePunch.Settings
