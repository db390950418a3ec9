import HolePunch.Proofs.Settings.Tree
import HolePunch.Proofs.Settings.Variable
import Mathlib.Control.Monad.Basic

/-!
# Settings off a tree of layers

Settings are read off a tree one by one (`ofNode_eq_some_iff`), and a variable sets one of them
(`valueAt_overlay_environment`). So settings can be overridden one by one (`Read.overriddenBy`).
-/

namespace HolePunch

/-- A value that is a table, in whatever way it was defined. -/
def Toml.Value.isTable : Toml.Value → Bool
  | .table .. => true
  | _ => false

end HolePunch

namespace HolePunch.Settings

namespace Node

/-- What a tree holds for a setting. -/
def valueAt (tree : Node) (k : Setting) : Option Node := tree.leaf k.sectionName k.fieldName

/-- What a tree holds in the place of a section is a table. -/
def Sectioned (tree : Node) : Prop := ∀ key ∈ sectionNames, tree.TableAt key

end Node

/-! ### A tree under variables -/

theorem not_isTable_ofVariable (text : String) : ¬(ofVariable text).IsTable := by
  rintro ⟨entries, same⟩
  simp only [ofVariable] at same
  split at same
  · cases same
  · split at same
    · cases same
    · split at same
      · cases same
      · split at same <;> cases same

theorem valueAt_setPath (j k : Setting) {value : Node} (scalar : ¬value.IsTable) (tree : Node) :
    (tree.setPath j.key value).valueAt k = if k = j then some value else tree.valueAt k := by
  rw [Node.valueAt, Node.leaf_setPath j.path?_key scalar, j.toLower_sectionName,
    j.toLower_fieldName]
  by_cases same : k = j
  · rw [if_pos same, same, if_pos ⟨rfl, rfl⟩]
  · rw [if_neg same, if_neg fun both => same (Setting.names_injective both.1 both.2)]
    rfl

theorem sectioned_overlay_environment {env : Environment} (known : env.Known) {tree : Node}
    (sectioned : tree.Sectioned) : (tree.overlay (ofEnvironment env)).Sectioned := by
  induction env generalizing tree with
  | nil => exact sectioned
  | cons entry later ih =>
    obtain ⟨name, text⟩ := entry
    obtain ⟨here, rest⟩ := List.forall_mem_cons.mp known
    rcases here with foreign | ⟨j, named⟩
    · rw [ofEnvironment_cons_of_isForeign foreign]
      exact ih rest sectioned
    · rw [ofEnvironment_cons_of_isNamedBy named]
      apply ih rest
      intro key isSection
      exact Node.tableAt_setPath_field j.path?_key (not_isTable_ofVariable text) tree
        (sectioned key isSection)

/-- Under variables a tree holds for a setting what the setting's variable says, and without such a
variable what it held before. -/
theorem valueAt_overlay_environment {env : Environment} (known : env.Known) (once : env.Once)
    (tree : Node) (k : Setting) :
    (env.names k = false → (tree.overlay (ofEnvironment env)).valueAt k = tree.valueAt k) ∧
      ∀ entry ∈ env, k.isNamedBy entry.1 = true →
        (tree.overlay (ofEnvironment env)).valueAt k = some (ofVariable entry.2) := by
  induction env generalizing tree with
  | nil => exact ⟨fun _ => rfl, fun _ none => nomatch none⟩
  | cons entry later ih =>
    obtain ⟨name, text⟩ := entry
    obtain ⟨here, rest⟩ := List.forall_mem_cons.mp known
    obtain ⟨alone, others⟩ := List.pairwise_cons.mp once
    rw [Environment.names_cons, Bool.or_eq_false_iff, List.forall_mem_cons]
    rcases here with foreign | ⟨j, named⟩
    · rw [ofEnvironment_cons_of_isForeign foreign]
      obtain ⟨unnamed, told⟩ := ih rest others tree
      refine ⟨fun none => unnamed none.2, fun named => ?_, told⟩
      exact absurd named (foreign.not_isNamedBy k)
    · rw [ofEnvironment_cons_of_isNamedBy named]
      have here := valueAt_setPath j k (not_isTable_ofVariable text) tree
      obtain ⟨unnamed, told⟩ := ih rest others (tree.setPath j.key (ofVariable text))
      refine ⟨?_, ?_, told⟩
      · rintro ⟨other, none⟩
        have different : k ≠ j := by
          rintro rfl
          exact absurd named (by rw [other]; decide)
        rw [if_neg different] at here
        exact (unnamed none).trans here
      · intro same
        obtain rfl := Setting.eq_of_isNamedBy same named
        rw [if_pos rfl] at here
        refine (unnamed ?_).trans here
        rw [Environment.names, List.any_eq_false]
        intro entry member
        rw [alone entry member k named]
        decide

/-! ### Reading settings off a tree -/

/-- The settings are what these values read as, with the standard value where there is none. -/
structure Read (value : Setting → Option Node) (s : Settings) : Prop where
  level : fieldOr standard.level Node.toText? (value .level) = some s.level
  json : fieldOr standard.json Node.toBoolean? (value .json) = some s.json
  recvBufferSize :
    fieldOr standard.recvBufferSize Node.toUnsigned? (value .recvBufferSize) =
      some s.recvBufferSize
  bindAddress :
    fieldOr standard.bindAddress Node.toAddress? (value .bindAddress) = some s.bindAddress
  readTimeoutMs :
    fieldOr standard.readTimeoutMs Node.toOptionalUnsigned? (value .readTimeoutMs) =
      some s.readTimeoutMs

theorem all_isSection {tree : Node} {key : String} (isTable : tree.TableAt key) :
    (tree.entries.lookup key).all Node.isSection = true := by
  cases found : tree.entries.lookup key with
  | none => rfl
  | some n =>
    obtain ⟨entries, rfl⟩ := isTable n found
    rfl

theorem bind_fieldOf {tree : Node} {key : String} (isTable : tree.TableAt key) (field : String)
    (place : Nat) :
    (tree.entries.lookup key).bind (Node.fieldOf field place) = tree.leaf key field := by
  rw [Node.leaf, Node.child]
  cases found : tree.entries.lookup key with
  | none => rfl
  | some n =>
    obtain ⟨entries, rfl⟩ := isTable n found
    rfl

theorem ofNode_eq_some_iff {tree : Node} (sectioned : tree.Sectioned) {s : Settings} :
    ofNode tree = some s ↔ Read tree.valueAt s := by
  have logging : tree.TableAt "logging" := sectioned _ (by decide)
  have codec : tree.TableAt "codec" := sectioned _ (by decide)
  have listen : tree.TableAt "listen" := sectioned _ (by decide)
  simp only [ofNode, all_isSection logging, all_isSection codec, all_isSection listen,
    bind_fieldOf logging, bind_fieldOf codec, bind_fieldOf listen, Bool.and_self, if_true, bind,
    Option.bind_eq_some_iff, pure, Option.some.injEq]
  constructor
  · rintro ⟨level, isLevel, json, isJson, size, isSize, addr, isAddr, timeout, isTimeout, rfl⟩
    exact ⟨isLevel, isJson, isSize, isAddr, isTimeout⟩
  · rintro ⟨isLevel, isJson, isSize, isAddr, isTimeout⟩
    exact ⟨_, isLevel, _, isJson, _, isSize, _, isAddr, _, isTimeout, rfl⟩

/-- The settings with those that are named taken from others. -/
def overriddenBy (base upper : Settings) (named : Setting → Bool) : Settings where
  level := if named .level then upper.level else base.level
  json := if named .json then upper.json else base.json
  recvBufferSize := if named .recvBufferSize then upper.recvBufferSize else base.recvBufferSize
  bindAddress := if named .bindAddress then upper.bindAddress else base.bindAddress
  readTimeoutMs := if named .readTimeoutMs then upper.readTimeoutMs else base.readTimeoutMs

theorem fieldOr_overridden {α β : Type} {standard b o : α} {read : β → Option α}
    {x below above : Option β} {named : Bool} (fromBelow : named = false → x = below)
    (fromAbove : named = true → x = above) (isBelow : fieldOr standard read below = some b)
    (isAbove : fieldOr standard read above = some o) :
    fieldOr standard read x = some (if named then o else b) := by
  cases named with
  | false =>
    rw [fromBelow rfl]
    exact isBelow
  | true =>
    rw [fromAbove rfl]
    exact isAbove

theorem Read.overriddenBy {value below above : Setting → Option Node} {named : Setting → Bool}
    {base upper : Settings} (fromBelow : ∀ k, named k = false → value k = below k)
    (fromAbove : ∀ k, named k = true → value k = above k) (isBelow : Read below base)
    (isAbove : Read above upper) : Read value (base.overriddenBy upper named) where
  level := fieldOr_overridden (fromBelow _) (fromAbove _) isBelow.level isAbove.level
  json := fieldOr_overridden (fromBelow _) (fromAbove _) isBelow.json isAbove.json
  recvBufferSize :=
    fieldOr_overridden (fromBelow _) (fromAbove _) isBelow.recvBufferSize isAbove.recvBufferSize
  bindAddress :=
    fieldOr_overridden (fromBelow _) (fromAbove _) isBelow.bindAddress isAbove.bindAddress
  readTimeoutMs :=
    fieldOr_overridden (fromBelow _) (fromAbove _) isBelow.readTimeoutMs isAbove.readTimeoutMs

theorem check_eq_ok_iff {s : Settings} :
    s.check = .ok () ↔
      maxPacketSize ≤ s.recvBufferSize.toNat ∧ (Text.trim s.level.toList).isEmpty = false := by
  unfold check
  split
  · next small => exact ⟨nofun, fun both => absurd small (Nat.not_lt.mpr both.1)⟩
  · next fits =>
    split
    · next empty => exact ⟨nofun, fun both => absurd empty (by rw [both.2]; decide)⟩
    · next full => exact ⟨fun _ => ⟨Nat.le_of_not_lt fits, Bool.eq_false_iff.mpr full⟩, fun _ => rfl⟩

theorem check_overriddenBy {base upper : Settings} (isBase : base.check = .ok ())
    (isUpper : upper.check = .ok ()) (named : Setting → Bool) :
    (base.overriddenBy upper named).check = .ok () := by
  rw [check_eq_ok_iff] at isBase isUpper ⊢
  constructor
  · simp only [overriddenBy]
    split
    · exact isUpper.1
    · exact isBase.1
  · simp only [overriddenBy]
    split
    · exact isUpper.2
    · exact isBase.2

/-! ### Loading -/

theorem checked_eq_ok_iff {r s : Settings} : r.checked = .ok s ↔ r = s ∧ s.check = .ok () := by
  rw [checked]
  cases accepted : r.check with
  | error e =>
    constructor
    · rintro ⟨⟩
    · rintro ⟨rfl, other⟩
      cases accepted.symm.trans other
  | ok =>
    constructor
    · rintro ⟨⟩
      exact ⟨rfl, accepted⟩
    · rintro ⟨rfl, -⟩
      rfl

theorem ofLayers_eq_ok_iff {entries : List (String × Node)} {env : Environment} {s : Settings} :
    ofLayers entries env = .ok s ↔ ofNode (layers entries env) = some s ∧ s.check = .ok () := by
  rw [ofLayers]
  cases ofNode (layers entries env) with
  | none => exact ⟨nofun, nofun⟩
  | some r =>
    rw [Option.some.injEq]
    exact checked_eq_ok_iff

theorem loadIn_eq_ok_iff {order : EntryOrder} {file : FileChoice} {env : Environment}
    {s : Settings} :
    loadIn order file env = .ok s ↔
      ∃ entries, file.entries? = some entries ∧
        ofNode (layers (order.source entries) env) = some s ∧ s.check = .ok () := by
  rw [loadIn]
  cases file.entries? with
  | none => exact ⟨nofun, nofun⟩
  | some entries => simp only [Option.some.injEq, exists_eq_left', ofLayers_eq_ok_iff]

theorem load_eq_ofLayers {file : FileChoice} {entries : List (String × Node)}
    (found : file.entries? = some entries) (env : Environment) :
    load file env = ofLayers entries env := by
  simp only [load, loadIn, found, EntryOrder.source_asWritten]

theorem load_absent_eq_ok_iff {env : Environment} {s : Settings} :
    load .absent env = .ok s ↔ ofNode (layers [] env) = some s ∧ s.check = .ok () := by
  rw [load_eq_ofLayers rfl, ofLayers_eq_ok_iff]

theorem ofEntries_eq_map (entries : List (String × Toml.Value)) :
    Node.ofEntries entries = entries.map fun entry => (entry.1, Node.ofToml entry.2) := by
  induction entries with
  | nil => rfl
  | cons entry rest ih => rw [Node.ofEntries, ih, List.map_cons]

theorem isTable_ofToml {v : Toml.Value} (isTable : v.isTable = true) : (Node.ofToml v).IsTable := by
  cases v with
  | table form entries => exact ⟨_, rfl⟩
  | _ => cases isTable

/-- Entries without a bracket in a key, with tables for the sections. -/
def Node.Regular (source : List (String × Node)) : Prop :=
  ∀ entry ∈ source,
    '[' ∉ entry.1.toList ∧ (entry.1.toLower ∈ sectionNames → entry.2.IsTable)

theorem regular_ofEntries {document : Toml.Entries}
    (plain : ∀ entry ∈ document, '[' ∉ entry.1.toList)
    (tables : ∀ entry ∈ document, entry.1.toLower ∈ sectionNames → entry.2.isTable = true) :
    Node.Regular (Node.ofEntries document) := by
  rw [Node.Regular, ofEntries_eq_map, List.forall_mem_map]
  intro entry member
  exact ⟨plain entry member, fun isSection => isTable_ofToml (tables entry member isSection)⟩

theorem Node.Regular.sectioned {source : List (String × Node)} (regular : Node.Regular source) :
    ((Node.table []).overlay source).Sectioned := by
  intro key isSection
  apply Node.tableAt_overlay
  · exact fun _ none => nomatch none
  · intro entry member
    obtain ⟨plain, isTable⟩ := regular entry member
    exact ⟨plain, fun same => isTable (same ▸ isSection)⟩

theorem entries?_found {file : File} {document : Toml.Entries} {entries : List (String × Node)}
    (parsed : Toml.parse file.text = some document)
    (found : (FileChoice.found file).entries? = some entries) :
    entries = Node.ofEntries document := by
  simp only [FileChoice.entries?, File.entries?, parsed, Option.map_some] at found
  split at found
  · exact (Option.some.inj found).symm
  · cases found

end HolePunch.Settings
