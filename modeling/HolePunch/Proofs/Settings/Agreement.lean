import HolePunch.Proofs.Settings.Layering
import HolePunch.Proofs.Toml.Distinct
import Mathlib.Data.List.TakeWhile

/-!
# Two readers of a document

A document can be read strictly (`ofToml`), or as a layer of a tree whose values are converted
(`load`). With plain keys a layer holds what the document says (`valueAt_overlay_document`), and a
value that the strict reader takes is converted to itself, so that the two agree (`load_eq_ofToml`).
-/

namespace HolePunch.Settings

/-! ### Plain keys -/

/-- True of a lower-case letter, a digit, an underscore or a hyphen. -/
def isPlainChar (c : Char) : Bool := c.isLower || c.isDigit || c == '_' || c == '-'

/-- True of a key that has characters, all of them plain. -/
def isPlainKey (key : String) : Bool := key != "" && key.toList.all isPlainChar

theorem toLower_of_isPlainChar {c : Char} (plain : isPlainChar c = true) : c.toLower = c := by
  have noCapital : ¬(c.val ≥ 'A'.val ∧ c.val ≤ 'Z'.val) := by
    rintro ⟨capital, toZ⟩
    simp only [isPlainChar, Bool.or_eq_true, beq_iff_eq] at plain
    rcases plain with ((lower | digit) | rfl) | rfl
    · have small : 'a'.val ≤ c.val := of_decide_eq_true (Bool.and_eq_true_iff.mp lower).1
      exact absurd (UInt32.le_trans small toZ) (by decide)
    · have toNine : c.val ≤ '9'.val := of_decide_eq_true (Bool.and_eq_true_iff.mp digit).2
      exact absurd (UInt32.le_trans capital toNine) (by decide)
    · exact absurd toZ (by decide)
    · exact absurd capital (by decide)
  exact dif_neg noCapital

theorem isPathChar_of_isPlainChar {c : Char} (plain : isPlainChar c = true) :
    Node.isPathChar c = true := by
  simp only [isPlainChar, Bool.or_eq_true] at plain
  simp only [Node.isPathChar, Bool.or_eq_true]
  rcases plain with ((lower | digit) | underscore) | hyphen
  · have letter : c.isAlpha = true := Bool.or_eq_true_iff.mpr (.inr lower)
    exact .inl (.inl (.inl (Bool.or_eq_true_iff.mpr (.inl letter))))
  · exact .inl (.inl (.inl (Bool.or_eq_true_iff.mpr (.inr digit))))
  · exact .inl (.inr underscore)
  · exact .inr hyphen

section

variable {key : String} (plain : isPlainKey key = true)
include plain

theorem forall_of_isPlainKey : ∀ c ∈ key.toList, isPlainChar c = true :=
  List.all_eq_true.mp (Bool.and_eq_true_iff.mp plain).2

theorem toLower_of_isPlainKey : key.toLower = key := by
  have lower : key.toLower.toList = key.toList.map Char.toLower := String.toList_map
  rw [← String.toList_inj, lower]
  refine (List.map_congr_left fun c member => ?_).trans key.toList.map_id
  exact toLower_of_isPlainChar (forall_of_isPlainKey plain c member)

theorem path?_of_isPlainKey : Node.path? key = some (key, []) := by
  have inPath : ∀ c ∈ key.toList, Node.isPathChar c = true := fun c member =>
    isPathChar_of_isPlainChar (forall_of_isPlainKey plain c member)
  have full : key.toList ≠ [] := by
    rw [ne_eq, String.toList_eq_nil_iff]
    exact bne_iff_ne.mp (Bool.and_eq_true_iff.mp plain).1
  have first : Node.pathKey key.toList = some (key, []) := by
    rw [Node.pathKey, List.takeWhile_eq_self_iff.mpr inPath, List.dropWhile_eq_nil_iff.mpr inPath,
      if_neg full, String.ofList_toList]
  rw [Node.path?, first]
  rfl

theorem not_bracket_of_isPlainKey : '[' ∉ key.toList := fun member =>
  absurd (forall_of_isPlainKey plain _ member) (by decide)

end

namespace Node

/-! ### A layer on its own -/

/-- What is left of a value where there was nothing before: tables are laid down entry by entry. -/
def laid : Node → Node
  | .table entries => (table []).setAll entries
  | value => value

theorem set_of_child_none {tree : Node} {key : String} (lower : key.toLower = key)
    (new : tree.child key = none) (value : Node) :
    tree.set key value = .table (Assoc.put key value.laid tree.entries) := by
  by_cases isTable : value.IsTable
  · obtain ⟨incoming, rfl⟩ := isTable
    rw [child] at new
    rw [set, lower, new]
    rfl
  · rw [set_of_not_isTable isTable, lower]
    cases value with
    | table entries => exact absurd ⟨entries, rfl⟩ isTable
    | _ => rfl

/-- Entries with keys of their own are found where they were laid down. -/
theorem child_setAll {incoming : List (String × Node)}
    (lower : ∀ entry ∈ incoming, entry.1.toLower = entry.1)
    (distinct : (incoming.map Prod.fst).Nodup) {tree : Node}
    (new : ∀ entry ∈ incoming, tree.child entry.1 = none) (key : String) :
    (tree.setAll incoming).child key =
      ((incoming.lookup key).map laid).or (tree.child key) := by
  -- The tree grows with every entry; what carries the induction is that no later key is in it yet.
  induction incoming generalizing tree with
  | nil =>
    rw [setAll]
    rfl
  | cons entry rest ih =>
    obtain ⟨k, v⟩ := entry
    obtain ⟨isLower, lowerRest⟩ := List.forall_mem_cons.mp lower
    obtain ⟨isNew, newRest⟩ := List.forall_mem_cons.mp new
    obtain ⟨single, distinctRest⟩ := List.nodup_cons.mp distinct
    have first : tree.set k v = .table (Assoc.put k v.laid tree.entries) :=
      set_of_child_none isLower isNew v
    have others : ∀ entry ∈ rest, (tree.set k v).child entry.1 = none := by
      intro entry member
      have other : entry.1 ≠ k := by
        intro same
        have again : entry.1 ∈ rest.map Prod.fst := List.mem_map_of_mem member
        rw [same] at again
        exact single again
      rw [first, child_put, if_neg other]
      exact newRest entry member
    rw [setAll, ih lowerRest distinctRest others, first, child_put, Assoc.lookup_cons]
    by_cases same : key = k
    · subst same
      have absent : rest.lookup key = none := Assoc.lookup_of_not_mem single
      rw [if_pos rfl, if_pos rfl, absent]
      rfl
    · rw [if_neg same, if_neg same]
      rfl

theorem child_laid {entries : List (String × Node)}
    (lower : ∀ entry ∈ entries, entry.1.toLower = entry.1)
    (distinct : (entries.map Prod.fst).Nodup) (key : String) :
    (table entries).laid.child key = (entries.lookup key).map laid := by
  rw [laid, child_setAll lower distinct fun _ _ => rfl]
  cases entries.lookup key <;> rfl

theorem overlay_of_isPlainKey {source : List (String × Node)}
    (plain : ∀ entry ∈ source, isPlainKey entry.1 = true) (tree : Node) :
    tree.overlay source = tree.setAll source := by
  induction source generalizing tree with
  | nil =>
    rw [setAll]
    rfl
  | cons entry rest ih =>
    obtain ⟨here, later⟩ := List.forall_mem_cons.mp plain
    have first : tree.setPath entry.1 entry.2 = tree.set entry.1 entry.2 := by
      rw [setPath, path?_of_isPlainKey here]
      simp only [setSteps]
    rw [setAll, ← ih later, ← first]
    rfl

theorem lookup_ofEntries (entries : Toml.Entries) (key : String) :
    (ofEntries entries).lookup key = (entries.lookup key).map ofToml := by
  induction entries with
  | nil => rfl
  | cons entry rest ih =>
    obtain ⟨k, v⟩ := entry
    rw [ofEntries, Assoc.lookup_cons, Assoc.lookup_cons, ih]
    split <;> rfl

theorem keys_ofEntries (entries : Toml.Entries) :
    (ofEntries entries).map Prod.fst = entries.map Prod.fst := by
  rw [ofEntries_eq_map, List.map_map]
  rfl

theorem forall_mem_ofEntries {entries : Toml.Entries} {P : String → Prop}
    (keys : ∀ key ∈ entries.map Prod.fst, P key) : ∀ entry ∈ ofEntries entries, P entry.1 := by
  intro entry member
  apply keys
  rw [← keys_ofEntries]
  exact List.mem_map_of_mem member

theorem child_laid_ofEntries {entries : Toml.Entries}
    (plain : ∀ key ∈ entries.map Prod.fst, isPlainKey key = true)
    (distinct : (entries.map Prod.fst).Nodup) (key : String) :
    (table (ofEntries entries)).laid.child key =
      (entries.lookup key).map fun v => (ofToml v).laid := by
  rw [child_laid, lookup_ofEntries, Option.map_map]
  · rfl
  · exact fun entry member => toLower_of_isPlainKey (forall_mem_ofEntries plain entry member)
  · rwa [keys_ofEntries]

end Node

/-! ### Values of a document -/

namespace Setting

/-- The place of the setting in a section that is an array. -/
def place : Setting → Nat
  | .level | .recvBufferSize | .bindAddress => 0
  | .json | .readTimeoutMs => 1

end Setting

/-- What a document says about a setting. -/
def saidOf (document : Toml.Entries) (k : Setting) : Option Toml.Value :=
  (document.lookup k.sectionName).bind (fieldOf k.fieldName k.place)

/-- The settings are what a document says, with the standard value where it says nothing. -/
structure SaidBy (document : Toml.Entries) (s : Settings) : Prop where
  level : fieldOr standard.level stringOf (saidOf document .level) = some s.level
  json : fieldOr standard.json booleanOf (saidOf document .json) = some s.json
  recvBufferSize :
    fieldOr standard.recvBufferSize unsignedOf (saidOf document .recvBufferSize) =
      some s.recvBufferSize
  bindAddress :
    fieldOr standard.bindAddress addressOf (saidOf document .bindAddress) = some s.bindAddress
  readTimeoutMs :
    fieldOr standard.readTimeoutMs (fun v => (unsignedOf v).map some)
      (saidOf document .readTimeoutMs) = some s.readTimeoutMs

theorem saidBy_of_ofDocument {document : Toml.Entries} {s : Settings}
    (read : ofDocument document = some s) : SaidBy document s := by
  simp only [ofDocument] at read
  split at read
  · simp only [bind, Option.bind_eq_some_iff, pure, Option.some.injEq] at read
    obtain ⟨level, isLevel, json, isJson, size, isSize, addr, isAddr, timeout, isTimeout, rfl⟩ :=
      read
    exact ⟨isLevel, isJson, isSize, isAddr, isTimeout⟩
  · cases read

variable {document : Toml.Entries}

/-- The tree of a document with plain keys holds what the document says about each setting. -/
theorem valueAt_overlay_document (plain : document.everyTable (·.all isPlainKey) = true)
    (distinct : document.Distinct)
    (tables : ∀ entry ∈ document, entry.1 ∈ sectionNames → entry.2.isTable = true) (k : Setting) :
    ((Node.table []).overlay (Node.ofEntries document)).valueAt k =
      (saidOf document k).map fun v => (Node.ofToml v).laid := by
  obtain ⟨keys, inner⟩ := Toml.Entries.everyTable_iff.mp plain
  rw [List.all_eq_true] at keys
  have isSection : k.sectionName ∈ sectionNames := by cases k <;> decide
  have top := Node.child_laid_ofEntries keys distinct.1 k.sectionName
  rw [Node.overlay_of_isPlainKey (Node.forall_mem_ofEntries keys), Node.valueAt, Node.leaf, saidOf]
  rw [Node.laid] at top
  rw [top]
  cases found : document.lookup k.sectionName with
  | none => rfl
  | some v =>
    have member : (k.sectionName, v) ∈ document := Assoc.mem_of_lookup found
    have isTable := tables _ member isSection
    have fields := inner _ member
    have once := distinct.2 _ member
    cases v with
    | table form entries =>
      rw [Toml.Value.everyTable, Bool.and_eq_true, List.all_eq_true] at fields
      exact Node.child_laid_ofEntries fields.1 (Toml.distinct_table.mp once).1 k.fieldName
    | _ => cases isTable

/-! ### Conversions that change nothing -/

theorem toText?_of_stringOf {v : Toml.Value} {s : String} (read : stringOf v = some s) :
    (Node.ofToml v).laid.toText? = some s := by
  cases v with
  | string => exact read
  | _ => cases read

theorem toBoolean?_of_booleanOf {v : Toml.Value} {b : Bool} (read : booleanOf v = some b) :
    (Node.ofToml v).laid.toBoolean? = some b := by
  cases v with
  | boolean => exact read
  | _ => cases read

theorem toUnsigned?_of_unsignedOf {v : Toml.Value} {n : UInt64} (read : unsignedOf v = some n) :
    (Node.ofToml v).laid.toUnsigned? = some n := by
  cases v with
  | integer => exact read
  | _ => cases read

theorem toAddress?_of_addressOf {v : Toml.Value} {addr : SocketAddr}
    (read : addressOf v = some addr) : (Node.ofToml v).laid.toAddress? = some addr := by
  cases v with
  | string => exact read
  | _ => cases read

theorem toOptionalUnsigned?_of_unsignedOf {v : Toml.Value} {timeout : Option UInt64}
    (read : (unsignedOf v).map some = some timeout) :
    (Node.ofToml v).laid.toOptionalUnsigned? = some timeout := by
  cases v with
  | integer => exact read
  | _ => cases read

theorem fieldOr_map {α β γ : Type} {standard a : α} {strict : β → Option α} {loose : γ → Option α}
    {f : β → γ} (agree : ∀ {v a}, strict v = some a → loose (f v) = some a) {x : Option β}
    (read : fieldOr standard strict x = some a) : fieldOr standard loose (x.map f) = some a := by
  cases x with
  | none => exact read
  | some v => exact agree read

theorem SaidBy.read {s : Settings} (said : SaidBy document s) :
    Read (fun k => (saidOf document k).map fun v => (Node.ofToml v).laid) s where
  level := fieldOr_map toText?_of_stringOf said.level
  json := fieldOr_map toBoolean?_of_booleanOf said.json
  recvBufferSize := fieldOr_map toUnsigned?_of_unsignedOf said.recvBufferSize
  bindAddress := fieldOr_map toAddress?_of_addressOf said.bindAddress
  readTimeoutMs := fieldOr_map toOptionalUnsigned?_of_unsignedOf said.readTimeoutMs

theorem sectioned_of_isPlainKey (keys : ∀ key ∈ document.map Prod.fst, isPlainKey key = true)
    (tables : ∀ entry ∈ document, entry.1 ∈ sectionNames → entry.2.isTable = true) :
    ((Node.table []).overlay (Node.ofEntries document)).Sectioned := by
  apply (regular_ofEntries ?_ ?_).sectioned
  · intro entry member
    exact not_bracket_of_isPlainKey (keys _ (List.mem_map_of_mem member))
  · intro entry member isSection
    rw [toLower_of_isPlainKey (keys _ (List.mem_map_of_mem member))] at isSection
    exact tables entry member isSection

/-- The two readers agree about a document with plain keys whose sections are tables: what one gets
the other gets, and settings that are refused are refused in the same words. -/
theorem load_eq_ofToml (file : File) (document : Toml.Entries) (env : Environment)
    (parsed : Toml.parse file.text = some document)
    (isToml : extension? file.path.toList = some "toml".toList)
    (plain : document.everyTable (·.all isPlainKey) = true)
    (tables : ∀ entry ∈ document, entry.1 ∈ sectionNames → entry.2.isTable = true)
    (noVariables : ∀ entry ∈ env, IsForeign entry.1) :
    (∀ s, ofToml file.text = .ok s → load (.found file) env = .ok s) ∧
      ∀ s e, ofDocument document = some s → s.check = .error e →
        ofToml file.text = .error e ∧ load (.found file) env = .error e := by
  have entries : (FileChoice.found file).entries? = some (Node.ofEntries document) := by
    rw [FileChoice.entries?, File.entries?, if_pos isToml, parsed]
    rfl
  have agree : ∀ s, ofDocument document = some s →
      ofToml file.text = s.checked ∧ load (.found file) env = s.checked := by
    intro s read
    obtain ⟨keys, -⟩ := Toml.Entries.everyTable_iff.mp plain
    rw [List.all_eq_true] at keys
    have values := funext (valueAt_overlay_document plain (Toml.parse_distinct parsed) tables)
    have converted : ofNode (layers (Node.ofEntries document) env) = some s := by
      rw [layers, ofEnvironment_of_isForeign noVariables]
      apply (ofNode_eq_some_iff (sectioned_of_isPlainKey keys tables)).mpr
      exact values ▸ (saidBy_of_ofDocument read).read
    constructor
    · rw [ofToml, parsed, Option.bind_some, read]
    · rw [load_eq_ofLayers entries, ofLayers, converted]
  constructor
  · intro s accepted
    cases read : ofDocument document with
    | none =>
      rw [ofToml, parsed, Option.bind_some, read] at accepted
      cases accepted
    | some r =>
      obtain ⟨strict, loaded⟩ := agree r read
      rwa [loaded, ← strict]
  · intro s e read refused
    obtain ⟨strict, loaded⟩ := agree s read
    have same : s.checked = .error e := by
      rw [checked, refused]
      rfl
    exact ⟨strict.trans same, loaded.trans same⟩

theorem load_eq_ofToml_unordered :
    let file : File := ⟨"etc/puncher.toml",
      ("extra-1 = [1979-05-27, {2nd = -inf}]\nlisten.read_timeout_ms = 9223372036854775807\n" ++
        "[codec]\nsize = 1\n[[peers]]\nname = 'a'\n[logging]\njson = true\nlevel = ' on'\n").toList⟩
    let small : File := ⟨"small.toml", "x = {}\ncodec = {recv_buffer_size = 37}\n".toList⟩
    let env : Environment := [("PATH", "/bin"), ("PUNCHER_LOGGING__LEVEL", "debug")]
    let s : Settings := ⟨" on", true, 2048, defaultBindAddress, some 9223372036854775807⟩
    (∀ f ∈ [file, small],
      let document := (Toml.parse f.text).getD []
      Toml.parse f.text = some document ∧ extension? f.path.toList = some "toml".toList ∧
        document.everyTable (·.all isPlainKey) = true ∧
        ∀ entry ∈ document, entry.1 ∈ sectionNames → entry.2.isTable = true) ∧
      (∀ entry ∈ env, IsForeign entry.1) ∧
      ofToml file.text = .ok s ∧ load (.found file) env = .ok s ∧
      ofToml small.text = .error (.smallBuffer 37) ∧
      load (.found small) env = .error (.smallBuffer 37) := by
  intro file small env s
  have facts : (∀ f ∈ [file, small], (Toml.parse f.text).isSome = true ∧
      extension? f.path.toList = some "toml".toList ∧
      ((Toml.parse f.text).getD []).everyTable (·.all isPlainKey) = true ∧
      ∀ entry ∈ (Toml.parse f.text).getD [],
        entry.1 ∈ sectionNames → entry.2.isTable = true) ∧
      (∀ entry ∈ env, IsForeign entry.1) ∧ ofToml file.text = .ok s ∧
      ofDocument ((Toml.parse small.text).getD []) = some { standard with recvBufferSize := 37 } ∧
      { standard with recvBufferSize := 37 }.check = .error (.smallBuffer 37) := by
    simp only [file, small, env, s]
    decide +kernel
  obtain ⟨files, foreign, strict, read, refused⟩ := facts
  have suitable : ∀ f ∈ [file, small],
      let document := (Toml.parse f.text).getD []
      Toml.parse f.text = some document ∧ extension? f.path.toList = some "toml".toList ∧
        document.everyTable (·.all isPlainKey) = true ∧
        ∀ entry ∈ document, entry.1 ∈ sectionNames → entry.2.isTable = true := by
    intro f member
    obtain ⟨isSome, rest⟩ := files f member
    have found := Option.isSome_iff_ne_none.mp isSome
    exact ⟨(Option.getD_of_ne_none found []).symm, rest⟩
  obtain ⟨parsed, isToml, plain, tables⟩ := suitable file List.mem_cons_self
  have agree := load_eq_ofToml file _ env parsed isToml plain tables foreign
  obtain ⟨parsed, isToml, plain, tables⟩ := suitable small (List.mem_cons_of_mem _ List.mem_cons_self)
  have agreeSmall := load_eq_ofToml small _ env parsed isToml plain tables foreign
  obtain ⟨strictSmall, loadedSmall⟩ := agreeSmall.2 _ _ read refused
  exact ⟨suitable, foreign, strict, agree.1 s strict, strictSmall, loadedSmall⟩

end HolePunch.Settings
