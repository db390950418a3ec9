import HolePunch.Proofs.Settings.Order

/-!
# Variables over a file

Variables change the settings that they name and leave the others as the file has them, when the
entries of the file come in the order in which the file was read alone; and in any order when they
say at most one thing about each setting (`load_over_file`). Without this the order matters:
`load_over_file_respelled` has a file that spells one key twice.
-/

namespace HolePunch.Settings

theorem loadIn_overridden {order : EntryOrder} {file : FileChoice} {source : List (String × Node)}
    {bare env arranged : Environment} {base upper : Settings}
    (found : file.entries? = some source) (regular : Node.Regular source)
    (noVariables : ∀ entry ∈ bare, IsForeign entry.1) (known : env.Known) (once : env.Once)
    (fileAlone : loadIn order file bare = .ok base) (variablesAlone : load .absent env = .ok upper)
    (rearranged : arranged.Perm env) :
    loadIn order file arranged = .ok (base.overriddenBy upper env.names) := by
  obtain ⟨_, again, fromFile, baseAccepted⟩ := loadIn_eq_ok_iff.mp fileAlone
  obtain ⟨fromVariables, upperAccepted⟩ := load_absent_eq_ok_iff.mp variablesAlone
  obtain rfl := Option.some.inj (found.symm.trans again)
  have fileTables := (regular.source order).sectioned
  have nothing : (Node.table []).Sectioned := fun _ _ _ found => nomatch found
  rw [layers, ofEnvironment_of_isForeign noVariables] at fromFile
  have below := (ofNode_eq_some_iff fileTables).mp fromFile
  have above := (ofNode_eq_some_iff (sectioned_overlay_environment known nothing)).mp fromVariables
  have knownAgain : arranged.Known :=
    fun entry member => known entry (rearranged.mem_iff.mp member)
  have onceAgain : arranged.Once := once.perm rearranged.symm
  rw [loadIn_eq_ok_iff]
  refine ⟨source, found, ?_, check_overriddenBy baseAccepted upperAccepted env.names⟩
  rw [layers, ofNode_eq_some_iff (sectioned_overlay_environment knownAgain fileTables)]
  refine Read.overriddenBy ?_ ?_ below above
  · intro k unnamed
    have sameNames : arranged.names k = env.names k := rearranged.any_eq
    exact (valueAt_overlay_environment knownAgain onceAgain _ k).1 (sameNames.trans unnamed)
  · intro k named
    obtain ⟨entry, member, isNamed⟩ := List.any_eq_true.mp named
    rw [(valueAt_overlay_environment knownAgain onceAgain _ k).2 entry
      (rearranged.mem_iff.mpr member) isNamed]
    exact ((valueAt_overlay_environment known once _ k).2 entry member isNamed).symm

/-- Variables over a file change the settings that they name, to what they say without the file,
and leave the others as the file has them, in whatever order the variables come. The entries of the
file must come in the order in which the file was read alone, unless they say at most one thing about
each setting. -/
theorem load_over_file (file : File) (document : Toml.Entries) (bare env : Environment)
    (base upper : Settings) (order : EntryOrder) (parsed : Toml.parse file.text = some document)
    (plain : ∀ entry ∈ document, '[' ∉ entry.1.toList)
    (tables : ∀ entry ∈ document, entry.1.toLower ∈ sectionNames → entry.2.isTable = true)
    (noVariables : ∀ entry ∈ bare, IsForeign entry.1) (known : env.Known) (once : env.Once)
    (fileAlone : loadIn order (.found file) bare = .ok base)
    (variablesAlone : load .absent env = .ok upper) :
    ∀ arranged : Environment, arranged.Perm env →
      loadIn order (.found file) arranged = .ok (base.overriddenBy upper env.names) ∧
      (Node.Unclashing (Node.ofEntries document) → ∀ other : EntryOrder,
        loadIn other (.found file) arranged = .ok (base.overriddenBy upper env.names)) := by
  intro arranged rearranged
  obtain ⟨_, found, -⟩ := loadIn_eq_ok_iff.mp fileAlone
  obtain rfl := entries?_found parsed found
  have regular := regular_ofEntries plain tables
  have inOrder := loadIn_overridden found regular noVariables known once fileAlone variablesAlone
    rearranged
  refine ⟨inOrder, fun unclashing other => ?_⟩
  have knownAgain : arranged.Known :=
    fun entry member => known entry (rearranged.mem_iff.mp member)
  exact (loadIn_eq_of_unclashing found regular unclashing knownAgain (once.perm rearranged.symm)
    other order).trans inOrder

/-- The last entry of each table first. -/
def EntryOrder.backwards : EntryOrder :=
  ⟨fun _ entries => entries.reverse, fun _ entries => entries.reverse_perm⟩

theorem load_over_file_mixed :
    let file : File := ⟨"puncher.toml",
      ("'Codec.Recv_Buffer_Size' = 512\nextra = 1\n[LOGGING]\nLevel = 'debug'\n" ++
        "[listen]\nread_timeout_ms = 2500\n").toList⟩
    let document := (Toml.parse file.text).getD []
    let bare : Environment := [("PATH", "/bin")]
    let env : Environment :=
      [("PUNCHER__LISTEN__BIND_ADDRESS", "127.0.0.1:4000"), ("HOME", "/"),
        ("Puncher__Codec__Recv_Buffer_Size", "64"), ("puncher__logging__json", "on")]
    let base : Settings := ⟨"debug", false, 512, defaultBindAddress, some 2500⟩
    let upper : Settings := ⟨"info", true, 64, .v4 ⟨127, 0, 0, 1⟩ 4000, none⟩
    Toml.parse file.text = some document ∧
      (∀ entry ∈ document, '[' ∉ entry.1.toList) ∧
      (∀ entry ∈ document, entry.1.toLower ∈ sectionNames → entry.2.isTable = true) ∧
      (∀ entry ∈ bare, IsForeign entry.1) ∧ env.Known ∧ env.Once ∧
      loadIn .backwards (.found file) bare = .ok base ∧ load .absent env = .ok upper ∧
      Node.Unclashing (Node.ofEntries document) ∧
      loadIn .asWritten (.found file) env.reverse =
        .ok ⟨"debug", true, 64, .v4 ⟨127, 0, 0, 1⟩ 4000, some 2500⟩ := by
  intro file document bare env base upper
  have fileFacts : (Toml.parse file.text).isSome = true ∧
      (∀ entry ∈ document, '[' ∉ entry.1.toList) ∧
      (∀ entry ∈ document, entry.1.toLower ∈ sectionNames → entry.2.isTable = true) ∧
      loadIn .backwards (.found file) bare = .ok base ∧
      Node.Unclashing (Node.ofEntries document) := by
    simp only [document, file, bare, base]
    decide +kernel
  obtain ⟨isSome, plain, tables, fileAlone, unclashing⟩ := fileFacts
  have parsed : Toml.parse file.text = some document := by
    obtain ⟨found, isFound⟩ := Option.isSome_iff_exists.mp isSome
    simp only [document, isFound, Option.getD_some]
  have foreign : ∀ entry ∈ bare, IsForeign entry.1 := by decide +kernel
  have variableFacts : env.Known ∧ env.Once ∧ load .absent env = .ok upper ∧
      base.overriddenBy upper env.names =
        ⟨"debug", true, 64, .v4 ⟨127, 0, 0, 1⟩ 4000, some 2500⟩ := by
    simp only [base, upper, env]
    decide +kernel
  obtain ⟨known, once, variablesAlone, merged⟩ := variableFacts
  have loaded := (load_over_file file document bare env base upper .backwards parsed plain tables
    foreign known once fileAlone variablesAlone env.reverse env.reverse_perm).2 unclashing .asWritten
  rw [merged] at loaded
  exact ⟨parsed, plain, tables, foreign, known, once, fileAlone, variablesAlone, unclashing, loaded⟩

/-- The order decides between two spellings of a key: the file alone can give one of them, and the
file under a variable that has nothing to do with it the other. -/
theorem load_over_file_respelled :
    let file : File := ⟨"puncher.toml", "[logging]\njson = true\nJSON = false\n".toList⟩
    let document := (Toml.parse file.text).getD []
    let env : Environment := [("PUNCHER__LOGGING__LEVEL", "debug")]
    let base : Settings := { standard with json := true }
    let upper : Settings := { standard with level := "debug" }
    Toml.parse file.text = some document ∧
      (∀ entry ∈ document, '[' ∉ entry.1.toList) ∧
      (∀ entry ∈ document, entry.1.toLower ∈ sectionNames → entry.2.isTable = true) ∧
      env.Known ∧ env.Once ∧
      loadIn .backwards (.found file) [] = .ok base ∧ load .absent env = .ok upper ∧
      loadIn .asWritten (.found file) env = .ok upper ∧
      loadIn .asWritten (.found file) env ≠ .ok (base.overriddenBy upper env.names) := by
  intro file document env base upper
  have fileFacts : (Toml.parse file.text).isSome = true ∧
      extension? file.path.toList = some "toml".toList ∧
      (∀ entry ∈ document, '[' ∉ entry.1.toList) ∧
      (∀ entry ∈ document, entry.1.toLower ∈ sectionNames → entry.2.isTable = true) := by
    simp only [document, file]
    decide +kernel
  obtain ⟨isSome, isToml, plain, tables⟩ := fileFacts
  have parsed : Toml.parse file.text = some document := by
    obtain ⟨read, isRead⟩ := Option.isSome_iff_exists.mp isSome
    simp only [document, isRead, Option.getD_some]
  have found : (FileChoice.found file).entries? = some (Node.ofEntries document) := by
    rw [FileChoice.entries?, File.entries?, if_pos isToml, parsed]
    rfl
  have regular := regular_ofEntries plain tables
  have variableFacts : env.Known ∧ env.Once ∧ load .absent env = .ok upper ∧
      standard.overriddenBy upper env.names = upper ∧
      base.overriddenBy upper env.names ≠ upper := by
    simp only [base, upper, env]
    decide +kernel
  obtain ⟨known, once, variablesAlone, merged, different⟩ := variableFacts
  have noVariables : ∀ entry ∈ ([] : Environment), IsForeign entry.1 := List.forall_mem_nil _
  have aloneBackwards : loadIn .backwards (.found file) [] = .ok base := by
    rw [loadIn_eq_ok_iff_read found regular noVariables]
    simp only [document, file, base]
    refine ⟨⟨?_, ?_, ?_, ?_, ?_⟩, ?_⟩
    all_goals decide +kernel
  have aloneAsWritten : loadIn .asWritten (.found file) [] = .ok standard := by
    rw [loadIn_eq_ok_iff_read found regular noVariables]
    simp only [document, file]
    refine ⟨⟨?_, ?_, ?_, ?_, ?_⟩, ?_⟩
    all_goals decide +kernel
  have loaded := loadIn_overridden found regular noVariables known once aloneAsWritten variablesAlone
    (.refl env)
  rw [merged] at loaded
  refine ⟨parsed, plain, tables, known, once, aloneBackwards, variablesAlone, loaded, ?_⟩
  rw [loaded]
  exact fun same => different (Except.ok.inj same).symm

end HolePunch.Settings
