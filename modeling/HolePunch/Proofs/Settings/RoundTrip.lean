import HolePunch.Proofs.Address.RoundTrip
import HolePunch.Proofs.Toml.Lines
import HolePunch.Settings.Document

/-!
# Settings written and read back

Settings can be written unless a number in them is beyond the signed range, and what was written is
read back as the same settings, which are then checked (`ofToml_toToml`).
-/

namespace HolePunch.Settings

/-! ### The document of settings -/

def timeoutEntries : Option UInt64 → Toml.Entries
  | none => []
  | some ms => [("read_timeout_ms", .integer ms.toNat)]

/-- The table that the text of settings is read as. -/
def document (s : Settings) : Toml.Entries :=
  [("logging", .table .header [("level", .string s.level), ("json", .boolean s.json)]),
    ("codec", .table .header [("recv_buffer_size", .integer s.recvBufferSize.toNat)]),
    ("listen", .table .header
      (("bind_address", .string (String.ofList s.bindAddress.text)) ::
        timeoutEntries s.readTimeoutMs))]

theorem unsignedOf_toNat (n : UInt64) : unsignedOf (.integer n.toNat) = some n := by
  have low : (0 : Int) ≤ n.toNat := by omega
  rw [unsignedOf, if_pos low, Int.toNat_natCast, UInt64.ofNat_toNat]

theorem addressOf_text (addr : SocketAddr) :
    addressOf (.string (String.ofList addr.text)) = some addr := by
  rw [addressOf, String.toList_ofList, SocketAddr.ofText?_text]

theorem ofDocument_document (s : Settings) : ofDocument s.document = some s := by
  have sections : ((s.document.lookup "logging").all isSection &&
      (s.document.lookup "codec").all isSection &&
      (s.document.lookup "listen").all isSection) = true := rfl
  have level : fieldOr standard.level stringOf
      ((s.document.lookup "logging").bind (fieldOf "level" 0)) = some s.level := rfl
  have json : fieldOr standard.json booleanOf
      ((s.document.lookup "logging").bind (fieldOf "json" 1)) = some s.json := rfl
  have size : fieldOr standard.recvBufferSize unsignedOf
      ((s.document.lookup "codec").bind (fieldOf "recv_buffer_size" 0)) =
      some s.recvBufferSize := unsignedOf_toNat s.recvBufferSize
  have address : fieldOr standard.bindAddress addressOf
      ((s.document.lookup "listen").bind (fieldOf "bind_address" 0)) =
      some s.bindAddress := addressOf_text s.bindAddress
  have timeout : fieldOr standard.readTimeoutMs (fun v => (unsignedOf v).map some)
      ((s.document.lookup "listen").bind (fieldOf "read_timeout_ms" 1)) =
      some s.readTimeoutMs := by
    rw [document]
    cases s.readTimeoutMs with
    | none => rfl
    | some ms => exact congrArg (Option.map some) (unsignedOf_toNat ms)
  rw [ofDocument]
  simp only [sections, if_true, level, json, size, address, timeout, Option.bind_eq_bind,
    Option.bind_some, Option.pure_def]

/-! ### The text of settings -/

/-- A number is too large for a signed 64-bit integer. -/
def HasLargeNumber (s : Settings) : Prop :=
  Nat.pow 2 63 ≤ s.recvBufferSize.toNat ∨ ∃ ms, s.readTimeoutMs = some ms ∧ Nat.pow 2 63 ≤ ms.toNat

theorem unsignedText?_eq_none_iff (n : UInt64) :
    unsignedText? n = none ↔ Nat.pow 2 63 ≤ n.toNat := by
  have limit : Text.signedLimit = Nat.pow 2 63 := rfl
  by_cases small : n.toNat < Text.signedLimit
  · have written : unsignedText? n = some (Text.decimal n.toNat) := if_pos small
    simp only [written, reduceCtorEq, false_iff]
    omega
  · have refused : unsignedText? n = none := if_neg small
    simp only [refused, true_iff]
    omega

theorem timeoutLine?_eq_none_iff (timeout : Option UInt64) :
    timeoutLine? timeout = none ↔ ∃ ms, timeout = some ms ∧ Nat.pow 2 63 ≤ ms.toNat := by
  cases timeout with
  | none => simp [timeoutLine?]
  | some ms => simp only [timeoutLine?, Option.map_eq_none_iff, unsignedText?_eq_none_iff,
      Option.some.injEq, exists_eq_left']

theorem valueText_unsigned {n : UInt64} {text : List Char} (written : unsignedText? n = some text) :
    Toml.ValueText text (.integer n.toNat) := by
  unfold unsignedText? at written
  split at written
  · next small =>
    cases written
    exact Toml.valueText_decimal small
  · cases written

theorem fields_timeoutLine {timeout : Option UInt64} {text : List Char}
    (written : timeoutLine? timeout = some text) : Toml.Fields (timeoutEntries timeout) text := by
  cases timeout with
  | none =>
    cases written
    exact .nil
  | some ms =>
    rw [timeoutLine?, Option.map_eq_some_iff] at written
    obtain ⟨number, spelled, rfl⟩ := written
    have bare : Toml.BareKey "read_timeout_ms" := by decide
    have field := Toml.Fields.cons bare (valueText_unsigned spelled) .nil
    rwa [List.append_nil] at field

theorem toToml_of_hasLargeNumber {s : Settings} (large : s.HasLargeNumber) :
    s.toToml = .error .notSerialized := by
  rw [HasLargeNumber, ← unsignedText?_eq_none_iff, ← timeoutLine?_eq_none_iff] at large
  rw [toToml]
  split
  · next size timeout =>
    obtain refused | refused := large
    · cases size.symm.trans refused
    · cases timeout.symm.trans refused
  · rfl

theorem nodup_timeoutEntries (address : Toml.Value) (timeout : Option UInt64) :
    ((("bind_address", address) :: timeoutEntries timeout).map Prod.fst).Nodup := by
  cases timeout with
  | none =>
    have names : ["bind_address"].Nodup := by decide
    exact names
  | some ms =>
    have names : ["bind_address", "read_timeout_ms"].Nodup := by decide
    exact names

/-- Settings with small numbers are written, as the sections of their document. -/
theorem exists_toToml {s : Settings} (small : ¬s.HasLargeNumber) :
    ∃ text, s.toToml = .ok text ∧ Toml.Sections s.document text := by
  rw [HasLargeNumber, not_or, ← unsignedText?_eq_none_iff, ← timeoutLine?_eq_none_iff] at small
  obtain ⟨size, sized⟩ := Option.ne_none_iff_exists'.mp small.1
  obtain ⟨timeout, timed⟩ := Option.ne_none_iff_exists'.mp small.2
  have level := Toml.valueText_string s.level.toList
  have address := Toml.valueText_string s.bindAddress.text
  rw [String.ofList_toList] at level
  have logging : Toml.Fields [("level", .string s.level), ("json", .boolean s.json)] _ :=
    .cons (by decide) level (.cons (by decide) (Toml.valueText_boolean s.json) .nil)
  have codec : Toml.Fields [("recv_buffer_size", .integer s.recvBufferSize.toNat)] _ :=
    .cons (by decide) (valueText_unsigned sized) .nil
  have listen : Toml.Fields (("bind_address", .string (String.ofList s.bindAddress.text)) ::
      timeoutEntries s.readTimeoutMs) _ :=
    .cons (by decide) address (fields_timeoutLine timed)
  have inLogging : ["level", "json"].Nodup := by decide
  have inCodec : ["recv_buffer_size"].Nodup := by decide
  have sections : Toml.Sections s.document _ :=
    .cons (by decide) logging inLogging <| .blank <|
      .cons (by decide) codec inCodec <| .blank <|
        .cons (by decide) listen (nodup_timeoutEntries _ _) .nil
  refine ⟨_, ?_, sections⟩
  rw [toToml, sized, timed]
  simp only [List.append_assoc, List.cons_append, List.append_nil]

theorem ofToml_of_sections {s : Settings} {text : List Char}
    (sections : Toml.Sections s.document text) : ofToml text = s.checked := by
  have names : ["logging", "codec", "listen"].Nodup := by decide
  have distinct : (s.document.map Prod.fst).Nodup := names
  rw [ofToml, Toml.parse_of_sections sections distinct, Option.bind_some, ofDocument_document]

/-- Settings cannot be written if a number in them is too large, and otherwise what is written is
read back as the same settings, or is refused for the reason for which they are. -/
theorem ofToml_toToml (s : Settings) :
    ((∃ e, s.toToml = .error e ∧ e.message = "Failed to serialize configuration") ↔
      s.HasLargeNumber) ∧
    (s.HasLargeNumber ∨ ∃ text, s.toToml = .ok text ∧ ofToml text = s.check.map fun _ => s) := by
  by_cases large : s.HasLargeNumber
  · have refused := toToml_of_hasLargeNumber large
    exact ⟨⟨fun _ => large, fun _ => ⟨_, refused, rfl⟩⟩, .inl large⟩
  · obtain ⟨text, written, sections⟩ := exists_toToml large
    refine ⟨⟨?_, fun impossible => absurd impossible large⟩, .inr ⟨text, written, ?_⟩⟩
    · rintro ⟨e, refused, -⟩
      cases written.symm.trans refused
    · exact ofToml_of_sections sections

end HolePunch.Settings
