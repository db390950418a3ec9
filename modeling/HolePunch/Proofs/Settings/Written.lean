import HolePunch.Proofs.Settings.Guess
import HolePunch.Proofs.Settings.Layering

/-!
# Variables written from settings

Settings can be written into variables, one each. As the type of a variable is guessed before its
value is converted, settings need not come back as they are: `load_written` says what does come
back, and when that is what was written.
-/

namespace HolePunch.Settings

open Text (decimal isDigitOf signedLimit)

/-! ### What the variables say -/

/-- The text of a setting; a time that is not limited has none. -/
def written (s : Settings) : Setting → Option String
  | .level => some s.level
  | .json => some (if s.json then "true" else "false")
  | .recvBufferSize => some (String.ofList (decimal s.recvBufferSize.toNat))
  | .bindAddress => some (String.ofList s.bindAddress.text)
  | .readTimeoutMs => s.readTimeoutMs.map fun ms => String.ofList (decimal ms.toNat)

/-- What the first variable of a setting says. -/
def Environment.told (env : Environment) (k : Setting) : Option String :=
  (env.find? fun entry => k.isNamedBy entry.1).map Prod.snd

theorem valueAt_layers {env : Environment} (known : env.Known) (once : env.Once) (k : Setting) :
    (layers [] env).valueAt k = (env.told k).map ofVariable := by
  obtain ⟨unnamed, named⟩ := valueAt_overlay_environment known once (.table []) k
  rw [Environment.told]
  cases found : env.find? fun entry => k.isNamedBy entry.1 with
  | none =>
    apply unnamed
    rw [Environment.names, List.any_eq_false]
    exact List.find?_eq_none.mp found
  | some entry =>
    have isNamed := List.find?_some (p := fun entry : String × String => k.isNamedBy entry.1) found
    exact named entry (List.mem_of_find?_eq_some found) isNamed

/-! ### Levels that are accepted -/

/-- The text is not all white space. -/
def Shows (s : List Char) : Prop := ∃ c ∈ s, Text.isBlank c = false

theorem isEmpty_trim_of_shows {s : List Char} (shows : Shows s) :
    (Text.trim s).isEmpty = false := by
  obtain ⟨c, member, noBlank⟩ := shows
  have kept : ∀ t : List Char, c ∈ t → c ∈ t.dropWhile Text.isBlank := by
    intro t inside
    rw [← List.takeWhile_append_dropWhile (p := Text.isBlank) (l := t), List.mem_append] at inside
    refine inside.resolve_left fun front => ?_
    rw [List.all_eq_true.mp List.all_takeWhile c front] at noBlank
    cases noBlank
  have left : c ∈ Text.trim s := by
    rw [Text.trim, List.mem_reverse]
    exact kept _ (List.mem_reverse.mpr (kept s member))
  cases empty : Text.trim s with
  | nil =>
    rw [empty] at left
    cases left
  | cons => rfl

theorem shows_decimal (n : Nat) : Shows (decimal n) := by
  obtain ⟨d, ds, digits, every, -⟩ := Toml.exists_decimal n
  rw [digits]
  obtain ⟨v, spelled, -⟩ := (Option.any_eq_true _ _).mp (every d List.mem_cons_self)
  exact ⟨d, List.mem_cons_self, Text.not_isBlank_of_digitValue? spelled⟩

theorem shows_decimalInt (i : Int) : Shows (Text.decimalInt i) := by
  cases i with
  | ofNat n => exact shows_decimal n
  | negSucc n => exact ⟨'-', List.mem_cons_self, by decide⟩

theorem shows_decimalText (d : Binary64.Decimal) : Shows d.text := by
  unfold Binary64.Decimal.text
  dsimp only
  split
  · obtain ⟨c, member, noBlank⟩ := shows_decimal d.factor
    exact ⟨c, List.mem_append_left _ member, noBlank⟩
  · exact ⟨'.', List.mem_append_right _ List.mem_cons_self, by decide⟩

theorem shows_float (x : Binary64) : Shows x.text := by
  cases x with
  | nan => exact ⟨'N', by decide, by decide⟩
  | infinite negative => cases negative <;> exact ⟨'i', by decide, by decide⟩
  | finite negative mantissa exponent =>
    have magnitude :
        Shows (if mantissa = 0 then ['0'] else (Binary64.shortest mantissa exponent).text) := by
      split
      · exact ⟨'0', List.mem_cons_self, by decide⟩
      · exact shows_decimalText _
    obtain ⟨c, member, noBlank⟩ := magnitude
    rw [Binary64.text]
    split
    · exact ⟨c, List.mem_cons_of_mem _ member, noBlank⟩
    · exact ⟨c, member, noBlank⟩

theorem isEmpty_trim_respelled {level : String} (full : (Text.trim level.toList).isEmpty = false) :
    (Text.trim (respelled level).toList).isEmpty = false := by
  have spelled : ∀ text, Shows text → (Text.trim (String.ofList text).toList).isEmpty = false := by
    intro text shows
    rw [String.toList_ofList]
    exact isEmpty_trim_of_shows shows
  unfold respelled
  split
  · next boolean =>
    rcases boolean with isTrue | isFalse
    · rw [isTrue]
      decide
    · rw [isFalse]
      decide
  · split
    · exact spelled _ (shows_decimalInt _)
    · exact spelled _ (shows_float _)
    · exact full

/-! ### Loading -/

/-- The settings that come back from the variables. -/
def reread (s : Settings) : Settings where
  level := respelled s.level
  json := s.json
  recvBufferSize := rounded s.recvBufferSize
  bindAddress := s.bindAddress
  readTimeoutMs := s.readTimeoutMs.map rounded

theorem check_reread {s : Settings} (accepted : s.check = .ok ()) : s.reread.check = .ok () := by
  obtain ⟨fits, full⟩ := check_eq_ok_iff.mp accepted
  refine check_eq_ok_iff.mpr ⟨?_, isEmpty_trim_respelled full⟩
  by_cases small : s.recvBufferSize.toNat < signedLimit
  · rw [reread, rounded, if_pos small]
    exact fits
  · have large : signedLimit ≤ s.recvBufferSize.toNat := Nat.le_of_not_lt small
    have near := Binary64.nearestMultiple_bounds s.recvBufferSize.toNat
    have bound : maxPacketSize ≤ signedLimit - 2048 := by decide
    rw [reread, toNat_rounded large]
    rw [signedLimit] at large bound
    rw [UInt64.size]
    omega

theorem read_reread {s : Settings} {value : Setting → Option Node}
    (written : ∀ k, value k = (s.written k).map ofVariable) : Read value s.reread where
  level := by
    rw [written]
    exact toText?_ofVariable s.level
  json := by
    rw [written]
    exact toBoolean?_ofVariable s.json
  recvBufferSize := by
    rw [written]
    exact (toUnsigned?_ofVariable s.recvBufferSize).1
  bindAddress := by
    rw [written]
    exact toAddress?_ofVariable s.bindAddress
  readTimeoutMs := by
    rw [written, Settings.written, reread]
    cases s.readTimeoutMs with
    | none => rfl
    | some ms => exact (toUnsigned?_ofVariable ms).2

theorem reread_eq_iff (s : Settings) :
    s.reread = s ↔
      respelled s.level = s.level ∧ IsKept s.recvBufferSize ∧
        ∀ ms, s.readTimeoutMs = some ms → IsKept ms := by
  constructor
  · intro same
    have size : rounded s.recvBufferSize = s.recvBufferSize := congrArg recvBufferSize same
    have timeout : s.readTimeoutMs.map rounded = s.readTimeoutMs := congrArg readTimeoutMs same
    refine ⟨congrArg level same, (rounded_eq_iff _).mp size, ?_⟩
    intro ms isMs
    rw [isMs] at timeout
    exact (rounded_eq_iff ms).mp (Option.some.inj timeout)
  · rintro ⟨level, size, timeout⟩
    have kept : s.readTimeoutMs.map rounded = s.readTimeoutMs := by
      cases isMs : s.readTimeoutMs with
      | none => rfl
      | some ms => exact congrArg some ((rounded_eq_iff ms).mpr (timeout ms isMs))
    rw [reread, level, (rounded_eq_iff _).mpr size, kept]

theorem load_eq_reread {s : Settings} {env : Environment} (accepted : s.check = .ok ())
    (known : env.Known) (once : env.Once) (tells : ∀ k, env.told k = s.written k) :
    load .absent env = .ok s.reread := by
  have nothing : (Node.table []).Sectioned := fun _ _ _ found => nomatch found
  have sectioned : (layers [] env).Sectioned := sectioned_overlay_environment known nothing
  refine load_absent_eq_ok_iff.mpr ⟨?_, check_reread accepted⟩
  rw [ofNode_eq_some_iff sectioned]
  apply read_reread
  intro k
  rw [valueAt_layers known once, tells]

/-- Accepted settings are loaded from their variables with the level spelled anew and the numbers
rounded. They come back as they are if and only if the level is spelled as what it reads as and both
numbers are kept. -/
theorem load_written (s : Settings) (env : Environment) (accepted : s.check = .ok ())
    (known : env.Known) (once : env.Once) (tells : ∀ k, env.told k = s.written k) :
    load .absent env = .ok s.reread ∧
      (load .absent env = .ok s ↔
        respelled s.level = s.level ∧ IsKept s.recvBufferSize ∧
          ∀ ms, s.readTimeoutMs = some ms → IsKept ms) := by
  have loaded := load_eq_reread accepted known once tells
  refine ⟨loaded, ?_⟩
  rw [loaded, Except.ok.injEq]
  exact reread_eq_iff s

theorem load_written_signed :
    let s : Settings := ⟨"+7", true, 18446744073709551615, .v4 ⟨127, 0, 0, 1⟩ 4000, some 5000⟩
    let env : Environment :=
      [("PUNCHER__LISTEN__READ_TIMEOUT_MS", "5000"), ("HOME", "/"),
        ("PUNCHER__LISTEN__BIND_ADDRESS", "127.0.0.1:4000"), ("PUNCHER__LOGGING__LEVEL", "+7"),
        ("PUNCHER__LOGGING__JSON", "true"),
        ("PUNCHER__CODEC__RECV_BUFFER_SIZE", "18446744073709551615")]
    s.check = .ok () ∧ env.Known ∧ env.Once ∧ (∀ k, env.told k = s.written k) ∧
      load .absent env =
        .ok ⟨"7", true, 18446744073709551615, .v4 ⟨127, 0, 0, 1⟩ 4000, some 5000⟩ := by
  intro s env
  have facts : s.check = .ok () ∧ env.Known ∧ env.Once ∧ (∀ k, env.told k = s.written k) ∧
      s.reread = ⟨"7", true, 18446744073709551615, .v4 ⟨127, 0, 0, 1⟩ 4000, some 5000⟩ := by
    decide +kernel
  obtain ⟨accepted, known, once, tells, back⟩ := facts
  have loaded := (load_written s env accepted known once tells).1
  rw [back] at loaded
  exact ⟨accepted, known, once, tells, loaded⟩

/-- Zeros in front of a level are lost, and so is the last place of a large number. -/
theorem load_written_altered :
    let s : Settings := ⟨"007", false, 2048, defaultBindAddress, some 9223372036854775809⟩
    let env : Environment :=
      [("PUNCHER__LOGGING__LEVEL", "007"), ("PUNCHER__LOGGING__JSON", "false"),
        ("PUNCHER__CODEC__RECV_BUFFER_SIZE", "2048"),
        ("PUNCHER__LISTEN__BIND_ADDRESS", "[::]:11113"),
        ("PUNCHER__LISTEN__READ_TIMEOUT_MS", "9223372036854775809")]
    s.check = .ok () ∧ env.Known ∧ env.Once ∧ (∀ k, env.told k = s.written k) ∧
      load .absent env = .ok ⟨"7", false, 2048, defaultBindAddress, some 9223372036854775808⟩ ∧
      load .absent env ≠ .ok s := by
  intro s env
  have facts : s.check = .ok () ∧ env.Known ∧ env.Once ∧ (∀ k, env.told k = s.written k) ∧
      s.reread = ⟨"7", false, 2048, defaultBindAddress, some 9223372036854775808⟩ ∧
      s.reread ≠ s := by
    decide +kernel
  obtain ⟨accepted, known, once, tells, back, other⟩ := facts
  have loaded := load_eq_reread accepted known once tells
  rw [← back, loaded]
  exact ⟨accepted, known, once, tells, rfl, fun same => other (Except.ok.inj same)⟩

end HolePunch.Settings
