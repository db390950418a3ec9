import HolePunch.Proofs.Toml.Scalars

/-!
# Documents line by line

A document of sections, each a header and lines of keys with values, is read as the table of its
sections (`parse_of_sections`). A `Run` is a reading of some lines without the bound on their
number; one line is a step of it.
-/

namespace HolePunch.Toml

variable {key : String} {s text rest : List Char} {v : Value} {mark : Char}

/-! ### Keys -/

/-- A key that is written without quotes. -/
def BareKey (key : String) : Prop := key.toList ≠ [] ∧ key.toList.all isBare = true

instance (key : String) : Decidable (BareKey key) := inferInstanceAs (Decidable (_ ∧ _))

theorem BareKey.isBare (bare : BareKey key) : ∀ c ∈ key.toList, isBare c = true :=
  List.all_eq_true.mp bare.2

theorem BareKey.exists_cons (bare : BareKey key) :
    ∃ c cs, key.toList = c :: cs ∧ Toml.isBare c = true := by
  obtain ⟨c, cs, letters⟩ := List.exists_cons_of_ne_nil bare.1
  exact ⟨c, cs, letters, bare.isBare c (letters ▸ List.mem_cons_self)⟩

theorem BareKey.ne_cons (bare : BareKey key) (special : Toml.isBare mark = false)
    (rest after : List Char) : key.toList ++ rest ≠ mark :: after := by
  obtain ⟨c, cs, letters, first⟩ := bare.exists_cons
  rw [letters]
  rintro ⟨⟩
  exact Text.ne_of_class first special rfl

theorem skipBlanks_cons (noBlank : isBlank mark = false) (s : List Char) :
    skipBlanks (mark :: s) = mark :: s :=
  Text.dropWhile_eq_self (Text.endsRun_cons noBlank s)

theorem isBlank_eq_false {p : Char → Bool} {c : Char} (member : p c = true)
    (space : p ' ' = false) (tab : p '\t' = false) : isBlank c = false := by
  rw [isBlank, Bool.or_eq_false_iff, beq_eq_false_iff_ne, beq_eq_false_iff_ne]
  exact ⟨Text.ne_of_class member space, Text.ne_of_class member tab⟩

theorem skipBlanks_bare (bare : BareKey key) (rest : List Char) :
    skipBlanks (key.toList ++ rest) = key.toList ++ rest := by
  obtain ⟨c, cs, letters, first⟩ := bare.exists_cons
  rw [letters]
  exact skipBlanks_cons (isBlank_eq_false first (by decide) (by decide)) _

theorem simpleKey_bare (bare : BareKey key) (ends : Text.EndsRun isBare rest) :
    simpleKey (key.toList ++ rest) = some (key, rest) := by
  have front := Text.takeWhile_run bare.isBare ends
  have back := Text.dropWhile_run bare.isBare ends
  unfold simpleKey
  split
  · next quoted => exact absurd quoted (bare.ne_cons (by decide) rest _)
  · next quoted => exact absurd quoted (bare.ne_cons (by decide) rest _)
  · simp only [front, back]
    rw [if_neg bare.1, String.ofList_toList]

/-- A key without dots, up to the next mark. -/
theorem keyPath_bare (bare : BareKey key) (ends : Text.EndsRun isBare rest)
    (next : skipBlanks rest = mark :: text) (noDot : mark ≠ '.') :
    keyPath (key.toList ++ rest) = some (⟨[], key⟩, mark :: text) := by
  rw [keyPath, nestingLimit, dottedKey, skipBlanks_bare bare, simpleKey_bare bare ends,
    Option.bind_eq_bind, Option.bind_some]
  dsimp only
  rw [next]
  split
  · next same =>
    cases same
    exact absurd rfl noDot
  · rfl

/-! ### Lines -/

/-- The text of a value, which starts with no blank and is read back up to the end of the line. -/
structure ValueText (text : List Char) (v : Value) : Prop where
  noBlank : ∀ rest, skipBlanks (text ++ '\n' :: rest) = text ++ '\n' :: rest
  read : ∀ depth rest, value depth (text ++ '\n' :: rest) = some (v, '\n' :: rest)

theorem valueText_string (s : List Char) : ValueText (stringText s) (.string (String.ofList s)) where
  noBlank rest := by
    obtain ⟨t, start | start⟩ := exists_stringText s
    · rw [start]
      exact skipBlanks_cons (by decide) _
    · rw [start]
      exact skipBlanks_cons (by decide) _
  read := value_stringText s

theorem valueText_boolean (b : Bool) : ValueText (booleanText b) (.boolean b) where
  noBlank rest := by
    cases b with
    | false =>
      have letters : booleanText false = ['f', 'a', 'l', 's', 'e'] := by decide
      rw [letters]
      exact skipBlanks_cons (by decide) _
    | true =>
      have letters : booleanText true = ['t', 'r', 'u', 'e'] := by decide
      rw [letters]
      exact skipBlanks_cons (by decide) _
  read depth rest := value_booleanText b depth ('\n' :: rest)

theorem valueText_decimal {n : Nat} (small : n < Text.signedLimit) :
    ValueText (Text.decimal n) (.integer n) where
  noBlank rest := by
    obtain ⟨d, ds, digits, every, -⟩ := exists_decimal n
    have first := every d List.mem_cons_self
    rw [digits]
    exact skipBlanks_cons (isBlank_eq_false first (by decide) (by decide)) _
  read := value_decimal small

theorem keyLine_append (key : String) (text rest : List Char) :
    keyLine key text ++ rest = key.toList ++ ' ' :: '=' :: ' ' :: (text ++ '\n' :: rest) := by
  rw [keyLine, List.append_assoc, List.append_assoc]
  rfl

theorem headerLine_append (key : String) (rest : List Char) :
    headerLine key ++ rest = '[' :: (key.toList ++ ']' :: '\n' :: rest) := by
  rw [headerLine, List.append_assoc]
  rfl

theorem pair_keyLine (bare : BareKey key) (valueText : ValueText text v) (depth : Nat)
    (rest : List Char) :
    pair (value depth) (keyLine key text ++ rest) = some ((⟨[], key⟩, v), '\n' :: rest) := by
  have next : skipBlanks (' ' :: '=' :: ' ' :: (text ++ '\n' :: rest)) =
      '=' :: ' ' :: (text ++ '\n' :: rest) := rfl
  have path := keyPath_bare bare (Text.endsRun_cons (by decide) _) next (by decide)
  have blank : skipBlanks (' ' :: (text ++ '\n' :: rest)) = text ++ '\n' :: rest :=
    valueText.noBlank rest
  rw [keyLine_append, pair, path, Option.bind_eq_bind, Option.bind_some]
  simp only [Text.Parse.char_cons, Option.bind_eq_bind, Option.bind_some, blank, valueText.read,
    Option.pure_def]

theorem header_headerLine (bare : BareKey key) (rest : List Char) :
    header (headerLine key ++ rest) = some (.table ⟨[], key⟩, '\n' :: rest) := by
  have next : skipBlanks (']' :: '\n' :: rest) = ']' :: '\n' :: rest := rfl
  have path := keyPath_bare bare (Text.endsRun_cons (by decide) _) next (by decide)
  have bracket := Text.Parse.word_append (Section.table ⟨[], key⟩) "]".toList ('\n' :: rest)
  rw [headerLine_append, header, path, Option.bind_eq_bind, Option.bind_some]
  · exact bracket
  · intro after double
    exact bare.ne_cons (by decide) _ _ double

theorem endLine_lineEnd (rest : List Char) : endLine ('\n' :: rest) = some rest := rfl

theorem line_lineEnd (p : Progress) (rest : List Char) :
    line p ('\n' :: rest) = some (p, rest) := rfl

theorem line_headerLine {p q : Progress} (bare : BareKey key)
    (opened : p.openSection (.table ⟨[], key⟩) = some q) (rest : List Char) :
    line p (headerLine key ++ rest) = some (q, rest) := by
  have found := header_headerLine bare rest
  rw [headerLine_append] at found ⊢
  rw [line, found]
  simp only [Option.bind_eq_bind, Option.bind_some, opened, endLine_lineEnd, Option.pure_def]

theorem line_keyLine {p q : Progress} (bare : BareKey key) (valueText : ValueText text v)
    (added : p.add ⟨[], key⟩ v = some q) (rest : List Char) :
    line p (keyLine key text ++ rest) = some (q, rest) := by
  have found := pair_keyLine bare valueText nestingLimit rest
  obtain ⟨c, cs, letters, first⟩ := bare.exists_cons
  have notEmpty : startsEmptyLine c = false := by
    simp only [startsEmptyLine, Bool.or_eq_false_iff, beq_eq_false_iff_ne]
    exact ⟨⟨Text.ne_of_class first (by decide), Text.ne_of_class first (by decide)⟩,
      Text.ne_of_class first (by decide)⟩
  rw [keyLine_append, letters, List.cons_append] at found ⊢
  rw [line, if_neg (Bool.eq_false_iff.mp notEmpty), found]
  · simp only [Option.bind_eq_bind, Option.bind_some, added, endLine_lineEnd, Option.pure_def]
  · exact Text.ne_of_class first (by decide)

/-! ### Runs -/

/-- The lines of a text take what is known from one state to another. -/
inductive Run : Progress → List Char → Progress → Prop where
  | done (p : Progress) : Run p [] p
  | line {p q r : Progress} {s rest : List Char} (noBlank : skipBlanks s = s)
      (read : line p s = some (q, rest)) (shorter : rest.length < s.length) (more : Run q rest r) :
      Run p s r

theorem Run.lines {p q : Progress} (run : Run p s q) :
    ∀ most, s.length ≤ most → lines most p s = some q := by
  induction run with
  | done p =>
    intro most _
    rw [Toml.lines]
    rfl
  | @line p q r s rest noBlank read shorter _ ih =>
    intro most enough
    cases s with
    | nil => cases shorter
    | cons c s =>
      cases most with
      | zero => cases enough
      | succ most =>
        have fewer : rest.length ≤ most := by
          rw [List.length_cons] at shorter enough
          omega
        rw [Toml.lines, noBlank]
        dsimp only
        rw [read, Option.bind_eq_bind, Option.bind_some]
        exact ih most fewer

/-! ### Sections -/

/-- The lines of a section, one for each of its entries. -/
inductive Fields : Entries → List Char → Prop where
  | nil : Fields [] []
  | cons {key : String} {text s : List Char} {v : Value} {entries : Entries} (bare : BareKey key)
      (valueText : ValueText text v) (more : Fields entries s) :
      Fields ((key, v) :: entries) (keyLine key text ++ s)

/-- Sections with headers, and blank lines before them. -/
inductive Sections : Entries → List Char → Prop where
  | nil : Sections [] []
  | blank {document : Entries} {s : List Char} (more : Sections document s) :
      Sections document ('\n' :: s)
  | cons {key : String} {s t : List Char} {entries document : Entries} (bare : BareKey key)
      (fields : Fields entries s) (distinct : (entries.map Prod.fst).Nodup)
      (more : Sections document t) :
      Sections ((key, .table .header entries) :: document) (headerLine key ++ (s ++ t))

theorem not_mem_of_distinct {known rest : Entries} {entry : String × Value}
    (distinct : ((known ++ entry :: rest).map Prod.fst).Nodup) :
    entry.1 ∉ known.map Prod.fst := by
  rw [List.map_append, List.map_cons, List.nodup_append] at distinct
  intro member
  exact distinct.2.2 _ member _ List.mem_cons_self rfl

theorem add_of_not_mem {p : Progress} (new : key ∉ p.entries.map Prod.fst) (v : Value) :
    p.add ⟨[], key⟩ v = some { p with entries := p.entries ++ [(key, v)] } := by
  have absent := Assoc.lookup_of_not_mem new
  simp only [Progress.add, Entries.insert, Entries.within, absent]
  rfl

theorem Run.fields {entries : Entries} (fields : Fields entries s) {p r : Progress}
    (distinct : ((p.entries ++ entries).map Prod.fst).Nodup)
    (more : Run { p with entries := p.entries ++ entries } rest r) : Run p (s ++ rest) r := by
  -- Along the lines the entries that are known grow, and stay apart from those to come.
  induction fields generalizing p with
  | nil =>
    rw [List.append_nil] at more
    exact more
  | @cons key text s v entries bare valueText _ ih =>
    have new := not_mem_of_distinct distinct
    rw [List.append_cons] at distinct more
    have run := ih (p := { p with entries := p.entries ++ [(key, v)] }) distinct more
    rw [List.append_assoc]
    refine .line ?_ (line_keyLine bare valueText (add_of_not_mem new v) _) ?_ run
    · rw [keyLine_append]
      exact skipBlanks_bare bare _
    · rw [keyLine_append]
      simp only [List.length_append, List.length_cons]
      omega

theorem openSection_of_not_mem {p : Progress} {document : Entries}
    (closed : p.close = some document) (new : key ∉ document.map Prod.fst) :
    p.openSection (.table ⟨[], key⟩) = some ⟨document, .table ⟨[], key⟩, []⟩ := by
  have absent := Assoc.lookup_of_not_mem new
  have opened : document.openTable ⟨[], key⟩ = some (document, []) := by
    simp only [Entries.openTable, Entries.within]
    rw [absent]
  rw [Progress.openSection, closed, Option.bind_eq_bind, Option.bind_some, opened]
  rfl

theorem close_of_not_mem {document : Entries} (new : key ∉ document.map Prod.fst)
    (entries : Entries) :
    Progress.close ⟨document, .table ⟨[], key⟩, entries⟩ =
      some (document ++ [(key, .table .header entries)]) := by
  have put := Assoc.put_of_not_mem new (Value.table .header entries)
  simp only [Progress.close, Entries.closeTable, Entries.within, put]
  rfl

theorem Run.sections {document : Entries} (sections : Sections document s) {p : Progress}
    {known : Entries} (closed : p.close = some known)
    (distinct : ((known ++ document).map Prod.fst).Nodup) :
    ∃ r, Run p s r ∧ r.close = some (known ++ document) := by
  -- Between two sections it matters only what closing the one at hand would give.
  induction sections generalizing p known with
  | nil => exact ⟨p, .done p, by rwa [List.append_nil]⟩
  | blank _ ih =>
    obtain ⟨r, run, result⟩ := ih closed distinct
    refine ⟨r, .line (skipBlanks_cons (by decide) _) (line_lineEnd p _) ?_ run, result⟩
    exact Nat.lt_succ_self _
  | @cons key s t entries document bare fields unique _ ih =>
    have new := not_mem_of_distinct distinct
    have opened := openSection_of_not_mem closed new
    rw [List.append_cons] at distinct
    obtain ⟨r, run, result⟩ := ih (close_of_not_mem new entries) distinct
    rw [← List.append_cons] at result
    have inside := Run.fields (p := ⟨known, .table ⟨[], key⟩, []⟩) fields unique run
    refine ⟨r, .line ?_ (line_headerLine bare opened _) ?_ inside, result⟩
    · rw [headerLine_append]
      exact skipBlanks_cons (by decide) _
    · rw [headerLine_append]
      simp only [List.length_append, List.length_cons]
      omega

theorem dropByteOrderMark_sections {document : Entries} (sections : Sections document s) :
    dropByteOrderMark s = s := by
  cases sections with
  | nil => rfl
  | blank => rfl
  | cons =>
    rw [headerLine_append]
    rfl

/-- A document of sections is read as the table of them. -/
theorem parse_of_sections {document : Entries} (sections : Sections document s)
    (distinct : (document.map Prod.fst).Nodup) : parse s = some document := by
  obtain ⟨r, run, result⟩ := Run.sections sections (p := .start) rfl distinct
  rw [parse, dropByteOrderMark_sections sections, run.lines _ (Nat.le_refl _)]
  exact result

end HolePunch.Toml
