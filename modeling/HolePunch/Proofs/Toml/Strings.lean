import HolePunch.Proofs.Toml.Escape

/-!
# Strings

A string is read back whatever its form. On several lines a run of quotes needs care: the first
three that are not escaped close the string, and up to two after them still belong to it.
-/

namespace HolePunch.Toml

/-! ### Quotes at the end -/

/-- What does not start with two quotes of a kind. -/
def NoPair (quote : Char) (s : List Char) : Prop := ∀ rest, s ≠ quote :: quote :: rest

theorem noPair_cons {quote c : Char} (other : c ≠ quote) (rest : List Char) :
    NoPair quote (c :: rest) := by
  rintro _ ⟨⟩
  exact other rfl

theorem noPair_cons_cons {quote c : Char} (other : c ≠ quote) (first : Char) (rest : List Char) :
    NoPair quote (first :: c :: rest) := by
  rintro _ ⟨⟩
  exact other rfl

variable {quote c : Char} {s rest : List Char}

theorem ownQuotes_none (other : c ≠ quote) : ownQuotes quote (c :: rest) = ([], c :: rest) := by
  cases rest with
  | nil => rw [ownQuotes, if_neg other]
  | cons d rest => rw [ownQuotes, if_neg other]

theorem ownQuotes_one (other : c ≠ quote) :
    ownQuotes quote (quote :: c :: rest) = ([quote], c :: rest) := by
  rw [ownQuotes, if_pos rfl, if_neg other]

theorem ownQuotes_two : ownQuotes quote (quote :: quote :: rest) = ([quote, quote], rest) := by
  rw [ownQuotes, if_pos rfl, if_pos rfl]

/-! ### Basic strings on several lines -/

theorem multilineBasicRest_quote (noPair : NoPair '"' s) :
    multilineBasicRest ('"' :: s) = consFound '"' (multilineBasicRest s) := by
  rw [multilineBasicRest]
  intro rest pair
  exact noPair rest pair

theorem multilineBasicRest_escape {e : List Char} (escapes : Escapes e c) (rest : List Char) :
    multilineBasicRest ('\\' :: e ++ rest) = consFound c (multilineBasicRest rest) := by
  have noJoin := escapes.noLineEnd rest
  have found := escapes.escape rest
  rw [List.cons_append, multilineBasicRest]
  split
  · next joined => cases noJoin.symm.trans joined
  · split
    · next again =>
      rw [found] at again
      cases again
      rfl
    · next none => cases found.symm.trans none

theorem multilineBasicRest_basic (basic : isBasic c = true) (rest : List Char) :
    multilineBasicRest (c :: rest) = consFound c (multilineBasicRest rest) := by
  rw [multilineBasicRest, if_pos basic]
  · exact fun _ same _ => Text.ne_of_class basic (by decide) same
  · exact Text.ne_of_class basic (by decide)
  · exact Text.ne_of_class basic (by decide)
  · exact fun _ same _ => Text.ne_of_class basic (by decide) same
  · exact Text.ne_of_class basic (by decide)

theorem multilineBasicRest_escapedChar (noQuote : c ≠ '"') (rest : List Char) :
    multilineBasicRest (escapedChar c ++ rest) = consFound c (multilineBasicRest rest) := by
  rcases escapedChar_cases c with ⟨same, -, quote | lineEnd | basic⟩ | ⟨e, same, escapes⟩
  · exact absurd quote noQuote
  · rw [same]
    subst lineEnd
    rw [List.singleton_append, multilineBasicRest]
  · rw [same]
    exact multilineBasicRest_basic basic rest
  · rw [same]
    exact multilineBasicRest_escape escapes rest

theorem exists_escapedChar (noQuote : c ≠ '"') : ∃ d t, escapedChar c = d :: t ∧ d ≠ '"' := by
  rcases escapedChar_cases c with ⟨same, -, -⟩ | ⟨e, same, -⟩
  · exact ⟨c, [], same, noQuote⟩
  · exact ⟨'\\', e, same, by decide⟩

theorem multilineBody_other {quotes : Nat} (noQuote : c ≠ '"') :
    multilineBody quotes (c :: s) = escapedChar c ++ multilineBody 0 s := by
  rw [multilineBody, if_neg noQuote]

theorem multilineBody_quote {quotes : Nat} (few : quotes ≠ 2) :
    multilineBody quotes ('"' :: s) = '"' :: multilineBody (quotes + 1) s := by
  rw [multilineBody, if_pos rfl, if_neg few]

theorem multilineBody_third : multilineBody 2 ('"' :: s) = '\\' :: '"' :: multilineBody 0 s := by
  rw [multilineBody, if_pos rfl, if_pos rfl]

/-- After two quotes that are not escaped comes no third. -/
theorem exists_multilineBody_two (c : Char) (s : List Char) :
    ∃ d t, multilineBody 2 (c :: s) = d :: t ∧ d ≠ '"' := by
  by_cases quote : c = '"'
  · subst quote
    exact ⟨_, _, multilineBody_third, by decide⟩
  · obtain ⟨d, t, escaped, other⟩ := exists_escapedChar quote
    exact ⟨d, t ++ multilineBody 0 s, by rw [multilineBody_other quote, escaped]; rfl, other⟩

/-- After a quote that is not escaped, two more follow only where the string ends. -/
theorem noPair_multilineBody {quotes : Nat} (few : quotes < 2) {s : List Char} (more : s ≠ [])
    (notLast : ¬(quotes = 0 ∧ s = ['"'])) (rest : List Char) :
    NoPair '"' (multilineBody (quotes + 1) s ++ rest) := by
  obtain ⟨c, s, rfl⟩ := List.exists_cons_of_ne_nil more
  -- After one quote the pair would be the next two characters, after two the third is escaped.
  obtain rfl | rfl : quotes = 0 ∨ quotes = 1 := by omega
  · by_cases quote : c = '"'
    · subst quote
      cases s with
      | nil => exact absurd ⟨rfl, rfl⟩ notLast
      | cons d s =>
        obtain ⟨e, t, body, other⟩ := exists_multilineBody_two d s
        rw [multilineBody_quote (by decide), body]
        exact noPair_cons_cons other _ _
    · obtain ⟨d, t, escaped, other⟩ := exists_escapedChar quote
      rw [multilineBody_other quote, escaped]
      exact noPair_cons other _
  · obtain ⟨d, t, body, other⟩ := exists_multilineBody_two c s
    rw [body]
    exact noPair_cons other _

/-- A basic string on several lines of any text is read back up to its closing quotes. -/
theorem multilineBasicRest_multilineBody {quotes : Nat} (few : quotes ≤ 2) (other : c ≠ '"')
    (s rest : List Char) :
    multilineBasicRest (multilineBody quotes s ++ '"' :: '"' :: '"' :: c :: rest) =
      some (s, c :: rest) := by
  induction s generalizing quotes with
  | nil => rw [multilineBody, List.nil_append, multilineBasicRest, ownQuotes_none other]
  | cons d s ih =>
    by_cases quote : d = '"'
    · subst quote
      by_cases third : quotes = 2
      · subst third
        have escapes : Escapes ['"'] '"' := ⟨fun _ => rfl, fun _ => rfl⟩
        have read := multilineBasicRest_escape escapes
          (multilineBody 0 s ++ '"' :: '"' :: '"' :: c :: rest)
        rw [ih (by decide)] at read
        rw [multilineBody_third]
        exact read
      · rw [multilineBody_quote third, List.cons_append]
        by_cases last : s = []
        · -- the quote is the first of four, the last of which is its own
          subst last
          rw [multilineBody, List.nil_append, multilineBasicRest, ownQuotes_one other]
        · by_cases lastTwo : quotes = 0 ∧ s = ['"']
          · obtain ⟨rfl, rfl⟩ := lastTwo
            rw [multilineBody_quote (by decide), multilineBody, List.cons_append, List.nil_append,
              multilineBasicRest, ownQuotes_two]
          · have noPair := noPair_multilineBody (by omega) last lastTwo
              ('"' :: '"' :: '"' :: c :: rest)
            rw [multilineBasicRest_quote noPair, ih (by omega)]
            rfl
    · rw [multilineBody_other quote, List.append_assoc, multilineBasicRest_escapedChar quote,
        ih (by decide)]
      rfl

/-! ### Literal strings -/

theorem isLiteral_of_not_isControl (plain : isControl c = false) (noQuote : c ≠ '\'')
    (noEnd : c ≠ '\n') : isLiteral c = true := by
  simp [isLiteral, isPlain_of_not_isControl plain noEnd, noQuote]

theorem literalRest_self (every : ∀ c ∈ s, isLiteral c = true) (rest : List Char) :
    literalRest (s ++ '\'' :: rest) = some (s, rest) := by
  have ends : Text.EndsRun isLiteral ('\'' :: rest) := Text.endsRun_cons (by decide) rest
  simp only [literalRest, Text.dropWhile_run every ends, Text.takeWhile_run every ends]

theorem multilineLiteralRest_quote (noPair : NoPair '\'' s) :
    multilineLiteralRest ('\'' :: s) = consFound '\'' (multilineLiteralRest s) := by
  rw [multilineLiteralRest]
  intro rest pair
  exact noPair rest pair

theorem multilineLiteralRest_other (plain : isControl c = false) (noQuote : c ≠ '\'') :
    multilineLiteralRest (c :: rest) = consFound c (multilineLiteralRest rest) := by
  by_cases lineEnd : c = '\n'
  · subst lineEnd
    rw [multilineLiteralRest]
  · have literal := isLiteral_of_not_isControl plain noQuote lineEnd
    rw [multilineLiteralRest, if_pos literal]
    · exact fun _ same _ => noQuote same
    · exact noQuote
    · exact lineEnd
    · exact fun _ same _ => Text.ne_of_class literal (by decide) same

theorem hasThree_cons (none : hasThree quote (c :: s) = false) : hasThree quote s = false := by
  match s with
  | [] => rfl
  | [_] => rfl
  | d :: e :: s =>
    rw [hasThree, Bool.or_eq_false_iff] at none
    exact none.2

/-- Without three quotes in a row, two more follow one only where the string ends. -/
theorem noPair_of_not_hasThree (none : hasThree quote (quote :: s) = false) (more : s ≠ [])
    (notLast : s ≠ [quote]) (rest : List Char) : NoPair quote (s ++ rest) := by
  match s with
  | [] => exact absurd rfl more
  | [d] =>
    have other : d ≠ quote := by
      rintro rfl
      exact notLast rfl
    exact noPair_cons other rest
  | d :: e :: s =>
    rintro _ ⟨⟩
    simp [hasThree] at none

theorem multilineLiteralRest_self (none : hasThree '\'' s = false)
    (plain : ∀ d ∈ s, isControl d = false) (other : c ≠ '\'') (rest : List Char) :
    multilineLiteralRest (s ++ '\'' :: '\'' :: '\'' :: c :: rest) = some (s, c :: rest) := by
  induction s with
  | nil => rw [List.nil_append, multilineLiteralRest, ownQuotes_none other]
  | cons d s ih =>
    obtain ⟨first, others⟩ := List.forall_mem_cons.mp plain
    have read := ih (hasThree_cons none) others
    rw [List.cons_append]
    by_cases quote : d = '\''
    · subst quote
      by_cases last : s = []
      · subst last
        rw [List.nil_append, multilineLiteralRest, ownQuotes_one other]
      · by_cases lastTwo : s = ['\'']
        · subst lastTwo
          rw [List.singleton_append, multilineLiteralRest, ownQuotes_two]
        · rw [multilineLiteralRest_quote (noPair_of_not_hasThree none last lastTwo _), read]
          rfl
    · rw [multilineLiteralRest_other first quote, read]
      rfl

/-! ### The four forms -/

theorem dropLineEnd_cons (noEnd : c ≠ '\n') (noReturn : c ≠ '\r') (rest : List Char) :
    dropLineEnd (c :: rest) = c :: rest := by
  rw [dropLineEnd]
  · rintro _ ⟨⟩
    exact noEnd rfl
  · rintro _ ⟨⟩
    exact noReturn rfl

/-- The line end that a text with line ends starts after is dropped, and nothing else is. -/
theorem dropLineEnd_start (oneLine : '\n' ∉ s → dropLineEnd rest = rest) :
    dropLineEnd ((if s.contains '\n' then ['\n'] else []) ++ rest) = rest := by
  by_cases manyLines : '\n' ∈ s
  · rw [if_pos (List.contains_iff_mem.mpr manyLines)]
    rfl
  · rw [if_neg (mt List.contains_iff_mem.mp manyLines), List.nil_append, oneLine manyLines]

theorem dropLineEnd_multilineBody (oneLine : '\n' ∉ s) (rest : List Char) :
    dropLineEnd (multilineBody 0 s ++ '"' :: rest) = multilineBody 0 s ++ '"' :: rest := by
  cases s with
  | nil => rfl
  | cons d s =>
    by_cases quote : d = '"'
    · subst quote
      rfl
    · rw [multilineBody_other quote]
      rcases escapedChar_cases d with ⟨same, noReturn, -⟩ | ⟨e, same, -⟩
      · rw [same]
        exact dropLineEnd_cons (List.ne_of_not_mem_cons oneLine).symm noReturn _
      · rw [same]
        rfl

theorem dropLineEnd_plain (plain : ∀ d ∈ s, isControl d = false) (oneLine : '\n' ∉ s)
    (rest : List Char) : dropLineEnd (s ++ '\'' :: rest) = s ++ '\'' :: rest := by
  cases s with
  | nil => rfl
  | cons d s =>
    have isPlain := plain d List.mem_cons_self
    have noReturn : d ≠ '\r' := (Text.ne_of_class (by decide) isPlain).symm
    exact dropLineEnd_cons (List.ne_of_not_mem_cons oneLine).symm noReturn _

theorem noPair_basicBody (other : c ≠ '"') (s rest : List Char) :
    NoPair '"' (basicBody s ++ '"' :: c :: rest) := by
  cases s with
  | nil => exact noPair_cons_cons other _ _
  | cons d s =>
    rcases basicBody_cons_cases d s with ⟨body, basic⟩ | ⟨e, body, -⟩
    · rw [body]
      exact noPair_cons (Text.ne_of_class basic (by decide)) _
    · rw [body]
      exact noPair_cons (by decide) _

theorem string_basic (other : c ≠ '"') (s rest : List Char) :
    string (stringIn .basic s ++ c :: rest) = some (s, c :: rest) := by
  have read := basicRest_basicBody s (c :: rest)
  have noPair := noPair_basicBody other s rest
  simp only [stringIn, List.cons_append, List.append_assoc, List.nil_append]
  rw [string, read]
  intro rest pair
  exact noPair rest pair

theorem string_literal (every : ∀ d ∈ s, isLiteral d = true) (other : c ≠ '\'')
    (rest : List Char) : string (stringIn .literal s ++ c :: rest) = some (s, c :: rest) := by
  have read := literalRest_self every (c :: rest)
  have noPair : NoPair '\'' (s ++ '\'' :: c :: rest) := by
    cases s with
    | nil => exact noPair_cons_cons other _ _
    | cons d s => exact noPair_cons (Text.ne_of_class (every d List.mem_cons_self) (by decide)) _
  simp only [stringIn, List.cons_append, List.append_assoc, List.nil_append]
  rw [string, read]
  intro rest pair
  exact noPair rest pair

theorem string_multilineBasic (other : c ≠ '"') (s rest : List Char) :
    string (stringIn .multilineBasic s ++ c :: rest) = some (s, c :: rest) := by
  have start : dropLineEnd ((if s.contains '\n' then ['\n'] else []) ++
      (multilineBody 0 s ++ '"' :: '"' :: '"' :: c :: rest)) =
      multilineBody 0 s ++ '"' :: '"' :: '"' :: c :: rest :=
    dropLineEnd_start fun oneLine => dropLineEnd_multilineBody oneLine _
  have read := multilineBasicRest_multilineBody (Nat.zero_le 2) other s rest
  simp only [stringIn, betweenThree, List.replicate, List.append_assoc, List.cons_append,
    List.nil_append, string]
  rw [start, read]

theorem string_multilineLiteral (none : hasThree '\'' s = false)
    (plain : ∀ d ∈ s, isControl d = false) (other : c ≠ '\'') (rest : List Char) :
    string (stringIn .multilineLiteral s ++ c :: rest) = some (s, c :: rest) := by
  have start : dropLineEnd ((if s.contains '\n' then ['\n'] else []) ++
      (s ++ '\'' :: '\'' :: '\'' :: c :: rest)) = s ++ '\'' :: '\'' :: '\'' :: c :: rest :=
    dropLineEnd_start fun oneLine => dropLineEnd_plain plain oneLine _
  have read := multilineLiteralRest_self none plain other rest
  simp only [stringIn, betweenThree, List.replicate, List.append_assoc, List.cons_append,
    List.nil_append, string]
  rw [start, read]

/-- A literal form is chosen only for what it can show. -/
theorem formOf_cases (s : List Char) :
    formOf s = .basic ∨ formOf s = .multilineBasic ∨
      (formOf s = .literal ∧ ∀ d ∈ s, isLiteral d = true) ∨
      (formOf s = .multilineLiteral ∧ (∀ d ∈ s, isControl d = false) ∧
        hasThree '\'' s = false) := by
  unfold formOf
  dsimp only
  split
  · exact .inl rfl
  split
  · next _ shown =>
    simp only [Bool.and_eq_true, Bool.not_eq_true', List.any_eq_false, List.contains_eq_mem,
      decide_eq_false_iff_not] at shown
    obtain ⟨⟨plain, oneLine⟩, noQuote⟩ := shown
    refine .inr (.inr (.inl ⟨rfl, fun d member => ?_⟩))
    exact isLiteral_of_not_isControl (Bool.eq_false_iff.mpr (plain d member))
      (fun same => noQuote (same ▸ member)) (fun same => oneLine (same ▸ member))
  split
  · exact .inr (.inl rfl)
  split
  · next shown =>
    simp only [Bool.and_eq_true, Bool.not_eq_true', List.any_eq_false] at shown
    obtain ⟨plain, few⟩ := shown
    exact .inr (.inr (.inr ⟨rfl, fun d member => Bool.eq_false_iff.mpr (plain d member), few⟩))
  split
  · exact .inr (.inl rfl)
  · exact .inl rfl

/-- The text of any string, in the form that is chosen for it, is read back as the string. -/
theorem string_stringText (s rest : List Char) :
    string (stringText s ++ '\n' :: rest) = some (s, '\n' :: rest) := by
  rw [stringText]
  obtain form | form | ⟨form, every⟩ | ⟨form, plain, few⟩ := formOf_cases s
  · rw [form]
    exact string_basic (by decide) s rest
  · rw [form]
    exact string_multilineBasic (by decide) s rest
  · rw [form]
    exact string_literal every (by decide) rest
  · rw [form]
    exact string_multilineLiteral few plain (by decide) rest

end HolePunch.Toml
