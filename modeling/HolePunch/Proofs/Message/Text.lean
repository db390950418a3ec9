import HolePunch.CommandLine.Run
import HolePunch.Proofs.Endpoint.Text

/-!
# Messages as text

The text of a message says what kind it is up to its first blank, and what stands behind can be read
in one way only. So messages are printed alike exactly when they are equal
(`Message.text_eq_iff_beq`), in whatever line a command puts them.
-/

namespace HolePunch

open Text (EndsRun endsRun_cons decimal isDigitOf run_append_inj decimal_inj
  isDigitOf_of_mem_decimal)

namespace Kind

theorem eq_of_name_eq {j k : Kind} (same : j.name.toList = k.name.toList) : j = k := by
  revert same
  cases j <;> cases k <;> decide

theorem blank_not_mem_name (k : Kind) : ∀ c ∈ k.name.toList, (c != ' ') = true := by
  apply List.all_eq_true.mp
  cases k <;> decide

/-- A name ends at the first blank. -/
theorem eq_of_name_append {j k : Kind} {x y : List Char}
    (same : j.name.toList ++ ' ' :: x = k.name.toList ++ ' ' :: y) : j = k ∧ x = y := by
  have ends : ∀ s : List Char, EndsRun (· != ' ') (' ' :: s) := endsRun_cons (by decide)
  obtain ⟨names, rest⟩ :=
    run_append_inj j.blank_not_mem_name k.blank_not_mem_name (ends x) (ends y) same
  exact ⟨eq_of_name_eq names, (List.cons.inj rest).2⟩

end Kind

namespace Version

/-- The number of a version ends where no digit follows. -/
theorem eq_of_text_append {v w : Version} {x y : List Char} (ends : EndsRun (isDigitOf 10) x)
    (ends' : EndsRun (isDigitOf 10) y) (same : v.text ++ x = w.text ++ y) : v = w ∧ x = y := by
  obtain ⟨numbers, rest⟩ := run_append_inj (isDigitOf_of_mem_decimal _) (isDigitOf_of_mem_decimal _)
    ends ends' (List.cons.inj same).2
  exact ⟨congrArg mk (UInt8.toNat_inj.mp (decimal_inj numbers)), rest⟩

end Version

namespace Message

/-! ### What is printed of a body -/

theorem bodyText_session {body : Body} {cid : SessionId} (carried : body.sessionId? = some cid) :
    bodyText body = " cid=".toList ++ decimal cid.number.toNat := by
  cases body <;> cases carried <;> rfl

theorem bodyText_single (addr : Endpoint) : bodyText (.cReq addr) = " addr=".toList ++ addr.text :=
  rfl

theorem bodyText_pair (source destination : Endpoint) :
    bodyText (.cReqTcp source destination) =
      " source=".toList ++ source.text ++ " destination=".toList ++ destination.text :=
  rfl

/-- Behind the version stands a blank, if anything. -/
theorem endsRun_bodyText (body : Body) : EndsRun (isDigitOf 10) (bodyText body) := by
  have blank : ∀ {word : List Char}, word.head? = some ' ' →
      ∀ s : List Char, EndsRun (isDigitOf 10) (word ++ s) := by
    intro word head s c isHead
    rw [List.head?_append, head] at isHead
    cases isHead
    rfl
  cases body with
  | idReq => exact nofun
  | assId | sReq | sReqTcp =>
    rw [bodyText_session rfl]
    exact blank (by decide) _
  | cReq =>
    rw [bodyText_single]
    exact blank (by decide) _
  | cReqTcp =>
    rw [bodyText_pair, List.append_assoc, List.append_assoc]
    exact blank (by decide) _

theorem eq_of_sessionText_eq {x y : Body} {i j : SessionId} (left : x.sessionId? = some i)
    (right : y.sessionId? = some j) (same : bodyText x = bodyText y) : i = j := by
  rw [bodyText_session left, bodyText_session right] at same
  have numbers := decimal_inj (List.append_cancel_left same)
  exact congrArg SessionId.mk (UInt32.toNat_inj.mp numbers)

/-- The first endpoint is printed without a blank, so the word for the second is found. -/
theorem beq_of_pairText_eq {a b c d : Endpoint}
    (same : bodyText (.cReqTcp a b) = bodyText (.cReqTcp c d)) :
    (a == c) = true ∧ (b == d) = true := by
  have word : " destination=".toList = ' ' :: "destination=".toList := by decide
  have ends : ∀ s : List Char, EndsRun Address.isPrinted (' ' :: s) := endsRun_cons (by decide)
  simp only [bodyText_pair, List.append_assoc, word, List.cons_append] at same
  obtain ⟨sources, rest⟩ := run_append_inj a.isPrinted_of_mem_text c.isPrinted_of_mem_text (ends _)
    (ends _) (List.append_cancel_left same)
  have destinations := List.append_cancel_left (List.cons.inj rest).2
  exact ⟨Endpoint.beq_of_text_eq sources, Endpoint.beq_of_text_eq destinations⟩

theorem beq_of_bodyText_eq {x y : Body} (kinds : x.kind = y.kind)
    (same : bodyText x = bodyText y) : (x == y) = true := by
  cases x <;> cases y <;> try contradiction
  case idReq => rfl
  case assId | sReq | sReqTcp =>
    obtain rfl := eq_of_sessionText_eq rfl rfl same
    exact Body.beq_iff_wide.mpr rfl
  case cReq => exact Endpoint.beq_of_text_eq (List.append_cancel_left same)
  case cReqTcp =>
    obtain ⟨sources, destinations⟩ := beq_of_pairText_eq same
    exact Bool.and_eq_true_iff.mpr ⟨sources, destinations⟩

/-! ### Messages -/

variable {m n : Message}

theorem text_append (m : Message) (x : List Char) :
    m.text ++ x = m.kind.name.toList ++ ' ' :: (m.version.text ++ (bodyText m.body ++ x)) := by
  simp only [text, List.append_assoc, List.cons_append]

theorem kind_eq_of_text_append {x y : List Char} (same : m.text ++ x = n.text ++ y) :
    m.kind = n.kind := by
  rw [text_append, text_append] at same
  exact (Kind.eq_of_name_append same).1

theorem beq_of_text_eq (same : m.text = n.text) : (m == n) = true := by
  have front : m.text ++ [] = n.text ++ [] := congrArg (· ++ []) same
  rw [text_append, text_append, List.append_nil, List.append_nil] at front
  obtain ⟨kinds, behind⟩ := Kind.eq_of_name_append front
  obtain ⟨versions, bodies⟩ :=
    Version.eq_of_text_append (endsRun_bodyText _) (endsRun_bodyText _) behind
  exact Bool.and_eq_true_iff.mpr ⟨beq_iff_eq.mpr versions, beq_of_bodyText_eq kinds bodies⟩

theorem text_eq_iff_beq : m.text = n.text ↔ (m == n) = true := by
  constructor
  · exact beq_of_text_eq
  · intro equal
    rw [← m.text_wide, ← n.text_wide, beq_iff_wide.mp equal]

/-! ### Lines that show a message -/

theorem beq_iff_parts :
    (m == n) = true ↔
      m.kind = n.kind ∧ m.version = n.version ∧ m.sessionId? = n.sessionId? ∧
        m.body.endpoints.map (·.2.identity) = n.body.endpoints.map (·.2.identity) := by
  have bodies : ∀ x y : Body, (x == y) = true ↔
      x.kind = y.kind ∧ x.sessionId? = y.sessionId? ∧
        x.endpoints.map (·.2.identity) = y.endpoints.map (·.2.identity) := by
    intro x y
    rw [Body.beq_iff_wide]
    cases x <;> cases y <;>
      simp [Body.wide, Body.kind, Body.sessionId?, Body.endpoints, Endpoint.identity,
        ← Endpoint.beq_iff_wide, Endpoint.beq_iff]
  obtain ⟨v, x⟩ := m
  obtain ⟨w, y⟩ := n
  have both : (mk v x == mk w y) = true ↔ v = w ∧ (x == y) = true := by
    rw [← beq_iff_eq (a := v)]
    exact Bool.and_eq_true_iff
  rw [both, bodies]
  exact and_left_comm

/-- What a listener adds to the text, behind a request for a session, follows from the kind. -/
theorem receivedText_eq_iff_beq :
    Event.receivedText m = Event.receivedText n ↔ (m == n) = true := by
  have remark : ∀ l : Message, (Event.receivedText l).toList =
      l.text ++ if l.kind = .idReq then " (session ID requested)".toList else [] := by
    rintro ⟨v, body⟩
    cases body <;> simp [Event.receivedText, kind, Body.kind]
  rw [← String.toList_inj, remark, remark, ← text_eq_iff_beq]
  constructor
  · intro same
    rw [kind_eq_of_text_append same] at same
    exact List.append_cancel_right same
  · intro same
    have kinds : m.kind = n.kind := (beq_iff_parts.mp (beq_of_text_eq same)).1
    rw [same, kinds]

/-- Messages have the same text exactly when they are equal, which is when kind, version, session
and the ports and wire forms of their endpoints are. So is every line that shows a message: the one
that is printed, a line of a dump, and what is logged of a message that came or was sent. -/
theorem text_identifies (m n : Message) :
    (m.text = n.text ↔ (m == n) = true) ∧
    ((m == n) = true ↔
      m.kind = n.kind ∧ m.version = n.version ∧ m.sessionId? = n.sessionId? ∧
        m.body.endpoints.map (·.2.identity) = n.body.endpoints.map (·.2.identity)) ∧
    (CommandLine.line m.text = CommandLine.line n.text ↔ (m == n) = true) ∧
    (∀ number : Nat,
      Inspect.dumpLine number m = Inspect.dumpLine number n ↔ (m == n) = true) ∧
    (∀ (x y : SocketAddr) (i j : Nat),
      (Event.received x i m).record.text = (Event.received y j n).record.text ↔
        (m == n) = true) ∧
    ∀ (x y : SocketAddr) (i j : Nat),
      (Event.sent x i m).record.text = (Event.sent y j n).record.text ↔ (m == n) = true := by
  refine ⟨text_eq_iff_beq, beq_iff_parts, ?_, fun number => ?_,
    fun _ _ _ _ => receivedText_eq_iff_beq, fun _ _ _ _ => ?_⟩
  · rw [CommandLine.line, CommandLine.line, List.append_left_inj, text_eq_iff_beq]
  · simp only [Inspect.dumpLine, List.append_left_inj, List.append_right_inj, List.cons.injEq,
      true_and, text_eq_iff_beq]
  · simp only [Event.record, ← String.toList_inj, String.toList_append, String.toList_ofList,
      List.append_right_inj, text_eq_iff_beq]

end Message

end HolePunch
