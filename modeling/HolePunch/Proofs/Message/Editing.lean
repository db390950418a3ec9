import HolePunch.Proofs.Message.WireForm

/-!
# Edited messages

A message can be given another version, and a pair of endpoints can be swapped. `Message.editAll_eq`
says what is left of a row of edits: the version that was set last, and whether the swaps were odd
in number. On the wire the first is one byte and the second an exchange of two blocks, and
`Message.encode_editAll` ties the two together.
-/

namespace HolePunch

namespace Wire

/-- The bytes with the two blocks behind the header, each as long as an endpoint, in each other's
place. -/
def exchange (w : Bytes) : Bytes :=
  w.take headerSize ++ (span w (headerSize + endpointSize) endpointSize ++
    (span w headerSize endpointSize ++ w.drop maxPacketSize))

theorem exchange_append {head first second : Bytes} (header : head.length = headerSize)
    (one : first.length = endpointSize) (two : second.length = endpointSize) (rest : Bytes) :
    exchange (head ++ (first ++ (second ++ rest))) = head ++ (second ++ (first ++ rest)) := by
  have behind : (head ++ (first ++ (second ++ rest))).drop headerSize = first ++ (second ++ rest) :=
    List.drop_left' header
  have further : (head ++ (first ++ (second ++ rest))).drop (headerSize + endpointSize) =
      second ++ rest := by
    rw [← List.drop_drop, behind, List.drop_left' one]
  have last : (head ++ (first ++ (second ++ rest))).drop maxPacketSize = rest := by
    have length : maxPacketSize = headerSize + endpointSize + endpointSize := rfl
    rw [length, ← List.drop_drop, further, List.drop_left' two]
  rw [exchange, span, span, behind, further, last, List.take_left' header, List.take_left' two,
    List.take_left' one]

theorem getElem?_exchange {w : Bytes} {place : Nat} (header : headerSize ≤ w.length)
    (front : place < headerSize) : (exchange w)[place]? = w[place]? := by
  have inside : place < (w.take headerSize).length := by
    rwa [List.length_take_of_le header]
  rw [exchange, List.getElem?_append_left inside, List.getElem?_take_of_lt front]

end Wire

namespace Body

theorem swapped_swapped (body : Body) : body.swapped.swapped = body := by cases body <;> rfl

@[simp] theorem kind_swapped (body : Body) : body.swapped.kind = body.kind := by cases body <;> rfl

@[simp] theorem sessionId?_swapped (body : Body) : body.swapped.sessionId? = body.sessionId? := by
  cases body <;> rfl

theorem isSet_swapped {body : Body} (set : ∀ named ∈ body.endpoints, named.2.isSet = true) :
    ∀ named ∈ body.swapped.endpoints, named.2.isSet = true := by
  cases body with
  | cReqTcp source destination =>
    simp only [endpoints, swapped, List.forall_mem_cons] at set ⊢
    exact ⟨set.2.1, set.1, set.2.2⟩
  | _ => exact set

end Body

namespace Message

/-! ### Rows of edits -/

namespace Edit

def version? : Edit → Option Version
  | .setVersion version => some version
  | .swap => none

/-- The version that was set last, if any was. -/
def lastVersion? (edits : List Edit) : Option Version := (edits.filterMap version?).getLast?

/-- The swaps do not undo each other. -/
def OddSwaps (edits : List Edit) : Prop := edits.count .swap % 2 = 1

instance (edits : List Edit) : Decidable (OddSwaps edits) :=
  inferInstanceAs (Decidable (edits.count .swap % 2 = 1))

theorem lastVersion?_setVersion (version : Version) (later : List Edit) :
    lastVersion? (.setVersion version :: later) = some ((lastVersion? later).getD version) := by
  have first : version? (.setVersion version) = some version := rfl
  rw [lastVersion?, List.filterMap_cons_some first, List.getLast?_cons]
  rfl

theorem oddSwaps_swap (later : List Edit) : OddSwaps (.swap :: later) ↔ ¬OddSwaps later := by
  rw [OddSwaps, OddSwaps, List.count_cons_self]
  omega

theorem oddSwaps_setVersion (version : Version) (later : List Edit) :
    OddSwaps (.setVersion version :: later) ↔ OddSwaps later := by
  have other : Edit.setVersion version ≠ .swap := nofun
  rw [OddSwaps, OddSwaps, List.count_cons_of_ne other]

/-- The same edit of the bytes of a message of a kind. -/
def onWire (kind : Kind) (w : Bytes) : Edit → Bytes
  | .setVersion version => w.set 1 version.byte
  | .swap => if kind = .cReqTcp then Wire.exchange w else w

/-- The bytes with the version that was set last, if any was. -/
def versioned (edits : List Edit) (w : Bytes) : Bytes :=
  match lastVersion? edits with
  | none => w
  | some version => w.set 1 version.byte

/-- A row of edits changes the places of the endpoints of a message of a kind. -/
def Exchanges (kind : Kind) (edits : List Edit) : Prop := kind = .cReqTcp ∧ OddSwaps edits

instance (kind : Kind) (edits : List Edit) : Decidable (Exchanges kind edits) :=
  inferInstanceAs (Decidable (kind = .cReqTcp ∧ OddSwaps edits))

/-- What a row of edits comes to on the wire. -/
def net (kind : Kind) (edits : List Edit) (w : Bytes) : Bytes :=
  if Exchanges kind edits then Wire.exchange (versioned edits w) else versioned edits w

end Edit

/-- The message after edits, one after the other. -/
def editAll (m : Message) (edits : List Edit) : Message := edits.foldl edit m

theorem editAll_cons (m : Message) (e : Edit) (later : List Edit) :
    m.editAll (e :: later) = (m.edit e).editAll later := rfl

/-- Of a row of edits the last version counts, and whether the swaps are odd in number. -/
theorem editAll_eq (m : Message) (edits : List Edit) :
    m.editAll edits =
      ⟨(Edit.lastVersion? edits).getD m.version,
        if Edit.OddSwaps edits then m.body.swapped else m.body⟩ := by
  induction edits generalizing m with
  | nil => rfl
  | cons e later ih =>
    rw [editAll_cons, ih]
    cases e with
    | setVersion version =>
      simp only [Edit.lastVersion?_setVersion, Edit.oddSwaps_setVersion, Option.getD_some]
      rfl
    | swap =>
      have versions : Edit.lastVersion? (.swap :: later) = Edit.lastVersion? later := rfl
      simp only [versions, Edit.oddSwaps_swap, ite_not]
      by_cases odd : Edit.OddSwaps later
      · simp only [if_pos odd, edit, swapped, Body.swapped_swapped]
      · simp only [if_neg odd, edit, swapped]

/-! ### One edit -/

theorem isSet_edit {m : Message} (set : m.IsSet) (e : Edit) : (m.edit e).IsSet := by
  cases e with
  | setVersion => exact set
  | swap => exact Body.isSet_swapped set

theorem kind_edit (m : Message) (e : Edit) : (m.edit e).kind = m.kind := by
  cases e with
  | setVersion => rfl
  | swap => exact m.body.kind_swapped

theorem sessionId?_edit (m : Message) (e : Edit) : (m.edit e).sessionId? = m.sessionId? := by
  cases e with
  | setVersion => rfl
  | swap => exact m.body.sessionId?_swapped

theorem wireForm_swapped_pair {source destination : Endpoint} (version : Version)
    (sourceSet : source.isSet = true) (destinationSet : destination.isSet = true) :
    wireForm ⟨version, .cReqTcp destination source⟩ =
      Wire.exchange (wireForm ⟨version, .cReqTcp source destination⟩) := by
  have length : ∀ e : Endpoint, e.isSet = true → e.wireForm.length = endpointSize := by
    intro e set
    have written : e.bytes .cReqTcp "source" = .ok e.wireForm := by rw [e.bytes_eq, if_pos set]
    exact Endpoint.length_bytes written
  have parts : ∀ first second : Endpoint, wireForm ⟨version, .cReqTcp first second⟩ =
      [Kind.cReqTcp.tag, version.byte] ++ (first.wireForm ++ (second.wireForm ++ [])) :=
    fun _ _ => rfl
  rw [parts, parts,
    Wire.exchange_append rfl (length source sourceSet) (length destination destinationSet)]

/-- An edit of a message is the same edit of its bytes. -/
theorem wireForm_edit {m : Message} (set : m.IsSet) (e : Edit) :
    (m.edit e).wireForm = e.onWire m.kind m.wireForm := by
  cases e with
  | setVersion => rfl
  | swap =>
    obtain ⟨version, body⟩ := m
    cases body with
    | cReqTcp source destination =>
      have sourceSet : source.isSet = true := set ("source", source) List.mem_cons_self
      have destinationSet : destination.isSet = true :=
        set ("destination", destination) (List.mem_cons_of_mem _ List.mem_cons_self)
      exact wireForm_swapped_pair version sourceSet destinationSet
    | _ => rfl

/-! ### Rows of edits on the wire -/

theorem editAll_keeps {P : Message → Prop} (kept : ∀ m e, P m → P (m.edit e)) {m : Message}
    (start : P m) (edits : List Edit) : P (m.editAll edits) := by
  induction edits generalizing m with
  | nil => exact start
  | cons e later ih => exact ih (kept m e start)

theorem isSet_editAll {m : Message} (set : m.IsSet) (edits : List Edit) : (m.editAll edits).IsSet :=
  editAll_keeps (P := IsSet) (fun _ e set => isSet_edit set e) set edits

theorem kind_editAll (m : Message) (edits : List Edit) : (m.editAll edits).kind = m.kind :=
  editAll_keeps (P := fun n => n.kind = m.kind) (fun n e same => (n.kind_edit e).trans same) rfl
    edits

theorem sessionId?_editAll (m : Message) (edits : List Edit) :
    (m.editAll edits).sessionId? = m.sessionId? :=
  editAll_keeps (P := fun n => n.sessionId? = m.sessionId?)
    (fun n e same => (n.sessionId?_edit e).trans same) rfl edits

theorem wireForm_editAll {m : Message} (set : m.IsSet) (edits : List Edit) :
    (m.editAll edits).wireForm = edits.foldl (Edit.onWire m.kind) m.wireForm := by
  induction edits generalizing m with
  | nil => rfl
  | cons e later ih =>
    rw [editAll_cons, ih (isSet_edit set e), kind_edit, wireForm_edit set, List.foldl_cons]

theorem wireForm_withVersion (m : Message) (edits : List Edit) :
    (m.withVersion ((Edit.lastVersion? edits).getD m.version)).wireForm =
      Edit.versioned edits m.wireForm := by
  rw [Edit.versioned]
  cases Edit.lastVersion? edits <;> rfl

theorem wireForm_editAll_net {m : Message} (set : m.IsSet) (edits : List Edit) :
    (m.editAll edits).wireForm = Edit.net m.kind edits m.wireForm := by
  have settled : m.editAll edits =
      let versioned := m.withVersion ((Edit.lastVersion? edits).getD m.version)
      if Edit.OddSwaps edits then versioned.edit .swap else versioned := by
    rw [editAll_eq]
    split <;> rfl
  have versionedSet : (m.withVersion ((Edit.lastVersion? edits).getD m.version)).IsSet := set
  rw [settled, Edit.net, ← m.wireForm_withVersion edits]
  by_cases odd : Edit.OddSwaps edits
  · simp only [Edit.Exchanges, odd, and_true, if_true]
    exact wireForm_edit versionedSet .swap
  · simp only [Edit.Exchanges, odd, and_false, if_false]

theorem getElem?_net {kind : Kind} {edits : List Edit} {w : Bytes} {place : Nat}
    (header : headerSize ≤ w.length) (other : place ≠ 1)
    (front : Edit.Exchanges kind edits → place < headerSize) :
    (Edit.net kind edits w)[place]? = w[place]? := by
  have kept : (Edit.versioned edits w)[place]? = w[place]? := by
    rw [Edit.versioned]
    split
    · rfl
    · exact List.getElem?_set_ne other.symm
  have length : (Edit.versioned edits w).length = w.length := by
    rw [Edit.versioned]
    split
    · rfl
    · exact List.length_set
  rw [Edit.net]
  split
  · next exchanges =>
    rw [Wire.getElem?_exchange (by rwa [length]) (front exchanges), kept]
  · exact kept

/-- Editing a message is editing its bytes: they change by the same edits, which come to one byte
for the version that was set last and, for a pair after an odd number of swaps, to an exchange of
the two endpoints. Every other byte stays, and so do the kind, the length and the session. Swaps
undo each other and do not meet the version; once the byte of the version is set back, the bytes are
read as the edited message. -/
theorem encode_editAll (m : Message) (set : m.IsSet) (edits : List Edit) :
    let edited := m.editAll edits
    ∃ w written, m.encode = .ok w ∧ edited.encode = .ok written ∧
      written = edits.foldl (Edit.onWire m.kind) w ∧ written = Edit.net m.kind edits w ∧
      (∀ place, place ≠ 1 → (Edit.Exchanges m.kind edits → place < headerSize) →
        written[place]? = w[place]?) ∧
      edited.kind = m.kind ∧ written.length = w.length ∧ edited.sessionId? = m.sessionId? ∧
      (edited.edit .swap).edit .swap = edited ∧
      (∀ version, (edited.edit (.setVersion version)).edit .swap =
        (edited.edit .swap).edit (.setVersion version)) ∧
      let spoken := edited.edit (.setVersion .newest)
      spoken.encode = .ok (written.set 1 1) ∧
        ∃ read, decode (written.set 1 1) = .ok read ∧ (read == spoken) = true := by
  intro edited
  have editedSet : edited.IsSet := isSet_editAll set edits
  have kind : edited.kind = m.kind := m.kind_editAll edits
  have length : edited.wireForm.length = m.wireForm.length := by
    rw [length_wireForm editedSet, length_wireForm set]
    exact congrArg Kind.size kind
  have header : headerSize ≤ m.wireForm.length := by
    rw [length_wireForm set]
    exact m.kind.headerSize_le_size
  have net : edited.wireForm = Edit.net m.kind edits m.wireForm := wireForm_editAll_net set edits
  refine ⟨m.wireForm, edited.wireForm, encode_of_set set, encode_of_set editedSet,
    wireForm_editAll set edits, net, ?_, kind, length, m.sessionId?_editAll edits, ?_, ?_, ?_⟩
  · intro place other front
    rw [net]
    exact getElem?_net header other front
  · simp only [edit, swapped, Body.swapped_swapped]
  · intro version
    rfl
  · intro spoken
    have spokenSet : spoken.IsSet := editedSet
    have bytes : spoken.encode = .ok (edited.wireForm.set 1 1) := encode_of_set spokenSet
    obtain ⟨w, read, given, -, decoded, -, equal, -, -⟩ := decode_encode spoken rfl spokenSet []
    obtain rfl := Except.ok.inj (given.symm.trans bytes)
    rw [List.append_nil] at decoded
    exact ⟨bytes, read, decoded, equal⟩

theorem encode_editAll_swaps :
    let m : Message := ⟨⟨7⟩, .cReqTcp ⟨60002, some (.v4 ⟨192, 0, 2, 7⟩)⟩
      ⟨0xff01, some (.v6 ⟨[0x20, 1, 0xd, 0xb8, 0, 0, 0, 0, 0, 0, 0, 0, 0, 0, 0, 2], rfl⟩)⟩⟩
    let edits : List Edit := [.swap, .setVersion ⟨9⟩, .swap, .setVersion ⟨5⟩, .swap]
    m.IsSet ∧ Edit.Exchanges m.kind edits ∧ Edit.lastVersion? edits = some ⟨5⟩ ∧
      ∃ w written, m.encode = .ok w ∧ (m.editAll edits).encode = .ok written ∧
        written = Edit.net m.kind edits w ∧
        ∃ read, decode (written.set 1 1) = .ok read ∧
          (read == (m.editAll edits).edit (.setVersion .newest)) = true := by
  intro m edits
  have set : m.IsSet := by decide
  obtain ⟨w, written, given, edited, -, net, -, -, -, -, -, -, -, back⟩ :=
    encode_editAll m set edits
  exact ⟨set, by decide, rfl, w, written, given, edited, net, back⟩

end Message

end HolePunch
