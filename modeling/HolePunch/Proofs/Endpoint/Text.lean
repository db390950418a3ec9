import HolePunch.Proofs.Address.RoundTrip
import HolePunch.Proofs.Endpoint.Equality

/-!
# Endpoints as text

Reading the text of an endpoint gives the endpoint of its socket address, or nothing if it has none
(`Endpoint.ofText?_text`). So endpoints are printed alike exactly when they are equal
(`Endpoint.text_eq_iff_beq`), and printing what was read picks one text for each endpoint
(`Endpoint.canonical?_unique`).
-/

namespace HolePunch

open Text (decimal hexNat isDigitOf)

/-! ### The characters of a printed address -/

namespace Address

/-- True of the characters in which endpoints are printed: digits and the marks around them. -/
def isPrinted (c : Char) : Bool := isDigitOf 16 c || ".:[]<unset>".toList.contains c

theorem isPrinted_of_mark : ∀ c ∈ ".:[]<unset>".toList, isPrinted c = true :=
  List.all_eq_true.mp (by decide)

@[simp] theorem isPrinted_colon : isPrinted ':' = true := isPrinted_of_mark ':' (by decide)

@[simp] theorem all_isPrinted_hexNat (n : Nat) : (hexNat n).all isPrinted = true := by
  apply List.all_eq_true.mpr
  intro c member
  have digit := Text.isDigitOf_of_mem_toDigits (show 1 < 16 by decide) (by decide) n c member
  simp [isPrinted, digit]

@[simp] theorem all_isPrinted_decimal (n : Nat) : (decimal n).all isPrinted = true := by
  apply List.all_eq_true.mpr
  intro c member
  have digit := Text.isDigitOf_sixteen_of_ten (Text.isDigitOf_of_mem_decimal n c member)
  simp [isPrinted, digit]

theorem all_isPrinted_ipv4 (ip : Ipv4) : ip.text.all isPrinted = true := by
  have dot : isPrinted '.' = true := isPrinted_of_mark '.' (by decide)
  simp [Ipv4.text, dot]

@[simp] theorem all_isPrinted_groupsText (groups : List UInt16) :
    (Ipv6.groupsText groups).all isPrinted = true := by
  cases groups with
  | nil => rfl
  | cons g later => simp [groupsText_cons, tailText, List.all_flatMap]

theorem all_isPrinted_ipv6 (ip : Ipv6) : ip.text.all isPrinted = true := by
  unfold Ipv6.text Ipv6.plainText
  split
  · have front : "::ffff:".toList.all isPrinted = true := by decide
    rw [List.all_append, front, all_isPrinted_ipv4, Bool.and_self]
  · dsimp only
    split <;> simp

theorem all_isPrinted_socketAddr (ip : Ip) (port : UInt16) :
    (SocketAddr.of ip port).text.all isPrinted = true := by
  have opening : isPrinted '[' = true := isPrinted_of_mark '[' (by decide)
  have closing : isPrinted ']' = true := isPrinted_of_mark ']' (by decide)
  cases ip with
  | v4 ip => simp [SocketAddr.of, SocketAddr.text, all_isPrinted_ipv4]
  | v6 ip => simp [SocketAddr.of, SocketAddr.text, all_isPrinted_ipv6, opening, closing]

end Address

namespace Endpoint

variable {a b e : Endpoint}

theorem socketAddr?_of_set {ip : Ip} (isIp : e.ip = some ip) :
    e.socketAddr? = some (.of ip.narrow e.port) := by
  rw [socketAddr?, isIp]
  rfl

theorem text_of_set {ip : Ip} (isIp : e.ip = some ip) :
    e.text = (SocketAddr.of ip.narrow e.port).text := by
  rw [text, socketAddr?_of_set isIp]

theorem text_of_unset (unset : e.ip = none) :
    e.text = "<unset>:".toList ++ decimal e.port.toNat := by
  rw [text, socketAddr?, unset]
  rfl

theorem isPrinted_of_mem_text (e : Endpoint) : ∀ c ∈ e.text, Address.isPrinted c = true := by
  apply List.all_eq_true.mp
  cases isIp : e.ip with
  | some ip => rw [text_of_set isIp, Address.all_isPrinted_socketAddr]
  | none =>
    have front : "<unset>:".toList.all Address.isPrinted = true := by decide
    rw [text_of_unset isIp, List.all_append, front, Address.all_isPrinted_decimal, Bool.and_self]

/-! ### Printing and reading -/

/-- An endpoint is read back from its text where to connect to; no address is read from the mark for
an address that is not set. -/
theorem ofText?_text (e : Endpoint) : ofText? e.text = e.socketAddr?.map ofSocketAddr := by
  cases isIp : e.ip with
  | some ip =>
    rw [text_of_set isIp, socketAddr?_of_set isIp, ofText?, SocketAddr.ofText?_text]
  | none =>
    have quiet : Address.Quiet ('<' :: ("unset>:".toList ++ decimal e.port.toNat)) :=
      Address.quiet_cons (by decide) (by decide) _
    have notV4 : Address.socketV4 ('<' :: ("unset>:".toList ++ decimal e.port.toNat)) = none := by
      rw [Address.socketV4, quiet.ipv4_eq_none]
      rfl
    have refused : SocketAddr.ofText? ('<' :: ("unset>:".toList ++ decimal e.port.toNat)) = none := by
      rw [SocketAddr.ofText?, notV4]
      rfl
    rw [text_of_unset isIp, socketAddr?, isIp]
    exact congrArg (Option.map ofSocketAddr) refused

theorem exists_ofText?_text (set : e.isSet = true) :
    ∃ read, ofText? e.text = some read ∧ (read == e) = true := by
  obtain ⟨addr, isAddr, same⟩ := ofSocketAddr_socketAddr? set
  exact ⟨ofSocketAddr addr, by rw [ofText?_text, isAddr, Option.map_some], same⟩

theorem isSet_of_ofText? {s : List Char} (read : ofText? s = some e) : e.isSet = true := by
  obtain ⟨addr, -, rfl⟩ := Option.map_eq_some_iff.mp read
  rfl

theorem isSet_eq_isSome_ofText? (e : Endpoint) : e.isSet = (ofText? e.text).isSome := by
  rw [ofText?_text, Option.isSome_map, socketAddr?, Option.isSome_map, isSet]

theorem beq_of_text_eq (same : a.text = b.text) : (a == b) = true := by
  have sets : a.isSet = b.isSet := by rw [isSet_eq_isSome_ofText?, same, ← isSet_eq_isSome_ofText?]
  cases set : a.isSet with
  | true =>
    obtain ⟨read, isRead, isLeft⟩ := exists_ofText?_text set
    obtain ⟨read', isRead', isRight⟩ := exists_ofText?_text (sets.symm.trans set)
    rw [same, isRead'] at isRead
    obtain rfl := Option.some.inj isRead
    exact BEq.trans (BEq.symm isLeft) isRight
  | false =>
    have noLeft := Option.isSome_eq_false_iff.mp set
    have noRight := Option.isSome_eq_false_iff.mp (sets.symm.trans set)
    rw [Option.isNone_iff_eq_none] at noLeft noRight
    rw [text_of_unset noLeft, text_of_unset noRight] at same
    have ports := Text.decimal_inj (List.append_cancel_left same)
    rw [beq_iff, octets, octets, noLeft, noRight]
    exact ⟨UInt16.toNat_inj.mp ports, rfl⟩

theorem text_eq_iff_beq : a.text = b.text ↔ (a == b) = true := by
  constructor
  · exact beq_of_text_eq
  · intro equal
    rw [← a.text_wide, ← b.text_wide, beq_iff_wide.mp equal]

/-! ### One text for each endpoint -/

/-- The text that an accepted text is printed as. -/
def canonical? (s : List Char) : Option (List Char) := (ofText? s).map text

theorem canonical?_of_canonical? {s t : List Char} (printed : canonical? s = some t) :
    canonical? t = some t := by
  obtain ⟨e, read, rfl⟩ := Option.map_eq_some_iff.mp printed
  obtain ⟨again, isAgain, same⟩ := exists_ofText?_text (isSet_of_ofText? read)
  rw [canonical?, isAgain, Option.map_some, text_eq_iff_beq.mpr same]

theorem scope_not_mem_text (e : Endpoint) : '%' ∉ e.text := by
  intro member
  exact absurd (isPrinted_of_mem_text e '%' member) (by decide)

/-- The bytes of an IPv4 address in decimal with dots between them, and the port. -/
def dotted (ip : Ipv4) (port : UInt16) : List Char :=
  ['.'].intercalate (ip.octets.map fun byte => decimal byte.toNat) ++ ':' :: decimal port.toNat

theorem text_v4 (ip : Ipv4) (port : UInt16) : text ⟨port, some (.v4 ip)⟩ = dotted ip port := by
  simp [text, socketAddr?, Ip.narrow, SocketAddr.of, SocketAddr.text, Ipv4.text, dotted, Ipv4.octets,
    List.intercalate]

/-- A set endpoint is read back from its text, and texts that are accepted stand for equal endpoints
exactly when these are printed alike. So printing what was read picks one text for each endpoint: an
IPv4 address is dotted in either form, and no scope is left. -/
theorem canonical?_unique :
    (∀ e : Endpoint, e.isSet = true → ∃ read, ofText? e.text = some read ∧ (read == e) = true) ∧
    (∀ (s t : List Char) (a b : Endpoint), ofText? s = some a → ofText? t = some b →
      (a.text = b.text ↔ (a == b) = true)) ∧
    (∀ s t : List Char, canonical? s = some t → canonical? t = some t ∧ '%' ∉ t) ∧
    (∀ (ip : Ipv4) (port : UInt16),
      text ⟨port, some (.v4 ip)⟩ = dotted ip port ∧
        text ⟨port, some (.v6 ip.widen)⟩ = dotted ip port) ∧
    ∀ (ip : Ipv6) (port : UInt16) (scope : UInt32),
      ofText? (SocketAddr.v6 ip port scope).text = some ⟨port, some (.v6 ip)⟩ := by
  refine ⟨fun e => exists_ofText?_text, fun s t a b _ _ => text_eq_iff_beq, ?_, ?_, ?_⟩
  · intro s t printed
    obtain ⟨e, -, rfl⟩ := Option.map_eq_some_iff.mp printed
    exact ⟨canonical?_of_canonical? printed, scope_not_mem_text e⟩
  · intro ip port
    have wide : wide ⟨port, some (.v4 ip)⟩ = ⟨port, some (.v6 ip.widen)⟩ := rfl
    rw [← wide, text_wide, text_v4]
    exact ⟨rfl, rfl⟩
  · intro ip port scope
    rw [ofText?, SocketAddr.ofText?_text]
    rfl

/-- The IPv6 form of an IPv4 address in capital digits, behind a scope and a port with a zero. -/
theorem canonical?_unique_respelled :
    let s := "[0:0::FFFF:C000:0207%7]:080".toList
    let t := "192.0.2.7:80".toList
    let a : Endpoint := ⟨80, some (.v6 (Ipv4.widen ⟨192, 0, 2, 7⟩))⟩
    let b : Endpoint := ⟨80, some (.v4 ⟨192, 0, 2, 7⟩)⟩
    ofText? s = some a ∧ ofText? t = some b ∧ (a.text = b.text ↔ (a == b) = true) ∧
      canonical? s = some t ∧ canonical? t = some t ∧
      a.isSet = true ∧ ∃ read, ofText? a.text = some read ∧ (read == a) = true := by
  intro s t a b
  have withScope : SocketAddr.ofText? s = some (.v6 (Ipv4.widen ⟨192, 0, 2, 7⟩) 80 7) := by
    simp only [s]
    decide +kernel
  have plain : SocketAddr.ofText? t = some (.v4 ⟨192, 0, 2, 7⟩ 80) := by
    simp only [t]
    decide +kernel
  have left : ofText? s = some a := congrArg (Option.map ofSocketAddr) withScope
  have right : ofText? t = some b := congrArg (Option.map ofSocketAddr) plain
  have printed : canonical? s = some t := by
    simp only [s, t]
    decide +kernel
  obtain ⟨restored, alike, idempotent, -⟩ := canonical?_unique
  exact ⟨left, right, alike s t a b left right, printed, (idempotent s t printed).1, rfl,
    restored a rfl⟩

end Endpoint

end HolePunch
