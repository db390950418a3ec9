import HolePunch.Proofs.Address.Numbers

/-!
# Addresses written and read

A socket address is read back from its text (`SocketAddr.ofText?_text`). An IPv6 address is put
together from what stands before and behind the zero groups that its text leaves out
(`Ipv6.split_longestZeroRun`).
-/

namespace HolePunch

open Text (EndsRun endsRun_cons)
open Text.Parse (char_cons)

namespace Ipv6

/-! ### Groups and bytes -/

theorem groupBytes_pair (high low : UInt8) :
    groupBytes (UInt16.ofNat (256 * high.toNat + low.toNat)) = [high, low] := by
  have isHigh := high.toNat_lt
  have isLow := low.toNat_lt
  have word : (UInt16.ofNat (256 * high.toNat + low.toNat)).toNat = 256 * high.toNat + low.toNat :=
    UInt16.toNat_ofNat_of_lt' (by rw [UInt16.size]; omega)
  have front : (256 * high.toNat + low.toNat) / 256 = high.toNat := by omega
  have back : UInt8.ofNat (256 * high.toNat + low.toNat) = low := by
    apply UInt8.toNat_inj.mp
    rw [UInt8.toNat_ofNat']
    omega
  rw [groupBytes, word, front, back, UInt8.ofNat_toNat]

theorem flatMap_groupBytes_pairs (n : Nat) (bytes : Bytes) (even : bytes.length = 2 * n) :
    (pairs bytes).flatMap groupBytes = bytes ∧ (pairs bytes).length = n := by
  induction n generalizing bytes with
  | zero =>
    obtain rfl := List.eq_nil_of_length_eq_zero even
    exact ⟨rfl, rfl⟩
  | succ n ih =>
    match bytes with
    | high :: low :: rest =>
      have shorter : rest.length = 2 * n := by
        simp only [List.length_cons] at even
        omega
      obtain ⟨same, length⟩ := ih rest shorter
      rw [pairs, List.flatMap_cons, groupBytes_pair, same, List.length_cons, length]
      exact ⟨rfl, rfl⟩

theorem length_groups (ip : Ipv6) : ip.groups.length = 8 :=
  (flatMap_groupBytes_pairs 8 ip.octets ip.size_octets).2

theorem ofGroups?_groups (ip : Ipv6) : ofGroups? ip.groups = some ip := by
  have same := (flatMap_groupBytes_pairs 8 ip.octets ip.size_octets).1
  have length : (ip.groups.flatMap groupBytes).length = 16 := by
    rw [groups, same, ip.size_octets]
  rw [ofGroups?, dif_pos length, Option.some.injEq]
  exact ext same

/-! ### The zero groups that are left out -/

theorem drop_eq_zeroRun (groups : List UInt16) (i : Nat) :
    groups.drop i = List.replicate (zeroRun groups i) 0 ++ groups.drop (i + zeroRun groups i) := by
  let isZero : UInt16 → Bool := (· == 0)
  have parts : (groups.drop i).takeWhile isZero ++ (groups.drop i).dropWhile isZero =
      groups.drop i := List.takeWhile_append_dropWhile
  have front : (groups.drop i).takeWhile isZero = List.replicate (zeroRun groups i) 0 := by
    rw [List.eq_replicate_iff]
    exact ⟨rfl, fun g member => beq_iff_eq.mp (List.all_eq_true.mp List.all_takeWhile g member)⟩
  have back : (groups.drop i).dropWhile isZero = groups.drop (i + zeroRun groups i) := by
    have behind := congrArg (List.drop ((groups.drop i).takeWhile isZero).length) parts
    rw [List.drop_left, List.drop_drop] at behind
    exact behind
  rw [← front, ← back, parts]

theorem longestZeroRun_spec (groups : List UInt16) :
    (longestZeroRun groups).2 = 0 ∨
      (longestZeroRun groups).2 = zeroRun groups (longestZeroRun groups).1 := by
  have kept : ∀ (places : List Nat) (best : Nat × Nat),
      best.2 = 0 ∨ best.2 = zeroRun groups best.1 →
      let found := places.foldl
        (fun best i => if best.2 < zeroRun groups i then (i, zeroRun groups i) else best) best
      found.2 = 0 ∨ found.2 = zeroRun groups found.1 := by
    intro places
    induction places with
    | nil => exact fun _ isRun => isRun
    | cons i places ih =>
      intro best isRun
      apply ih
      dsimp only
      split
      · exact .inr rfl
      · exact isRun
  exact kept (List.range groups.length) (0, 0) (.inl rfl)

/-- The groups are those before the run that is left out, its zeros, and those behind it. -/
theorem split_longestZeroRun {groups : List UInt16} {start length : Nat}
    (longest : longestZeroRun groups = (start, length)) (some : 0 < length) :
    groups = groups.take start ++ List.replicate length 0 ++ groups.drop (start + length) := by
  have isRun : length = zeroRun groups start := by
    have spec := longestZeroRun_spec groups
    rw [longest] at spec
    exact spec.resolve_left (by omega)
  calc groups = groups.take start ++ groups.drop start := (List.take_append_drop start groups).symm
    _ = groups.take start ++ (List.replicate length 0 ++ groups.drop (start + length)) := by
      rw [drop_eq_zeroRun groups start, ← isRun]
    _ = _ := (List.append_assoc ..).symm

end Ipv6

/-! ### Groups read back -/

namespace Address

/-- What stands behind the groups of an address: the gap, a scope, or the closing bracket. -/
inductive AfterGroups : List Char → Prop where
  | gap (rest : List Char) : AfterGroups (':' :: ':' :: rest)
  | scope (rest : List Char) : AfterGroups ('%' :: rest)
  | close (rest : List Char) : AfterGroups (']' :: rest)

/-- Groups with a colon in front of each. -/
def tailText (groups : List UInt16) : List Char :=
  groups.flatMap fun g => ':' :: Text.hexNat g.toNat

theorem groupsText_cons (g : UInt16) (later : List UInt16) :
    Ipv6.groupsText (g :: later) = Text.hexNat g.toNat ++ tailText later := by
  induction later generalizing g with
  | nil => simp [Ipv6.groupsText, tailText, List.intercalate]
  | cons h later ih =>
    have next := ih h
    simp only [Ipv6.groupsText, List.map_cons, List.intercalate, List.intersperse_cons_cons,
      List.flatten_cons, tailText, List.flatMap_cons] at next ⊢
    rw [next]
    rfl

/-- Where a run of groups may end stands no dot and no digit. -/
structure Quiet (rest : List Char) : Prop where
  noDot : rest.head? ≠ some '.'
  noDigit : EndsRun (Text.isDigitOf 16) rest

theorem quiet_cons {c : Char} (noDot : c ≠ '.') (noDigit : Text.isDigitOf 16 c = false)
    (rest : List Char) : Quiet (c :: rest) where
  noDot := fun dot => noDot (Option.some.inj dot)
  noDigit := endsRun_cons noDigit rest

theorem quiet_colon (rest : List Char) : Quiet (':' :: rest) := quiet_cons (by decide) (by decide) rest

namespace Quiet

variable {rest : List Char}

theorem ipv4_eq_none (quiet : Quiet rest) : ipv4 rest = none := by
  have none : number octetForm 256 rest = none := number_eq_none quiet.noDigit.decimal
  rw [ipv4, octet, none]
  rfl

theorem group_eq_none (quiet : Quiet rest) : group rest = none := by
  rw [group, number_eq_none quiet.noDigit]
  rfl

end Quiet

namespace AfterGroups

variable {rest : List Char}

theorem quiet (after : AfterGroups rest) : Quiet rest := by
  cases after with
  | gap rest => exact quiet_colon _
  | scope rest => exact quiet_cons (by decide) (by decide) rest
  | close rest => exact quiet_cons (by decide) (by decide) rest

theorem quiet_tailText (after : AfterGroups rest) (groups : List UInt16) :
    Quiet (tailText groups ++ rest) := by
  cases groups with
  | nil => exact after.quiet
  | cons g later => exact quiet_colon _

/-- Neither another group nor an IPv4 address follows. -/
theorem separated_eq_none (after : AfterGroups rest) :
    separated ':' false ipv4 rest = none ∧ separated ':' false group rest = none := by
  cases after with
  | gap rest =>
    have quiet := quiet_colon rest
    rw [separated_cons, separated_cons]
    exact ⟨quiet.ipv4_eq_none, quiet.group_eq_none⟩
  | scope rest => exact ⟨rfl, rfl⟩
  | close rest => exact ⟨rfl, rfl⟩

end AfterGroups

theorem groups_stop {first : Bool} {s : List Char} (noIpv4 : separated ':' first ipv4 s = none)
    (noGroup : separated ':' first group s = none) (limit : Nat) :
    groups limit first s = (⟨[], false⟩, s) := by
  cases limit with
  | zero => rfl
  | succ limit =>
    rw [groups, noIpv4, noGroup, ite_self]

theorem groups_step {first : Bool} {s after : List Char} {g : UInt16} {limit : Nat}
    (noIpv4 : separated ':' first ipv4 s = none)
    (read : separated ':' first group s = some (g, after)) :
    groups (limit + 1) first s =
      let (run, rest) := groups limit false after
      (⟨g :: run.groups, run.endsInIpv4⟩, rest) := by
  rw [groups, noIpv4, read, ite_self]

theorem groups_tailText (later : List UInt16) {limit : Nat} {rest : List Char}
    (fits : later.length ≤ limit) (after : AfterGroups rest) :
    groups limit false (tailText later ++ rest) = (⟨later, false⟩, rest) := by
  induction later generalizing limit with
  | nil => exact groups_stop after.separated_eq_none.1 after.separated_eq_none.2 limit
  | cons g later ih =>
    have quiet := after.quiet_tailText later
    have text : tailText (g :: later) ++ rest =
        ':' :: (Text.hexNat g.toNat ++ (tailText later ++ rest)) := by
      simp only [tailText, List.flatMap_cons, List.cons_append, List.append_assoc]
    have noIpv4 := ipv4_hexNat_eq_none g.toNat quiet.noDot quiet.noDigit
    have read := group_text g quiet.noDigit
    match limit with
    | limit + 1 =>
      rw [text, groups_step ((separated_cons ..).trans noIpv4) ((separated_cons ..).trans read),
        ih (Nat.le_of_succ_le_succ fits)]

/-- Groups between colons are read to their end. -/
theorem groups_groupsText (run : List UInt16) {limit : Nat} {rest : List Char}
    (fits : run.length ≤ limit) (after : AfterGroups rest) :
    groups limit true (Ipv6.groupsText run ++ rest) = (⟨run, false⟩, rest) := by
  cases run with
  | nil =>
    have noIpv4 : separated ':' true ipv4 rest = none := after.quiet.ipv4_eq_none
    exact groups_stop noIpv4 after.quiet.group_eq_none limit
  | cons g later =>
    have quiet := after.quiet_tailText later
    have noIpv4 : separated ':' true ipv4 (Text.hexNat g.toNat ++ (tailText later ++ rest)) = none :=
      ipv4_hexNat_eq_none g.toNat quiet.noDot quiet.noDigit
    match limit with
    | limit + 1 =>
      rw [groupsText_cons, List.append_assoc, groups_step noIpv4 (group_text g quiet.noDigit),
        groups_tailText later (Nat.le_of_succ_le_succ fits) after]

/-! ### Addresses -/

/-- The gap in an address stands for the zero groups that are left out. -/
theorem ipv6_gap {ip : Ipv6} {front back : List UInt16} {dotted : Bool} {zeros : Nat}
    {s after rest : List Char} (gap : 0 < zeros)
    (isFront : groups 8 true s = (⟨front, false⟩, ':' :: ':' :: after))
    (isBack : groups (7 - front.length) true after = (⟨back, dotted⟩, rest))
    (same : ip.groups = front ++ List.replicate zeros 0 ++ back) : ipv6 s = some (ip, rest) := by
  have length := ip.length_groups
  rw [same, List.length_append, List.length_append, List.length_replicate] at length
  have missing : 8 - front.length - back.length = zeros := by omega
  have short : front.length ≠ 8 := by omega
  have whole : Ipv6.ofGroups? (front ++ List.replicate zeros 0 ++ back) = some ip := by
    rw [← same, Ipv6.ofGroups?_groups]
  simp only [ipv6, isFront, if_neg short, Bool.false_eq_true, if_false, char_cons, bind,
    Option.bind_some, isBack, missing, whole]
  rfl

theorem ipv6_plainText (ip : Ipv6) {rest : List Char} (after : AfterGroups rest) :
    ipv6 (Ipv6.plainText ip.groups ++ rest) = some (ip, rest) := by
  have eight := ip.length_groups
  cases longest : Ipv6.longestZeroRun ip.groups with
  | mk start length =>
    simp only [Ipv6.plainText, longest]
    split
    · next long =>
      have same := Ipv6.split_longestZeroRun longest (by omega)
      have total := congrArg List.length same
      rw [List.length_append, List.length_append, List.length_replicate, eight] at total
      have shortFront : (ip.groups.take start).length ≤ 8 := by omega
      have shortBack : (ip.groups.drop (start + length)).length ≤
          7 - (ip.groups.take start).length := by omega
      rw [List.append_assoc]
      exact ipv6_gap (by omega) (groups_groupsText _ shortFront (.gap _))
        (groups_groupsText _ shortBack after) same
    · have all := groups_groupsText ip.groups (Nat.le_of_eq eight) after
      simp only [ipv6, all, eight, if_true, Ipv6.ofGroups?_groups, Option.map_some]

theorem ipv6_widened (ip : Ipv4) {rest : List Char} (after : AfterGroups rest) :
    ipv6 ("::ffff:".toList ++ ip.text ++ rest) = some (ip.widen, rest) := by
  have mark : Text.hexNat (0xffff : UInt16).toNat = "ffff".toList := by decide
  have quiet := quiet_colon (ip.text ++ rest)
  have noIpv4 : separated ':' true ipv4 ("ffff:".toList ++ (ip.text ++ rest)) = none := by
    have none := ipv4_hexNat_eq_none (0xffff : UInt16).toNat quiet.noDot quiet.noDigit
    rwa [mark] at none
  have read : separated ':' true group ("ffff:".toList ++ (ip.text ++ rest)) =
      some (0xffff, ':' :: (ip.text ++ rest)) := by
    have found := group_text 0xffff quiet.noDigit
    rwa [mark] at found
  have last : groups 6 false (':' :: (ip.text ++ rest)) = (⟨groupsOfIpv4 ip, true⟩, rest) := by
    rw [groups, separated_cons, ipv4_text ip after.quiet.noDigit.decimal]
    rfl
  have isBack : groups 7 true ("ffff:".toList ++ (ip.text ++ rest)) =
      (⟨0xffff :: groupsOfIpv4 ip, true⟩, rest) := by
    rw [groups_step noIpv4 read, last]
  have noFront := quiet_colon (':' :: ("ffff:".toList ++ (ip.text ++ rest)))
  have front : separated ':' true ipv4 (':' :: ':' :: ("ffff:".toList ++ (ip.text ++ rest))) = none :=
    noFront.ipv4_eq_none
  have same : ip.widen.groups = [] ++ List.replicate 5 0 ++ 0xffff :: groupsOfIpv4 ip := rfl
  rw [List.append_assoc]
  exact ipv6_gap (by decide) (groups_stop front noFront.group_eq_none 8) isBack same

theorem ipv6_text (ip : Ipv6) {rest : List Char} (after : AfterGroups rest) :
    ipv6 (ip.text ++ rest) = some (ip, rest) := by
  rw [Ipv6.text]
  cases narrow : ip.narrow? with
  | none => exact ipv6_plainText ip after
  | some v4 =>
    obtain rfl := Ipv6.narrow?_eq_some_iff.mp narrow
    exact ipv6_widened v4 after

end Address

/-! ### Socket addresses -/

open Address

theorem SocketAddr.ofText?_v4 (ip : Ipv4) (port : UInt16) :
    ofText? (v4 ip port).text = some (v4 ip port) := by
  have ends : EndsRun (Text.isDigitOf 10) (':' :: Text.decimal port.toNat) :=
    endsRun_cons (by decide) _
  have read : socketV4 (v4 ip port).text = some (v4 ip port, []) := by
    simp only [socketV4, text, ipv4_text ip ends, bind, Option.bind_some, port_text port]
    rfl
  rw [ofText?, read]
  rfl

theorem socketV6_text (ip : Ipv6) (port : UInt16) (zone : UInt32) :
    socketV6 (SocketAddr.v6 ip port zone).text = some (.v6 ip port zone, []) := by
  have ends : EndsRun (Text.isDigitOf 10) (']' :: ':' :: Text.decimal port.toNat) :=
    endsRun_cons (by decide) _
  by_cases none : zone = 0
  · subst zone
    have read := ipv6_text ip (.close (':' :: Text.decimal port.toNat))
    have noScope : scope (']' :: ':' :: Text.decimal port.toNat) = none := rfl
    simp only [socketV6, SocketAddr.text, if_true, List.append_nil, List.cons_append, char_cons,
      bind, Option.bind_some, read, noScope, Option.getD_none, port_text port]
    rfl
  · have read := ipv6_text ip
      (.scope (Text.decimal zone.toNat ++ ']' :: ':' :: Text.decimal port.toNat))
    have isScope := scope_text zone ends
    rw [List.cons_append] at isScope
    simp only [socketV6, SocketAddr.text, if_neg none, List.cons_append, List.append_assoc,
      char_cons, bind, Option.bind_some, read, isScope, Option.getD_some, port_text port]
    rfl

/-- A socket address is read back from its text. -/
theorem SocketAddr.ofText?_text (addr : SocketAddr) : ofText? addr.text = some addr := by
  cases addr with
  | v4 ip port => exact ofText?_v4 ip port
  | v6 ip port zone =>
    have quiet : Quiet (v6 ip port zone).text := by
      simp only [text, List.cons_append]
      exact quiet_cons (by decide) (by decide) _
    have notV4 : socketV4 (v6 ip port zone).text = none := by
      rw [socketV4, quiet.ipv4_eq_none]
      rfl
    rw [ofText?, notV4]
    simp only [Text.Parse.whole, socketV6_text]

end HolePunch
