import Torlane.Net.Parser

/-!
# Addresses are read back

The readers of `std::net` read what its formatters print. A text that follows a printed address
must not go on with a character that belongs to it (`Ends`).
-/

namespace Torlane

open Text

/-! ## Numbers -/

section Numbers

variable {radix n : ℕ} {rest : Text}

/-- A character that is no hexadecimal digit is no digit of a smaller radix. -/
theorem toDigit_eq_none {c : Char} (h : isHexDigit c = false) : toDigit radix c = none := by
  have hnone : hexValue c = none := by simpa [isHexDigit] using h
  unfold toDigit
  rw [hnone]
  rfl

/-- The digits at the front of a text are those of a number, if no digit follows it. -/
theorem takeWhile_toDigits (hradix : 1 < radix) (hmax : radix ≤ 16)
    (hrest : ∀ c ∈ rest.head?, toDigit radix c = none) :
    (Nat.toDigits radix n ++ rest).takeWhile (fun c => (toDigit radix c).isSome) =
        Nat.toDigits radix n ∧
      (Nat.toDigits radix n ++ rest).dropWhile (fun c => (toDigit radix c).isSome) = rest := by
  have hdigits : ∀ c ∈ Nat.toDigits radix n, (toDigit radix c).isSome :=
    isSome_of_mem_toDigits hradix hmax
  rw [List.takeWhile_append_of_pos hdigits, List.dropWhile_append_of_pos hdigits]
  cases rest with
  | nil => simp
  | cons c rest =>
    have hc : toDigit radix c = none := hrest c rfl
    simp [hc]

/-- A printed number is read back, if no digit follows it. -/
theorem readNumber_toDigits {max : ℕ} {maxDigits : Option ℕ} {allowZeroPrefix : Bool}
    (hradix : 1 < radix) (hmax : radix ≤ 16) (hn : n ≤ max)
    (hdigits : ∀ k ∈ maxDigits, (Nat.toDigits radix n).length ≤ k)
    (hrest : ∀ c ∈ rest.head?, toDigit radix c = none) :
    readNumber radix max maxDigits allowZeroPrefix (Nat.toDigits radix n ++ rest) =
      some (n, rest) := by
  obtain ⟨htake, hdrop⟩ := takeWhile_toDigits (n := n) hradix hmax hrest
  have hmany : maxDigits.any (· < (Nat.toDigits radix n).length) = false := by
    cases maxDigits with
    | none => rfl
    | some k => simpa using hdigits k rfl
  have hzero : ¬ (¬ allowZeroPrefix = true ∧ (Nat.toDigits radix n).head? = some '0' ∧
      1 < (Nat.toDigits radix n).length) := by
    rintro ⟨-, hhead, hlength⟩
    obtain rfl : n = 0 := Classical.byContradiction fun h => head?_toDigits hradix hmax h hhead
    rw [Nat.toDigits_zero] at hlength
    exact Nat.lt_irrefl _ hlength
  simp only [readNumber, htake, hdrop, spelledNumber_toDigits hradix hmax]
  rw [if_neg Nat.toDigits_ne_nil, hmany, if_neg (by simp), if_neg hzero, if_neg (by omega)]

end Numbers

/-! ## IPv4 -/

/-- An IPv4 address is made of four numbers. -/
theorem Ipv4Addr.exists_octets (addr : Ipv4Addr) : ∃ a b c d, addr = ⟨#v[a, b, c, d]⟩ := by
  obtain ⟨⟨⟨octets⟩, hsize⟩⟩ := addr
  match octets, hsize with
  | [a, b, c, d], _ => exact ⟨a, b, c, d, rfl⟩

/-- The numbers of an IPv4 address, with dots between them. -/
theorem display_octets (a b c d : UInt8) : Ipv4Addr.display ⟨#v[a, b, c, d]⟩ =
    decimal a.toNat ++ '.' :: (decimal b.toNat ++ '.' :: (decimal c.toNat ++
      '.' :: decimal d.toNat)) := by
  unfold Ipv4Addr.display
  simp [List.intercalate, List.intersperse]

/-- A number of an IPv4 address is read back. -/
theorem readOctet_decimal (octet : UInt8) {rest : Text}
    (hrest : ∀ c ∈ rest.head?, toDigit 10 c = none) :
    readOctet (decimal octet.toNat ++ rest) = some (octet, rest) := by
  have hlt : octet.toNat < 256 := octet.toNat_lt
  have hread : readNumber 10 255 (some 3) false (decimal octet.toNat ++ rest) =
      some (octet.toNat, rest) := by
    refine readNumber_toDigits (by decide) (by decide) (by omega) ?_ hrest
    rintro k ⟨⟩
    exact (Nat.length_toDigits_le_iff (by decide) (by decide)).mpr (by omega)
  unfold readOctet
  rw [hread, Option.map_some]
  show some (UInt8.ofNat octet.toNat, rest) = _
  rw [UInt8.ofNat_toNat]

/-- A printed IPv4 address is read back. -/
theorem readIpv4Addr_display (addr : Ipv4Addr) {rest : Text}
    (hrest : ∀ c ∈ rest.head?, toDigit 10 c = none) :
    readIpv4Addr (addr.display ++ rest) = some (addr, rest) := by
  obtain ⟨a, b, c, d, rfl⟩ := addr.exists_octets
  have hdot (text : Text) : ∀ c ∈ ('.' :: text).head?, toDigit 10 c = none := by
    rintro c ⟨⟩
    decide
  have hskip (text : Text) : readGivenChar '.' ('.' :: text) = some text := rfl
  rw [display_octets]
  simp only [List.append_assoc, List.cons_append]
  unfold readIpv4Addr
  simp only [readOctet_decimal a (hdot _), hskip, Option.bind_eq_bind, Option.bind_some,
    readOctet_decimal b (hdot _), readOctet_decimal c (hdot _), readOctet_decimal d hrest]
  rfl

/-! ## Groups -/

/-- A text that does not go on with a digit or with a dot. -/
def NoDigit (rest : Text) : Prop := ∀ c ∈ rest.head?, isHexDigit c = false ∧ c ≠ '.'

/-- A text that does not go on with another group: neither with a digit or a dot, nor with a colon
and a digit. -/
structure Ends (rest : Text) : Prop where
  noDigit : NoDigit rest
  noGroup : ∀ text, rest = ':' :: text → NoDigit text

/-- A text starts with no digit if its first character is none. -/
theorem noDigit_cons {c : Char} {text : Text} (h : isHexDigit c = false ∧ c ≠ '.') :
    NoDigit (c :: text) := by
  rintro d ⟨⟩
  exact h

/-- A text that starts with another character than a digit, a dot, or a colon. -/
theorem ends_cons {c : Char} {text : Text} (h : isHexDigit c = false ∧ c ≠ '.') (hcolon : c ≠ ':') :
    Ends (c :: text) :=
  ⟨noDigit_cons h, fun _ heq => absurd (List.cons.inj heq).1 hcolon⟩

/-- Two colons do not go on with a group. -/
theorem ends_colons (text : Text) : Ends (':' :: ':' :: text) := by
  refine ⟨noDigit_cons (by decide), ?_⟩
  rintro _ ⟨⟩
  exact noDigit_cons (by decide)

/-- No number is read where there is no digit. -/
theorem readNumber_eq_none {radix max : ℕ} {maxDigits : Option ℕ} {allowZeroPrefix : Bool}
    {text : Text} (h : NoDigit text) :
    readNumber radix max maxDigits allowZeroPrefix text = none := by
  have hnone : text.takeWhile (fun c => (toDigit radix c).isSome) = [] := by
    cases text with
    | nil => rfl
    | cons c text =>
      have hc : toDigit radix c = none := toDigit_eq_none (h c rfl).1
      simp [hc]
  simp only [readNumber, hnone, if_true]

/-- No group is read where there is no digit. -/
theorem readGroup_eq_none {text : Text} (h : NoDigit text) : readGroup text = none := by
  unfold readGroup
  rw [readNumber_eq_none h]
  rfl

/-- No IPv4 address is read where the first number does not end in a dot. -/
theorem readIpv4Addr_eq_none {text : Text}
    (h : (text.dropWhile fun c => (toDigit 10 c).isSome).head? ≠ some '.') :
    readIpv4Addr text = none := by
  unfold readIpv4Addr
  cases hoctet : readOctet text with
  | none => rfl
  | some read =>
    obtain ⟨a, rest⟩ := read
    have hrest : rest = text.dropWhile fun c => (toDigit 10 c).isSome := by
      unfold readOctet at hoctet
      obtain ⟨⟨n, rest'⟩, hread, heq⟩ := Option.map_eq_some_iff.mp hoctet
      simp only [readNumber] at hread
      split_ifs at hread
      rw [← (Prod.mk.inj heq).2, ← (Prod.mk.inj (Option.some.inj hread)).2]
    have hdot : readGivenChar '.' rest = none := by
      rw [hrest]
      cases hdrop : text.dropWhile fun c => (toDigit 10 c).isSome with
      | nil => rfl
      | cons c cs =>
        rw [hdrop] at h
        exact if_neg fun hc => h (by rw [hc]; rfl)
    simp [hdot]

/-- A printed group is not taken for the start of an IPv4 address. -/
theorem readIpv4Addr_hexadecimal (n : ℕ) {rest : Text} (h : NoDigit rest) :
    readIpv4Addr (hexadecimal n ++ rest) = none := by
  have hgroup : ∀ c ∈ hexadecimal n, c ≠ '.' := by
    rintro c hc rfl
    have := isSome_of_mem_toDigits (by decide) (by decide) '.' hc
    exact absurd this (by decide)
  have hrest : rest.dropWhile (fun c => (toDigit 10 c).isSome) = rest := by
    cases rest with
    | nil => rfl
    | cons c rest =>
      have hc : toDigit 10 c = none := toDigit_eq_none (h c rfl).1
      simp [hc]
  refine readIpv4Addr_eq_none fun hhead => ?_
  rw [List.dropWhile_append, hrest] at hhead
  split_ifs at hhead with hempty
  · exact (h '.' hhead).2 rfl
  · have hmem : '.' ∈ hexadecimal n := by
      rw [List.head?_append_of_ne_nil _ (by simpa using hempty)] at hhead
      exact (List.dropWhile_suffix _).subset (List.mem_of_mem_head? hhead)
    exact hgroup '.' hmem rfl

/-- A printed group is read back. -/
theorem readGroup_hexadecimal (group : UInt16) {rest : Text} (h : NoDigit rest) :
    readGroup (hexadecimal group.toNat ++ rest) = some (group, rest) := by
  have hlt : group.toNat < 65536 := group.toNat_lt
  have hread : readNumber 16 65535 (some 4) true (hexadecimal group.toNat ++ rest) =
      some (group.toNat, rest) := by
    refine readNumber_toDigits (by decide) (by decide) (by omega) ?_
      fun c hc => toDigit_eq_none (h c hc).1
    rintro k ⟨⟩
    exact (Nat.length_toDigits_le_iff (by decide) (by decide)).mpr (by omega)
  unfold readGroup
  rw [hread, Option.map_some]
  show some (UInt16.ofNat group.toNat, rest) = _
  rw [UInt16.ofNat_toNat]

/-- No IPv4 address is read where there is no digit. -/
theorem readIpv4Addr_of_noDigit {text : Text} (h : NoDigit text) : readIpv4Addr text = none := by
  unfold readIpv4Addr readOctet
  rw [readNumber_eq_none h]
  rfl

/-- Nothing is read where no group follows. -/
theorem readGroups_of_ends (limit : ℕ) (first : Bool) {rest : Text} (h : Ends rest) :
    readGroups limit first rest = ([], false, rest) := by
  cases limit with
  | zero => rfl
  | succ limit =>
    have hnone {α : Type} {read : Text → Option α}
        (hread : ∀ text, NoDigit text → read text = none) :
        (readSeparator first rest).bind read = none := by
      cases first with
      | true => exact hread rest h.noDigit
      | false =>
        cases rest with
        | nil => rfl
        | cons c text =>
          by_cases hc : c = ':'
          · subst hc
            exact hread text (h.noGroup text rfl)
          · have hskip : readSeparator false (c :: text) = none := if_neg hc
            rw [hskip]
            rfl
    simp only [readGroups, hnone fun _ => readIpv4Addr_of_noDigit, hnone fun _ => readGroup_eq_none,
      ite_self]

/-- One group is read, and the readers go on behind it. -/
theorem readGroups_group (limit : ℕ) {first : Bool} {text rest : Text} (group : UInt16)
    (htext : readSeparator first text = some (hexadecimal group.toNat ++ rest))
    (hrest : NoDigit rest) :
    readGroups (limit + 1) first text =
      (group :: (readGroups limit false rest).1, (readGroups limit false rest).2) := by
  simp only [readGroups, htext, Option.bind_some, readIpv4Addr_hexadecimal _ hrest,
    readGroup_hexadecimal _ hrest, ite_self]

/-- A group ends where the next one starts. -/
theorem noDigit_flatMap {rest : Text} (h : NoDigit rest) (groups : List UInt16) :
    NoDigit (groups.flatMap (fun group => ':' :: hexadecimal group.toNat) ++ rest) := by
  cases groups with
  | nil => exact h
  | cons group groups => exact noDigit_cons (by decide)

/-- Groups with a colon before each are read back. -/
theorem readGroups_flatMap {limit : ℕ} {groups : List UInt16} {rest : Text}
    (hlimit : groups.length ≤ limit) (h : Ends rest) :
    readGroups limit false (groups.flatMap (fun group => ':' :: hexadecimal group.toNat) ++ rest) =
      (groups, false, rest) := by
  induction groups generalizing limit with
  | nil => exact readGroups_of_ends limit false h
  | cons group groups ih =>
    obtain ⟨limit, rfl⟩ : ∃ n, limit = n + 1 := ⟨limit - 1, by simp at hlimit; omega⟩
    have hlength : groups.length ≤ limit := by simpa using hlimit
    have htext : readSeparator false
        ((group :: groups).flatMap (fun group => ':' :: hexadecimal group.toNat) ++ rest) =
          some (hexadecimal group.toNat ++
            (groups.flatMap (fun group => ':' :: hexadecimal group.toNat) ++ rest)) := by
      rw [List.flatMap_cons, List.append_assoc]
      rfl
    rw [readGroups_group limit group htext (noDigit_flatMap h.noDigit groups), ih hlength]

/-- Printed groups are read back. -/
theorem readGroups_displaySegments {limit : ℕ} {groups : List UInt16} {rest : Text}
    (hlimit : groups.length ≤ limit) (h : Ends rest) :
    readGroups limit true (displaySegments groups ++ rest) = (groups, false, rest) := by
  cases groups with
  | nil => exact readGroups_of_ends limit true h
  | cons group groups =>
    obtain ⟨limit, rfl⟩ : ∃ n, limit = n + 1 := ⟨limit - 1, by simp at hlimit; omega⟩
    have hlength : groups.length ≤ limit := by simpa using hlimit
    have htext : displaySegments (group :: groups) ++ rest = hexadecimal group.toNat ++
        (groups.flatMap (fun group => ':' :: hexadecimal group.toNat) ++ rest) := by
      unfold displaySegments
      rw [List.map_cons, intercalate_cons, List.flatMap_map, List.append_assoc]
    rw [htext, readGroups_group limit group rfl (noDigit_flatMap h.noDigit groups),
      readGroups_flatMap hlength h]

/-! ## The run of zeros -/

/-- The segments from a position on, as many as the run is long, are zero. -/
def ZeroRun (segments : List UInt16) (run : ℕ × ℕ) : Prop :=
  run.1 + run.2 ≤ segments.length ∧ ∀ j, run.1 ≤ j → j < run.1 + run.2 → segments[j]? = some 0

/-- What is found is a run of zeros. -/
theorem zeroRun_longestZeros {segments rest : List UInt16} {i : ℕ} {current longest : ℕ × ℕ}
    (hrest : segments.drop i = rest) (hcurrent : ZeroRun segments current)
    (hend : current.2 ≠ 0 → current.1 + current.2 = i) (hlongest : ZeroRun segments longest) :
    ZeroRun segments (longestZeros i current longest rest) := by
  induction rest generalizing i current longest with
  | nil => exact hlongest
  | cons segment rest ih =>
    have hget : segments[i]? = some segment := by
      have hhead := congrArg List.head? hrest
      simpa using hhead
    have hlt : i < segments.length := (List.getElem?_eq_some_iff.mp hget).1
    have hdrop : segments.drop (i + 1) = rest := by
      rw [← List.tail_drop, hrest, List.tail_cons]
    by_cases hzero : segment = 0
    · -- The current run goes on, or starts here.
      obtain ⟨next, hnext⟩ : ∃ next : ℕ × ℕ,
          next = (if current.2 = 0 then i else current.1, current.2 + 1) := ⟨_, rfl⟩
      have hstart : next.1 + current.2 = i ∧ next.2 = current.2 + 1 := by
        rw [hnext]
        refine ⟨?_, rfl⟩
        split_ifs with hnone
        · rw [hnone, Nat.add_zero]
        · exact hend hnone
      have hrun : ZeroRun segments next := by
        refine ⟨by omega, fun j hle hlt => ?_⟩
        by_cases hj : j = i
        · rw [hj, hget, hzero]
        · -- An earlier position is one of the run that ends here.
          have hne : current.2 ≠ 0 := by omega
          have hend' := hend hne
          exact hcurrent.2 j (by omega) (by omega)
      have hstep : longestZeros i current longest (segment :: rest) =
          longestZeros (i + 1) next (if longest.2 < next.2 then next else longest) rest := by
        rw [longestZeros, if_pos hzero, hnext]
      rw [hstep]
      refine ih hdrop hrun (fun _ => by omega) ?_
      split_ifs
      · exact hrun
      · exact hlongest
    · rw [longestZeros, if_neg hzero]
      exact ih hdrop ⟨Nat.zero_le _, fun j _ hlt => absurd hlt (Nat.not_lt_zero j)⟩ (by simp)
        hlongest

/-- The segments are put together again from those before the run, zeros, and those behind it. -/
theorem ZeroRun.eq_append {segments : List UInt16} {run : ℕ × ℕ} (h : ZeroRun segments run) :
    segments = segments.take run.1 ++ List.replicate run.2 0 ++ segments.drop (run.1 + run.2) := by
  have hzeros : (segments.drop run.1).take run.2 = List.replicate run.2 0 := by
    refine List.eq_replicate_iff.mpr ⟨?_, fun segment hmem => ?_⟩
    · have hle := h.1
      rw [List.length_take, List.length_drop]
      omega
    · obtain ⟨j, hj⟩ := List.getElem?_of_mem hmem
      rw [List.getElem?_take, List.getElem?_drop] at hj
      split_ifs at hj with hlt
      rw [h.2 (run.1 + j) (by omega) (by omega)] at hj
      exact (Option.some.inj hj).symm
  calc segments = segments.take run.1 ++ segments.drop run.1 := (List.take_append_drop _ _).symm
    _ = segments.take run.1 ++ ((segments.drop run.1).take run.2 ++
          (segments.drop run.1).drop run.2) := by rw [List.take_append_drop run.2]
    _ = segments.take run.1 ++ List.replicate run.2 0 ++ segments.drop (run.1 + run.2) := by
        rw [hzeros, List.drop_drop, List.append_assoc]

/-! ## IPv6 -/

/-- The address is made of its segments. -/
theorem Ipv6Addr.ofGroups_toList (addr : Ipv6Addr) :
    Ipv6Addr.ofGroups addr.segments.toList = addr := by
  have hsegments :
      (Vector.ofFn fun i : Fin 8 => addr.segments.toList.getD i 0) = addr.segments := by
    ext i hi
    simp
  unfold ofGroups
  rw [hsegments]

/-- The two bytes of a segment are put together again. -/
theorem fromBeBytes_toUInt8 (segment : UInt16) :
    fromBeBytes (segment >>> 8).toUInt8 segment.toUInt8 = segment := by
  have hlt : segment.toNat < 65536 := segment.toNat_lt
  have hhigh : (segment >>> 8).toUInt8.toNat = segment.toNat / 256 := by
    have hshift : (segment >>> 8).toNat = segment.toNat / 256 := by
      rw [UInt16.toNat_shiftRight, Nat.shiftRight_eq_div_pow]
      rfl
    rw [UInt16.toNat_toUInt8, hshift]
    omega
  have hlow : segment.toUInt8.toNat = segment.toNat % 256 := by simp
  unfold fromBeBytes
  rw [hhigh, hlow, Nat.div_add_mod', UInt16.ofNat_toNat]

/-- An IPv4 address is read in the places of two groups. -/
theorem readGroups_ipv4 (limit : ℕ) (addr : Ipv4Addr) {rest : Text}
    (hrest : ∀ c ∈ rest.head?, toDigit 10 c = none) :
    readGroups (limit + 2) false (':' :: (addr.display ++ rest)) =
      ([fromBeBytes (addr.octets.get 0) (addr.octets.get 1),
        fromBeBytes (addr.octets.get 2) (addr.octets.get 3)], true, rest) := by
  have hread : (readSeparator false (':' :: (addr.display ++ rest))).bind readIpv4Addr =
      some (addr, rest) := readIpv4Addr_display addr hrest
  rw [readGroups, if_pos (Nat.succ_pos limit), hread]

/-- The groups before two colons and those behind them, with zeros between them. -/
theorem readIpv6Addr_of_colons {text middle rest : Text} {head tail : List UInt16} {ipv4 : Bool}
    (hhead : readGroups 8 true text = (head, false, ':' :: ':' :: middle))
    (hlength : head.length ≠ 8)
    (htail : readGroups (7 - head.length) true middle = (tail, ipv4, rest)) :
    readIpv6Addr text = some
      (.ofGroups (head ++ List.replicate (8 - head.length - tail.length) 0 ++ tail), rest) := by
  have hcolon (text : Text) : readGivenChar ':' (':' :: text) = some text := rfl
  unfold readIpv6Addr
  simp only [hhead, if_neg hlength, hcolon, Option.bind_eq_bind, Option.bind_some, htail]
  rfl

/-- An IPv4-mapped address is read back. -/
theorem readIpv6Addr_mapped (ab cd : UInt16) {rest : Text}
    (hrest : ∀ c ∈ rest.head?, toDigit 10 c = none) :
    readIpv6Addr ("::ffff:".toList ++ Ipv4Addr.display
      ⟨#v[(ab >>> 8).toUInt8, ab.toUInt8, (cd >>> 8).toUInt8, cd.toUInt8]⟩ ++ rest) =
        some (.ofGroups [0, 0, 0, 0, 0, 0xffff, ab, cd], rest) := by
  have htext (text : Text) : "::ffff:".toList ++ text ++ rest =
      ':' :: ':' :: (hexadecimal (0xffff : UInt16).toNat ++ ':' :: (text ++ rest)) := rfl
  have hpair : [fromBeBytes (ab >>> 8).toUInt8 ab.toUInt8,
      fromBeBytes (cd >>> 8).toUInt8 cd.toUInt8] = [ab, cd] := by
    rw [fromBeBytes_toUInt8, fromBeBytes_toUInt8]
  have htail := (readGroups_ipv4 4
    ⟨#v[(ab >>> 8).toUInt8, ab.toUInt8, (cd >>> 8).toUInt8, cd.toUInt8]⟩ hrest).trans
      (congrArg (·, true, rest) hpair)
  have hgroups (text : Text) :=
    @readGroups_group 6 true _ _ 0xffff rfl (@noDigit_cons ':' text (by decide))
  have hread := readIpv6Addr_of_colons (readGroups_of_ends 8 true (ends_colons _)) (by decide)
    ((hgroups _).trans (by rw [htail]))
  rw [htext, hread]
  rfl

/-- A printed IPv6 address is read back. -/
theorem readIpv6Addr_display (addr : Ipv6Addr) {rest : Text} (h : Ends rest) :
    readIpv6Addr (addr.display ++ rest) = some (addr, rest) := by
  have hlength : addr.segments.toList.length = 8 := Vector.length_toList
  unfold Ipv6Addr.display
  split
  · next ab cd hsegments =>
    rw [readIpv6Addr_mapped ab cd fun c hc => toDigit_eq_none (h.noDigit c hc).1, ← hsegments,
      addr.ofGroups_toList]
  · obtain ⟨zeros, hzeros⟩ : ∃ zeros, zeros = longestZeros 0 (0, 0) (0, 0) addr.segments.toList :=
      ⟨_, rfl⟩
    have hrun : ZeroRun addr.segments.toList zeros := by
      have hnone : ZeroRun addr.segments.toList (0, 0) :=
        ⟨Nat.zero_le _, fun j _ hlt => absurd hlt (Nat.not_lt_zero j)⟩
      rw [hzeros]
      exact zeroRun_longestZeros List.drop_zero hnone (by simp) hnone
    rw [← hzeros]
    by_cases hlong : 1 < zeros.2
    · have hle : zeros.1 + zeros.2 ≤ 8 := hlength ▸ hrun.1
      have hhead : (addr.segments.toList.take zeros.1).length = zeros.1 := by
        rw [List.length_take]
        omega
      have htail : (addr.segments.toList.drop (zeros.1 + zeros.2)).length =
          8 - (zeros.1 + zeros.2) := by
        rw [List.length_drop, hlength]
      have htext : displaySegments (addr.segments.toList.take zeros.1) ++ "::".toList ++
          displaySegments (addr.segments.toList.drop (zeros.1 + zeros.2)) ++ rest =
            displaySegments (addr.segments.toList.take zeros.1) ++ ':' :: ':' ::
              (displaySegments (addr.segments.toList.drop (zeros.1 + zeros.2)) ++ rest) := by
        simp
      have hfirst := @readGroups_displaySegments 8 (addr.segments.toList.take zeros.1) _ (by omega)
        (ends_colons (displaySegments (addr.segments.toList.drop (zeros.1 + zeros.2)) ++ rest))
      have hsecond := @readGroups_displaySegments
        (7 - (addr.segments.toList.take zeros.1).length)
        (addr.segments.toList.drop (zeros.1 + zeros.2)) rest (by omega) h
      have hread := readIpv6Addr_of_colons hfirst (by omega) hsecond
      have hcount : 8 - zeros.1 - (8 - (zeros.1 + zeros.2)) = zeros.2 := by omega
      simp only [if_pos hlong]
      rw [htext, hread, hhead, htail, hcount, ← hrun.eq_append, addr.ofGroups_toList]
    · have hread := @readGroups_displaySegments 8 _ rest hlength.le h
      simp only [if_neg hlong]
      unfold readIpv6Addr
      simp only [hread, if_pos hlength, addr.ofGroups_toList]

/-! ## Socket addresses -/

/-- A printed port is read back, if no digit follows it. -/
theorem readPort_decimal (port : UInt16) {rest : Text}
    (hrest : ∀ c ∈ rest.head?, toDigit 10 c = none) :
    readPort (':' :: (decimal port.toNat ++ rest)) = some (port, rest) := by
  have hlt : port.toNat < 65536 := port.toNat_lt
  have hread : readNumber 10 65535 none true (decimal port.toNat ++ rest) =
      some (port.toNat, rest) :=
    readNumber_toDigits (by decide) (by decide) (by omega) (by simp) hrest
  have hcolon (text : Text) : readGivenChar ':' (':' :: text) = some text := rfl
  unfold readPort
  simp only [hcolon, Option.bind_eq_bind, Option.bind_some, hread, UInt16.ofNat_toNat]
  rfl

/-- A printed scope is read back, if no digit follows it. -/
theorem readScopeId_decimal (scopeId : UInt32) {rest : Text}
    (hrest : ∀ c ∈ rest.head?, toDigit 10 c = none) :
    readScopeId ('%' :: (decimal scopeId.toNat ++ rest)) = some (scopeId, rest) := by
  have hlt : scopeId.toNat < 2^32 := scopeId.toNat_lt
  have hread : readNumber 10 (2^32 - 1) none true (decimal scopeId.toNat ++ rest) =
      some (scopeId.toNat, rest) :=
    readNumber_toDigits (by decide) (by decide) (by omega) (by simp) hrest
  have hpercent (text : Text) : readGivenChar '%' ('%' :: text) = some text := rfl
  unfold readScopeId
  simp only [hpercent, Option.bind_eq_bind, Option.bind_some, hread, UInt32.ofNat_toNat]
  rfl

/-- A printed IPv4 socket address is read back. -/
theorem readSocketAddrV4_display (ip : Ipv4Addr) (port : UInt16) {rest : Text}
    (hrest : ∀ c ∈ rest.head?, toDigit 10 c = none) :
    readSocketAddrV4 ((SocketAddr.v4 ip port).display ++ rest) = some (.v4 ip port, rest) := by
  have htext : (SocketAddr.v4 ip port).display ++ rest =
      ip.display ++ ':' :: (decimal port.toNat ++ rest) := by
    simp [SocketAddr.display]
  have hcolon : ∀ c ∈ (':' :: (decimal port.toNat ++ rest)).head?, toDigit 10 c = none := by
    rintro c ⟨⟩
    decide
  rw [htext]
  unfold readSocketAddrV4
  simp only [readIpv4Addr_display ip hcolon, readPort_decimal port hrest, Option.bind_eq_bind,
    Option.bind_some]
  rfl

/-- A printed IPv6 socket address is read back. -/
theorem readSocketAddrV6_display (ip : Ipv6Addr) (port : UInt16) (scopeId : UInt32) {rest : Text}
    (hrest : ∀ c ∈ rest.head?, toDigit 10 c = none) :
    readSocketAddrV6 ((SocketAddr.v6 ip port scopeId).display ++ rest) =
      some (.v6 ip port scopeId, rest) := by
  have hskip (c : Char) (text : Text) : readGivenChar c (c :: text) = some text := if_pos rfl
  have hbracket (text : Text) : ∀ c ∈ (']' :: text).head?, toDigit 10 c = none := by
    rintro c ⟨⟩
    decide
  unfold readSocketAddrV6
  by_cases hscope : scopeId = 0
  · have htext : (SocketAddr.v6 ip port scopeId).display ++ rest =
        '[' :: (ip.display ++ ']' :: ':' :: (decimal port.toNat ++ rest)) := by
      simp [SocketAddr.display, hscope]
    have hip := @readIpv6Addr_display ip (']' :: ':' :: (decimal port.toNat ++ rest))
      (ends_cons (by decide) (by decide))
    have hnone : readScopeId (']' :: ':' :: (decimal port.toNat ++ rest)) = none := rfl
    rw [htext]
    simp only [hskip, hip, hnone, readPort_decimal port hrest, Option.bind_eq_bind,
      Option.bind_some, Option.getD_none, hscope]
    rfl
  · have htext : (SocketAddr.v6 ip port scopeId).display ++ rest =
        '[' :: (ip.display ++ '%' :: (decimal scopeId.toNat ++
          ']' :: ':' :: (decimal port.toNat ++ rest))) := by
      simp [SocketAddr.display, hscope]
    have hip := @readIpv6Addr_display ip ('%' :: (decimal scopeId.toNat ++
      ']' :: ':' :: (decimal port.toNat ++ rest))) (ends_cons (by decide) (by decide))
    rw [htext]
    simp only [hskip, hip, readScopeId_decimal scopeId (hbracket _), readPort_decimal port hrest,
      Option.bind_eq_bind, Option.bind_some, Option.getD_some]
    rfl

/-- A printed socket address is read back. -/
theorem parseSocketAddr_display (addr : SocketAddr) : parseSocketAddr addr.display = some addr := by
  have hread : readSocketAddr addr.display = some (addr, []) := by
    unfold readSocketAddr
    cases addr with
    | v4 ip port =>
      have hv4 := @readSocketAddrV4_display ip port [] nofun
      rw [List.append_nil] at hv4
      rw [hv4, Option.some_or]
    | v6 ip port scopeId =>
      have hv6 := @readSocketAddrV6_display ip port scopeId [] nofun
      rw [List.append_nil] at hv6
      -- The text starts with a bracket.
      have hv4 : readSocketAddrV4 (SocketAddr.v6 ip port scopeId).display = none := by
        have hbracket : NoDigit (SocketAddr.v6 ip port scopeId).display :=
          @noDigit_cons '[' _ (by decide)
        unfold readSocketAddrV4
        rw [readIpv4Addr_of_noDigit hbracket]
        rfl
      rw [hv4, Option.none_or, hv6]
  unfold parseSocketAddr parseWith
  rw [hread]

end Torlane
