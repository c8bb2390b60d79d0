import Torlane.Net.RoundTrip
import Torlane.Url

/-!
# What addresses look like

The characters of a printed address, and the shape of a text that is read as one: a host, the
character that ends it, and the digits of the port (`parseSocketAddr_eq_some`). A text that is cut
off spells another port or none, and is not read as the same address (`parseSocketAddr_prefix`).
-/

namespace Torlane

open Text

/-! ## Printed characters -/

/-- A character of an IPv4 address. -/
def IsOctetChar (c : Char) : Prop := isHexDigit c = true ∨ c = '.'

instance : DecidablePred IsOctetChar := fun c =>
  inferInstanceAs (Decidable (isHexDigit c = true ∨ c = '.'))

/-- A character of an IPv6 address. -/
def IsGroupChar (c : Char) : Prop := IsOctetChar c ∨ c = ':'

instance : DecidablePred IsGroupChar := fun c =>
  inferInstanceAs (Decidable (IsOctetChar c ∨ c = ':'))

/-- A character of a socket address. -/
def IsAddressChar (c : Char) : Prop := IsGroupChar c ∨ c = '[' ∨ c = ']' ∨ c = '%'

instance : DecidablePred IsAddressChar := fun c =>
  inferInstanceAs (Decidable (IsGroupChar c ∨ c = '[' ∨ c = ']' ∨ c = '%'))

/-- A digit of any radix is a hexadecimal one. -/
theorem isHexDigit_of_isSome {radix : ℕ} {c : Char} (h : (toDigit radix c).isSome) :
    isHexDigit c = true := by
  refine Classical.byContradiction fun hhex => ?_
  rw [toDigit_eq_none (by simpa using hhex)] at h
  cases h

/-- The digits of a printed number are hexadecimal digits. -/
theorem isHexDigit_of_mem_toDigits {radix n : ℕ} (hradix : 1 < radix) (hmax : radix ≤ 16) {c : Char}
    (h : c ∈ Nat.toDigits radix n) : isHexDigit c = true :=
  isHexDigit_of_isSome (isSome_of_mem_toDigits hradix hmax c h)

/-- The characters of a printed IPv4 address. -/
theorem isOctetChar_of_mem_display {addr : Ipv4Addr} {c : Char} (h : c ∈ addr.display) :
    IsOctetChar c := by
  rcases mem_intercalate h with h | ⟨text, htext, h⟩
  · exact .inr (List.mem_singleton.mp h)
  · obtain ⟨octet, -, rfl⟩ := List.mem_map.mp htext
    exact .inl (isHexDigit_of_mem_toDigits (by decide) (by decide) h)

/-- Only these characters are in a printed IPv4 address. -/
theorem Ipv4Addr.notMem_display {c : Char} (h : ¬ IsOctetChar c) (addr : Ipv4Addr) :
    c ∉ addr.display := fun hmem => h (isOctetChar_of_mem_display hmem)

/-- The characters of printed segments. -/
theorem isGroupChar_of_mem_displaySegments {segments : List UInt16} {c : Char}
    (h : c ∈ displaySegments segments) : IsGroupChar c := by
  rcases mem_intercalate h with h | ⟨text, htext, h⟩
  · exact .inr (List.mem_singleton.mp h)
  · obtain ⟨segment, -, rfl⟩ := List.mem_map.mp htext
    exact .inl (.inl (isHexDigit_of_mem_toDigits (by decide) (by decide) h))

/-- The characters of a printed IPv6 address. -/
theorem isGroupChar_of_mem_display {addr : Ipv6Addr} {c : Char} (h : c ∈ addr.display) :
    IsGroupChar c := by
  have hcolons : c ∈ "::".toList → IsGroupChar c := by
    intro h
    exact .inr (by simpa using h)
  unfold Ipv6Addr.display at h
  split at h
  · have hmapped : ∀ c ∈ "::ffff:".toList, IsGroupChar c := by
      intro c hc
      have hchar : c = ':' ∨ c = 'f' ∨ c = ':' := by simpa using hc
      rcases hchar with rfl | rfl | rfl
      · exact .inr rfl
      · exact .inl (.inl rfl)
      · exact .inr rfl
    rcases List.mem_append.mp h with h | h
    · exact hmapped c h
    · exact .inl (isOctetChar_of_mem_display h)
  · dsimp only at h
    split at h
    · rcases List.mem_append.mp h with h | h
      · rcases List.mem_append.mp h with h | h
        · exact isGroupChar_of_mem_displaySegments h
        · exact hcolons h
      · exact isGroupChar_of_mem_displaySegments h
    · exact isGroupChar_of_mem_displaySegments h

/-- Only these characters are in a printed IPv6 address. -/
theorem Ipv6Addr.notMem_display {c : Char} (h : ¬ IsGroupChar c) (addr : Ipv6Addr) :
    c ∉ addr.display := fun hmem => h (isGroupChar_of_mem_display hmem)

/-- The characters of a printed socket address. -/
theorem SocketAddr.isAddressChar_of_mem_display {addr : SocketAddr} {c : Char}
    (h : c ∈ addr.display) : IsAddressChar c := by
  have hdigit {n : ℕ} (h : c ∈ decimal n) : IsGroupChar c :=
    .inl (.inl (isHexDigit_of_mem_toDigits (by decide) (by decide) h))
  cases addr with
  | v4 ip port =>
    simp only [display, List.mem_append, List.mem_singleton] at h
    rcases h with (h | h) | h
    · exact .inl (.inl (isOctetChar_of_mem_display h))
    · exact .inl (.inr h)
    · exact .inl (hdigit h)
  | v6 ip port scopeId =>
    have hscope : (c ∈ if scopeId = 0 then [] else '%' :: decimal scopeId.toNat) →
        IsGroupChar c ∨ c = '%' := by
      intro h
      split_ifs at h
      · cases h
      · exact (List.mem_cons.mp h).elim .inr fun h => .inl (hdigit h)
    have hend : c ∈ "]:".toList → c = ']' ∨ c = ':' := by
      intro h
      simpa using h
    simp only [display, List.mem_append, List.mem_singleton] at h
    rcases h with (((h | h) | h) | h) | h
    · exact .inr (.inl h)
    · exact .inl (isGroupChar_of_mem_display h)
    · exact (hscope h).elim .inl fun h => .inr (.inr (.inr h))
    · exact (hend h).elim (fun h => .inr (.inr (.inl h))) fun h => .inl (.inr h)
    · exact .inl (hdigit h)

/-- Only these characters are in a printed socket address. -/
theorem SocketAddr.notMem_display {c : Char} (h : ¬ IsAddressChar c) (addr : SocketAddr) :
    c ∉ addr.display := fun hmem => h (isAddressChar_of_mem_display hmem)

/-- A printed socket address has no whitespace. -/
theorem SocketAddr.isWhitespace_of_mem_display {addr : SocketAddr} {c : Char}
    (h : c ∈ addr.display) : isWhitespace c = false := by
  rcases isAddressChar_of_mem_display h with ((h | rfl) | rfl) | rfl | rfl | rfl
  · exact isWhitespace_of_isHexDigit h
  all_goals decide

/-! ## What a reader takes -/

/-- A reader has taken characters of one kind off the front of a text. -/
def Takes (p : Char → Prop) (text rest : Text) : Prop :=
  ∃ taken, text = taken ++ rest ∧ ∀ c ∈ taken, p c

section Takes

variable {p q : Char → Prop} {text rest rest' : Text}

/-- Nothing is taken. -/
theorem Takes.refl (text : Text) : Takes p text text := ⟨[], rfl, by simp⟩

/-- One reader goes on where another one has stopped. -/
theorem Takes.trans (h : Takes p text rest) (h' : Takes p rest rest') : Takes p text rest' := by
  obtain ⟨taken, rfl, htaken⟩ := h
  obtain ⟨taken', rfl, htaken'⟩ := h'
  refine ⟨taken ++ taken', (List.append_assoc ..).symm, fun c hc => ?_⟩
  exact (List.mem_append.mp hc).elim (htaken c) (htaken' c)

/-- Characters of one kind are of another kind as well. -/
theorem Takes.mono (hkind : ∀ c, p c → q c) (h : Takes p text rest) : Takes q text rest := by
  obtain ⟨taken, htext, htaken⟩ := h
  exact ⟨taken, htext, fun c hc => hkind c (htaken c hc)⟩

/-- A given character is taken. -/
theorem readGivenChar_eq_some {c : Char} (h : readGivenChar c text = some rest) :
    text = c :: rest := by
  cases text with
  | nil => cases h
  | cons d text =>
    rw [readGivenChar] at h
    split_ifs at h with heq
    rw [heq, Option.some.inj h]

/-- A given character is taken. -/
theorem takes_readGivenChar {c : Char} (hc : p c) (h : readGivenChar c text = some rest) :
    Takes p text rest := by
  refine ⟨[c], readGivenChar_eq_some h, fun d hd => ?_⟩
  rwa [List.mem_singleton.mp hd]

/-- What is read as a number: digits that spell it. -/
theorem readNumber_eq_some {radix max n : ℕ} {maxDigits : Option ℕ} {allowZeroPrefix : Bool}
    (h : readNumber radix max maxDigits allowZeroPrefix text = some (n, rest)) :
    ∃ digits, text = digits ++ rest ∧ digits ≠ [] ∧ (∀ c ∈ digits, (toDigit radix c).isSome) ∧
      spelledNumber radix digits = n ∧ n ≤ max := by
  simp only [readNumber] at h
  split_ifs at h with hempty _ _ hmax
  obtain ⟨rfl, rfl⟩ := Prod.mk.inj (Option.some.inj h)
  refine ⟨_, List.takeWhile_append_dropWhile.symm, hempty, fun c hc => ?_, rfl, Nat.not_lt.mp hmax⟩
  exact List.mem_takeWhile_imp (p := fun c => (toDigit radix c).isSome) hc

/-- The reader of a number takes digits. -/
theorem takes_readNumber {radix max n : ℕ} {maxDigits : Option ℕ} {allowZeroPrefix : Bool}
    (h : readNumber radix max maxDigits allowZeroPrefix text = some (n, rest)) :
    Takes (isHexDigit · = true) text rest := by
  obtain ⟨digits, htext, -, hdigits, -⟩ := readNumber_eq_some h
  exact ⟨digits, htext, fun c hc => isHexDigit_of_isSome (hdigits c hc)⟩

/-- The reader of an octet takes digits. -/
theorem takes_readOctet {octet : UInt8} (h : readOctet text = some (octet, rest)) :
    Takes IsOctetChar text rest := by
  obtain ⟨⟨n, rest'⟩, hread, heq⟩ := Option.map_eq_some_iff.mp h
  obtain ⟨-, rfl⟩ := Prod.mk.inj heq
  exact (takes_readNumber hread).mono fun _ => .inl

/-- A dot and an octet are taken. -/
theorem takes_nextOctet {octet : UInt8}
    (h : (readGivenChar '.' text).bind readOctet = some (octet, rest)) :
    Takes IsOctetChar text rest := by
  obtain ⟨middle, hdot, hread⟩ := Option.bind_eq_some_iff.mp h
  exact (takes_readGivenChar (.inr rfl) hdot).trans (takes_readOctet hread)

/-- The reader of an IPv4 address takes digits and dots. -/
theorem takes_readIpv4Addr {addr : Ipv4Addr} (h : readIpv4Addr text = some (addr, rest)) :
    Takes IsOctetChar text rest := by
  obtain ⟨⟨a, ra⟩, ha, h⟩ := Option.bind_eq_some_iff.mp h
  obtain ⟨⟨b, rb⟩, hb, h⟩ := Option.bind_eq_some_iff.mp h
  obtain ⟨⟨c, rc⟩, hc, h⟩ := Option.bind_eq_some_iff.mp h
  obtain ⟨⟨d, rd⟩, hd, h⟩ := Option.bind_eq_some_iff.mp h
  obtain ⟨-, rfl⟩ := Prod.mk.inj (Option.some.inj h)
  exact (((takes_readOctet ha).trans (takes_nextOctet hb)).trans (takes_nextOctet hc)).trans
    (takes_nextOctet hd)

/-- The reader of a group takes digits. -/
theorem takes_readGroup {group : UInt16} (h : readGroup text = some (group, rest)) :
    Takes IsGroupChar text rest := by
  obtain ⟨⟨n, rest'⟩, hread, heq⟩ := Option.map_eq_some_iff.mp h
  obtain ⟨-, rfl⟩ := Prod.mk.inj heq
  exact (takes_readNumber hread).mono fun _ h => .inl (.inl h)

/-- A separator is taken, or nothing. -/
theorem takes_readSeparator {first : Bool} (h : readSeparator first text = some rest) :
    Takes IsGroupChar text rest := by
  cases first with
  | true =>
    obtain rfl := Option.some.inj h
    exact .refl _
  | false => exact takes_readGivenChar (.inr rfl) h

/-- The reader of groups takes characters of an IPv6 address. -/
theorem takes_readGroups (limit : ℕ) (first : Bool) (text : Text) :
    Takes IsGroupChar text (readGroups limit first text).2.2 := by
  induction limit generalizing first text with
  | zero => exact .refl text
  | succ limit ih =>
    rw [readGroups]
    split
    · next addr rest hipv4 =>
      split_ifs at hipv4
      obtain ⟨middle, hseparator, hread⟩ := Option.bind_eq_some_iff.mp hipv4
      exact (takes_readSeparator hseparator).trans ((takes_readIpv4Addr hread).mono fun _ => .inl)
    · split
      · next group rest hgroup =>
        obtain ⟨middle, hseparator, hread⟩ := Option.bind_eq_some_iff.mp hgroup
        exact ((takes_readSeparator hseparator).trans (takes_readGroup hread)).trans (ih false rest)
      · exact .refl text

/-- The reader of an IPv6 address takes the characters of one. -/
theorem takes_readIpv6Addr {addr : Ipv6Addr} (h : readIpv6Addr text = some (addr, rest)) :
    Takes IsGroupChar text rest := by
  have hhead := takes_readGroups 8 true text
  unfold readIpv6Addr at h
  dsimp only at h
  split_ifs at h
  · obtain ⟨-, rfl⟩ := Prod.mk.inj (Option.some.inj h)
    exact hhead
  · obtain ⟨first, hfirst, h⟩ := Option.bind_eq_some_iff.mp h
    obtain ⟨second, hsecond, h⟩ := Option.bind_eq_some_iff.mp h
    obtain ⟨-, rfl⟩ := Prod.mk.inj (Option.some.inj h)
    exact ((hhead.trans (takes_readGivenChar (.inr rfl) hfirst)).trans
      (takes_readGivenChar (.inr rfl) hsecond)).trans (takes_readGroups _ true second)

end Takes

/-! ## Socket addresses -/

/-- The text is that of a port. -/
structure SpellsPort (port : UInt16) (digits : Text) : Prop where
  ne_nil : digits ≠ []
  isSome : ∀ c ∈ digits, (toDigit 10 c).isSome
  spelled : spelledNumber 10 digits = port.toNat

/-- What is read as a port, when nothing is left. -/
theorem readPort_eq_some {text : Text} {port : UInt16} (h : readPort text = some (port, [])) :
    ∃ digits, text = ':' :: digits ∧ SpellsPort port digits := by
  obtain ⟨middle, hcolon, h⟩ := Option.bind_eq_some_iff.mp h
  obtain ⟨⟨n, rest⟩, hread, h⟩ := Option.bind_eq_some_iff.mp h
  obtain ⟨rfl, rfl⟩ := Prod.mk.inj (Option.some.inj h)
  obtain ⟨digits, rfl, hne, hdigits, hspelled, hmax⟩ := readNumber_eq_some hread
  rw [List.append_nil] at hcolon
  refine ⟨digits, readGivenChar_eq_some hcolon, hne, hdigits, ?_⟩
  rw [hspelled, UInt16.toNat_ofNat_of_lt' (Nat.lt_succ_of_le hmax)]

/-- The scope of an IPv6 address has no bracket. -/
theorem takes_scope {text : Text} :
    Takes (· ≠ ']') text ((readScopeId text).getD (0, text)).2 := by
  cases hscope : readScopeId text with
  | none => exact .refl text
  | some read =>
    obtain ⟨scopeId, rest⟩ := read
    obtain ⟨middle, hpercent, h⟩ := Option.bind_eq_some_iff.mp hscope
    obtain ⟨⟨n, rest'⟩, hread, h⟩ := Option.bind_eq_some_iff.mp h
    obtain ⟨-, rfl⟩ := Prod.mk.inj (Option.some.inj h)
    refine (takes_readGivenChar (by decide) hpercent).trans ((takes_readNumber hread).mono ?_)
    rintro c hc rfl
    exact absurd hc (by decide)

/-- The character that ends the host of a socket address, and what stands between it and the
port. -/
def SocketAddr.hostEnd : SocketAddr → Char × Text
  | .v4 .. => (':', [])
  | .v6 .. => (']', [':'])

/-- The port of a socket address. -/
def SocketAddr.port : SocketAddr → UInt16
  | .v4 _ port => port
  | .v6 _ port _ => port

/-- What is read as an IPv4 socket address. -/
theorem readSocketAddrV4_eq_some {text : Text} {addr : SocketAddr}
    (h : readSocketAddrV4 text = some (addr, [])) : ∃ host digits,
      text = host ++ addr.hostEnd.1 :: (addr.hostEnd.2 ++ digits) ∧ addr.hostEnd.1 ∉ host ∧
        SpellsPort addr.port digits := by
  obtain ⟨⟨ip, middle⟩, hip, h⟩ := Option.bind_eq_some_iff.mp h
  obtain ⟨⟨port, rest⟩, hport, h⟩ := Option.bind_eq_some_iff.mp h
  obtain ⟨rfl, rfl⟩ := Prod.mk.inj (Option.some.inj h)
  obtain ⟨host, rfl, hhost⟩ := takes_readIpv4Addr hip
  obtain ⟨digits, rfl, hdigits⟩ := readPort_eq_some hport
  refine ⟨host, digits, rfl, fun hcolon => ?_, hdigits⟩
  rcases hhost ':' hcolon with h | h
  · exact absurd h (by decide)
  · exact absurd h (by decide)

/-- What is read as an IPv6 socket address. -/
theorem readSocketAddrV6_eq_some {text : Text} {addr : SocketAddr}
    (h : readSocketAddrV6 text = some (addr, [])) : ∃ host digits,
      text = host ++ addr.hostEnd.1 :: (addr.hostEnd.2 ++ digits) ∧ addr.hostEnd.1 ∉ host ∧
        SpellsPort addr.port digits := by
  have hbracket : ∀ c, IsGroupChar c → c ≠ ']' := by
    rintro c ((h | h) | h) rfl <;> exact absurd h (by decide)
  obtain ⟨inner, hopen, h⟩ := Option.bind_eq_some_iff.mp h
  obtain ⟨⟨ip, middle⟩, hip, h⟩ := Option.bind_eq_some_iff.mp h
  obtain ⟨behind, hclose, h⟩ := Option.bind_eq_some_iff.mp h
  obtain ⟨⟨port, rest⟩, hport, h⟩ := Option.bind_eq_some_iff.mp h
  obtain ⟨rfl, rfl⟩ := Prod.mk.inj (Option.some.inj h)
  obtain ⟨digits, rfl, hdigits⟩ := readPort_eq_some hport
  have htakes : Takes (· ≠ ']') text ((readScopeId middle).getD (0, middle)).2 :=
    ((takes_readGivenChar (by decide) hopen).trans
      ((takes_readIpv6Addr hip).mono hbracket)).trans takes_scope
  obtain ⟨host, htext, hhost⟩ := htakes
  refine ⟨host, digits, ?_, fun hmem => hhost ']' hmem rfl, hdigits⟩
  exact htext.trans (congrArg (host ++ ·) (readGivenChar_eq_some hclose))

/-- What is read as a socket address: a host, and the digits of the port behind it. -/
theorem parseSocketAddr_eq_some {text : Text} {addr : SocketAddr}
    (h : parseSocketAddr text = some addr) : ∃ host digits,
      text = host ++ addr.hostEnd.1 :: (addr.hostEnd.2 ++ digits) ∧ addr.hostEnd.1 ∉ host ∧
        SpellsPort addr.port digits := by
  have hread : readSocketAddr text = some (addr, []) := by
    unfold parseSocketAddr parseWith at h
    split at h
    · next addr' heq => rw [heq, Option.some.inj h]
    · cases h
  rcases Option.or_eq_some_iff.mp hread with h | ⟨-, h⟩
  · exact readSocketAddrV4_eq_some h
  · exact readSocketAddrV6_eq_some h

/-! ## Prefixes -/

/-- The digits at the front of a printed number spell another number, if some are left. -/
theorem spelledNumber_ne {radix n : ℕ} {digits rest : Text} (hradix : 1 < radix)
    (hmax : radix ≤ 16) (hdigits : digits ≠ []) (hrest : rest ≠ [])
    (h : digits ++ rest = Nat.toDigits radix n) : spelledNumber radix digits ≠ n := by
  intro heq
  have hspelled : n * radix ^ rest.length + spelledNumber radix rest = n := by
    have hnumber := spelledNumber_toDigits hradix hmax n
    rw [← h, spelledNumber_append, heq] at hnumber
    exact hnumber
  have hlength : 0 < rest.length := List.length_pos_iff.mpr hrest
  have hlength' : 0 < digits.length := List.length_pos_iff.mpr hdigits
  by_cases hn : n = 0
  · -- Zero is printed as one digit.
    subst hn
    have hone := congrArg List.length h
    rw [Nat.toDigits_zero, List.length_append, List.length_singleton] at hone
    omega
  · have hpow : 1 < radix ^ rest.length := Nat.one_lt_pow hlength.ne' hradix
    have hlt : n * 1 < n * radix ^ rest.length := Nat.mul_lt_mul_of_pos_left hpow (by omega)
    omega

/-- The host of a socket address, as it is printed: in brackets, and with its scope, for IPv6. -/
def SocketAddr.displayHost : SocketAddr → Text
  | .v4 ip _ => ip.display
  | .v6 ip _ scopeId =>
    '[' :: (ip.display ++ (if scopeId = 0 then [] else '%' :: decimal scopeId.toNat) ++ [']'])

/-- A printed address is its host, a colon, and its port. -/
theorem SocketAddr.display_eq (addr : SocketAddr) :
    addr.display = addr.displayHost ++ ':' :: decimal addr.port.toNat := by
  cases addr with
  | v4 ip port => simp [display, displayHost, SocketAddr.port]
  | v6 ip port scopeId => simp [display, displayHost, SocketAddr.port]

/-- The host of an address is a name without colons, or a literal without a closing bracket. -/
theorem isHost_displayHost (addr : SocketAddr) : IsHost addr.displayHost := by
  cases addr with
  | v4 ip port =>
    have hcolon : ':' ∉ ip.display := ip.notMem_display (by decide)
    have hopen : '[' ∉ ip.display := ip.notMem_display (by decide)
    have hne : ip.display ≠ [] := by
      obtain ⟨a, b, c, d, rfl⟩ := ip.exists_octets
      rw [display_octets]
      simp
    show IsHost ip.display
    cases hdisplay : ip.display with
    | nil => exact absurd hdisplay hne
    | cons c text =>
      rw [hdisplay] at hcolon hopen
      refine .name ?_ hcolon
      rintro rfl
      exact hopen List.mem_cons_self
  | v6 ip port scopeId =>
    refine .literal fun hmem => ?_
    rcases List.mem_append.mp hmem with h | h
    · exact ip.notMem_display (by decide) h
    · split_ifs at h
      · cases h
      · rcases List.mem_cons.mp h with h | h
        · exact absurd h (by decide)
        · exact notMem_decimal (by decide) _ h

/-- A printed address that is cut off is not read as the same address. -/
theorem parseSocketAddr_prefix {addr : SocketAddr} {text : Text} (hpart : text <+: addr.display)
    (hne : text ≠ addr.display) : parseSocketAddr text ≠ some addr := by
  intro hread
  obtain ⟨host, digits, rfl, hhost, hport⟩ := parseSocketAddr_eq_some hread
  obtain ⟨host', digits', htext, hhost', hport'⟩ :=
    parseSocketAddr_eq_some (parseSocketAddr_display addr)
  obtain ⟨rest, hrest⟩ := hpart
  have hne' : rest ≠ [] := by
    rintro rfl
    exact hne (by rw [← hrest, List.append_nil])
  -- The hosts agree, and the digits that were read are the first ones of the port.
  have hdigits : digits ++ rest = digits' := by
    rw [htext, List.append_assoc, List.cons_append, List.append_assoc] at hrest
    have hbehind := (append_cons_inj_of_notMem hhost hhost' hrest).2
    exact List.append_cancel_left hbehind
  have hdecimal : digits' = decimal addr.port.toNat := by
    obtain ⟨pre, hpre⟩ : ∃ pre, host' ++ addr.hostEnd.1 :: (addr.hostEnd.2 ++ digits') =
        pre ++ ':' :: digits' := by
      cases addr with
      | v4 => exact ⟨host', rfl⟩
      | v6 => exact ⟨host' ++ [']'], by simp [SocketAddr.hostEnd]⟩
    have hcolon : ':' ∉ digits' := fun hmem => absurd (hport'.isSome ':' hmem) (by decide)
    have heq : pre ++ ':' :: digits' = addr.displayHost ++ ':' :: decimal addr.port.toNat := by
      rw [← hpre, ← htext, addr.display_eq]
    exact (append_cons_inj_of_notMem_right hcolon (notMem_decimal (by decide) _) heq).2
  exact spelledNumber_ne (by decide) (by decide) hport.ne_nil hne' (hdigits.trans hdecimal)
    hport.spelled

end Torlane
