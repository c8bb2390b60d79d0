import Torlane.Net
import Torlane.Radix

/-!
# Reading network addresses

`FromStr` of the addresses of `std::net`. Each reader takes a part off the front of a text and
returns what is left, which is a suffix of the text, or it fails and takes nothing. `str::parse`
demands that nothing is left (`parseSocketAddr`).
-/

namespace Torlane

open Text

/-! ## Readers -/

/-- `Parser::read_given_char`. -/
def readGivenChar (target : Char) : Text → Option Text
  | [] => none
  | c :: text => if c = target then some text else none

/-- `Parser::read_number`: all digits at the front. There must be one, not more than `maxDigits`,
and their number must not exceed `max`. -/
def readNumber (radix max : ℕ) (maxDigits : Option ℕ) (allowZeroPrefix : Bool) (text : Text) :
    Option (ℕ × Text) :=
  let digits := text.takeWhile fun c => (toDigit radix c).isSome
  let rest := text.dropWhile fun c => (toDigit radix c).isSome
  if digits = [] then none
  else if maxDigits.any (· < digits.length) then none
  else if ¬ allowZeroPrefix ∧ digits.head? = some '0' ∧ 1 < digits.length then none
  else if max < spelledNumber radix digits then none
  else some (spelledNumber radix digits, rest)

/-- One of the four numbers of an IPv4 address. -/
def readOctet (text : Text) : Option (UInt8 × Text) :=
  (readNumber 10 255 (some 3) false text).map fun (n, rest) => (.ofNat n, rest)

/-- `Parser::read_ipv4_addr`. -/
def readIpv4Addr (text : Text) : Option (Ipv4Addr × Text) := do
  let (a, text) ← readOctet text
  let (b, text) ← (readGivenChar '.' text).bind readOctet
  let (c, text) ← (readGivenChar '.' text).bind readOctet
  let (d, text) ← (readGivenChar '.' text).bind readOctet
  return (⟨#v[a, b, c, d]⟩, text)

/-- One group of an IPv6 address. -/
def readGroup (text : Text) : Option (UInt16 × Text) :=
  (readNumber 16 65535 (some 4) true text).map fun (n, rest) => (.ofNat n, rest)

/-- The colon before a group, except before the first one. -/
def readSeparator (first : Bool) (text : Text) : Option Text :=
  if first then some text else readGivenChar ':' text

/-- `u16::from_be_bytes`. -/
def fromBeBytes (high low : UInt8) : UInt16 := .ofNat (high.toNat * 256 + low.toNat)

/-- `read_groups`, where `limit` groups are left to read: the groups, whether an IPv4 address stands
for the last two of them, and what is left of the text. -/
def readGroups : ℕ → Bool → Text → List UInt16 × Bool × Text
  | 0, _, text => ([], false, text)
  | limit + 1, first, text =>
    -- An IPv4 address needs the places of two groups.
    match if 0 < limit then (readSeparator first text).bind readIpv4Addr else none with
    | some (addr, rest) =>
      let groups := [fromBeBytes (addr.octets.get 0) (addr.octets.get 1),
        fromBeBytes (addr.octets.get 2) (addr.octets.get 3)]
      (groups, true, rest)
    | none =>
      match (readSeparator first text).bind readGroup with
      | some (group, rest) =>
        let (groups, ipv4, rest) := readGroups limit false rest
        (group :: groups, ipv4, rest)
      | none => ([], false, text)

/-- The address with eight groups. -/
def Ipv6Addr.ofGroups (groups : List UInt16) : Ipv6Addr := ⟨.ofFn fun i => groups.getD i 0⟩

/-- `Parser::read_ipv6_addr`. -/
def readIpv6Addr (text : Text) : Option (Ipv6Addr × Text) :=
  let (head, ipv4, rest) := readGroups 8 true text
  if head.length = 8 then some (.ofGroups head, rest)
  -- An IPv4 address is not allowed before `::`.
  else if ipv4 then none
  else do
    let rest ← readGivenChar ':' rest
    let rest ← readGivenChar ':' rest
    let (tail, _, rest) := readGroups (7 - head.length) true rest
    return (.ofGroups (head ++ List.replicate (8 - head.length - tail.length) 0 ++ tail), rest)

/-- `Parser::read_port`. -/
def readPort (text : Text) : Option (UInt16 × Text) := do
  let text ← readGivenChar ':' text
  let (port, rest) ← readNumber 10 65535 none true text
  return (.ofNat port, rest)

/-- `Parser::read_scope_id`. -/
def readScopeId (text : Text) : Option (UInt32 × Text) := do
  let text ← readGivenChar '%' text
  let (scopeId, rest) ← readNumber 10 (2^32 - 1) none true text
  return (.ofNat scopeId, rest)

/-- `Parser::read_socket_addr_v4`. -/
def readSocketAddrV4 (text : Text) : Option (SocketAddr × Text) := do
  let (ip, text) ← readIpv4Addr text
  let (port, text) ← readPort text
  return (.v4 ip port, text)

/-- `Parser::read_socket_addr_v6`. -/
def readSocketAddrV6 (text : Text) : Option (SocketAddr × Text) := do
  let text ← readGivenChar '[' text
  let (ip, text) ← readIpv6Addr text
  let (scopeId, text) := (readScopeId text).getD (0, text)
  let text ← readGivenChar ']' text
  let (port, text) ← readPort text
  return (.v6 ip port scopeId, text)

/-- `Parser::read_socket_addr`. -/
def readSocketAddr (text : Text) : Option (SocketAddr × Text) :=
  (readSocketAddrV4 text).or (readSocketAddrV6 text)

/-- What a reader has read, if nothing is left. -/
def parseWith {α : Type} (read : Text → Option (α × Text)) (text : Text) : Option α :=
  match read text with
  | some (a, []) => some a
  | _ => none

/-- `str::parse::<SocketAddr>`. -/
def parseSocketAddr (text : Text) : Option SocketAddr := parseWith readSocketAddr text

end Torlane
