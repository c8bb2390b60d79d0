import Torlane.Text

/-!
# Network addresses

The addresses of `std::net` and the text that they are printed as. An IPv6 address is printed in
its canonical form: an IPv4-mapped address ends in dotted decimal, and elsewhere the first of the
longest runs of at least two zero segments becomes `::`.
-/

namespace Torlane

open Text

/-- An IPv4 address. -/
structure Ipv4Addr where
  /-- The four octets, most significant first. -/
  octets : Vector UInt8 4
  deriving DecidableEq, Repr

/-- An IPv6 address. -/
structure Ipv6Addr where
  /-- The eight segments, most significant first. -/
  segments : Vector UInt16 8
  deriving DecidableEq, Repr

/-- An IP address. -/
inductive IpAddr where
  | v4 (addr : Ipv4Addr)
  | v6 (addr : Ipv6Addr)
  deriving DecidableEq, Repr

/-- `Ipv4Addr::LOCALHOST`. -/
def Ipv4Addr.localhost : Ipv4Addr := ⟨#v[127, 0, 0, 1]⟩

/-- `IpAddr::is_loopback`: `127.0.0.0/8` and `::1`. -/
def IpAddr.isLoopback : IpAddr → Bool
  | .v4 addr => addr.octets[0] = 127
  | .v6 addr => addr.segments = #v[0, 0, 0, 0, 0, 0, 0, 1]

/-- A socket address. An IPv6 socket address also carries a scope. -/
inductive SocketAddr where
  | v4 (ip : Ipv4Addr) (port : UInt16)
  | v6 (ip : Ipv6Addr) (port : UInt16) (scopeId : UInt32)
  deriving DecidableEq, Repr

/-- `SocketAddr::new`. -/
def SocketAddr.new : IpAddr → UInt16 → SocketAddr
  | .v4 ip, port => .v4 ip port
  | .v6 ip, port => .v6 ip port 0

/-- Dotted decimal. -/
def Ipv4Addr.display (addr : Ipv4Addr) : Text :=
  ['.'].intercalate (addr.octets.toList.map fun octet => decimal octet.toNat)

/-- The start and the length of the first longest run of zeros in a list of segments. `i` is the
position of the list's head, `current` the run that ends just before it, and `longest` the longest
run so far. -/
def longestZeros : ℕ → ℕ × ℕ → ℕ × ℕ → List UInt16 → ℕ × ℕ
  | _, _, longest, [] => longest
  | i, current, longest, segment :: rest =>
    if segment = 0 then
      let current := (if current.2 = 0 then i else current.1, current.2 + 1)
      longestZeros (i + 1) current (if longest.2 < current.2 then current else longest) rest
    else
      longestZeros (i + 1) (0, 0) longest rest

/-- Segments in hexadecimal, separated by colons. -/
def displaySegments (segments : List UInt16) : Text :=
  [':'].intercalate (segments.map fun segment => hexadecimal segment.toNat)

/-- The canonical text of an IPv6 address. -/
def Ipv6Addr.display (addr : Ipv6Addr) : Text :=
  match addr.segments.toList with
  -- An IPv4-mapped address.
  | [0, 0, 0, 0, 0, 0xffff, ab, cd] =>
    "::ffff:".toList ++ Ipv4Addr.display
      ⟨#v[(ab >>> 8).toUInt8, ab.toUInt8, (cd >>> 8).toUInt8, cd.toUInt8]⟩
  | segments =>
    let zeros := longestZeros 0 (0, 0) (0, 0) segments
    if 1 < zeros.2 then
      displaySegments (segments.take zeros.1) ++ "::".toList ++
        displaySegments (segments.drop (zeros.1 + zeros.2))
    else
      displaySegments segments

/-- The text of an IP address. -/
def IpAddr.display : IpAddr → Text
  | .v4 addr => addr.display
  | .v6 addr => addr.display

/-- The text of a socket address: an IPv6 host is in square brackets. -/
def SocketAddr.display : SocketAddr → Text
  | .v4 ip port => ip.display ++ [':'] ++ decimal port.toNat
  | .v6 ip port scopeId =>
    let scope := if scopeId = 0 then [] else '%' :: decimal scopeId.toNat
    ['['] ++ ip.display ++ scope ++ "]:".toList ++ decimal port.toNat

end Torlane
