import GpuMon.Library.PyText

/-!
# Addresses and networks of Python's `ipaddress`

What `ip_address`, `ip_network(…, strict=False)`, `address in network` and `str(address)` do. An
`AddressValueError` or `NetmaskValueError` is `none`; both are a `ValueError`.
-/

namespace PyIp

open PyText

inductive IpAddress
  | v4 (ip : BitVec 32)
  | v6 (ip : BitVec 128) (scopeId : Option Text)
  deriving DecidableEq

/-- The network address has no bits outside the netmask, since `strict` is off. -/
inductive IpNetwork
  | v4 (address netmask : BitVec 32)
  | v6 (address netmask : BitVec 128)
  deriving DecidableEq

/-! ## IPv4 -/

def isAsciiDigit (c : Char) : Bool := '0' ≤ c && c ≤ '9'

/-- `_parse_octet`. -/
def parseOctet (t : Text) : Option Nat :=
  if t ≠ [] ∧ t.all isAsciiDigit ∧ t.length ≤ 3 ∧ (t = "0" ∨ t.head? ≠ some '0') ∧
      parseNat t ≤ 255 then
    some (parseNat t)
  else none

/-- `_BaseV4._ip_int_from_string`. -/
def v4FromString (t : Text) : Option (BitVec 32) :=
  match splitOn '.' t with
  | [a, b, c, d] => do
    let octets ← [a, b, c, d].mapM parseOctet
    return BitVec.ofNat 32 (octets.foldl (fun n o => 256 * n + o) 0)
  | _ => none

/-- `_BaseV4._string_from_ip_int`. -/
def v4Text (ip : BitVec 32) : Text :=
  join "." ([24, 16, 8, 0].map fun shift => natText ((ip >>> shift) &&& 255#32).toNat)

/-! ## IPv6 -/

/-- The value of a digit of `string.hexdigits`. -/
def hexValue (c : Char) : Option Nat :=
  if '0' ≤ c ∧ c ≤ '9' then some (c.toNat - '0'.toNat)
  else if 'a' ≤ c ∧ c ≤ 'f' then some (c.toNat - 'a'.toNat + 10)
  else if 'A' ≤ c ∧ c ≤ 'F' then some (c.toNat - 'A'.toNat + 10)
  else none

/-- `'%x' % n`. -/
def hexText (n : Nat) : Text := Nat.toDigits 16 n

/-- `_parse_hextet`; an empty part is a `ValueError` of `int`. -/
def parseHextet (t : Text) : Option Nat := do
  let digits ← t.mapM hexValue
  if t ≠ [] ∧ t.length ≤ 4 then return digits.foldl (fun n d => 16 * n + d) 0 else none

/-- The IPv4 suffix of an IPv6 text as two hextets. -/
def expandSuffix (parts : List Text) : Option (List Text) :=
  match parts.getLast? with
  | none => some parts
  | some last =>
    if '.' ∈ last then
      (v4FromString last).map fun (ip : BitVec 32) =>
        parts.dropLast ++ [hexText (ip >>> 16).toNat, hexText (ip &&& 0xffff#32).toNat]
    else some parts

/-- The empty parts between the first and the last one. -/
def innerBlanks (parts : List Text) : List Nat :=
  (List.range (parts.length - 1)).filter fun i => 0 < i && parts[i]? = some []

/-- How many hextets stand before and after the `::` at `skip`. -/
def aroundSkip (parts : List Text) (skip : Nat) : Option (Nat × Nat) :=
  let leading := parts.head? = some []
  let trailing := parts.getLast? = some []
  let hi := if leading then skip - 1 else skip
  let lo := if trailing then parts.length - skip - 2 else parts.length - skip - 1
  if (leading ∧ hi ≠ 0) ∨ (trailing ∧ lo ≠ 0) ∨ 8 < hi + lo + 1 then none else some (hi, lo)

def hextetsInt (hextets : List Nat) : Nat := hextets.foldl (fun n h => 65536 * n + h) 0

/-- `_BaseV6._ip_int_from_string`. -/
def v6FromString (t : Text) : Option (BitVec 128) := do
  let split := splitOn ':' t
  guard (3 ≤ split.length)
  let parts ← expandSuffix split
  guard (parts.length ≤ 9)
  match innerBlanks parts with
  | [] =>
    guard (parts.length = 8)
    return BitVec.ofNat 128 (hextetsInt (← parts.mapM parseHextet))
  | [skip] =>
    let (hi, lo) ← aroundSkip parts skip
    let high ← (parts.take hi).mapM parseHextet
    let low ← (parts.drop (parts.length - lo)).mapM parseHextet
    return BitVec.ofNat 128
      (hextetsInt (high ++ List.replicate (8 - (hi + lo)) 0 ++ low))
  | _ => none

/-- The longest run of zeros so far and the run at the end: where each starts and its length. -/
def zeroRun (best cur : Nat × Nat) (i : Nat) : List Nat → Nat × Nat
  | [] => best
  | 0 :: rest =>
    let cur := if cur.2 = 0 then (i, 1) else (cur.1, cur.2 + 1)
    zeroRun (if best.2 < cur.2 then cur else best) cur (i + 1) rest
  | _ :: rest => zeroRun best (0, 0) (i + 1) rest

/-- `_BaseV6._string_from_ip_int`, with `_compress_hextets`. -/
def v6Text (ip : BitVec 128) : Text :=
  let hextets := [112, 96, 80, 64, 48, 32, 16, 0].map fun shift =>
    ((ip >>> shift) &&& 0xffff#128).toNat
  let (start, length) := zeroRun (0, 0) (0, 0) 0 hextets
  let texts := hextets.map hexText
  if length ≤ 1 then join ":" texts
  else
    join ":" (texts.take start) ++ "::" ++ join ":" (texts.drop (start + length))

/-- `_split_scope_id`. -/
def splitScopeId (t : Text) : Option (Text × Option Text) :=
  if '%' ∈ t then
    let (address, scopeId) := partition '%' t
    if scopeId = [] ∨ '%' ∈ scopeId then none else some (address, some scopeId)
  else some (t, none)

/-! ## Addresses -/

def ipv4Address? (t : Text) : Option IpAddress :=
  if '/' ∈ t then none else (v4FromString t).map .v4

def ipv6Address? (t : Text) : Option IpAddress :=
  if '/' ∈ t then none
  else do
    let (address, scopeId) ← splitScopeId t
    return .v6 (← v6FromString address) scopeId

/-- `ip_address(t)`; `none` is a `ValueError`. -/
def ipAddress? (t : Text) : Option IpAddress := (ipv4Address? t).or (ipv6Address? t)

/-- `str(address)`. -/
def IpAddress.text : IpAddress → Text
  | .v4 ip => v4Text ip
  | .v6 ip none => v6Text ip
  | .v6 ip (some scopeId) => v6Text ip ++ '%' :: scopeId

example : ipAddress? "10.0.0.08" = none ∧
    (ipAddress? "2001:DB8:0::FFFF:1.2.3.4").map IpAddress.text =
      some "2001:db8::ffff:102:304".toList := by decide +kernel

/-! ## Networks -/

/-- `_ip_int_from_prefix`. -/
def prefixMask (w p : Nat) : BitVec w := BitVec.allOnes w <<< (w - p)

/-- `_prefix_from_prefix_string`. -/
def prefixLength? (w : Nat) (t : Text) : Option Nat :=
  if t ≠ [] ∧ t.all isAsciiDigit ∧ t.length ≤ 4300 ∧ parseNat t ≤ w then some (parseNat t) else none

/-- `_prefix_from_ip_string`: a netmask, or else a hostmask. -/
def maskLength? (t : Text) : Option Nat := do
  let ip ← v4FromString t
  let find (mask : BitVec 32) := (List.range 33).find? fun p => prefixMask 32 p = mask
  (find ip).or (find (~~~ip))

/-- The address and the mask of a network text. -/
def splitMask (t : Text) : Option (Text × Option Text) :=
  match splitOn '/' t with
  | [address] => some (address, none)
  | [address, mask] => some (address, some mask)
  | _ => none

def ipv4Network? (t : Text) : Option IpNetwork := do
  let (address, mask) ← splitMask t
  let ip ← v4FromString address
  let p ← match mask with
    | none => some 32
    | some m => (prefixLength? 32 m).or (maskLength? m)
  return .v4 (ip &&& prefixMask 32 p) (prefixMask 32 p)

def ipv6Network? (t : Text) : Option IpNetwork := do
  let (address, mask) ← splitMask t
  let (address, _) ← splitScopeId address
  let ip ← v6FromString address
  let p ← match mask with
    | none => some 128
    | some m => prefixLength? 128 m
  return .v6 (ip &&& prefixMask 128 p) (prefixMask 128 p)

/-- `ip_network(t, strict=False)`. -/
def ipNetwork? (t : Text) : Option IpNetwork := (ipv4Network? t).or (ipv6Network? t)

/-- `address in network`. -/
def IpNetwork.contains : IpNetwork → IpAddress → Bool
  | .v4 address netmask, .v4 ip => ip &&& netmask = address
  | .v6 address netmask, .v6 ip _ => ip &&& netmask = address
  | _, _ => false

end PyIp
