import Wsnet.Lib.Buffer
import Mathlib.Tactic.Common

/-!
# IP addresses as the standard library reads and prints them

`ipAddress s` is `ipaddress.ip_address(s)` for a text: dotted decimal with no leading zeros, or
colon-separated hextets with at most one `::`, an optional dotted-decimal tail and an optional scope
id. `IPAddress.str` prints it back, with the first longest run of two or more zero hextets
compressed, and `packed` is the address in network byte order, which leaves the scope id out.
-/

namespace Wsnet

/-- An `IPv4Address` by its octets, or an `IPv6Address` by its hextets and scope id. -/
inductive IPAddress
  | v4 (a b c d : UInt8)
  | v6 (hextets : List UInt16) (len : hextets.length = 8) (scopeId : Option String)
  deriving DecidableEq, Repr

/-! ### Packed form -/

def hextetBytes (h : UInt16) : Bytes := [UInt8.ofNat (h.toNat / 256), UInt8.ofNat h.toNat]

def hextetsOfBytes : Bytes → List UInt16
  | x :: y :: rest => UInt16.ofNat (256 * x.toNat + y.toNat) :: hextetsOfBytes rest
  | _ => []

/-- `ip.packed`. -/
def IPAddress.packed : IPAddress → Bytes
  | .v4 a b c d => [a, b, c, d]
  | .v6 hs _ _ => hs.flatMap hextetBytes

theorem IPAddress.length_packed_v6 (hextets : List UInt16) (len : hextets.length = 8) (scopeId : Option String) :
    (v6 hextets len scopeId).packed.length = 16 := by
  match hextets, len with
  | [_, _, _, _, _, _, _, _], _ => rfl

theorem length_hextetsOfBytes : ∀ (b : Bytes) (n : Nat), b.length = 2 * n → (hextetsOfBytes b).length = n
  | [], n, h => by simp at h; simp [hextetsOfBytes]; omega
  | [_], n, h => by simp at h; omega
  | _ :: _ :: rest, 0, h => by simp at h
  | _ :: _ :: rest, n + 1, h => by
    simp only [hextetsOfBytes, List.length_cons] at h ⊢
    rw [length_hextetsOfBytes rest n (by omega)]

/-- `ipaddress.ip_address(b)` for a packed address: four or sixteen bytes. -/
def ipOfPacked (b : Bytes) : Except PyErr IPAddress :=
  match b with
  | [a, b, c, d] => .ok (.v4 a b c d)
  | b => if h : b.length = 16 then .ok (.v6 (hextetsOfBytes b) (length_hextetsOfBytes b 8 h) none)
      else .error .valueError

theorem ipOfPacked_ok_iff {b : Bytes} : (∃ ip, ipOfPacked b = .ok ip) ↔ b.length = 4 ∨ b.length = 16 := by
  unfold ipOfPacked
  split
  · simp
  · rename_i _ hb
    have h4 : b.length ≠ 4 := by
      rintro h
      match b, h with
      | [w, x, y, z], _ => exact hb w x y z rfl
    split <;> simp [*]

/-! ### Reading a text -/

/-- `IPv4Address._parse_octet`. -/
def parseOctet (s : List Char) : Option UInt8 :=
  if s = [] ∨ ¬ s.all Char.isDigit ∨ 3 < s.length ∨ (s ≠ ['0'] ∧ s.head? = some '0') ∨
    255 < Nat.ofDigitChars 10 s 0 then
    none
  else some (UInt8.ofNat (Nat.ofDigitChars 10 s 0))

/-- `IPv4Address(s)`. -/
def parseIPv4 (s : List Char) : Option (UInt8 × UInt8 × UInt8 × UInt8) :=
  match s.splitOn '.' with
  | [a, b, c, d] => do return (← parseOctet a, ← parseOctet b, ← parseOctet c, ← parseOctet d)
  | _ => none

/-- The value of a hexadecimal digit. -/
def hexDigit (c : Char) : Option Nat :=
  if c.isDigit then some (c.toNat - 48)
  else if 'a' ≤ c ∧ c ≤ 'f' then some (c.toNat - 87)
  else if 'A' ≤ c ∧ c ≤ 'F' then some (c.toNat - 55)
  else none

def hexValue (acc : Nat) : List Char → Option Nat
  | [] => some acc
  | c :: cs => do hexValue (16 * acc + (← hexDigit c)) cs

/-- `IPv6Address._parse_hextet`. -/
def parseHextet (s : List Char) : Option UInt16 :=
  if s = [] ∨ 4 < s.length then none else (hexValue 0 s).map UInt16.ofNat

/-- `'%x' % n`. -/
def hexText (n : Nat) : List Char := Nat.toDigits 16 n

/-- The colon-separated parts, a dotted-decimal tail turned into two hextets. -/
def expandIPv4Tail (parts : List (List Char)) : Option (List (List Char)) :=
  match parts.getLast? with
  | none => some parts
  | some tail =>
    if '.' ∈ tail then
      (parseIPv4 tail).map fun (a, b, c, d) =>
        parts.dropLast ++ [hexText (256 * a.toNat + b.toNat), hexText (256 * c.toNat + d.toNat)]
    else some parts

/-- The positions of the empty parts, the first and the last part apart. -/
def skipIndices (parts : List (List Char)) : List Nat :=
  (List.range parts.length).filter fun i => 1 ≤ i ∧ i + 1 < parts.length ∧ parts[i]? = some []

/-- `IPv6Address._ip_int_from_string`, as hextets. -/
def parseHextets (s : List Char) : Option (List UInt16) := do
  if s = [] then none
  let parts := s.splitOn ':'
  if parts.length < 3 then none
  let parts ← expandIPv4Tail parts
  if 9 < parts.length then none
  match skipIndices parts with
  | [] =>
    if parts.length ≠ 8 ∨ parts.head? = some [] ∨ parts.getLast? = some [] then none
    parts.mapM parseHextet
  | [i] =>
    let hi := if parts.head? = some [] then i - 1 else i
    let lo := if parts.getLast? = some [] then parts.length - i - 2 else parts.length - i - 1
    if parts.head? = some [] ∧ hi ≠ 0 then none
    if parts.getLast? = some [] ∧ lo ≠ 0 then none
    if 8 < hi + lo + 1 then none
    let front ← (parts.take hi).mapM parseHextet
    let back ← (parts.drop (parts.length - lo)).mapM parseHextet
    return front ++ List.replicate (8 - (hi + lo)) 0 ++ back
  | _ => none

/-- `IPv6Address._split_scope_id`. -/
def splitScopeId (s : List Char) : Option (List Char × Option String) :=
  match s.dropWhile (· ≠ '%') with
  | [] => some (s, none)
  | _ :: scope => if scope = [] ∨ '%' ∈ scope then none else some (s.takeWhile (· ≠ '%'), some (String.ofList scope))

/-- `IPv6Address(s)`. -/
def parseIPv6 (s : List Char) : Option IPAddress := do
  let (addr, scope) ← splitScopeId s
  let hs ← parseHextets addr
  if h : hs.length = 8 then some (.v6 hs h scope) else none

/-- `ipaddress.ip_address(s)`. -/
def ipAddress (s : String) : Except PyErr IPAddress :=
  if '/' ∈ s.toList then .error .valueError
  else
    match parseIPv4 s.toList with
    | some (a, b, c, d) => .ok (.v4 a b c d)
    | none =>
      match parseIPv6 s.toList with
      | some ip => .ok ip
      | none => .error .valueError

/-! ### Printing -/

/-- The loop state of `_compress_hextets`: the current and the best run of zeros, start and length. -/
structure ZeroRun where
  start : Option Nat
  len : Nat
  bestStart : Nat
  bestLen : Nat

def ZeroRun.step (r : ZeroRun) (index : Nat) (hextet : List Char) : ZeroRun :=
  if hextet = ['0'] then
    let start := r.start.getD index
    if r.bestLen < r.len + 1 then ⟨some start, r.len + 1, start, r.len + 1⟩
    else ⟨some start, r.len + 1, r.bestStart, r.bestLen⟩
  else ⟨none, 0, r.bestStart, r.bestLen⟩

def bestZeroRun (r : ZeroRun) (index : Nat) : List (List Char) → ZeroRun
  | [] => r
  | h :: hs => bestZeroRun (r.step index h) (index + 1) hs

/-- `IPv6Address._compress_hextets`. -/
def compressHextets (hextets : List (List Char)) : List (List Char) :=
  let r := bestZeroRun ⟨none, 0, 0, 0⟩ 0 hextets
  if 1 < r.bestLen then
    let stop := r.bestStart + r.bestLen
    let tail := if stop = hextets.length then [[]] else hextets.drop stop
    let cut := hextets.take r.bestStart ++ [] :: tail
    if r.bestStart = 0 then [] :: cut else cut
  else hextets

/-- `str(ip)`. -/
def IPAddress.str : IPAddress → String
  | .v4 a b c d =>
    String.ofList (['.'].intercalate ([a, b, c, d].map fun o => Nat.toDigits 10 o.toNat))
  | .v6 hs _ scope =>
    String.ofList ([':'].intercalate (compressHextets (hs.map fun h => hexText h.toNat))) ++
      match scope with
      | none => ""
      | some z => "%" ++ z

example : (ipAddress "2001:db8::1%eth0").map IPAddress.str = .ok "2001:db8::1%eth0" := by decide +kernel

end Wsnet
