import Wsnet.Protocol.Utils
import Wsnet.Lib.IpAddress

/-!
# The messages of `protocol/connection`

`WSNConnect` and `WSNServerSocketData` write an address the same way, packed behind a version byte
when the text is an IP address and as a text behind `0xFF` otherwise; they differ in the length they
write for a text and in what their readers do with an unknown version byte. `WSNSocketData` and
`WSNServerSocketData` end in the data itself: their readers take all that is left.
-/

namespace Wsnet

/-- The address parts of `to_data`; `textLen` is the length written before a text. -/
def addressParts (ip : String) (textLen : Nat) : List Field :=
  match ipAddress ip with
  | .ok (.v4 a b c d) => [.raw [0x04], .raw (IPAddress.v4 a b c d).packed]
  | .ok (.v6 hextets len scopeId) => [.raw [0x06], .raw (IPAddress.v6 hextets len scopeId).packed]
  | .error _ => [.raw [0xFF], .int textLen 4, .raw (utf8Encode ip)]

/-- The size of an address on the wire: a version byte, and the packed address or a text behind its length. -/
def addressSize (ip : String) : Nat :=
  match ipAddress ip with
  | .ok (.v4 _ _ _ _) => 5
  | .ok (.v6 _ _ _) => 17
  | .error _ => 5 + (utf8Encode ip).length

theorem size_addressParts (ip : String) (n : Nat) : ((addressParts ip n).map Field.size).sum = addressSize ip := by
  unfold addressParts addressSize
  cases ipAddress ip with
  | ok a =>
    cases a with
    | v4 a b c d => rfl
    | v6 hextets len scopeId =>
      have hlen := IPAddress.length_packed_v6 hextets len scopeId
      simp [Field.size, hlen]
  | error e =>
    simp only [List.map_cons, List.map_nil, Field.size, List.sum_cons, List.sum_nil, List.length_singleton]
    omega

theorem inWidth_of_mem_addressParts {ip : String} {f : Field} {n : Nat} (hip : addressSize ip < 256 ^ 4)
    (hn : n ≤ (utf8Encode ip).length) (hf : f ∈ addressParts ip n) : f.InWidth := by
  unfold addressParts at hf
  unfold addressSize at hip
  cases hip' : ipAddress ip with
  | ok a =>
    rw [hip'] at hf
    cases a with
    | v4 a b c d =>
      simp only [List.mem_cons, List.not_mem_nil, or_false] at hf
      rcases hf with rfl | rfl <;> rfl
    | v6 hextets len scopeId =>
      simp only [List.mem_cons, List.not_mem_nil, or_false] at hf
      rcases hf with rfl | rfl <;> rfl
  | error e =>
    rw [hip'] at hf hip
    simp only [List.mem_cons, List.not_mem_nil, or_false] at hf hip
    rcases hf with rfl | rfl | rfl
    · rfl
    · exact ⟨by omega, by omega⟩
    · rfl

/-- `str(ipaddress.ip_address(buff.read(n)))`. -/
def readPackedIp (n : Nat) : Buf String := do
  let b ← Buf.read n
  Buf.ofExcept ((ipOfPacked b).map IPAddress.str)

/-- The branches on the version byte; `unknown` is what the reader raises after the last of them. -/
def readAddress (unknown : Bytes → PyErr) : Buf String := do
  let ipver ← Buf.read 1
  if ipver = [0x04] then readPackedIp 4
  else if ipver = [0x06] then readPackedIp 16
  else if ipver = [0xFF] then readStr
  else Buf.ofExcept (.error (unknown ipver))

/-- `bytes([n])`. -/
def singleByte (n : Int) : Except PyErr Bytes :=
  if 0 ≤ n ∧ n < 256 then .ok [UInt8.ofNat n.toNat] else .error .valueError

/-- `buff.read(n).decode()`. -/
def readText (n : Nat) : Buf String := do
  let b ← Buf.read n
  Buf.ofExcept (utf8Decode b)

/-- `bool(ord(buff.read(1)))`; `ord` of the empty string raises. -/
def readOrd : Buf Bool := do
  let b ← Buf.read 1
  Buf.ofExcept (if b = [] then .error .typeError else .ok (decide (beNat b ≠ 0)))

structure WSNConnect where
  token : Bytes
  protocol : String
  ip : String
  port : Int
  bind : Bool := false
  bindtype : Int := 1
  deriving DecidableEq, Repr

namespace WSNConnect

/-- The length before a text address is its number of characters. -/
def fields (c : WSNConnect) : List Field :=
  [.raw c.token, .raw (utf8Encode c.protocol), .part (singleByte c.bind.toInt)] ++ addressParts c.ip c.ip.length ++
    [.int c.port 2, .part (singleByte c.bindtype)]

def fromBuffer : Buf WSNConnect := do
  let token ← Buf.read 16
  let protocol ← readText 3
  let bind ← readOrd
  -- no `else` branch: `ip` is unbound when it is used
  let ip ← readAddress fun _ => .unboundLocalError
  let port ← readInt 2
  let bindtype ← readInt 1
  return { token, protocol, ip, port, bind, bindtype }

end WSNConnect

structure WSNSocketData where
  token : Bytes
  data : Bytes
  deriving DecidableEq, Repr

namespace WSNSocketData

def fields (c : WSNSocketData) : List Field := [.raw c.token, .raw c.data]

def fromBuffer : Buf WSNSocketData := do
  let token ← Buf.read 16
  let data ← Buf.readAll
  return { token, data }

theorem fromBuffer_append {token : Bytes} (data : Bytes) (h : token.length = 16) :
    fromBuffer (token ++ data) = .ok ({ token, data }, []) := by
  rw [fromBuffer, Buf.bind_run, reads_read h]
  rfl

end WSNSocketData

structure WSNServerSocketData where
  token : Bytes
  connectiontoken : Bytes
  data : Bytes
  clientip : String := ""
  clientport : Int := 0
  deriving DecidableEq, Repr

namespace WSNServerSocketData

def fields (c : WSNServerSocketData) : List Field :=
  [.raw c.token, .raw c.connectiontoken] ++ addressParts c.clientip (utf8Encode c.clientip).length ++
    [.int c.clientport 2, .raw c.data]

def fromBuffer : Buf WSNServerSocketData := do
  let token ← Buf.read 16
  let connectiontoken ← Buf.read 16
  let clientip ← readAddress fun ipver => .exception ("Invalid IP version " ++ bytesRepr ipver)
  let clientport ← readInt 2
  let data ← Buf.readAll
  return { token, connectiontoken, data, clientip, clientport }

end WSNServerSocketData

/-- `count` is always the length of the list: only the constructor sets it. -/
structure WSNResolv where
  token : Bytes
  ip_or_hostnames : List String
  deriving DecidableEq, Repr

/-- `n` texts one after another. -/
def readStrs : Nat → Buf (List String)
  | 0 => pure []
  | n + 1 => do
    let s ← readStr
    let ss ← readStrs n
    return s :: ss

theorem codes_strs (ss : List String) :
    Codes (writeFields (ss.map fun s => .str s .utf8)) (readStrs ss.length) ss := by
  induction ss with
  | nil => exact .nil []
  | cons s ss ih =>
    intro bs hbs
    obtain ⟨b, cs, hb, hcs, rfl⟩ := concat_cons_eq_ok.1 hbs
    exact (codes_str s .utf8 b hb).bind ((ih cs hcs).bind_left (.pure _))

namespace WSNResolv

def fields (c : WSNResolv) : List Field :=
  [.raw c.token, .int c.ip_or_hostnames.length 4] ++ c.ip_or_hostnames.map fun s => .str s .utf8

def fromBuffer : Buf WSNResolv := do
  let token ← Buf.read 16
  let count ← readInt 4
  let ip_or_hostnames ← readStrs count.toNat
  return { token, ip_or_hostnames }

theorem codes {c : WSNResolv} (h : c.token.length = 16) : Codes (writeFields c.fields) fromBuffer c :=
  .cons (codes_read h) <| .cons (codes_int _ 4) <| fun b hb => (codes_strs _ b hb).bind_left (.pure _)

end WSNResolv

end Wsnet
