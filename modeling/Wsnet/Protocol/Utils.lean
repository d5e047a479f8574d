import Wsnet.Lib.Text
import Wsnet.Lib.Decimal
import Mathlib.Tactic

/-!
# Protocol numbers and field encodings

`CMDType` are the message numbers of `cmdtypes.py`; `DISCONNECT` has a number and no class. The
helpers of `utils.py` write and read a byte string or a text behind its 4-byte length. Each writer
is given with its reader, the lemma `codes_…` that they agree, and `accepts_…`, when the reader
raises on arbitrary bytes: a field that is cut short is read short and never raises by itself.
-/

namespace Wsnet

/-- `cmdtypes.CMDType`. -/
inductive CMDType
  | OK | ERR | NOP | LOG | STOP | CONTINUE | CONNECT | DISCONNECT | SD | GETINFO | GETINFOREPLY | AUTHERR
  | NTLMAUTH | NTLMAUTHREPLY | NTLMCHALL | NTLMCHALLREPLY | KERBEROS | KERBEROSREPLY | SESSIONKEY
  | SESSIONKEYREPLY | SEQUENCE | SEQUENCEREPLY | LISTAGENTS | AGENTINFO | SDSRV | WRAPSSL | RESOLV
  | DIRLS | DIRMK | DIRRM | DIRCOPY | DIRMOVE | FILEOPEN | FILEREAD | FILEDATA | FILEENTRY | FILECOPY
  | FILEMOVE | FILERM | FILESTAT | PROCLIST | PROCSTART | PROCKILL | PROCINFO | PROCSTD
  deriving DecidableEq, Repr

namespace CMDType

/-- `CMDType.X.value`. -/
def value : CMDType → Nat
  | OK => 0 | ERR => 1 | NOP => 254 | LOG => 2 | STOP => 3 | CONTINUE => 4 | CONNECT => 5 | DISCONNECT => 6
  | SD => 7 | GETINFO => 8 | GETINFOREPLY => 9 | AUTHERR => 10 | NTLMAUTH => 11 | NTLMAUTHREPLY => 12
  | NTLMCHALL => 13 | NTLMCHALLREPLY => 14 | KERBEROS => 15 | KERBEROSREPLY => 16 | SESSIONKEY => 17
  | SESSIONKEYREPLY => 18 | SEQUENCE => 19 | SEQUENCEREPLY => 20 | LISTAGENTS => 100 | AGENTINFO => 101
  | SDSRV => 200 | WRAPSSL => 201 | RESOLV => 202 | DIRLS => 300 | DIRMK => 301 | DIRRM => 302 | DIRCOPY => 303
  | DIRMOVE => 304 | FILEOPEN => 305 | FILEREAD => 306 | FILEDATA => 307 | FILEENTRY => 308 | FILECOPY => 309
  | FILEMOVE => 310 | FILERM => 311 | FILESTAT => 312 | PROCLIST => 400 | PROCSTART => 401 | PROCKILL => 402
  | PROCINFO => 403 | PROCSTD => 404

def all : List CMDType :=
  [OK, ERR, NOP, LOG, STOP, CONTINUE, CONNECT, DISCONNECT, SD, GETINFO, GETINFOREPLY, AUTHERR, NTLMAUTH,
    NTLMAUTHREPLY, NTLMCHALL, NTLMCHALLREPLY, KERBEROS, KERBEROSREPLY, SESSIONKEY, SESSIONKEYREPLY, SEQUENCE,
    SEQUENCEREPLY, LISTAGENTS, AGENTINFO, SDSRV, WRAPSSL, RESOLV, DIRLS, DIRMK, DIRRM, DIRCOPY, DIRMOVE, FILEOPEN,
    FILEREAD, FILEDATA, FILEENTRY, FILECOPY, FILEMOVE, FILERM, FILESTAT, PROCLIST, PROCSTART, PROCKILL, PROCINFO,
    PROCSTD]

/-- `CMDType(n)`. -/
def ofValue (n : Nat) : Except PyErr CMDType :=
  match all.find? (·.value == n) with
  | some t => .ok t
  | none => .error .valueError

/-- `self.type.value.to_bytes(2, byteorder='big', signed=False)`. -/
def toBytes (t : CMDType) : Bytes := beBytes 2 t.value

theorem ofValue_value (t : CMDType) : ofValue t.value = .ok t := by cases t <;> rfl

theorem ofValue_eq_ok {n : Nat} {t : CMDType} : ofValue n = .ok t ↔ t.value = n := by
  constructor
  · intro h
    unfold ofValue at h
    split at h
    · rename_i t' ht
      cases h
      simpa using List.find?_some ht
    · cases h
  · rintro rfl
    exact ofValue_value t

theorem value_lt (t : CMDType) : t.value < 256 ^ 2 := by cases t <;> decide

@[simp] theorem length_toBytes (t : CMDType) : t.toBytes.length = 2 := length_beBytes 2 t.value

@[simp] theorem beNat_toBytes (t : CMDType) : beNat t.toBytes = t.value := beNat_beBytes t.value_lt

theorem toBytes_inj {t t' : CMDType} (h : t.toBytes = t'.toBytes) : t = t' := by
  have hvalue : t.value = t'.value := by rw [← beNat_toBytes, h, beNat_toBytes]
  exact Except.ok.inj ((ofValue_value t).symm.trans (hvalue ▸ ofValue_value t'))

end CMDType

/-! ### Integers -/

/-- `n.to_bytes(w, byteorder='big', signed=False)`. -/
def intToBytes (n : Int) (w : Nat) : Except PyErr Bytes :=
  if 0 ≤ n ∧ n < 256 ^ w then .ok (beBytes w n.toNat) else .error .overflowError

/-- `int.from_bytes(buff.read(w), byteorder='big', signed=False)`. -/
def readInt (w : Nat) : Buf Int := do
  let b ← Buf.read w
  return (beNat b : Int)

theorem intToBytes_eq_ok {n : Int} {w : Nat} {b : Bytes} :
    intToBytes n w = .ok b ↔ (0 ≤ n ∧ n < 256 ^ w) ∧ beBytes w n.toNat = b := by
  unfold intToBytes
  split <;> simp_all

theorem overflowError_of_intToBytes {n : Int} {w : Nat} {e : PyErr} (h : intToBytes n w = .error e) :
    e = .overflowError := by
  unfold intToBytes at h
  split at h
  · cases h
  · exact (Except.error.inj h).symm

theorem beNat_of_intToBytes {n : Int} {w : Nat} {b : Bytes} (h : intToBytes n w = .ok b) :
    (beNat b : Int) = n ∧ b.length = w := by
  obtain ⟨⟨h₀, h₁⟩, rfl⟩ := intToBytes_eq_ok.1 h
  have hlt : n.toNat < 256 ^ w := by zify; rwa [Int.toNat_of_nonneg h₀]
  exact ⟨by rw [beNat_beBytes hlt, Int.toNat_of_nonneg h₀], length_beBytes ..⟩

theorem codes_int (n : Int) (w : Nat) : Codes (intToBytes n w) (readInt w) n := by
  intro b hb
  obtain ⟨hn, hl⟩ := beNat_of_intToBytes hb
  have := (reads_read hl).bind_left (f := fun b => pure (beNat b : Int)) (Reads.pure (beNat b : Int))
  rwa [hn] at this

theorem readInt_run (w : Nat) (b : Bytes) : readInt w b = .ok ((beNat (b.take w) : Int), b.drop w) := rfl

/-- `len(data).to_bytes(4, byteorder='big', signed=False)`. -/
def lenToBytes (n : Nat) : Except PyErr Bytes := intToBytes n 4

theorem lenToBytes_eq_ok {n : Nat} {b : Bytes} : lenToBytes n = .ok b ↔ n < 256 ^ 4 ∧ beBytes 4 n = b := by
  unfold lenToBytes
  rw [intToBytes_eq_ok]
  simp only [Int.toNat_natCast]
  constructor
  · rintro ⟨⟨-, h⟩, rfl⟩; exact ⟨by exact_mod_cast h, rfl⟩
  · rintro ⟨h, rfl⟩; exact ⟨⟨by omega, by exact_mod_cast h⟩, rfl⟩

/-! ### Length-prefixed fields -/

/-- `utils.writeBytes`. -/
def writeBytes (data : Bytes) : Except PyErr Bytes := concat [lenToBytes data.length, .ok data]

/-- `utils.readBytes`. -/
def readBytes : Buf Bytes := do
  let strlen ← readInt 4
  Buf.read strlen.toNat

/-- `utils.writeStr` of a text. -/
def writeStr (data : String) (enc : Encoding := .utf8) : Except PyErr Bytes := writeBytes (encode enc data)

/-- `utils.writeStr` of an integer, which it turns into a text first. -/
def writeStrInt (n : Int) : Except PyErr Bytes := writeStr (pyStr n)

/-- `utils.readStr`. -/
def readStr (enc : Encoding := .utf8) : Buf String := do
  let b ← readBytes
  Buf.ofExcept (decode enc b)

/-- `int(readStr(buff))`. -/
def readStrInt : Buf Int := do
  let s ← readStr
  Buf.ofExcept (pyInt s)

/-- The bytes a length-prefixed field at the front of `b` declares, as far as they are there. -/
def fieldOf (b : Bytes) : Bytes := (b.drop 4).take (beNat (b.take 4))

/-- What is left of `b` after a length-prefixed field. -/
def afterField (b : Bytes) : Bytes := (b.drop 4).drop (beNat (b.take 4))

theorem readStr_run (enc : Encoding) (b : Bytes) :
    readStr enc b = (decode enc (fieldOf b)).map (·, afterField b) :=
  Buf.bind_ofExcept_run (show readBytes b = (Except.ok (fieldOf b)).map (·, afterField b) from rfl)

theorem readStrInt_run (b : Bytes) : readStrInt b = ((utf8Decode (fieldOf b)).bind pyInt).map (·, afterField b) :=
  Buf.bind_ofExcept_run (readStr_run .utf8 b)

theorem writeBytes_eq_ok {data b : Bytes} :
    writeBytes data = .ok b ↔ data.length < 256 ^ 4 ∧ b = beBytes 4 data.length ++ data := by
  unfold writeBytes
  rw [concat_cons_eq_ok]
  constructor
  · rintro ⟨l, d, hl, hd, rfl⟩
    obtain ⟨hlt, rfl⟩ := lenToBytes_eq_ok.1 hl
    cases hd
    exact ⟨hlt, by simp⟩
  · rintro ⟨hlt, rfl⟩
    exact ⟨_, data, lenToBytes_eq_ok.2 ⟨hlt, rfl⟩, by simp [concat_cons_ok, Except.map], rfl⟩

theorem writeStr_eq_ok {s : String} {enc : Encoding} {b : Bytes} : writeStr s enc = .ok b ↔
    (encode enc s).length < 256 ^ 4 ∧ b = beBytes 4 (encode enc s).length ++ encode enc s := by
  rw [writeStr, writeBytes_eq_ok]

theorem codes_bytes (data : Bytes) : Codes (writeBytes data) readBytes data := by
  intro b hb
  obtain ⟨hlt, rfl⟩ := writeBytes_eq_ok.1 hb
  have hn : beNat (beBytes 4 data.length) = data.length := beNat_beBytes hlt
  exact (codes_int data.length 4 _ (by rw [← lenToBytes, lenToBytes_eq_ok]; exact ⟨hlt, rfl⟩)).bind
    (reads_read (by simp))

theorem codes_str (s : String) (enc : Encoding) : Codes (writeStr s enc) (readStr enc) s := fun b hb =>
  (codes_bytes _ b hb).bind_left (by rw [decode_encode]; exact reads_ofExcept s)

theorem codes_strInt (n : Int) : Codes (writeStrInt n) readStrInt n := fun b hb =>
  (codes_str _ .utf8 b hb).bind_left (by rw [pyInt_pyStr]; exact reads_ofExcept n)

/-! ### Fields -/

/-- One part of what a `to_data` writes. -/
inductive Field
  /-- An expression of its own, which may raise. -/
  | part (w : Except PyErr Bytes)
  /-- `n.to_bytes(w, byteorder='big', signed=False)` -/
  | int (n : Int) (w : Nat)
  /-- `writeBytes(buff, data)` -/
  | bytes (data : Bytes)
  /-- `writeStr(buff, s, encoding=enc)` -/
  | str (s : String) (enc : Encoding)
  /-- `writeStr(buff, n)` -/
  | strInt (n : Int)

namespace Field

/-- Bytes as they are. -/
abbrev raw (b : Bytes) : Field := part (.ok b)

def write : Field → Except PyErr Bytes
  | part w => w
  | int n w => intToBytes n w
  | bytes data => writeBytes data
  | str s enc => writeStr s enc
  | strInt n => writeStrInt n

/-- The number of bytes a field takes when it is written. -/
def size : Field → Nat
  | part (.ok b) => b.length
  | part (.error _) => 0
  | int _ w => w
  | bytes data => 4 + data.length
  | str s enc => 4 + (encode enc s).length
  | strInt n => 4 + (utf8Encode (pyStr n)).length

/-- The value is one the encoding has room for, whatever the length of a text. -/
def InWidth : Field → Prop
  | part w => w.isOk
  | int n w => 0 ≤ n ∧ n < 256 ^ w
  | bytes _ => True
  | str _ _ => True
  | strInt n => -(2 ^ 63) ≤ n ∧ n < 2 ^ 64

theorem length_of_write {f : Field} {b : Bytes} (h : f.write = .ok b) : b.length = f.size := by
  cases f with
  | part w => cases h; rfl
  | int n w => exact (beNat_of_intToBytes h).2
  | bytes data => obtain ⟨-, rfl⟩ := writeBytes_eq_ok.1 h; simp [size]
  | str s enc => obtain ⟨-, rfl⟩ := writeStr_eq_ok.1 h; simp [size]
  | strInt n =>
    rw [write, writeStrInt, writeStr_eq_ok] at h
    simp [h.2, size, encode]

/-- A value in width is written when its field is not itself too long for a length of four bytes. -/
theorem write_of_inWidth {f : Field} (hw : f.InWidth) (hs : f.size < 256 ^ 4) : ∃ b, f.write = .ok b := by
  cases f with
  | part w => cases w with
    | ok b => exact ⟨b, rfl⟩
    | error e => cases hw
  | int n w => exact ⟨_, intToBytes_eq_ok.2 ⟨hw, rfl⟩⟩
  | bytes data => exact ⟨_, writeBytes_eq_ok.2 ⟨by simp only [size] at hs; omega, rfl⟩⟩
  | str s enc => exact ⟨_, writeStr_eq_ok.2 ⟨by simp only [size] at hs; omega, rfl⟩⟩
  | strInt n =>
    simp only [size] at hs
    simp only [write, writeStrInt, writeStr_eq_ok, encode]
    exact ⟨_, by omega, rfl⟩

/-- What is written is in width, but for integers written as texts, which have no bounds of their own. -/
theorem inWidth_of_write {f : Field} {b : Bytes} (h : f.write = .ok b) (hn : ∀ n, f ≠ strInt n) : f.InWidth := by
  cases f with
  | part w => rw [write] at h; rw [InWidth, h]; rfl
  | int n w => exact (intToBytes_eq_ok.1 h).1
  | bytes data => trivial
  | str s enc => trivial
  | strInt n => exact absurd rfl (hn n)

end Field

/-- The fields one after another. -/
def writeFields (fs : List Field) : Except PyErr Bytes := concat (fs.map Field.write)

theorem length_of_writeFields {fs : List Field} {b : Bytes} (h : writeFields fs = .ok b) :
    b.length = (fs.map Field.size).sum := by
  induction fs generalizing b with
  | nil => cases h; rfl
  | cons f fs ih =>
    obtain ⟨x, y, hx, hy, rfl⟩ := concat_cons_eq_ok.1 h
    rw [List.length_append, Field.length_of_write hx, ih hy, List.map_cons, List.sum_cons]

theorem write_of_writeFields {fs : List Field} {b : Bytes} (h : writeFields fs = .ok b) {f : Field} (hf : f ∈ fs) :
    ∃ x, f.write = .ok x := by
  induction fs generalizing b with
  | nil => simp at hf
  | cons g fs ih =>
    obtain ⟨x, y, hx, hy, -⟩ := concat_cons_eq_ok.1 h
    rcases List.mem_cons.1 hf with rfl | hf
    · exact ⟨x, hx⟩
    · exact ih hy hf

theorem writeFields_of_inWidth {fs : List Field} (hw : ∀ f ∈ fs, f.InWidth) (hs : (fs.map Field.size).sum < 256 ^ 4) :
    ∃ b, writeFields fs = .ok b := by
  induction fs with
  | nil => exact ⟨[], rfl⟩
  | cons f fs ih =>
    rw [List.map_cons, List.sum_cons] at hs
    obtain ⟨x, hx⟩ := Field.write_of_inWidth (hw f List.mem_cons_self) (by omega)
    obtain ⟨y, hy⟩ := ih (fun f hf => hw f (List.mem_cons_of_mem _ hf)) (by omega)
    exact ⟨x ++ y, concat_cons_eq_ok.2 ⟨x, y, hx, hy, rfl⟩⟩

end Wsnet
