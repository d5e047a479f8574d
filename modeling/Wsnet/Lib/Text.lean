import Wsnet.Lib.Buffer

/-!
# Text encodings

A string is a sequence of Unicode scalar values. UTF-8 is Lean's own; UTF-16-LE is written out:
`utf16Units` is the list of 16-bit code units of a string, two bytes each with the low byte first,
and a scalar value from `0x10000` on is a pair of surrogates. Decoding is strict, as Python's is: a
lone surrogate and half a unit raise. Both encodings are inverted by their decoder
(`utf8Decode_utf8Encode`, `utf16Decode_utf16Encode`).
-/

namespace Wsnet

/-- `s.encode()`. -/
def utf8Encode (s : String) : Bytes := s.toByteArray.data.toList

/-- `b.decode()`. -/
def utf8Decode (b : Bytes) : Except PyErr String :=
  match String.fromUTF8? ⟨b.toArray⟩ with
  | some s => .ok s
  | none => .error .unicodeDecodeError

@[simp] theorem utf8Decode_utf8Encode (s : String) : utf8Decode (utf8Encode s) = .ok s := by
  have h : (⟨(utf8Encode s).toArray⟩ : ByteArray) = s.toByteArray := by simp [utf8Encode]
  rw [utf8Decode, h, String.fromUTF8?, dif_pos s.isValidUTF8]
  rfl

theorem utf8Encode_inj {s t : String} (h : utf8Encode s = utf8Encode t) : s = t := by
  have := utf8Decode_utf8Encode s
  rw [h, utf8Decode_utf8Encode] at this
  injection this with this
  exact this.symm

@[simp] theorem utf8Encode_empty : utf8Encode "" = [] := rfl

@[simp] theorem utf8Decode_nil : utf8Decode [] = .ok "" := utf8Decode_utf8Encode ""

/-- Only the encoding of a text decodes to it. -/
theorem utf8Encode_of_utf8Decode {b : Bytes} {s : String} (h : utf8Decode b = .ok s) : utf8Encode s = b := by
  unfold utf8Decode String.fromUTF8? at h
  split at h
  · rename_i t ht
    cases h
    split at ht
    · cases ht
      simp [utf8Encode, String.fromUTF8]
    · cases ht
  · cases h

/-- How `repr` writes one byte between the quotes `quote`. -/
def byteRepr (quote b : UInt8) : String :=
  if b = quote ∨ b = 92 then "\\" ++ String.singleton (Char.ofNat b.toNat)
  else if b = 9 then "\\t"
  else if b = 10 then "\\n"
  else if b = 13 then "\\r"
  else if b < 32 ∨ 127 ≤ b then
    "\\x" ++ String.ofList [Nat.digitChar (b.toNat / 16), Nat.digitChar (b.toNat % 16)]
  else String.singleton (Char.ofNat b.toNat)

/-- `str(b)` of a byte string; double quotes (34) stand where only they do not occur in it. -/
def bytesRepr (b : Bytes) : String :=
  let quote : UInt8 := if 39 ∈ b ∧ 34 ∉ b then 34 else 39
  "b" ++ String.singleton (Char.ofNat quote.toNat) ++ String.join (b.map (byteRepr quote)) ++
    String.singleton (Char.ofNat quote.toNat)

/-! ### Characters and bytes -/

theorem length_utf8Encode (s : String) : (utf8Encode s).length = s.utf8ByteSize := by
  rw [utf8Encode, Array.length_toList, ← String.size_toByteArray]
  rfl

theorem length_utf8Encode_ofList (cs : List Char) :
    (utf8Encode (String.ofList cs)).length = (cs.map Char.utf8Size).sum := by
  rw [length_utf8Encode]
  induction cs with
  | nil => rfl
  | cons c cs ih =>
    rw [← List.singleton_append, String.ofList_append, String.utf8ByteSize_append, ih]
    simp

/-- All characters are below `0x80`. -/
def Ascii (s : String) : Prop := ∀ c ∈ s.toList, c.toNat < 0x80

instance (s : String) : Decidable (Ascii s) := List.decidableBAll (fun c : Char => c.toNat < 0x80) s.toList

/-- Every character takes a byte at least, and one of them only when it is below `0x80`. -/
theorem utf8Size_cases (c : Char) : 1 ≤ c.utf8Size ∧ (c.utf8Size = 1 ↔ c.toNat < 0x80) := by
  refine ⟨Char.utf8Size_pos c, ?_⟩
  rw [Char.utf8Size_eq_one_iff, UInt32.le_iff_toNat_le]
  exact Nat.lt_succ_iff.symm

theorem length_le_utf8Encode_ofList (cs : List Char) : cs.length ≤ (cs.map Char.utf8Size).sum ∧
    ((cs.map Char.utf8Size).sum = cs.length ↔ ∀ c ∈ cs, c.toNat < 0x80) := by
  induction cs with
  | nil => simp
  | cons c cs ih =>
    obtain ⟨hle, hiff⟩ := ih
    obtain ⟨hpos, hone⟩ := utf8Size_cases c
    rw [List.map_cons, List.sum_cons, List.length_cons, List.forall_mem_cons, ← hone, ← hiff]
    omega

theorem length_le_utf8Encode (s : String) : s.length ≤ (utf8Encode s).length := by
  have h := (length_le_utf8Encode_ofList s.toList).1
  rwa [← length_utf8Encode_ofList, String.ofList_toList, String.length_toList] at h

/-- A text has as many characters as bytes exactly when it is ASCII. -/
theorem length_utf8Encode_eq_iff (s : String) : (utf8Encode s).length = s.length ↔ Ascii s := by
  have h := (length_le_utf8Encode_ofList s.toList).2
  rwa [← length_utf8Encode_ofList, String.ofList_toList, String.length_toList] at h

/-! ### UTF-16-LE -/

/-- The code units of one scalar value. -/
def charUnits (c : Char) : List Nat :=
  if c.toNat < 0x10000 then [c.toNat]
  else [0xD800 + (c.toNat - 0x10000) / 0x400, 0xDC00 + (c.toNat - 0x10000) % 0x400]

def utf16Units (s : List Char) : List Nat := s.flatMap charUnits

/-- One code unit, low byte first. -/
def unitBytes (u : Nat) : Bytes := [UInt8.ofNat u, UInt8.ofNat (u / 256)]

/-- `s.encode('utf-16-le')`. -/
def utf16Encode (s : String) : Bytes := (utf16Units s.toList).flatMap unitBytes

/-- Pair the bytes up; `none` on an odd number of bytes. -/
def unitsOfBytes : Bytes → Option (List Nat)
  | [] => some []
  | [_] => none
  | x :: y :: rest => (unitsOfBytes rest).map ((x.toNat + 256 * y.toNat) :: ·)

/-- `none` on a lone surrogate. -/
def charsOfUnits : List Nat → Option (List Char)
  | [] => some []
  | [u] => if 0xD800 ≤ u ∧ u < 0xE000 then none else some [Char.ofNat u]
  | u :: v :: rest =>
    if 0xD800 ≤ u ∧ u < 0xDC00 then
      if 0xDC00 ≤ v ∧ v < 0xE000 then
        (charsOfUnits rest).map (Char.ofNat (0x10000 + (u - 0xD800) * 0x400 + (v - 0xDC00)) :: ·)
      else none
    else if 0xDC00 ≤ u ∧ u < 0xE000 then none
    else (charsOfUnits (v :: rest)).map (Char.ofNat u :: ·)

/-- `b.decode('utf-16-le')`. -/
def utf16Decode (b : Bytes) : Except PyErr String :=
  match (unitsOfBytes b).bind charsOfUnits with
  | some cs => .ok (String.ofList cs)
  | none => .error .unicodeDecodeError

theorem char_toNat_valid (c : Char) : c.toNat < 0xD800 ∨ 0xDFFF < c.toNat ∧ c.toNat < 0x110000 := c.valid

theorem unit_lt_of_mem_charUnits {c : Char} {u : Nat} (h : u ∈ charUnits c) : u < 0x10000 := by
  have hc := char_toNat_valid c
  unfold charUnits at h
  split at h
  · simp only [List.mem_singleton] at h
    omega
  · simp only [List.mem_cons, List.not_mem_nil, or_false] at h
    omega

theorem unitsOfBytes_flatMap_unitBytes {us : List Nat} (h : ∀ u ∈ us, u < 0x10000) :
    unitsOfBytes (us.flatMap unitBytes) = some us := by
  induction us with
  | nil => rfl
  | cons u us ih =>
    have hu := h u (List.mem_cons_self ..)
    have he : (UInt8.ofNat u).toNat + 256 * (UInt8.ofNat (u / 256)).toNat = u := by
      rw [UInt8.toNat_ofNat', UInt8.toNat_ofNat']
      omega
    simp only [List.flatMap_cons, unitBytes, List.cons_append, List.nil_append, unitsOfBytes, he]
    rw [ih fun v hv => h v (List.mem_cons_of_mem _ hv)]
    rfl

/-- Decoding takes the units of one scalar value off the front. -/
theorem charsOfUnits_charUnits_append (c : Char) (us : List Nat) :
    charsOfUnits (charUnits c ++ us) = (charsOfUnits us).map (c :: ·) := by
  have hc := char_toNat_valid c
  unfold charUnits
  split
  · have hs : ¬(0xD800 ≤ c.toNat ∧ c.toNat < 0xE000) := by omega
    cases us with
    | nil => simp [charsOfUnits, hs, Char.ofNat_toNat]
    | cons v us =>
      have h₁ : ¬(0xD800 ≤ c.toNat ∧ c.toNat < 0xDC00) := by omega
      have h₂ : ¬(0xDC00 ≤ c.toNat ∧ c.toNat < 0xE000) := by omega
      simp only [List.cons_append, List.nil_append, charsOfUnits, if_neg h₁, if_neg h₂, Char.ofNat_toNat]
  · have h₁ : 0xD800 ≤ 0xD800 + (c.toNat - 0x10000) / 0x400 ∧ 0xD800 + (c.toNat - 0x10000) / 0x400 < 0xDC00 := by
      omega
    have h₂ : 0xDC00 ≤ 0xDC00 + (c.toNat - 0x10000) % 0x400 ∧ 0xDC00 + (c.toNat - 0x10000) % 0x400 < 0xE000 := by
      omega
    have he : 0x10000 + (0xD800 + (c.toNat - 0x10000) / 0x400 - 0xD800) * 0x400 +
        (0xDC00 + (c.toNat - 0x10000) % 0x400 - 0xDC00) = c.toNat := by omega
    simp only [List.cons_append, List.nil_append, charsOfUnits, if_pos h₁, if_pos h₂, he, Char.ofNat_toNat]

theorem charsOfUnits_utf16Units (s : List Char) : charsOfUnits (utf16Units s) = some s := by
  induction s with
  | nil => rfl
  | cons c s ih =>
    rw [utf16Units, List.flatMap_cons, charsOfUnits_charUnits_append]
    exact congrArg (Option.map (c :: ·)) ih

@[simp] theorem utf16Decode_utf16Encode (s : String) : utf16Decode (utf16Encode s) = .ok s := by
  have hu : ∀ u ∈ utf16Units s.toList, u < 0x10000 := fun u hu => by
    obtain ⟨c, -, hc⟩ := List.mem_flatMap.1 hu
    exact unit_lt_of_mem_charUnits hc
  rw [utf16Decode, utf16Encode, unitsOfBytes_flatMap_unitBytes hu, Option.bind_some, charsOfUnits_utf16Units]
  simp

@[simp] theorem utf16Decode_nil : utf16Decode [] = .ok "" := rfl

/-- The encodings the protocol names in its `encoding` arguments. -/
inductive Encoding
  | utf8
  | utf16le
  deriving DecidableEq, Repr

/-- `s.encode(encoding)`. -/
def encode : Encoding → String → Bytes
  | .utf8 => utf8Encode
  | .utf16le => utf16Encode

/-- `b.decode(encoding)`. -/
def decode : Encoding → Bytes → Except PyErr String
  | .utf8 => utf8Decode
  | .utf16le => utf16Decode

@[simp] theorem decode_encode (enc : Encoding) (s : String) : decode enc (encode enc s) = .ok s := by
  cases enc
  · exact utf8Decode_utf8Encode s
  · exact utf16Decode_utf16Encode s

@[simp] theorem decode_nil (enc : Encoding) : decode enc [] = .ok "" := by
  cases enc
  · exact utf8Decode_nil
  · exact utf16Decode_nil

end Wsnet
