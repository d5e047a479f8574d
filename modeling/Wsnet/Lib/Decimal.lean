import Wsnet.Lib.Buffer
import Mathlib.Data.Int.Basic

/-!
# Decimal texts

`pyStr n` is `str(n)` and `pyInt s` is `int(s)` for a string in base 10: white space around the
number, one sign, and digits of any Unicode decimal system with single underscores between them.
The interpreter's configurable limit on the number of digits is left out. `pyInt_pyStr`: `int`
inverts `str`.
-/

namespace Wsnet

/-- The code points of the decimal digits zero. -/
def decimalZeros : List Nat :=
  [0x30, 0x660, 0x6F0, 0x7C0, 0x966, 0x9E6, 0xA66, 0xAE6, 0xB66, 0xBE6, 0xC66, 0xCE6, 0xD66, 0xDE6, 0xE50,
    0xED0, 0xF20, 0x1040, 0x1090, 0x17E0, 0x1810, 0x1946, 0x19D0, 0x1A80, 0x1A90, 0x1B50, 0x1BB0, 0x1C40,
    0x1C50, 0xA620, 0xA8D0, 0xA900, 0xA9D0, 0xA9F0, 0xAA50, 0xABF0, 0xFF10, 0x104A0, 0x10D30, 0x11066,
    0x110F0, 0x11136, 0x111D0, 0x112F0, 0x11450, 0x114D0, 0x11650, 0x116C0, 0x11730, 0x118E0, 0x11950,
    0x11C50, 0x11D50, 0x11DA0, 0x16A60, 0x16AC0, 0x16B50, 0x1D7CE, 0x1D7D8, 0x1D7E2, 0x1D7EC, 0x1D7F6,
    0x1E140, 0x1E2F0, 0x1E950, 0x1FBF0]

/-- The value of a decimal digit. -/
def toDecimal (c : Char) : Option Nat :=
  (decimalZeros.find? fun z => z ≤ c.toNat ∧ c.toNat < z + 10).map (c.toNat - ·)

/-- The white space `int` strips. -/
def isIntSpace (c : Char) : Bool :=
  (9 ≤ c.toNat ∧ c.toNat ≤ 13) ∨ c.toNat = 0x20 ∨ c.toNat = 0x85 ∨ c.toNat = 0xA0 ∨ c.toNat = 0x1680 ∨
    (0x2000 ≤ c.toNat ∧ c.toNat ≤ 0x200A) ∨ c.toNat = 0x2028 ∨ c.toNat = 0x2029 ∨ c.toNat = 0x202F ∨
    c.toNat = 0x205F ∨ c.toNat = 0x3000

/-- The digits of a number read so far are worth `acc`; `afterDigit` says whether the last character
was a digit, so that an underscore or the end may follow. -/
def parseDigits (afterDigit : Bool) (acc : Nat) : List Char → Option Nat
  | [] => if afterDigit then some acc else none
  | c :: cs =>
    if c = '_' then if afterDigit then parseDigits false acc cs else none
    else
      match toDecimal c with
      | some d => parseDigits true (10 * acc + d) cs
      | none => none

/-- The sign and the digits. -/
def parseSigned : List Char → Option Int
  | '-' :: ds => (parseDigits false 0 ds).map fun n => -(n : Int)
  | '+' :: ds => (parseDigits false 0 ds).map fun n => (n : Int)
  | ds => (parseDigits false 0 ds).map fun n => (n : Int)

/-- Drop the white space around. -/
def stripSpace (cs : List Char) : List Char :=
  ((cs.dropWhile isIntSpace).reverse.dropWhile isIntSpace).reverse

/-- `int(s)`. -/
def pyInt (s : String) : Except PyErr Int :=
  match parseSigned (stripSpace s.toList) with
  | some n => .ok n
  | none => .error .valueError

/-- `str(n)`. -/
def pyStr (n : Int) : String := n.repr

theorem isDigit_iff {c : Char} : c.isDigit = true ↔ 48 ≤ c.toNat ∧ c.toNat ≤ 57 := by
  simp only [Char.isDigit, Bool.and_eq_true, decide_eq_true_eq, ge_iff_le]
  exact Iff.rfl

theorem toDecimal_of_isDigit {c : Char} (h : c.isDigit = true) : toDecimal c = some (c.toNat - '0'.toNat) := by
  obtain ⟨h₁, h₂⟩ := isDigit_iff.1 h
  have hz : (decimalZeros.find? fun z => z ≤ c.toNat ∧ c.toNat < z + 10) = some 0x30 :=
    List.find?_cons_of_pos (by simp only [decide_eq_true_eq]; omega)
  rw [toDecimal, hz]
  rfl

theorem parseDigits_eq {ds : List Char} (h : ∀ c ∈ ds, c.isDigit = true) (acc : Nat) (b : Bool)
    (hb : b = true ∨ ds ≠ []) :
    parseDigits b acc ds = some (Nat.ofDigitChars 10 ds acc) := by
  induction ds generalizing acc b with
  | nil => simp_all [parseDigits]
  | cons c cs ih =>
    have hc := h c (List.mem_cons_self ..)
    have hne : c ≠ '_' := by rintro rfl; exact absurd hc (by decide)
    rw [parseDigits, if_neg hne, toDecimal_of_isDigit hc, Nat.ofDigitChars_cons]
    exact ih (fun d hd => h d (List.mem_cons_of_mem _ hd)) _ true (.inl rfl)

theorem not_isIntSpace_of_isDigit {c : Char} (h : c.isDigit = true) : isIntSpace c = false := by
  have := isDigit_iff.1 h
  simp only [isIntSpace, decide_eq_false_iff_not]
  omega

/-- A text that neither starts nor ends with white space is left as it is. -/
theorem stripSpace_eq {cs : List Char} (h : ∀ c ∈ cs, isIntSpace c = false) : stripSpace cs = cs := by
  have hd : ∀ l : List Char, (∀ c ∈ l, isIntSpace c = false) → l.dropWhile isIntSpace = l := by
    intro l hl
    cases l with
    | nil => rfl
    | cons c l => exact List.dropWhile_cons_of_neg (by simp [hl c (List.mem_cons_self ..)])
  rw [stripSpace, hd cs h, hd cs.reverse fun c hc => h c (List.mem_reverse.1 hc), List.reverse_reverse]

theorem toDigits_isDigit {n : Nat} {c : Char} (hc : c ∈ Nat.toDigits 10 n) : c.isDigit = true :=
  Nat.isDigit_of_mem_toDigits (by decide) (by decide) hc

theorem parseDigits_toDigits (n : Nat) : parseDigits false 0 (Nat.toDigits 10 n) = some n := by
  rw [parseDigits_eq (fun _ => toDigits_isDigit) 0 false (.inr Nat.toDigits_ne_nil), Nat.ofDigitChars_ten_toDigits]

theorem parseSigned_of_isDigit {ds : List Char} (h : ∀ c ∈ ds, c.isDigit = true) :
    parseSigned ds = (parseDigits false 0 ds).map fun n => (n : Int) := by
  unfold parseSigned
  split
  · exact absurd (h '-' (List.mem_cons_self ..)) (by decide)
  · exact absurd (h '+' (List.mem_cons_self ..)) (by decide)
  · rfl

theorem pyInt_repr (n : Nat) : pyInt n.repr = .ok n := by
  rw [pyInt, Nat.toList_repr, stripSpace_eq fun c hc => not_isIntSpace_of_isDigit (toDigits_isDigit hc),
    parseSigned_of_isDigit fun _ => toDigits_isDigit, parseDigits_toDigits]
  rfl

theorem pyInt_neg_repr (n : Nat) : pyInt ("-" ++ n.repr) = .ok (-(n : Int)) := by
  have hl : ("-" ++ n.repr).toList = '-' :: Nat.toDigits 10 n := by simp
  have hs : ∀ c ∈ '-' :: Nat.toDigits 10 n, isIntSpace c = false := by
    intro c hc
    rcases List.mem_cons.1 hc with rfl | hc
    · decide
    · exact not_isIntSpace_of_isDigit (toDigits_isDigit hc)
  rw [pyInt, hl, stripSpace_eq hs, parseSigned, parseDigits_toDigits]
  rfl

@[simp] theorem pyInt_pyStr (n : Int) : pyInt (pyStr n) = .ok n := by
  rw [pyStr, Int.repr_eq_if]
  split
  · rw [pyInt_repr, Int.toNat_of_nonneg ‹_›]
  · rw [pyInt_neg_repr, Int.toNat_of_nonneg (by omega), Int.neg_neg]

end Wsnet
