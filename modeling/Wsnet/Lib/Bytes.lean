import Mathlib.Data.List.Induction
import Mathlib.Tactic.Ring

/-!
# Byte strings and big-endian numbers

A byte string is a list of `UInt8`. `beBytes w n` is the `w`-byte big-endian form of `n`, `beNat`
reads a byte string of any length back as an unsigned number; they invert each other on the numbers
that fit (`beNat_beBytes`), and a string of `w` bytes is the form of the number it reads as
(`beBytes_beNat`).
-/

namespace Wsnet

/-- A Python `bytes` value. -/
abbrev Bytes := List UInt8

/-- `b in bs` -/
instance (b : Bytes) (bs : List Bytes) : Decidable (b ∈ bs) := inferInstance

/-- `int.from_bytes(b, byteorder='big', signed=False)`; the empty string reads as `0`. -/
def beNat (b : Bytes) : Nat :=
  b.foldl (fun n x => 256 * n + x.toNat) 0

/-- The `w` low-order bytes of `n`, most significant first. -/
def beBytes : Nat → Nat → Bytes
  | 0, _ => []
  | w + 1, n => beBytes w (n / 256) ++ [UInt8.ofNat n]

@[simp] theorem beNat_nil : beNat [] = 0 := rfl

@[simp] theorem beNat_append_singleton (b : Bytes) (x : UInt8) : beNat (b ++ [x]) = 256 * beNat b + x.toNat := by
  simp [beNat, List.foldl_append]

@[simp] theorem length_beBytes (w n : Nat) : (beBytes w n).length = w := by
  induction w generalizing n with
  | zero => rfl
  | succ w ih => simp [beBytes, ih]

theorem beNat_beBytes {w n : Nat} (h : n < 256 ^ w) : beNat (beBytes w n) = n := by
  induction w generalizing n with
  | zero => simp at h; simp [beBytes, h]
  | succ w ih =>
    have hq : n / 256 < 256 ^ w := by rw [pow_succ] at h; omega
    rw [beBytes, beNat_append_singleton, ih hq, UInt8.toNat_ofNat']
    omega

theorem beBytes_beNat (b : Bytes) : beBytes b.length (beNat b) = b := by
  induction b using List.reverseRecOn with
  | nil => rfl
  | append_singleton b x ih =>
    have hx : x.toNat < 256 := x.toNat_lt
    have hq : (256 * beNat b + x.toNat) / 256 = beNat b := by omega
    rw [List.length_append, List.length_singleton, beBytes, beNat_append_singleton, hq, ih]
    congr 2
    exact UInt8.toNat_inj.1 (by rw [UInt8.toNat_ofNat']; omega)

end Wsnet
