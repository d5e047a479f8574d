import Mathlib.Data.List.Basic
import Mathlib.Tactic.Common

/-!
# The content of a file

Reading and writing at an offset. A write behind the end fills the gap, and a write of nothing does nothing,
wherever it stands (`getElem?_overwrite` says what a write does to every element). Two writes, one behind the
other, are one (`overwrite_append`).
-/

namespace Wsnet

universe u
variable {α : Type u}

/-- The elements from `a` to `b`. -/
def slice (l : List α) (a b : Nat) : List α := (l.drop a).take (b - a)

/-- `data` written over `l` from `off` on, with `zero` in a gap. -/
def overwrite (zero : α) (l : List α) (off : Nat) (data : List α) : List α :=
  if data = [] then l
  else l.take off ++ List.replicate (off - l.length) zero ++ data ++ l.drop (off + data.length)

variable {zero : α} {l d₁ d₂ : List α} {off : Nat}

@[simp] theorem overwrite_nil (zero : α) (l : List α) (off : Nat) : overwrite zero l off [] = l := by simp [overwrite]

theorem overwrite_of_ne_nil {data : List α} (h : data ≠ []) : overwrite zero l off data =
    l.take off ++ List.replicate (off - l.length) zero ++ data ++ l.drop (off + data.length) := by
  simp [overwrite, h]

theorem length_front (zero : α) (l : List α) (off : Nat) :
    (l.take off ++ List.replicate (off - l.length) zero).length = off := by
  rw [List.length_append, List.length_take, List.length_replicate]
  omega

theorem overwrite_append :
    overwrite zero (overwrite zero l off d₁) (off + d₁.length) d₂ = overwrite zero l off (d₁ ++ d₂) := by
  rcases eq_or_ne d₁ [] with rfl | h₁
  · simp
  rcases eq_or_ne d₂ [] with rfl | h₂
  · simp
  have hfront := length_front zero l off
  generalize hf : l.take off ++ List.replicate (off - l.length) zero = front at hfront
  have hone : overwrite zero l off d₁ = front ++ d₁ ++ l.drop (off + d₁.length) := by rw [overwrite_of_ne_nil h₁, hf]
  have hlen : (front ++ d₁).length = off + d₁.length := by rw [List.length_append, hfront]
  have hgap : off + d₁.length - (front ++ d₁ ++ l.drop (off + d₁.length)).length = 0 := by
    rw [List.length_append, hlen]
    omega
  have hdrop : (front ++ d₁ ++ l.drop (off + d₁.length)).drop (off + d₁.length + d₂.length) =
      l.drop (off + (d₁ ++ d₂).length) := by
    rw [← List.drop_drop, List.drop_left' hlen, List.drop_drop, List.length_append, Nat.add_assoc]
  rw [hone, overwrite_of_ne_nil h₂, List.take_left' hlen, hgap, hdrop, overwrite_of_ne_nil (by simp [h₁]), hf]
  simp

/-- What a write does to every element. -/
theorem getElem?_overwrite {data : List α} (h : data ≠ []) (i : Nat) : (overwrite zero l off data)[i]? =
    if i < off then (if i < l.length then l[i]? else some zero)
    else if i < off + data.length then data[i - off]?
    else l[i]? := by
  have hfront := length_front zero l off
  rw [overwrite_of_ne_nil h]
  by_cases hi : i < off
  · rw [if_pos hi, List.append_assoc, List.getElem?_append_left (by omega)]
    by_cases hl : i < l.length
    · rw [if_pos hl, List.getElem?_append_left (by rw [List.length_take]; omega), List.getElem?_take_of_lt hi]
    · rw [if_neg hl, List.getElem?_append_right (by rw [List.length_take]; omega), List.length_take,
        List.getElem?_replicate,
        if_pos (by omega)]
  · rw [if_neg hi]
    by_cases hd : i < off + data.length
    · rw [if_pos hd, List.append_assoc, List.getElem?_append_right (by omega), hfront,
        List.getElem?_append_left (by omega)]
    · rw [if_neg hd, List.getElem?_append_right (by rw [List.length_append]; omega), List.length_append, hfront,
        List.getElem?_drop]
      congr 1
      omega

/-- Two reads, one behind the other, are one. -/
theorem take_drop_append (l : List α) (a m n : Nat) :
    (l.drop a).take m ++ (l.drop (a + m)).take n = (l.drop a).take (m + n) := by
  rw [← List.drop_drop, List.take_add]

end Wsnet
