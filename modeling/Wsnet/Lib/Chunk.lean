import Mathlib.Data.List.Basic
import Mathlib.Tactic.Common

/-!
# Reading a list in chunks

`readChunks n l` are the chunks that a loop of reads of `n` elements takes from the front of `l` until a
read comes back empty.
-/

namespace Wsnet

universe u
variable {α : Type u}

def readChunks (n : Nat) (l : List α) : List (List α) :=
  if (l.take n).isEmpty then [] else l.take n :: readChunks n (l.drop n)
termination_by l.length
decreasing_by
  rename_i h
  rw [List.isEmpty_iff, List.take_eq_nil_iff, not_or] at h
  have hl : 0 < l.length := List.length_pos_of_ne_nil h.2
  rw [List.length_drop]
  omega

@[simp] theorem readChunks_nil (n : Nat) : readChunks n ([] : List α) = [] := by
  rw [readChunks]
  simp

theorem readChunks_of_ne_nil {n : Nat} {l : List α} (hn : 0 < n) (hl : l ≠ []) :
    readChunks n l = l.take n :: readChunks n (l.drop n) := by
  have h : (l.take n).isEmpty = false := by
    rw [List.isEmpty_eq_false_iff, ne_eq, List.take_eq_nil_iff, not_or]
    exact ⟨by omega, hl⟩
  rw [readChunks, h]
  rfl

/-- Chunk by chunk, with what the rest of the list is at every read. -/
theorem readChunks_induction {n : Nat} {P : List α → Prop} (hn : 0 < n) (hnil : P [])
    (hstep : ∀ l, l ≠ [] → P (l.drop n) → P l) (l : List α) : P l := by
  induction h : l.length using Nat.strongRecOn generalizing l with
  | ind k ih =>
    rcases eq_or_ne l [] with rfl | hl
    · exact hnil
    · have hpos : 0 < l.length := List.length_pos_of_ne_nil hl
      have hlt : (l.drop n).length < k := by rw [List.length_drop]; omega
      exact hstep l hl (ih _ hlt _ rfl)

theorem flatten_readChunks {n : Nat} (hn : 0 < n) (l : List α) : (readChunks n l).flatten = l := by
  induction l using readChunks_induction hn with
  | hnil => simp
  | hstep l hl ih => rw [readChunks_of_ne_nil hn hl, List.flatten_cons, ih, List.take_append_drop]

theorem length_le_of_mem_readChunks {n : Nat} (hn : 0 < n) {l c : List α} (hc : c ∈ readChunks n l) : c.length ≤ n := by
  induction l using readChunks_induction hn with
  | hnil => simp at hc
  | hstep l hl ih =>
    rw [readChunks_of_ne_nil hn hl, List.mem_cons] at hc
    rcases hc with rfl | hc
    · exact List.length_take_le n l
    · exact ih hc

end Wsnet
