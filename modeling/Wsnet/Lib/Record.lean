import Mathlib.Data.List.Basic
import Mathlib.Tactic.Common

/-!
# Records behind a header that tells their length

A `RecordFormat` is a header of fixed size from which the length of the body is read. `records b` are the
whole records at the front of `b` and `tail b` is what is left, which begins with no whole record
(`not_whole_tail`). Both can be computed piece by piece: only the tail is needed to go on
(`records_append`, `tail_append`).
-/

namespace Wsnet

universe u

structure RecordFormat (α : Type u) where
  header : Nat
  header_pos : 0 < header
  bodyLen : List α → Nat
  /-- The header alone tells the length. -/
  bodyLen_append : ∀ (b rest : List α), header ≤ b.length → bodyLen (b ++ rest) = bodyLen b

namespace RecordFormat
variable {α : Type u} (F : RecordFormat α)

/-- The length of the record at the front. -/
def recordLen (b : List α) : Nat := F.header + F.bodyLen b

/-- `b` begins with a whole record. -/
def Whole (b : List α) : Prop := F.recordLen b ≤ b.length

instance (b : List α) : Decidable (F.Whole b) := inferInstanceAs (Decidable (_ ≤ _))

def first (b : List α) : List α := b.take (F.recordLen b)

def behind (b : List α) : List α := b.drop (F.recordLen b)

theorem length_behind_lt {b : List α} (h : F.Whole b) : (F.behind b).length < b.length := by
  have hpos := F.header_pos
  simp only [Whole, recordLen] at h
  rw [behind, recordLen, List.length_drop]
  omega

def records (b : List α) : List (List α) :=
  if F.Whole b then F.first b :: records (F.behind b) else []
termination_by b.length
decreasing_by exact F.length_behind_lt ‹F.Whole b›

def tail (b : List α) : List α :=
  if F.Whole b then tail (F.behind b) else b
termination_by b.length
decreasing_by exact F.length_behind_lt ‹F.Whole b›

variable {F} {b : List α}

theorem records_of_whole (h : F.Whole b) : F.records b = F.first b :: F.records (F.behind b) := by
  rw [records, if_pos h]

theorem tail_of_whole (h : F.Whole b) : F.tail b = F.tail (F.behind b) := by
  rw [tail, if_pos h]

theorem records_of_not_whole (h : ¬ F.Whole b) : F.records b = [] := by
  rw [records, if_neg h]

theorem tail_of_not_whole (h : ¬ F.Whole b) : F.tail b = b := by
  rw [tail, if_neg h]

theorem records_induction {P : List α → Prop} (hwhole : ∀ b, F.Whole b → P (F.behind b) → P b)
    (hnot : ∀ b, ¬ F.Whole b → P b) (b : List α) : P b := by
  induction h : b.length using Nat.strongRecOn generalizing b with
  | ind n ih =>
    by_cases hb : F.Whole b
    · have hlt : (F.behind b).length < n := h ▸ F.length_behind_lt hb
      exact hwhole b hb (ih _ hlt _ rfl)
    · exact hnot b hb

theorem not_whole_tail (b : List α) : ¬ F.Whole (F.tail b) := by
  induction b using records_induction (F := F) with
  | hwhole b hb ih => rwa [tail_of_whole hb]
  | hnot b hb => rwa [tail_of_not_whole hb]

theorem length_tail_le (b : List α) : (F.tail b).length ≤ b.length := by
  induction b using records_induction (F := F) with
  | hwhole b hb ih =>
    have hlt := F.length_behind_lt hb
    rw [tail_of_whole hb]
    omega
  | hnot b hb => exact Nat.le_of_eq (by rw [tail_of_not_whole hb])

theorem records_eq_nil_iff : F.records b = [] ↔ ¬ F.Whole b := by
  constructor
  · intro h hb
    rw [records_of_whole hb] at h
    cases h
  · exact records_of_not_whole

section Append
variable (h : F.Whole b) (rest : List α)
include h

theorem recordLen_append : F.recordLen (b ++ rest) = F.recordLen b := by
  have hle : F.header ≤ b.length := by simp only [Whole, recordLen] at h; omega
  rw [recordLen, recordLen, F.bodyLen_append b rest hle]

theorem whole_append : F.Whole (b ++ rest) := by
  simp only [Whole, recordLen_append h, List.length_append] at h ⊢
  omega

theorem first_append : F.first (b ++ rest) = F.first b := by
  rw [first, first, recordLen_append h, List.take_append_of_le_length h]

theorem behind_append : F.behind (b ++ rest) = F.behind b ++ rest := by
  rw [behind, behind, recordLen_append h, List.drop_append_of_le_length h]

end Append

theorem records_append (b rest : List α) : F.records (b ++ rest) = F.records b ++ F.records (F.tail b ++ rest) := by
  induction b using records_induction (F := F) with
  | hwhole b hb ih =>
    rw [records_of_whole (whole_append hb rest), first_append hb, behind_append hb, ih, records_of_whole hb,
      tail_of_whole hb, List.cons_append]
  | hnot b hb => rw [records_of_not_whole hb, tail_of_not_whole hb, List.nil_append]

theorem tail_append (b rest : List α) : F.tail (b ++ rest) = F.tail (F.tail b ++ rest) := by
  induction b using records_induction (F := F) with
  | hwhole b hb ih => rw [tail_of_whole (whole_append hb rest), behind_append hb, ih, tail_of_whole hb]
  | hnot b hb => rw [tail_of_not_whole hb]

/-- Nothing is left, and the last record has no body. -/
def EndsEmpty (F : RecordFormat α) (b : List α) : Prop :=
  F.tail b = [] ∧ ∃ r, (F.records b).getLast? = some r ∧ r.length = F.header

theorem endsEmpty_append {b rest : List α} (h : F.tail b ++ rest ≠ []) :
    F.EndsEmpty (b ++ rest) ↔ F.EndsEmpty (F.tail b ++ rest) := by
  rw [EndsEmpty, EndsEmpty, tail_append, records_append]
  refine and_congr_right fun htail => ?_
  have hne : F.records (F.tail b ++ rest) ≠ [] := by
    intro hnil
    rw [tail_of_not_whole (records_eq_nil_iff.1 hnil)] at htail
    exact h htail
  rw [List.getLast?_append_of_ne_nil _ hne]

theorem not_endsEmpty {b : List α} (h : ¬ F.Whole b) : ¬ F.EndsEmpty b := by
  rintro ⟨-, r, hr, -⟩
  rw [records_of_not_whole h] at hr
  cases hr

/-- The whole records `rs` have been cut off the front of `b`, which leaves `rest`. -/
structure Cuts (F : RecordFormat α) (b : List α) (rs : List (List α)) (rest : List α) : Prop where
  stream : b = rs.flatten ++ rest
  records : F.records b = rs ++ F.records rest
  tail : F.tail b = F.tail rest

namespace Cuts
variable {b rest rest' : List α} {rs rs' : List (List α)}

theorem nil (F : RecordFormat α) (b : List α) : F.Cuts b [] b := ⟨rfl, rfl, rfl⟩

theorem first (h : F.Whole b) : F.Cuts b [F.first b] (F.behind b) where
  stream := by simp [RecordFormat.first, RecordFormat.behind]
  records := by rw [records_of_whole h]; rfl
  tail := tail_of_whole h

theorem append (h : F.Cuts b rs rest) (p : List α) : F.Cuts (b ++ p) rs (rest ++ p) where
  stream := by rw [h.stream, List.append_assoc]
  records := by rw [records_append, h.records, h.tail, records_append rest, List.append_assoc]
  tail := by rw [tail_append, h.tail, ← tail_append]

theorem trans (h : F.Cuts b rs rest) (h' : F.Cuts rest rs' rest') : F.Cuts b (rs ++ rs') rest' where
  stream := by rw [h.stream, h'.stream, List.flatten_append, List.append_assoc]
  records := by rw [h.records, h'.records, List.append_assoc]
  tail := h.tail.trans h'.tail

end Cuts

end RecordFormat

end Wsnet
