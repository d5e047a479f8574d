import Mathlib.Data.List.Infix
import Mathlib.Tactic.Common

/-!
# Pieces of a stream that arrives in parts

A `Cut` says, from the part of a stream that has arrived, where its next piece ends, and does not change its
mind when more arrives. What a list of cuts takes off a stream depends then only on the stream, not on the
parts in which it arrives (`pieces_unique`). The cuts here are the next `n` elements (`Cut.exactly`) and
everything through the first occurrence of a separator (`Cut.through`).
-/

namespace Wsnet

universe u
variable {α : Type u}

/-- Where the next piece of a stream ends, said from the part that has arrived; `none` when that is too short. -/
structure Cut (α : Type u) where
  ends : List α → Option Nat
  ends_le : ∀ {l k}, ends l = some k → k ≤ l.length
  ends_append : ∀ {l k} m, ends l = some k → ends (l ++ m) = some k

/-- The pieces that the cuts, one after the other, take off the front of `l`. -/
def pieces : List (Cut α) → List α → Option (List (List α))
  | [], _ => some []
  | c :: cs, l =>
    match c.ends l with
    | none => none
    | some k => (pieces cs (l.drop k)).map (l.take k :: ·)

section pieces
variable {c : Cut α} {cs : List (Cut α)} {l m : List α} {ps : List (List α)} {k : Nat}

theorem pieces_cons_eq_some : pieces (c :: cs) l = some ps ↔
    ∃ k ps', c.ends l = some k ∧ pieces cs (l.drop k) = some ps' ∧ ps = l.take k :: ps' := by
  rw [pieces]
  cases hk : c.ends l with
  | none => simp
  | some k =>
    simp only [Option.map_eq_some_iff]
    constructor
    · rintro ⟨ps', hps, rfl⟩
      exact ⟨k, ps', rfl, hps, rfl⟩
    · rintro ⟨k', ps', hk', hps, rfl⟩
      cases hk'
      exact ⟨ps', hps, rfl⟩

theorem pieces_append (h : pieces cs l = some ps) (m : List α) : pieces cs (l ++ m) = some ps := by
  induction cs generalizing l ps with
  | nil => exact h
  | cons c cs ih =>
    obtain ⟨k, ps', hk, hps, rfl⟩ := pieces_cons_eq_some.1 h
    have hle := c.ends_le hk
    refine pieces_cons_eq_some.2 ⟨k, ps', c.ends_append m hk, ?_, ?_⟩
    · rw [List.drop_append_of_le_length hle]
      exact ih hps
    · rw [List.take_append_of_le_length hle]

/-- The next piece is taken off what the pieces before it have left. -/
theorem pieces_concat {rest : List α} (h : pieces cs l = some ps) (hl : l = ps.flatten ++ rest)
    (hk : c.ends rest = some k) : pieces (cs ++ [c]) l = some (ps ++ [rest.take k]) := by
  induction cs generalizing l ps with
  | nil =>
    cases h
    subst hl
    exact pieces_cons_eq_some.2 ⟨k, [], hk, rfl, rfl⟩
  | cons c' cs ih =>
    obtain ⟨k', ps', hk', hps, rfl⟩ := pieces_cons_eq_some.1 h
    have hdrop : l.drop k' = ps'.flatten ++ rest := by
      rw [List.flatten_cons, List.append_assoc] at hl
      exact List.append_cancel_left (((List.take_append_drop k' l).trans hl))
    exact pieces_cons_eq_some.2 ⟨k', ps' ++ [rest.take k], hk', ih hps hdrop, rfl⟩

/-- What is taken off a stream does not depend on how much of it has arrived. -/
theorem pieces_unique {l₁ l₂ stream : List α} {ps₁ ps₂ : List (List α)} (h₁ : pieces cs l₁ = some ps₁)
    (h₂ : pieces cs l₂ = some ps₂) (hl₁ : l₁ <+: stream) (hl₂ : l₂ <+: stream) : ps₁ = ps₂ := by
  obtain ⟨m₁, rfl⟩ := hl₁
  obtain ⟨m₂, hm⟩ := hl₂
  have h₁ := pieces_append h₁ m₁
  rw [← hm, pieces_append h₂ m₂] at h₁
  exact (Option.some.inj h₁).symm

end pieces

/-! ### The next elements -/

/-- The next `n` elements. -/
def Cut.exactly (n : Nat) : Cut α where
  ends l := if n ≤ l.length then some n else none
  ends_le h := by
    split at h
    · cases h; assumption
    · cases h
  ends_append m h := by
    split at h
    · cases h
      rw [if_pos]
      rw [List.length_append]
      omega
    · cases h

/-! ### Through a separator -/

section find
variable [DecidableEq α] {sep l : List α} {i : Nat}

/-- Where `sep` first occurs in a list. -/
def find (sep : List α) : List α → Option Nat
  | [] => if sep <+: [] then some 0 else none
  | x :: l => if sep <+: x :: l then some 0 else (find sep l).map (· + 1)

theorem find_eq_some_iff : find sep l = some i ↔ sep <+: l.drop i ∧ ∀ j < i, ¬ sep <+: l.drop j := by
  induction l generalizing i with
  | nil =>
    simp only [find, List.drop_nil]
    split
    case isTrue h =>
      rw [Option.some.injEq]
      refine ⟨fun hi => ⟨h, fun j hj => absurd hj (by omega)⟩, fun ⟨_, hno⟩ => ?_⟩
      by_contra hne
      exact hno 0 (by omega) h
    case isFalse h => exact ⟨fun hi => (by cases hi), fun ⟨hyes, _⟩ => absurd hyes h⟩
  | cons x l ih =>
    rw [find]
    split
    case isTrue h =>
      rw [Option.some.injEq]
      refine ⟨fun hi => ?_, fun ⟨_, hno⟩ => ?_⟩
      · subst hi
        exact ⟨h, fun j hj => absurd hj (by omega)⟩
      · by_contra hne
        exact hno 0 (by omega) h
    case isFalse h =>
      cases i with
      | zero => simp [h]
      | succ i =>
        simp only [Option.map_eq_some_iff, Nat.add_right_cancel_iff, exists_eq_right, ih, List.drop_succ_cons]
        refine and_congr_right fun _ => ⟨fun hno j hj => ?_, fun hno j hj => hno (j + 1) (by omega)⟩
        cases j with
        | zero => exact h
        | succ j => exact hno j (by omega)

theorem find_le (h : find sep l = some i) : i + sep.length ≤ l.length := by
  obtain ⟨hat, hno⟩ := find_eq_some_iff.1 h
  have hlen := hat.length_le
  rw [List.length_drop] at hlen
  cases i with
  | zero => simpa using hlen
  | succ i =>
    have hne : sep ≠ [] := by
      rintro rfl
      exact hno 0 (by omega) List.nil_prefix
    have hpos := List.length_pos_of_ne_nil hne
    omega

theorem find_append (h : find sep l = some i) (m : List α) : find sep (l ++ m) = some i := by
  have hle := find_le h
  obtain ⟨hat, hno⟩ := find_eq_some_iff.1 h
  refine find_eq_some_iff.2 ⟨?_, fun j hj hat' => hno j hj ?_⟩
  · rw [List.drop_append_of_le_length (by omega)]
    exact hat.trans (List.prefix_append _ _)
  · rw [List.drop_append_of_le_length (by omega)] at hat'
    exact List.prefix_of_prefix_length_le hat' (List.prefix_append _ _) (by rw [List.length_drop]; omega)

end find

/-- Everything through the first occurrence of `sep`. -/
def Cut.through [DecidableEq α] (sep : List α) : Cut α where
  ends l := (find sep l).map (· + sep.length)
  ends_le h := by
    obtain ⟨i, hi, rfl⟩ := Option.map_eq_some_iff.1 h
    exact find_le hi
  ends_append m h := by
    obtain ⟨i, hi, rfl⟩ := Option.map_eq_some_iff.1 h
    rw [find_append hi]
    rfl

/-- `p` is the shortest prefix of `l` that ends with `sep`. -/
structure ShortestEnding (sep l p : List α) : Prop where
  isPrefix : p <+: l
  isSuffix : sep <:+ p
  shortest : ∀ q, q <+: l → sep <:+ q → p.length ≤ q.length

theorem Cut.shortestEnding_of_through [DecidableEq α] {sep l : List α} {k : Nat}
    (h : (Cut.through sep).ends l = some k) :
    ShortestEnding sep l (l.take k) := by
  have hle := (Cut.through sep).ends_le h
  obtain ⟨i, hi, rfl⟩ := Option.map_eq_some_iff.1 h
  obtain ⟨⟨rest, hat⟩, hno⟩ := find_eq_some_iff.1 hi
  refine ⟨List.take_prefix _ _, ⟨l.take i, ?_⟩, fun q ⟨after, hq⟩ ⟨before, hbefore⟩ => ?_⟩
  · rw [List.take_add, ← hat, List.take_left]
  · by_contra hlt
    subst hbefore hq
    refine hno before.length ?_ ?_
    · simp only [List.length_take, List.length_append] at hlt
      omega
    · rw [List.append_assoc, List.drop_left]
      exact List.prefix_append _ _

end Wsnet
