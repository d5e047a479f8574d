import Mathlib.Data.List.Forall2

/-!
# What comes through a queue

One party changes its table and puts every change into a queue; another party applies the changes to a table of
its own. The second table with the pending changes applied is the first (`Mirrors`), so that the two agree when
nothing is pending.

Or the other party handles what it takes, and what has been put into the queue is what has been handled and what is
pending (`InTurn`): nothing is lost, handled twice or overtaken.
-/

namespace Wsnet

universe u v
variable {τ : Type u} {δ : Type v} {apply : τ → δ → τ} {leader follower : τ} {pending : List δ} {d : δ}

def Mirrors (apply : τ → δ → τ) (leader follower : τ) (pending : List δ) : Prop :=
  pending.foldl apply follower = leader

namespace Mirrors

/-- The leader makes a change and queues it. -/
theorem change (h : Mirrors apply leader follower pending) (d : δ) :
    Mirrors apply (apply leader d) follower (pending ++ [d]) := by
  rw [Mirrors, List.foldl_append, h]
  rfl

/-- The follower takes a change from the queue. -/
theorem take (h : Mirrors apply leader follower (d :: pending)) : Mirrors apply leader (apply follower d) pending := h

theorem eq_of_nil (h : Mirrors apply leader follower []) : follower = leader := h

end Mirrors

variable {α : Type u} {β : Type v} {R : α → β → Prop} {all before rest waiting : List α} {turns : List β}
  {x : α} {y : β}

/-- The `turns` are the results of handling, in order, what was put into the queue and does not wait. -/
def InTurn (R : α → β → Prop) (all waiting : List α) (turns : List β) : Prop :=
  ∃ handled, all = handled ++ waiting ∧ List.Forall₂ R handled turns

namespace InTurn

theorem nil : InTurn R [] [] [] := ⟨[], rfl, .nil⟩

theorem put (h : InTurn R all waiting turns) (xs : List α) : InTurn R (all ++ xs) (waiting ++ xs) turns := by
  obtain ⟨handled, rfl, hr⟩ := h
  exact ⟨handled, by rw [List.append_assoc], hr⟩

theorem take (h : InTurn R all (x :: waiting) turns) (hxy : R x y) : InTurn R all waiting (turns ++ [y]) := by
  obtain ⟨handled, rfl, hr⟩ := h
  exact ⟨handled ++ [x], by rw [List.append_assoc, List.singleton_append], List.rel_append hr (.cons hxy .nil)⟩

/-- The first that waits is the one whose turn it is. -/
theorem next (h : InTurn R (before ++ x :: rest) waiting turns) (hl : turns.length = before.length) :
    waiting = x :: rest := by
  obtain ⟨handled, heq, hr⟩ := h
  exact (List.append_inj heq (hl.symm.trans hr.length_eq.symm)).2.symm

theorem head (h : InTurn R all (x :: waiting) turns) : all[turns.length]? = some x := by
  obtain ⟨handled, rfl, hr⟩ := h
  rw [← hr.length_eq, List.getElem?_append_right (Nat.le_refl _), Nat.sub_self]
  rfl

end InTurn

end Wsnet
