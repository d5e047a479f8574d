import Wsnet.Lib.Run

/-!
# A machine that says one last word

A machine works until it is over; the step with which it ends its work says `f`, once and behind all that it
has said before, unless the means to say it were lost on the way. `LastWord.iff` is the rule: over runs that
end the work, `f` is the last word just when no step has lost the means.
-/

namespace Wsnet

universe u v w
variable {σ : Type u} {ε : Type v} {ο : Type w}

/-- `f` is said once, behind everything else. -/
def SaidLast (f : ο) (os : List ο) : Prop := ∃ before, os = before ++ [f] ∧ f ∉ before

section SaidLast
variable {f : ο} {o os : List ο}

theorem saidLast_concat (h : f ∉ os) : SaidLast f (os ++ [f]) := ⟨os, rfl, h⟩

theorem saidLast_singleton (f : ο) : SaidLast f [f] := ⟨[], rfl, List.not_mem_nil⟩

theorem SaidLast.mem (h : SaidLast f os) : f ∈ os := by
  obtain ⟨before, rfl, -⟩ := h
  simp

theorem saidLast_append_iff (h : f ∉ o) : SaidLast f (o ++ os) ↔ SaidLast f os := by
  constructor
  · rintro ⟨before, heq, hnot⟩
    rcases List.eq_nil_or_concat os with rfl | ⟨os', x, rfl⟩
    · rw [List.append_nil] at heq
      exact absurd (heq ▸ List.mem_append_right before (List.mem_singleton_self f)) h
    · rw [List.concat_eq_append, ← List.append_assoc] at heq
      obtain ⟨hbefore, hx⟩ := List.append_inj' heq rfl
      cases hx
      refine ⟨os', List.concat_eq_append, fun hmem => hnot ?_⟩
      rw [← hbefore]
      exact List.mem_append_right o hmem
  · rintro ⟨before, rfl, hnot⟩
    refine ⟨o ++ before, (List.append_assoc ..).symm, fun hmem => ?_⟩
    exact (List.mem_append.1 hmem).elim h hnot

end SaidLast

/-- While it works, a step goes on without `f`, or ends the work with it, or loses the means. -/
structure LastWord (step : σ → ε → Option (σ × List ο)) (f : ο) (Works Over Lost : σ → Prop) (Loses : σ → ε → Prop) :
    Prop where
  works : ∀ {s e s' o}, Works s → step s e = some (s', o) →
    Works s' ∧ f ∉ o ∧ ¬ Loses s e ∨ Over s' ∧ SaidLast f o ∧ ¬ Loses s e ∨ Lost s' ∧ f ∉ o ∧ Loses s e
  ended : ∀ {s e s' o}, Over s → step s e = some (s', o) → Over s' ∧ o = [] ∧ ¬ Loses s e
  lost : ∀ {s e s' o}, Lost s → step s e = some (s', o) → Lost s' ∧ f ∉ o

namespace LastWord
variable {step : σ → ε → Option (σ × List ο)} {f : ο} {Works Over Lost : σ → Prop} {Loses : σ → ε → Prop}
  {s s' : σ} {es : List ε} {os : List ο}

theorem run_over (h : LastWord step f Works Over Lost Loses) (hrun : Run step s es s' os) (hs : Over s) :
    os = [] ∧ StepsMeet step (fun s e => ¬ Loses s e) s es := by
  induction hrun with
  | nil => exact ⟨rfl, .nil⟩
  | cons hstep _ ih =>
    obtain ⟨hover, rfl, hnot⟩ := h.ended hs hstep
    obtain ⟨rfl, hmeet⟩ := ih hover
    exact ⟨rfl, .cons hnot hstep hmeet⟩

theorem run_lost (h : LastWord step f Works Over Lost Loses) (hrun : Run step s es s' os) (hs : Lost s) : f ∉ os := by
  induction hrun with
  | nil => simp
  | cons hstep _ ih =>
    obtain ⟨hlost, hnot⟩ := h.lost hs hstep
    exact fun hmem => (List.mem_append.1 hmem).elim hnot (ih hlost)

theorem iff (h : LastWord step f Works Over Lost Loses) (hrun : Run step s es s' os) (hs : Works s) (hs' : ¬ Works s') :
    SaidLast f os ↔ StepsMeet step (fun s e => ¬ Loses s e) s es := by
  induction hrun with
  | nil => exact absurd hs hs'
  | cons hstep hrun ih =>
    rcases h.works hs hstep with ⟨hworks, hf, hnot⟩ | ⟨hover, hf, hnot⟩ | ⟨hlost, hf, hloses⟩
    · rw [saidLast_append_iff hf, ih hworks hs']
      exact ⟨fun hmeet => .cons hnot hstep hmeet, fun hmeet => hmeet.tail hstep⟩
    · obtain ⟨rfl, hmeet⟩ := h.run_over hrun hover
      rw [List.append_nil]
      exact iff_of_true hf (.cons hnot hstep hmeet)
    · refine iff_of_false (fun hlast => ?_) fun hmeet => hmeet.head hloses
      exact (List.mem_append.1 hlast.mem).elim hf (h.run_lost hrun hlost)

end LastWord

end Wsnet
