import Mathlib.Data.List.Basic

/-!
# Runs of a machine that reads events and emits outputs

A machine is a partial step function: in state `s` the event `e` is either refused or leads to a
new state and emits a list of outputs. `Run` chains the steps of a list of events and collects the
outputs. The rules are the induction on runs (`Run.invariant`), its
versions for runs all of whose events satisfy a predicate (`Run.invariant_of`) and for properties of
the events taken so far (`Run.history_invariant_of`), and joining. A run of the `traced` machine says of
each output which step it is from.
-/

namespace Wsnet

universe u v w
variable {σ : Type u} {ε : Type v} {ο : Type w}

/-- `Run step s es s' os`: the events `es` are all taken from `s`, lead to `s'` and emit `os`. -/
inductive Run (step : σ → ε → Option (σ × List ο)) : σ → List ε → σ → List ο → Prop
  | nil (s : σ) : Run step s [] s []
  | cons {s s₁ s' : σ} {e : ε} {es : List ε} {o os : List ο} :
      step s e = some (s₁, o) → Run step s₁ es s' os → Run step s (e :: es) s' (o ++ os)

/-- The run of `es` from `s`, computed. -/
def exec (step : σ → ε → Option (σ × List ο)) : σ → List ε → Option (σ × List ο)
  | s, [] => some (s, [])
  | s, e :: es =>
    match step s e with
    | none => none
    | some (s₁, o) =>
      match exec step s₁ es with
      | none => none
      | some (s', os) => some (s', o ++ os)

/-- The last element of a list, or one in front of it. -/
theorem split_concat {α : Type u} {l l₁ l₂ : List α} {x y : α} (h : l ++ [x] = l₁ ++ y :: l₂) :
    (l₁ = l ∧ y = x) ∨ ∃ l₂', l = l₁ ++ y :: l₂' := by
  rcases List.eq_nil_or_concat l₂ with rfl | ⟨l₂', z, rfl⟩
  · obtain ⟨h₁, h₂⟩ := List.append_inj' h rfl
    exact .inl ⟨h₁.symm, (List.cons.inj h₂).1.symm⟩
  · rw [List.concat_eq_append, ← List.cons_append, ← List.append_assoc] at h
    exact .inr ⟨l₂', (List.append_inj' h rfl).1⟩

/-- Every step that the events `es` take from `s` is taken in a state that allows it. -/
def StepsMeet (step : σ → ε → Option (σ × List ο)) (A : σ → ε → Prop) (s : σ) (es : List ε) : Prop :=
  ∀ es₁ e es₂ s₁ os₁, es = es₁ ++ e :: es₂ → Run step s es₁ s₁ os₁ → A s₁ e

/-- The machine that emits, instead of outputs, its steps: the state before, the event and the outputs of each. -/
def traced (step : σ → ε → Option (σ × List ο)) (s : σ) (e : ε) : Option (σ × List (σ × ε × List ο)) :=
  (step s e).map fun r => (r.1, [(s, e, r.2)])

section StepsMeet
variable {step : σ → ε → Option (σ × List ο)} {A : σ → ε → Prop} {s s₁ : σ} {e : ε} {es : List ε} {o : List ο}

theorem StepsMeet.head (h : StepsMeet step A s (e :: es)) : A s e := h [] e es s [] rfl (.nil s)

theorem StepsMeet.tail (h : StepsMeet step A s (e :: es)) (hs : step s e = some (s₁, o)) : StepsMeet step A s₁ es :=
  fun es₁ e' es₂ s₂ os₂ he hrun => h (e :: es₁) e' es₂ s₂ (o ++ os₂) (by rw [he]; rfl) (.cons hs hrun)

theorem StepsMeet.nil : StepsMeet step A s [] := fun es₁ e es₂ s₁ os₁ he _ => by
  cases es₁ <;> cases he

theorem StepsMeet.cons (hA : A s e) (hs : step s e = some (s₁, o)) (h : StepsMeet step A s₁ es) :
    StepsMeet step A s (e :: es) := fun es₁ e' es₂ s₂ os₂ he hrun => by
  cases hrun with
  | nil =>
    cases he
    exact hA
  | cons hs' hrun =>
    cases he
    cases hs.symm.trans hs'
    exact h _ _ _ _ _ rfl hrun

end StepsMeet

namespace Run
variable {step : σ → ε → Option (σ × List ο)} {s s₁ s' : σ} {e : ε} {es es' : List ε} {o os os' : List ο}

theorem of_exec (h : exec step s es = some (s', os)) : Run step s es s' os := by
  induction es generalizing s os with
  | nil =>
    simp only [exec, Option.some.injEq, Prod.mk.injEq] at h
    obtain ⟨rfl, rfl⟩ := h
    exact .nil s
  | cons e es ih =>
    simp only [exec] at h
    split at h
    · cases h
    rename_i s₁ o h₁
    split at h
    · cases h
    rename_i s₂ os₂ h₂
    simp only [Option.some.injEq, Prod.mk.injEq] at h
    obtain ⟨rfl, rfl⟩ := h
    exact .cons h₁ (ih h₂)

theorem exec_eq (h : Run step s es s' os) : exec step s es = some (s', os) := by
  induction h with
  | nil => rfl
  | cons hs _ ih => simp only [exec, hs, ih]

theorem single (h : step s e = some (s', o)) : Run step s [e] s' o := by
  simpa using Run.cons h (.nil s')

theorem append (h : Run step s es s₁ os) (h' : Run step s₁ es' s' os') :
    Run step s (es ++ es') s' (os ++ os') := by
  induction h with
  | nil => exact h'
  | cons hs _ ih => rw [List.append_assoc]; exact .cons hs (ih h')

theorem split (h : Run step s (es ++ es') s' os) :
    ∃ s₁ os₁ os₂, Run step s es s₁ os₁ ∧ Run step s₁ es' s' os₂ ∧ os = os₁ ++ os₂ := by
  induction es generalizing s os with
  | nil => exact ⟨s, [], os, .nil s, h, rfl⟩
  | cons e es ih =>
    cases h with
    | cons hs hrun =>
      obtain ⟨s₁, os₁, os₂, h₁, h₂, rfl⟩ := ih hrun
      exact ⟨s₁, _, os₂, .cons hs h₁, h₂, by rw [List.append_assoc]⟩

/-- What holds of the start before any event, and is kept by every step that an allowed event takes, holds
at the end of every run of allowed events. -/
theorem history_invariant_of {P : List ε → σ → List ο → Prop} {A : ε → Prop} (h : Run step s es s' os)
    (hstep : ∀ {es s s' e o os}, A e → P es s os → step s e = some (s', o) → P (es ++ [e]) s' (os ++ o))
    (hA : ∀ e ∈ es, A e) (h0 : P [] s []) : P es s' os := by
  suffices H : ∀ es₀ os₀, P es₀ s os₀ → P (es₀ ++ es) s' (os₀ ++ os) by simpa using H [] [] h0
  clear h0
  induction h with
  | nil => intro es₀ os₀ h; simpa using h
  | cons hs _ ih =>
    intro es₀ os₀ hp
    rw [← List.append_assoc, List.append_cons]
    exact ih (fun e he => hA e (List.mem_cons_of_mem _ he)) _ _ (hstep (hA _ List.mem_cons_self) hp hs)

theorem invariant_of {P : σ → List ο → Prop} {A : ε → Prop} (h : Run step s es s' os)
    (hstep : ∀ {s s' e o os}, A e → P s os → step s e = some (s', o) → P s' (os ++ o))
    (hA : ∀ e ∈ es, A e) (h0 : P s []) : P s' os :=
  h.history_invariant_of (P := fun _ => P) (fun ha hp hs => hstep ha hp hs) hA h0

theorem invariant {P : σ → List ο → Prop} (h : Run step s es s' os)
    (hstep : ∀ {s s' e o os}, P s os → step s e = some (s', o) → P s' (os ++ o))
    (h0 : P s []) : P s' os :=
  h.invariant_of (A := fun _ => True) (fun _ hp hs => hstep hp hs) (fun _ _ => trivial) h0

/-- The invariant rule for runs each of whose steps is taken in a state that allows it. -/
theorem invariant_where {P : σ → List ο → Prop} {A : σ → ε → Prop} (h : Run step s es s' os)
    (hA : StepsMeet step A s es)
    (hstep : ∀ {s s' e o os}, A s e → P s os → step s e = some (s', o) → P s' (os ++ o)) (h0 : P s []) : P s' os := by
  suffices H : ∀ os₀, P s os₀ → P s' (os₀ ++ os) from H [] h0
  clear h0
  induction h with
  | nil => intro os₀ h; simpa using h
  | cons hs _ ih =>
    intro os₀ hp
    rw [← List.append_assoc]
    exact ih (hA.tail hs) _ (hstep hA.head hp hs)

/-- The invariant rule for a property of the state alone. -/
theorem state_invariant {P : σ → Prop} (h : Run step s es s' os)
    (hstep : ∀ {s s' e o}, P s → step s e = some (s', o) → P s') (h0 : P s) : P s' :=
  h.invariant (P := fun s _ => P s) (fun hp hs => hstep hp hs) h0

/-! ### Traces -/

variable {tr tr₁ tr₂ : List (σ × ε × List ο)}

theorem of_traced (h : traced step s e = some (s', tr)) : ∃ o, step s e = some (s', o) ∧ tr = [(s, e, o)] := by
  obtain ⟨r, hr, heq⟩ := Option.map_eq_some_iff.1 h
  cases heq
  exact ⟨r.2, hr, rfl⟩

/-- The trace has the events in their order. -/
theorem traced_events (h : Run (traced step) s es s' tr) : tr.map (fun x => x.2.1) = es := by
  induction h with
  | nil => rfl
  | cons hs _ ih =>
    obtain ⟨o, -, rfl⟩ := of_traced hs
    exact congrArg (_ :: ·) ih

/-- A run up to one of the steps of its trace, and on from it. -/
theorem split_traced (h : Run (traced step) s es s' (tr₁ ++ (s₁, e, o) :: tr₂)) : ∃ es₁ es₂ s₂,
    es = es₁ ++ e :: es₂ ∧ Run (traced step) s es₁ s₁ tr₁ ∧ step s₁ e = some (s₂, o) ∧
      Run (traced step) s₂ es₂ s' tr₂ := by
  generalize htr : tr₁ ++ (s₁, e, o) :: tr₂ = tr at h
  induction h generalizing tr₁ with
  | nil => simp at htr
  | @cons s s₂ s' e' es o' tr hs hrun ih =>
    obtain ⟨o', hs', rfl⟩ := of_traced hs
    cases tr₁ with
    | nil =>
      obtain ⟨⟨⟩, rfl⟩ := List.cons.inj htr
      exact ⟨[], es, s₂, rfl, .nil _, hs', hrun⟩
    | cons x tr₁ =>
      obtain ⟨rfl, htail⟩ := List.cons.inj htr
      obtain ⟨es₁, es₂, s₃, rfl, h₁, h₂, h₃⟩ := ih htail
      exact ⟨e' :: es₁, es₂, s₃, rfl, .cons hs h₁, h₂, h₃⟩

end Run

end Wsnet
