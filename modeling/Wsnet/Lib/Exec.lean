import Mathlib.Tactic.Common

/-!
# Computations that change a state and may raise

`Exec σ ε α` changes a state and returns or raises; what was changed before an exception stays changed.
`Triple P p Q E` says that from a state in which `P` holds `p` ends with `Q` if it returns and with `E` if it
raises. There is one rule for each way of putting computations together.
-/

namespace Wsnet

universe u
variable {σ ε α β : Type u}

/-- A computation on a state that may raise. -/
abbrev Exec (σ ε : Type u) := ExceptT ε (StateM σ)

namespace Exec

/-- The result and the state behind a computation. -/
def exec (p : Exec σ ε α) (s : σ) : Except ε α × σ := StateT.run (ExceptT.run p) s

/-- Take part in the state. -/
def ofFun (f : σ → Except ε α × σ) : Exec σ ε α := ExceptT.mk f

/-- Change the state. -/
def update (f : σ → σ) : Exec σ ε PUnit := ofFun fun s => (.ok ⟨⟩, f s)

/-- `for x in xs: f(x)` -/
def forEach (f : α → Exec σ ε PUnit) : List α → Exec σ ε PUnit
  | [] => pure ⟨⟩
  | x :: xs => do
    f x
    forEach f xs

theorem bind_exec (p : Exec σ ε α) (f : α → Exec σ ε β) (s : σ) : (p >>= f).exec s =
    match p.exec s with
    | (.ok a, s) => (f a).exec s
    | (.error e, s) => (.error e, s) := by
  change (StateT.bind (m := Id) p (ExceptT.bindCont f)) s = _
  simp only [StateT.bind, exec, ExceptT.run, StateT.run, bind]
  cases p s with
  | mk r s => cases r <;> rfl

theorem bind_of_ok {p : Exec σ ε α} {s s' : σ} {a : α} (h : p.exec s = (.ok a, s')) (f : α → Exec σ ε β) :
    (p >>= f).exec s = (f a).exec s' := by
  rw [bind_exec, h]

theorem bind_of_error {p : Exec σ ε α} {s s' : σ} {e : ε} (h : p.exec s = (.error e, s')) (f : α → Exec σ ε β) :
    (p >>= f).exec s = (.error e, s') := by
  rw [bind_exec, h]

@[simp] theorem pure_exec (a : α) (s : σ) : (pure a : Exec σ ε α).exec s = (.ok a, s) := rfl

@[simp] theorem ofFun_exec (f : σ → Except ε α × σ) (s : σ) : (ofFun f).exec s = f s := rfl

theorem tryCatch_exec (p : Exec σ ε α) (h : ε → Exec σ ε α) (s : σ) : (tryCatch p h).exec s =
    match p.exec s with
    | (.ok a, s) => (.ok a, s)
    | (.error e, s) => (h e).exec s := by
  simp only [exec, ExceptT.run, StateT.run, tryCatch, tryCatchThe, MonadExceptOf.tryCatch, ExceptT.tryCatch, ExceptT.mk,
    bind, StateT.bind]
  cases p s with
  | mk r s => cases r <;> rfl

theorem tryCatch_of_ok {p : Exec σ ε α} {s s' : σ} {a : α} (hp : p.exec s = (.ok a, s')) (h : ε → Exec σ ε α) :
    (tryCatch p h).exec s = (.ok a, s') := by
  rw [tryCatch_exec, hp]

theorem tryCatch_of_error {p : Exec σ ε α} {s s' : σ} {e : ε} (hp : p.exec s = (.error e, s')) (h : ε → Exec σ ε α) :
    (tryCatch p h).exec s = (h e).exec s' := by
  rw [tryCatch_exec, hp]

end Exec

/-- From `P`, the computation returns with `Q` or raises with `E`. -/
structure Triple (P : σ → Prop) (p : Exec σ ε α) (Q : α → σ → Prop) (E : ε → σ → Prop) : Prop where
  run : ∀ s, P s → match p.exec s with
    | (.ok a, s) => Q a s
    | (.error e, s) => E e s

namespace Triple
variable {P P' : σ → Prop} {p : Exec σ ε α} {f : α → Exec σ ε β} {Q Q' : α → σ → Prop} {R : β → σ → Prop}
  {E E' : ε → σ → Prop}

theorem of_exec
    (h : ∀ s, P s → (∃ a s', p.exec s = (.ok a, s') ∧ Q a s') ∨ ∃ e s', p.exec s = (.error e, s') ∧ E e s') :
    Triple P p Q E where
  run s hs := by
    rcases h s hs with ⟨a, s', hr, hq⟩ | ⟨e, s', hr, he⟩
    · rw [hr]
      exact hq
    · rw [hr]
      exact he

protected theorem pure {a : α} (h : ∀ s, P s → Q a s) : Triple P (pure a : Exec σ ε α) Q E := ⟨h⟩

protected theorem bind (h : Triple P p Q E) (h' : ∀ a, Triple (Q a) (f a) R E) : Triple P (p >>= f) R E where
  run s hs := by
    have hp := h.run s hs
    rw [Exec.bind_exec]
    cases hr : p.exec s with
    | mk r s' =>
      rw [hr] at hp
      cases r with
      | ok a => exact (h' a).run s' hp
      | error e => exact hp

protected theorem tryCatch {h : ε → Exec σ ε α} (hp : Triple P p Q E) (hh : ∀ e, Triple (E e) (h e) Q E') :
    Triple P (tryCatch p h) Q E' where
  run s hs := by
    have hp := hp.run s hs
    rw [Exec.tryCatch_exec]
    cases hr : p.exec s with
    | mk r s' =>
      rw [hr] at hp
      cases r with
      | ok a => exact hp
      | error e => exact (hh e).run s' hp

/-- An assumption on the state that does not depend on it. -/
theorem of_pure {H : Prop} (h : H → Triple P p Q E) : Triple (fun s => P s ∧ H) p Q E where
  run s hs := (h hs.2).run s hs.1

/-- What every turn of a loop keeps, the loop keeps. -/
theorem forEach {f : α → Exec σ ε PUnit} {xs : List α} (h : ∀ x ∈ xs, Triple P (f x) (fun _ => P) E) :
    Triple P (Exec.forEach f xs) (fun _ => P) E := by
  induction xs with
  | nil => exact .pure fun s hs => hs
  | cons x xs ih =>
    exact (h x List.mem_cons_self).bind fun _ => ih fun y hy => h y (List.mem_cons_of_mem x hy)

end Triple

end Wsnet
