import Mathlib.Data.List.Basic

/-!
# A lock with a queue

`asyncio.Lock`: whoever finds it taken, or finds others waiting, waits at the end of the queue. `release`
wakes the first of them, which takes the lock when it comes to run (`grant`). `Fair` holds throughout: a free
lock that nobody has been woken for has nobody waiting.
-/

namespace Wsnet

universe u

structure Lock (γ : Type u) where
  /-- who has taken it: `_locked` is `holder.isSome` -/
  holder : Option γ := none
  waiters : List γ := []
  /-- the first waiter has been woken and has not run yet -/
  woken : Bool := false
  deriving DecidableEq, Repr

namespace Lock
variable {γ : Type u} {l l' : Lock γ} {c c' : γ}

/-- Nobody has it and nobody waits for it. -/
def Free (l : Lock γ) : Prop := l.holder = none ∧ l.waiters = []

/-- Take the lock, of a lock that is `Free`. -/
def take (l : Lock γ) (c : γ) : Lock γ := { l with holder := some c }

/-- Wait at the end of the queue. -/
def wait (l : Lock γ) (c : γ) : Lock γ := { l with waiters := l.waiters ++ [c] }

def release (l : Lock γ) : Lock γ := { l with holder := none, woken := !l.waiters.isEmpty }

@[simp] theorem release_holder (l : Lock γ) : l.release.holder = none := rfl

@[simp] theorem release_waiters (l : Lock γ) : l.release.waiters = l.waiters := rfl

/-- The woken waiter runs. -/
def grant (l : Lock γ) : Option (γ × Lock γ) :=
  match l.woken, l.waiters with
  | true, c :: rest => some (c, { holder := some c, waiters := rest, woken := false })
  | _, _ => none

instance (l : Lock γ) [DecidableEq γ] : Decidable l.Free := inferInstanceAs (Decidable (_ ∧ _))

structure Fair (l : Lock γ) : Prop where
  idle : l.holder = none → l.woken = false → l.waiters = []
  woken : l.woken = true → l.holder = none ∧ l.waiters ≠ []

theorem fair_new : Fair ({} : Lock γ) := ⟨fun _ _ => rfl, fun h => by cases h⟩

theorem Fair.take (h : Fair l) (hf : l.Free) (c : γ) : Fair (l.take c) where
  idle hn := by cases hn
  woken hw := absurd hf.2 (h.woken hw).2

theorem Fair.wait (h : Fair l) (hf : ¬ l.Free) (c : γ) : Fair (l.wait c) where
  idle hn hw := absurd ⟨hn, h.idle hn hw⟩ hf
  woken hw := ⟨(h.woken hw).1, by simp [Lock.wait]⟩

theorem fair_release (l : Lock γ) : Fair l.release where
  idle _ hw := by simpa [release] using hw
  woken hw := ⟨rfl, by simpa [release] using hw⟩

theorem grant_eq_some (h : l.grant = some (c, l')) :
    l.woken = true ∧ ∃ rest, l.waiters = c :: rest ∧ l' = { holder := some c, waiters := rest, woken := false } := by
  unfold grant at h
  split at h
  · rename_i rest hw hq
    simp only [Option.some.injEq, Prod.mk.injEq] at h
    obtain ⟨rfl, rfl⟩ := h
    exact ⟨hw, rest, hq, rfl⟩
  · cases h

theorem fair_of_grant (h : l.grant = some (c, l')) : Fair l' := by
  obtain ⟨-, rest, -, rfl⟩ := grant_eq_some h
  exact ⟨fun hn => (by cases hn), fun hw => (by cases hw)⟩

end Lock

end Wsnet
