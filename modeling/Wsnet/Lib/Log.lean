import Wsnet.Lib.Dict

/-!
# A table and the log of its writes

A table that is only written and deleted from says of every key what was written there last, and the log of the
writes is enough to know it (`Dict.Shows`). The keys of the log may be finer than those of the table: `name` is
the key of the table, and need only tell apart the keys of the log that are `Valid`.
-/

namespace Wsnet

universe u v w
variable {κ : Type u} {ν : Type v} {ι : Type w}

/-- What the log says of `k`: the value that was written last, and nothing behind a deletion. -/
def latest [DecidableEq ι] (log : List (ι × Option ν)) (k : ι) : Option ν :=
  ((log.filter fun x => x.1 = k).getLast?).bind Prod.snd

section
variable [DecidableEq ι] {log : List (ι × Option ν)} {k k' : ι} {v : Option ν}

@[simp] theorem latest_nil (k : ι) : latest ([] : List (ι × Option ν)) k = none := rfl

@[simp] theorem latest_concat_self : latest (log ++ [(k, v)]) k = v := by
  simp [latest]

theorem latest_concat_ne (h : k' ≠ k) : latest (log ++ [(k', v)]) k = latest log k := by
  simp [latest, h]

end

/-- The table says of every valid key what the log says. -/
def Dict.Shows [DecidableEq κ] [DecidableEq ι] (Valid : ι → Prop) (name : ι → κ) (log : List (ι × Option ν))
    (d : Dict κ ν) : Prop :=
  ∀ k, Valid k → d.get? (name k) = latest log k

namespace Dict.Shows
variable [DecidableEq κ] [DecidableEq ι] {Valid : ι → Prop} {name : ι → κ} {log : List (ι × Option ν)}
  {d : Dict κ ν} {k : ι}

theorem empty : (Dict.empty : Dict κ ν).Shows Valid name ([] : List (ι × Option ν)) := fun _ _ => rfl

theorem set (h : d.Shows Valid name log) (hk : ∀ k', Valid k' → name k' = name k → k' = k) (v : ν) :
    (d.set (name k) v).Shows Valid name (log ++ [(k, some v)]) := by
  intro k' hv
  rw [get?_set]
  split
  · rw [hk k' hv ‹_›, latest_concat_self]
  · rename_i hne
    rw [latest_concat_ne (fun heq => hne (congrArg name heq.symm)), h k' hv]

theorem del (h : d.Shows Valid name log) (hk : ∀ k', Valid k' → name k' = name k → k' = k) :
    (d.del (name k)).Shows Valid name (log ++ [(k, none)]) := by
  intro k' hv
  rw [get?_del]
  split
  · rw [hk k' hv ‹_›, latest_concat_self]
  · rename_i hne
    rw [latest_concat_ne (fun heq => hne (congrArg name heq.symm)), h k' hv]

end Dict.Shows

end Wsnet
