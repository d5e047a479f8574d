import Wsnet.Lib.Dict

/-!
# A dictionary and its inverse, filled together

`Filled ps there back`: the pairs `ps` were entered one after another, each under a new key, into
`there` by their keys and into `back` by their values. The two are inverse to each other just when no
value was entered twice (`Filled.inverse_iff`).
-/

namespace Wsnet

universe u v
variable {κ : Type u} {ν : Type v} [DecidableEq κ] [DecidableEq ν]

structure Filled (ps : List (κ × ν)) (there : Dict κ ν) (back : Dict ν κ) : Prop where
  keys : (ps.map Prod.fst).Nodup
  mem_there : ∀ {k : κ} {v : ν}, there.get? k = some v ↔ (k, v) ∈ ps
  mem_back : ∀ {k : κ} {v : ν}, back.get? v = some k → (k, v) ∈ ps
  entered : ∀ {k : κ} {v : ν}, (k, v) ∈ ps → ∃ k', back.get? v = some k'

namespace Filled
variable {ps : List (κ × ν)} {there : Dict κ ν} {back : Dict ν κ} {k : κ} {v : ν}

theorem nil : Filled [] (Dict.empty : Dict κ ν) (Dict.empty : Dict ν κ) :=
  ⟨List.nodup_nil, by simp, by simp, by simp⟩

theorem contains_iff (h : Filled ps there back) : there.contains k = true ↔ k ∈ ps.map Prod.fst := by
  rw [Dict.contains_iff, List.mem_map]
  constructor
  · rintro ⟨v, hv⟩
    exact ⟨(k, v), h.mem_there.1 hv, rfl⟩
  · rintro ⟨p, hp, rfl⟩
    exact ⟨p.2, h.mem_there.2 hp⟩

theorem snoc (h : Filled ps there back) (hk : there.contains k = false) (v : ν) :
    Filled (ps ++ [(k, v)]) (there.set k v) (back.set v k) := by
  have hnot : k ∉ ps.map Prod.fst := by
    rw [← h.contains_iff, hk]
    simp
  refine ⟨?_, fun {k' v'} => ?_, fun {k' v'} hb => ?_, fun {k' v'} hp => ?_⟩
  · rw [List.map_append, List.nodup_append]
    refine ⟨h.keys, List.nodup_singleton _, fun a ha b hb => ?_⟩
    rw [List.map_singleton, List.mem_singleton] at hb
    rintro rfl
    subst hb
    exact hnot ha
  · rw [Dict.get?_set, List.mem_append, List.mem_singleton, Prod.mk.injEq]
    split
    · subst k'
      rw [Option.some.injEq]
      refine ⟨fun hv => .inr ⟨rfl, hv.symm⟩, fun hp => ?_⟩
      rcases hp with hp | ⟨-, rfl⟩
      · exact absurd (List.mem_map_of_mem (f := Prod.fst) hp) hnot
      · rfl
    · simp [h.mem_there, *]
  · rw [Dict.get?_set] at hb
    rw [List.mem_append, List.mem_singleton]
    split at hb
    · subst v'
      cases hb
      exact .inr rfl
    · exact .inl (h.mem_back hb)
  · rw [Dict.get?_set]
    split
    · exact ⟨k, rfl⟩
    · rcases List.mem_append.1 hp with hp | hp
      · exact h.entered hp
      · cases List.mem_singleton.1 hp
        contradiction

theorem inverse_iff (h : Filled ps there back) :
    (∀ k v, there.get? k = some v → back.get? v = some k) ↔ (ps.map Prod.snd).Nodup := by
  constructor
  · intro hinv
    refine h.keys.of_map.map_on fun p hp q hq heq => ?_
    have hq' := hinv q.1 q.2 (h.mem_there.2 hq)
    rw [← heq, hinv p.1 p.2 (h.mem_there.2 hp)] at hq'
    exact Prod.ext (Option.some.inj hq') heq
  · intro hn k v hkv
    have hp := h.mem_there.1 hkv
    obtain ⟨k', hk'⟩ := h.entered hp
    have heq : (k', v) = (k, v) := List.inj_on_of_nodup_map hn (h.mem_back hk') hp rfl
    rw [hk', (Prod.mk.inj heq).1]

end Filled

end Wsnet
