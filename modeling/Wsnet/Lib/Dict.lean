import Mathlib.Data.List.ReduceOption
import Mathlib.Data.List.Nodup
import Mathlib.Tactic.Common

/-!
# Insertion-ordered dictionaries

`Dict` follows CPython's `dict`: entries stand in insertion order, assigning to a present key keeps
its place, and deleting leaves a hole, so that an iterator's position stays meaningful. Everything a
program without iteration sees is `get?`, and the lemmas `get?_set` and `get?_del` determine it.
An iterator (`Dict.Iter`) remembers the size it started with; `next` fails once the size differs.
-/

namespace Wsnet

universe u v
variable {κ : Type u} {ν : Type v} [DecidableEq κ]

namespace Dict

/-- The value stored at `k` in a list of slots. -/
def lookup (k : κ) : List (Option (κ × ν)) → Option ν
  | [] => none
  | none :: s => lookup k s
  | some (k', v) :: s => if k' = k then some v else lookup k s

def update (k : κ) (v : ν) : List (Option (κ × ν)) → List (Option (κ × ν))
  | [] => []
  | none :: s => none :: update k v s
  | some (k', w) :: s => if k' = k then some (k', v) :: s else some (k', w) :: update k v s

def erase (k : κ) : List (Option (κ × ν)) → List (Option (κ × ν))
  | [] => []
  | none :: s => none :: erase k s
  | some (k', w) :: s => if k' = k then none :: s else some (k', w) :: erase k s

def slotKeys (s : List (Option (κ × ν))) : List κ := s.reduceOption.map Prod.fst

end Dict

/-- A dictionary: slots in insertion order, a hole where an entry was deleted. -/
structure Dict (κ : Type u) (ν : Type v) where
  slots : List (Option (κ × ν))
  nodup : (Dict.slotKeys slots).Nodup

namespace Dict

omit [DecidableEq κ] in
@[simp] theorem slotKeys_nil : slotKeys ([] : List (Option (κ × ν))) = [] := rfl

omit [DecidableEq κ] in
@[simp] theorem slotKeys_none (s : List (Option (κ × ν))) : slotKeys (none :: s) = slotKeys s := rfl

omit [DecidableEq κ] in
@[simp] theorem slotKeys_some (k : κ) (v : ν) (s : List (Option (κ × ν))) :
    slotKeys (some (k, v) :: s) = k :: slotKeys s := rfl

omit [DecidableEq κ] in
theorem slotKeys_append (s t : List (Option (κ × ν))) : slotKeys (s ++ t) = slotKeys s ++ slotKeys t := by
  simp [slotKeys, List.reduceOption_append]

theorem lookup_eq_none_iff {k : κ} {s : List (Option (κ × ν))} : lookup k s = none ↔ k ∉ slotKeys s := by
  induction s with
  | nil => simp [lookup]
  | cons o s ih =>
    rcases o with _ | ⟨k', v⟩
    · simpa [lookup] using ih
    · by_cases h : k' = k
      · simp [lookup, h]
      · simp [lookup, h, ih, Ne.symm h]

theorem slotKeys_update (k : κ) (v : ν) (s : List (Option (κ × ν))) : slotKeys (update k v s) = slotKeys s := by
  induction s with
  | nil => rfl
  | cons o s ih =>
    rcases o with _ | ⟨k', w⟩
    · simpa [update] using ih
    · by_cases h : k' = k <;> simp [update, h, ih]

theorem lookup_update (k k' : κ) (v : ν) (s : List (Option (κ × ν))) (h : k ∈ slotKeys s) :
    lookup k' (update k v s) = if k' = k then some v else lookup k' s := by
  induction s with
  | nil => simp at h
  | cons o s ih =>
    rcases o with _ | ⟨k'', w⟩
    · exact ih (by simpa using h)
    · by_cases h' : k'' = k
      · subst h'
        simp only [update, if_true, lookup]
        split <;> simp_all [eq_comm]
      · have hk : k ∈ slotKeys s := by simpa [Ne.symm h'] using h
        simp only [update, h', if_false, lookup, ih hk]
        split
        · subst_vars; simp [h']
        · rfl

theorem slotKeys_erase (k : κ) (s : List (Option (κ × ν))) : slotKeys (erase k s) = (slotKeys s).erase k := by
  induction s with
  | nil => rfl
  | cons o s ih =>
    rcases o with _ | ⟨k', w⟩
    · simpa [erase] using ih
    · by_cases h : k' = k
      · simp [erase, h]
      · simp [erase, h, ih]

theorem lookup_erase (k k' : κ) (s : List (Option (κ × ν))) (hn : (slotKeys s).Nodup) :
    lookup k' (erase k s) = if k' = k then none else lookup k' s := by
  induction s with
  | nil => simp [erase, lookup]
  | cons o s ih =>
    rcases o with _ | ⟨k'', w⟩
    · exact ih (by simpa using hn)
    · obtain ⟨hnot, hn⟩ := List.nodup_cons.1 (show (k'' :: slotKeys s).Nodup by simpa using hn)
      by_cases h' : k'' = k
      · subst h'
        simp only [erase, if_true, lookup]
        by_cases hk : k' = k''
        · subst hk; simpa using lookup_eq_none_iff.2 hnot
        · simp [hk, Ne.symm hk]
      · simp only [erase, h', if_false, lookup, ih hn]
        split
        · subst_vars; simp [h']
        · rfl

theorem lookup_append (k : κ) (s t : List (Option (κ × ν))) :
    lookup k (s ++ t) = (lookup k s).or (lookup k t) := by
  induction s with
  | nil => simp [lookup]
  | cons o s ih =>
    rcases o with _ | ⟨k', w⟩
    · exact ih
    · by_cases h : k' = k <;> simp [lookup, h, ih]

/-- `{}`. -/
def empty : Dict κ ν := ⟨[], by simp⟩

/-- `d.get(k)`. -/
def get? (d : Dict κ ν) (k : κ) : Option ν := lookup k d.slots

/-- `list(d.keys())`. -/
def keys (d : Dict κ ν) : List κ := slotKeys d.slots

/-- `k in d`. -/
def contains (d : Dict κ ν) (k : κ) : Bool := (d.get? k).isSome

/-- `len(d)`. -/
def size (d : Dict κ ν) : Nat := d.keys.length

/-- `d[k] = v`. -/
def set (d : Dict κ ν) (k : κ) (v : ν) : Dict κ ν :=
  if h : k ∈ slotKeys d.slots then ⟨update k v d.slots, by rw [slotKeys_update]; exact d.nodup⟩
  else ⟨d.slots ++ [some (k, v)], by
    rw [slotKeys_append]
    exact d.nodup.append (List.nodup_singleton k) (by simpa using h)⟩

/-- `del d[k]`, doing nothing on an absent key: where the source raises `KeyError` the caller checks. -/
def del (d : Dict κ ν) (k : κ) : Dict κ ν :=
  ⟨erase k d.slots, by rw [slotKeys_erase]; exact d.nodup.erase k⟩

variable {d : Dict κ ν} {k k' : κ} {v : ν}

@[simp] theorem get?_empty (k : κ) : (empty : Dict κ ν).get? k = none := rfl

omit [DecidableEq κ] in
@[simp] theorem keys_empty : (empty : Dict κ ν).keys = [] := rfl

theorem get?_set (d : Dict κ ν) (k k' : κ) (v : ν) : (d.set k v).get? k' = if k' = k then some v else d.get? k' := by
  unfold set get?
  split
  · exact lookup_update k k' v d.slots ‹_›
  · rw [lookup_append]
    split
    · subst_vars; rw [lookup_eq_none_iff.2 ‹_›]; simp [lookup]
    · cases lookup k' d.slots <;> simp_all [lookup, eq_comm]

@[simp] theorem get?_set_self (d : Dict κ ν) (k : κ) (v : ν) : (d.set k v).get? k = some v := by simp [get?_set]

theorem get?_set_ne (d : Dict κ ν) (v : ν) (h : k' ≠ k) : (d.set k v).get? k' = d.get? k' := by simp [get?_set, h]

theorem get?_del (d : Dict κ ν) (k k' : κ) : (d.del k).get? k' = if k' = k then none else d.get? k' :=
  lookup_erase k k' d.slots d.nodup

@[simp] theorem get?_del_self (d : Dict κ ν) (k : κ) : (d.del k).get? k = none := by simp [get?_del]

theorem get?_del_ne (d : Dict κ ν) (h : k' ≠ k) : (d.del k).get? k' = d.get? k' := by simp [get?_del, h]

theorem get?_of_get?_del (h : (d.del k).get? k' = some v) : d.get? k' = some v := by
  rw [get?_del] at h
  split at h
  · cases h
  · exact h

theorem contains_iff : d.contains k = true ↔ ∃ v, d.get? k = some v := by
  simp [contains, Option.isSome_iff_exists]

theorem contains_eq_false_iff : d.contains k = false ↔ d.get? k = none := by
  simp [contains]

theorem mem_keys_iff : k ∈ d.keys ↔ ∃ v, d.get? k = some v := by
  have := lookup_eq_none_iff (k := k) (s := d.slots)
  unfold keys get?
  cases h : lookup k d.slots with
  | none => simp [this.1 h]
  | some v =>
    have hm : k ∈ slotKeys d.slots := by
      by_contra hn
      rw [this.2 hn] at h
      cases h
    simp [hm]

theorem contains_iff_mem_keys : d.contains k = true ↔ k ∈ d.keys := by rw [contains_iff, mem_keys_iff]

theorem mem_keys_set : k' ∈ (d.set k v).keys ↔ k' = k ∨ k' ∈ d.keys := by
  rw [mem_keys_iff, mem_keys_iff, get?_set]
  by_cases h : k' = k <;> simp [h]

theorem mem_keys_del : k' ∈ (d.del k).keys ↔ k' ≠ k ∧ k' ∈ d.keys := by
  rw [mem_keys_iff, mem_keys_iff, get?_del]
  by_cases h : k' = k <;> simp [h]

/-- The values, in the order of their keys. -/
def values (d : Dict κ ν) : List ν := d.keys.filterMap d.get?

omit [DecidableEq κ] in
theorem keys_nodup (d : Dict κ ν) : d.keys.Nodup := d.nodup

/-- Two dictionaries with the same keys, whatever their order, are empty together. -/
theorem keys_eq_nil_iff : d.keys = [] ↔ ∀ k, d.get? k = none := by
  constructor
  · intro h k
    by_contra hk
    obtain ⟨v, hv⟩ := Option.ne_none_iff_exists'.1 hk
    have := mem_keys_iff.2 ⟨v, hv⟩
    rw [h] at this
    cases this
  · intro h
    refine List.eq_nil_iff_forall_not_mem.2 fun k hk => ?_
    obtain ⟨v, hv⟩ := mem_keys_iff.1 hk
    rw [h k] at hv
    cases hv

/-! ### Iteration -/

/-- An iterator over a dictionary: the size it started with, the slot it has reached, and how many
entries it may still yield. -/
structure Iter where
  used : Nat
  pos : Nat
  left : Nat
  deriving DecidableEq, Repr

/-- `iter(d)`. -/
def iter (d : Dict κ ν) : Iter := ⟨d.size, 0, d.size⟩

/-- What `next` on an iterator can do. -/
inductive Next (κ : Type u)
  | yield (k : κ) (it : Iter)
  | stop
  | changed
  deriving DecidableEq, Repr

/-- The first entry at slot `pos` or later. -/
def firstFrom : List (Option (κ × ν)) → Nat → Option (Nat × κ)
  | [], _ => none
  | none :: s, pos => firstFrom s (pos + 1)
  | some (k, _) :: _, pos => some (pos, k)

/-- `next(it)`: raises `RuntimeError` (`changed`) when the size differs from the one at the start or
when an unexpected entry is found. -/
def next (d : Dict κ ν) (it : Iter) : Next κ :=
  if d.size ≠ it.used then .changed
  else
    match firstFrom (d.slots.drop it.pos) it.pos with
    | none => .stop
    | some (pos, k) => if it.left = 0 then .changed else .yield k ⟨it.used, pos + 1, it.left - 1⟩

omit [DecidableEq κ] in
theorem firstFrom_of_slotKeys_nil {s : List (Option (κ × ν))} (h : slotKeys s = []) (pos : Nat) :
    firstFrom s pos = none := by
  induction s generalizing pos with
  | nil => rfl
  | cons o s ih =>
    rcases o with _ | ⟨k, v⟩
    · exact ih h _
    · cases h

omit [DecidableEq κ] in
theorem firstFrom_of_slotKeys_cons {s : List (Option (κ × ν))} {rest : List κ} (h : slotKeys s = k :: rest)
    (pos : Nat) :
    ∃ n, firstFrom s pos = some (pos + n, k) ∧ slotKeys (s.drop (n + 1)) = rest := by
  induction s generalizing pos with
  | nil => cases h
  | cons o s ih =>
    rcases o with _ | ⟨k', v⟩
    · obtain ⟨n, hn, hrest⟩ := ih h (pos + 1)
      exact ⟨n + 1, by rw [firstFrom, hn, Nat.add_assoc, Nat.add_comm 1 n], hrest⟩
    · obtain ⟨rfl, rfl⟩ := List.cons.inj h
      exact ⟨0, rfl, rfl⟩

/-- The slots without the values. -/
def keySlots (s : List (Option (κ × ν))) : List (Option κ) := s.map (Option.map Prod.fst)

omit [DecidableEq κ] in
theorem slotKeys_eq_reduceOption (s : List (Option (κ × ν))) : slotKeys s = (keySlots s).reduceOption := by
  induction s with
  | nil => rfl
  | cons o s ih =>
    rcases o with _ | ⟨k, v⟩
    · exact ih
    · exact congrArg (k :: ·) ih

theorem keySlots_update (k : κ) (v : ν) (s : List (Option (κ × ν))) : keySlots (update k v s) = keySlots s := by
  induction s with
  | nil => rfl
  | cons o s ih =>
    rcases o with _ | ⟨k', w⟩
    · exact congrArg (none :: ·) ih
    · by_cases h : k' = k
      · simp [update, h, keySlots]
      · simpa [update, h, keySlots] using ih

theorem erase_of_notMem {s : List (Option (κ × ν))} (h : k ∉ slotKeys s) : erase k s = s := by
  induction s with
  | nil => rfl
  | cons o s ih =>
    rcases o with _ | ⟨k', w⟩
    · exact congrArg (none :: ·) (ih h)
    · obtain ⟨hne, h⟩ := not_or.1 (List.mem_cons.not.1 h)
      rw [erase, if_neg (Ne.symm hne), ih h]

theorem keySlots_set (hk : k ∈ d.keys) (v : ν) : keySlots (d.set k v).slots = keySlots d.slots := by
  have hset : (d.set k v).slots = update k v d.slots := congrArg Dict.slots (dif_pos hk)
  rw [hset, keySlots_update]

theorem keys_set_of_mem (hk : k ∈ d.keys) (v : ν) : (d.set k v).keys = d.keys := by
  rw [keys, slotKeys_eq_reduceOption, keySlots_set hk, ← slotKeys_eq_reduceOption, keys]

theorem del_of_notMem (hk : k ∉ d.keys) : d.del k = d := by
  unfold del
  congr 1
  exact erase_of_notMem hk

omit [DecidableEq κ] in
/-- An iterator that has yielded as many entries as there were at its start yields no other. -/
theorem next_ne_yield {it it' : Iter} (h : it.left = 0) : d.next it ≠ .yield k it' := by
  simp only [next, h, if_true]
  split
  · rintro ⟨⟩
  · split <;> rintro ⟨⟩

/-- The iterator has yielded `done`, and will yield `rest` as long as no key is added or deleted. -/
structure At (d : Dict κ ν) (it : Iter) (done rest : List κ) : Prop where
  used : it.used = d.size
  keys : d.keys = done ++ rest
  slots : slotKeys (d.slots.drop it.pos) = rest
  left : it.left = rest.length

namespace At
variable {it : Iter} {done rest : List κ}

omit [DecidableEq κ] in
theorem iter (d : Dict κ ν) : d.At d.iter [] d.keys := ⟨rfl, rfl, rfl, rfl⟩

omit [DecidableEq κ] in
theorem next_nil (h : d.At it done []) : d.next it = .stop := by
  rw [next, if_neg (fun hne => hne h.used.symm), firstFrom_of_slotKeys_nil h.slots]

omit [DecidableEq κ] in
theorem next_cons (h : d.At it done (k :: rest)) : ∃ it', d.next it = .yield k it' ∧ d.At it' (done ++ [k]) rest := by
  obtain ⟨n, hn, hrest⟩ := firstFrom_of_slotKeys_cons h.slots it.pos
  have hleft : it.left = rest.length + 1 := h.left
  refine ⟨⟨it.used, it.pos + n + 1, it.left - 1⟩, ?_, h.used, ?_, ?_, ?_⟩
  · rw [next, if_neg (fun hne => hne h.used.symm), hn]
    exact if_neg (by omega)
  · rw [h.keys, List.append_assoc]
    rfl
  · rw [Nat.add_assoc, ← List.drop_drop]
    exact hrest
  · exact (congrArg (· - 1) hleft)

/-- Assigning to a present key disturbs no iterator. -/
theorem set (h : d.At it done rest) (hk : k ∈ d.keys) (v : ν) : (d.set k v).At it done rest := by
  have hkeys := keys_set_of_mem hk v
  refine ⟨?_, hkeys.trans h.keys, ?_, h.left⟩
  · rw [h.used, size, size, hkeys]
  · rw [← h.slots, slotKeys_eq_reduceOption, slotKeys_eq_reduceOption, keySlots, keySlots, List.map_drop, List.map_drop]
    exact congrArg (fun l => (l.drop it.pos).reduceOption) (keySlots_set hk v)

end At

end Dict

end Wsnet
