import Wsnet.Lib.IpAddress
import Mathlib.Data.List.Basic
import Mathlib.Data.List.TakeWhile

/-!
# An address is read back from what is printed for it

`ipAddress_str`: an address without a scope id is printed as a literal of itself. Of the zero run that
`_compress_hextets` picks, only that it is one matters (`ZeroRun.Sound`): whichever run of two or more zero
hextets is left out, the number of the others tells how long it was.
-/

namespace Wsnet

/-! ### Numbers -/

theorem parseOctet_toDigits (o : UInt8) : parseOctet (Nat.toDigits 10 o.toNat) = some o := by
  have hall : ∀ n < 256, parseOctet (Nat.toDigits 10 n) = some (UInt8.ofNat n) := by decide +kernel
  rw [hall o.toNat o.toNat_lt, UInt8.ofNat_toNat]

theorem hexDigit_digitChar : ∀ d < 16, hexDigit (Nat.digitChar d) = some d := by decide

theorem hexValue_append (acc : Nat) (xs ys : List Char) :
    hexValue acc (xs ++ ys) = (hexValue acc xs).bind (hexValue · ys) := by
  induction xs generalizing acc with
  | nil => rfl
  | cons c cs ih =>
    cases hc : hexDigit c with
    | none => simp [hexValue, hc]
    | some d => simpa [hexValue, hc] using ih _

theorem hexValue_hexText (n : Nat) : hexValue 0 (hexText n) = some n := by
  induction n using Nat.strongRecOn with
  | ind n ih =>
    rw [hexText, Nat.toDigits_eq_if (by omega)]
    split
    · rename_i h
      simp [hexValue, hexDigit_digitChar n h]
    · rename_i h
      have hdiv : hexValue 0 (Nat.toDigits 16 (n / 16)) = some (n / 16) := ih (n / 16) (by omega)
      rw [hexValue_append, hdiv]
      simp only [Option.bind_some, hexValue, hexDigit_digitChar (n % 16) (by omega), bind]
      congr 1
      omega

theorem parseHextet_hexText (h : UInt16) : parseHextet (hexText h.toNat) = some h := by
  have hne : hexText h.toNat ≠ [] := Nat.toDigits_ne_nil
  have hlen : (hexText h.toNat).length ≤ 4 := (Nat.length_toDigits_le_iff (by omega) (by omega)).2 h.toNat_lt
  rw [parseHextet, if_neg (by simp only [hne, false_or]; omega), hexValue_hexText]
  simp

theorem isSome_hexDigit_of_hexValue {s : List Char} {acc v : Nat} (h : hexValue acc s = some v) :
    ∀ c ∈ s, (hexDigit c).isSome := by
  induction s generalizing acc with
  | nil => simp
  | cons c cs ih =>
    cases hc : hexDigit c with
    | none => simp [hexValue, hc] at h
    | some d =>
      simp only [hexValue, hc, Option.bind_eq_bind, Option.bind_some] at h
      simpa [hc] using ih h

/-- A character that is no hexadecimal digit is in no hextet. -/
theorem not_mem_hexText {c : Char} (hc : hexDigit c = none) (n : Nat) : c ∉ hexText n := by
  intro hmem
  have := isSome_hexDigit_of_hexValue (hexValue_hexText n) c hmem
  rw [hc] at this
  cases this

/-! ### The zero run that is left out -/

/-- After `seen`, the current run ends at its end and the best run is one. -/
structure ZeroRun.Sound (seen : List (List Char)) (r : ZeroRun) : Prop where
  current : ∀ j < r.len, seen[r.start.getD seen.length + j]? = some ['0']
  ends : r.start.getD seen.length + r.len = seen.length
  best : ∀ j < r.bestLen, seen[r.bestStart + j]? = some ['0']

theorem ZeroRun.Sound.step {seen : List (List Char)} {r : ZeroRun} (h : r.Sound seen) (hextet : List Char) :
    (r.step seen.length hextet).Sound (seen ++ [hextet]) := by
  have hold : ∀ {i : Nat}, seen[i]? = some ['0'] → (seen ++ [hextet])[i]? = some ['0'] := by
    intro i hi
    rw [List.getElem?_append_left (List.getElem?_eq_some_iff.1 hi).1, hi]
  by_cases hz : hextet = ['0']
  · have hcur : ∀ j < r.len + 1, (seen ++ [hextet])[r.start.getD seen.length + j]? = some ['0'] := by
      intro j hj
      by_cases hlt : j < r.len
      · exact hold (h.current j hlt)
      · have hlast : r.start.getD seen.length + j = seen.length := by have := h.ends; omega
        simp [hlast, hz]
    have hends : r.start.getD seen.length + (r.len + 1) = (seen ++ [hextet]).length := by
      have := h.ends
      simp only [List.length_append, List.length_singleton]
      omega
    rw [ZeroRun.step, if_pos hz]
    split
    · exact ⟨hcur, hends, hcur⟩
    · exact ⟨hcur, hends, fun j hj => hold (h.best j hj)⟩
  · rw [ZeroRun.step, if_neg hz]
    exact ⟨fun j hj => absurd hj (Nat.not_lt_zero j), rfl, fun j hj => hold (h.best j hj)⟩

theorem sound_bestZeroRun {seen : List (List Char)} {r : ZeroRun} (h : r.Sound seen) (hextets : List (List Char)) :
    (bestZeroRun r seen.length hextets).Sound (seen ++ hextets) := by
  induction hextets generalizing seen r with
  | nil => simpa [bestZeroRun] using h
  | cons t ts ih =>
    have := ih (h.step t)
    rwa [List.length_append, List.length_singleton, List.append_assoc, List.singleton_append] at this

/-- A run of one element splits the list. -/
theorem eq_take_replicate_drop {α : Type} {l : List α} {x : α} {s n : Nat} (hn : 0 < n)
    (h : ∀ j < n, l[s + j]? = some x) : l = l.take s ++ List.replicate n x ++ l.drop (s + n) := by
  have hrun : (l.drop s).take n = List.replicate n x := by
    have hle := (List.getElem?_eq_some_iff.1 (h (n - 1) (by omega))).1
    refine List.eq_replicate_iff.2 ⟨by rw [List.length_take, List.length_drop]; omega, fun y hy => ?_⟩
    obtain ⟨j, hj⟩ := List.mem_iff_getElem?.1 hy
    have hlt : j < n := by
      have := (List.getElem?_eq_some_iff.1 hj).1
      rw [List.length_take] at this
      omega
    rw [List.getElem?_take_of_lt hlt, List.getElem?_drop, h j hlt] at hj
    exact (Option.some.inj hj).symm
  calc l = l.take s ++ ((l.drop s).take n ++ (l.drop s).drop n) := by rw [List.take_append_drop, List.take_append_drop]
    _ = l.take s ++ List.replicate n x ++ l.drop (s + n) := by rw [hrun, List.drop_drop, List.append_assoc]

/-- The parts on one side of the gap: one empty part where there is none. -/
def orEmpty (parts : List (List Char)) : List (List Char) := if parts = [] then [[]] else parts

theorem compressHextets_cases (texts : List (List Char)) : compressHextets texts = texts ∨
    ∃ front n back, 1 < n ∧ texts = front ++ List.replicate n ['0'] ++ back ∧
      compressHextets texts = orEmpty front ++ [] :: orEmpty back := by
  have hsound : (bestZeroRun ⟨none, 0, 0, 0⟩ 0 texts).Sound texts :=
    sound_bestZeroRun (show ZeroRun.Sound [] ⟨none, 0, 0, 0⟩ from ⟨by simp, rfl, by simp⟩) texts
  rw [compressHextets]
  generalize bestZeroRun ⟨none, 0, 0, 0⟩ 0 texts = r at hsound
  by_cases hlen : 1 < r.bestLen
  · refine .inr ⟨texts.take r.bestStart, r.bestLen, texts.drop (r.bestStart + r.bestLen), hlen,
      eq_take_replicate_drop (by omega) hsound.best, ?_⟩
    have hstop : r.bestStart + r.bestLen ≤ texts.length := by
      have := (List.getElem?_eq_some_iff.1 (hsound.best (r.bestLen - 1) (by omega))).1
      omega
    have hback : (if r.bestStart + r.bestLen = texts.length then [[]] else texts.drop (r.bestStart + r.bestLen)) =
        orEmpty (texts.drop (r.bestStart + r.bestLen)) := by
      rw [orEmpty]
      congr 1
      rw [List.drop_eq_nil_iff, eq_iff_iff]
      omega
    simp only [hlen, if_true, hback]
    by_cases hstart : r.bestStart = 0
    · simp [hstart, orEmpty]
    · have hfront : texts.take r.bestStart ≠ [] := by
        rw [Ne, List.take_eq_nil_iff]
        rintro (h | rfl)
        · exact hstart h
        · simp only [List.length_nil] at hstop
          omega
      simp [hstart, orEmpty, hfront]
  · exact .inl (by simp only [hlen, if_false])

/-! ### Reading the parts -/

/-- The texts of some hextets. -/
def hexTexts (hs : List UInt16) : List (List Char) := hs.map fun h => hexText h.toNat

@[simp] theorem length_hexTexts (hs : List UInt16) : (hexTexts hs).length = hs.length := List.length_map ..

theorem mapM_parseHextet (hs : List UInt16) : (hexTexts hs).mapM parseHextet = some hs := by
  induction hs with
  | nil => rfl
  | cons h hs ih =>
    rw [hexTexts, List.map_cons, List.mapM_cons, parseHextet_hexText, ← hexTexts, ih]
    rfl

theorem hexTexts_injective : Function.Injective hexTexts := by
  intro hs hs' heq
  have := mapM_parseHextet hs
  rw [heq, mapM_parseHextet] at this
  exact (Option.some.inj this).symm

theorem ne_nil_of_mem_hexTexts {hs : List UInt16} {p : List Char} (h : p ∈ hexTexts hs) : p ≠ [] := by
  obtain ⟨h, -, rfl⟩ := List.mem_map.1 h
  exact Nat.toDigits_ne_nil

theorem not_mem_of_mem_hexTexts {hs : List UInt16} {p : List Char} {c : Char} (hc : hexDigit c = none)
    (h : p ∈ hexTexts hs) : c ∉ p := by
  obtain ⟨h, -, rfl⟩ := List.mem_map.1 h
  exact not_mem_hexText hc _

theorem head?_hexTexts_ne (hs : List UInt16) : (hexTexts hs).head? ≠ some [] := fun h =>
  ne_nil_of_mem_hexTexts (List.mem_of_mem_head? h) rfl

theorem getLast?_hexTexts_ne (hs : List UInt16) : (hexTexts hs).getLast? ≠ some [] := fun h =>
  ne_nil_of_mem_hexTexts (List.mem_of_mem_getLast? h) rfl

theorem expandIPv4Tail_eq {parts : List (List Char)} (h : ∀ p ∈ parts, '.' ∉ p) :
    expandIPv4Tail parts = some parts := by
  unfold expandIPv4Tail
  split
  · rfl
  · rename_i tail htail
    exact if_neg (h tail (List.mem_of_mem_getLast? htail))

theorem mem_skipIndices {parts : List (List Char)} {i : Nat} :
    i ∈ skipIndices parts ↔ 1 ≤ i ∧ i + 1 < parts.length ∧ parts[i]? = some [] := by
  simp only [skipIndices, List.mem_filter, List.mem_range, decide_eq_true_eq]
  constructor
  · exact fun h => h.2
  · exact fun h => ⟨by omega, h⟩

theorem skipIndices_hexTexts (hs : List UInt16) : skipIndices (hexTexts hs) = [] := by
  refine List.eq_nil_iff_forall_not_mem.2 fun i hi => ?_
  obtain ⟨-, -, hnil⟩ := mem_skipIndices.1 hi
  exact ne_nil_of_mem_hexTexts (List.mem_of_getElem? hnil) rfl

section Gap
variable (front back : List UInt16)

/-- What is printed around a gap. -/
def aroundGap : List (List Char) := orEmpty (hexTexts front) ++ [] :: orEmpty (hexTexts back)

theorem aroundGap_eq : aroundGap front back = (orEmpty (hexTexts front) ++ [[]]) ++ orEmpty (hexTexts back) := by
  rw [aroundGap, List.append_assoc, List.singleton_append]

theorem length_orEmpty (parts : List (List Char)) : (orEmpty parts).length = max 1 parts.length := by
  unfold orEmpty
  split
  · simp [*]
  · have := List.length_pos_iff.2 ‹_›
    omega

theorem orEmpty_of_ne_nil {parts : List (List Char)} (h : parts ≠ []) : orEmpty parts = parts := if_neg h

theorem length_aroundGap : (aroundGap front back).length = max 1 front.length + 1 + max 1 back.length := by
  simp only [aroundGap, List.length_append, List.length_cons, length_orEmpty, length_hexTexts]
  omega

theorem not_mem_of_mem_aroundGap {c : Char} (hc : hexDigit c = none) : ∀ p ∈ aroundGap front back, c ∉ p := by
  have hside : ∀ hs : List UInt16, ∀ p ∈ orEmpty (hexTexts hs), c ∉ p := by
    intro hs p hp
    unfold orEmpty at hp
    split at hp
    · simp_all
    · exact not_mem_of_mem_hexTexts hc hp
  intro p hp
  rcases List.mem_append.1 hp with hp | hp
  · exact hside front p hp
  · rcases List.mem_cons.1 hp with rfl | hp
    · exact List.not_mem_nil
    · exact hside back p hp

/-- The only empty part between the first and the last one is the gap. -/
theorem skipIndices_aroundGap : skipIndices (aroundGap front back) = [max 1 front.length] := by
  have hlen := length_aroundGap front back
  have hside : ∀ (hs : List UInt16) (i : Nat), (orEmpty (hexTexts hs))[i]? = some [] → i = 0 ∧ hs = [] := by
    intro hs i hi
    cases hs with
    | nil =>
      have hlt := (List.getElem?_eq_some_iff.1 hi).1
      rw [length_orEmpty, length_hexTexts, List.length_nil] at hlt
      exact ⟨by omega, rfl⟩
    | cons h hs =>
      rw [orEmpty_of_ne_nil (by simp [hexTexts])] at hi
      exact absurd rfl (ne_nil_of_mem_hexTexts (List.mem_of_getElem? hi))
  have hfront : (orEmpty (hexTexts front)).length = max 1 front.length := by rw [length_orEmpty, length_hexTexts]
  refine List.perm_singleton.1 ((List.perm_ext_iff_of_nodup (List.nodup_range.filter _) (by simp)).2
    fun i => ?_)
  rw [← skipIndices, mem_skipIndices, List.mem_singleton, hlen]
  constructor
  · rintro ⟨hpos, hlt, hnil⟩
    rcases Nat.lt_trichotomy i (max 1 front.length) with h | h | h
    · rw [aroundGap, List.getElem?_append_left (by omega)] at hnil
      have := (hside front i hnil).1
      omega
    · exact h
    · rw [aroundGap, List.getElem?_append_right (by omega), hfront, List.getElem?_cons,
        if_neg (by omega)] at hnil
      obtain ⟨hi, rfl⟩ := hside back _ hnil
      simp only [List.length_nil] at hlt
      omega
  · rintro rfl
    refine ⟨by omega, by omega, ?_⟩
    rw [aroundGap, List.getElem?_append_right (by omega), hfront, Nat.sub_self]
    rfl

theorem head?_aroundGap : (aroundGap front back).head? = some [] ↔ front = [] := by
  cases front with
  | nil => simp [aroundGap, orEmpty, hexTexts]
  | cons h hs =>
    rw [aroundGap, orEmpty_of_ne_nil (by simp [hexTexts])]
    simp [hexTexts, hexText]

theorem getLast?_aroundGap : (aroundGap front back).getLast? = some [] ↔ back = [] := by
  rw [aroundGap_eq]
  cases back with
  | nil => simp [orEmpty, hexTexts]
  | cons h hs =>
    rw [orEmpty_of_ne_nil (show hexTexts (h :: hs) ≠ [] by simp [hexTexts]),
      List.getLast?_append_of_ne_nil _ (by simp [hexTexts])]
    simp [getLast?_hexTexts_ne]

theorem take_aroundGap : (aroundGap front back).take front.length = hexTexts front := by
  cases front with
  | nil => rfl
  | cons h hs =>
    rw [aroundGap, orEmpty_of_ne_nil (by simp [hexTexts])]
    exact List.take_left' (length_hexTexts _)

theorem drop_aroundGap :
    (aroundGap front back).drop ((aroundGap front back).length - back.length) = hexTexts back := by
  cases back with
  | nil => simp [hexTexts]
  | cons h hs =>
    rw [length_aroundGap, aroundGap_eq, orEmpty_of_ne_nil (show hexTexts (h :: hs) ≠ [] by simp [hexTexts])]
    refine List.drop_left' ?_
    simp only [List.length_append, length_orEmpty, length_hexTexts, List.length_cons, List.length_nil]
    omega

end Gap

section Parts
variable {parts : List (List Char)} (hcolon : ∀ p ∈ parts, ':' ∉ p) (hdot : ∀ p ∈ parts, '.' ∉ p)
  (hmin : 3 ≤ parts.length)
include hcolon hmin

theorem splitOn_parts : ([':'].intercalate parts).splitOn ':' = parts ∧ [':'].intercalate parts ≠ [] := by
  have hne : parts ≠ [] := by
    rintro rfl
    simp at hmin
  have hsplit : ([':'].intercalate parts).splitOn ':' = parts := List.splitOn_intercalate ':' hcolon hne
  refine ⟨hsplit, fun h => ?_⟩
  rw [h, List.splitOn_nil] at hsplit
  rw [← hsplit] at hmin
  simp at hmin

include hdot

theorem parseHextets_of_no_gap (hlen : parts.length = 8) (hskip : skipIndices parts = [])
    (hhead : parts.head? ≠ some [])
    (hlast : parts.getLast? ≠ some []) : parseHextets ([':'].intercalate parts) = parts.mapM parseHextet := by
  obtain ⟨hsplit, htext⟩ := splitOn_parts hcolon hmin
  rw [parseHextets, if_neg htext]
  simp only [hsplit, expandIPv4Tail_eq hdot, hlen, hskip, hhead, hlast, bind, Option.bind, pure]
  rfl

theorem parseHextets_of_gap {i hi lo : Nat} {front back : List UInt16} (hmax : parts.length ≤ 9)
    (hskip : skipIndices parts = [i]) (hhi : (if parts.head? = some [] then i - 1 else i) = hi)
    (hlo : (if parts.getLast? = some [] then parts.length - i - 2 else parts.length - i - 1) = lo)
    (hhead : parts.head? = some [] → hi = 0) (hlast : parts.getLast? = some [] → lo = 0) (hfit : hi + lo + 1 ≤ 8)
    (hfront : (parts.take hi).mapM parseHextet = some front)
    (hback : (parts.drop (parts.length - lo)).mapM parseHextet = some back) :
    parseHextets ([':'].intercalate parts) = some (front ++ List.replicate (8 - (hi + lo)) 0 ++ back) := by
  obtain ⟨hsplit, htext⟩ := splitOn_parts hcolon hmin
  rw [parseHextets, if_neg htext]
  simp only [hsplit, expandIPv4Tail_eq hdot, hskip, hhi, hlo, hfront, hback, bind, Option.bind, pure,
    if_neg (show ¬ parts.length < 3 by omega), if_neg (show ¬ 9 < parts.length by omega),
    if_neg (show ¬ (parts.head? = some [] ∧ hi ≠ 0) from fun h => h.2 (hhead h.1)),
    if_neg (show ¬ (parts.getLast? = some [] ∧ lo ≠ 0) from fun h => h.2 (hlast h.1)),
    if_neg (show ¬ 8 < hi + lo + 1 by omega)]

end Parts

theorem parseHextets_compressHextets {hs : List UInt16} (hlen : hs.length = 8) :
    parseHextets ([':'].intercalate (compressHextets (hexTexts hs))) = some hs := by
  rcases compressHextets_cases (hexTexts hs) with h | ⟨front, n, back, hn, htexts, h⟩
  · rw [h, ← mapM_parseHextet hs]
    exact parseHextets_of_no_gap (fun p hp => not_mem_of_mem_hexTexts rfl hp)
      (fun p hp => not_mem_of_mem_hexTexts rfl hp)
      (by simp [hlen]) (by simp [hlen]) (skipIndices_hexTexts hs) (head?_hexTexts_ne hs) (getLast?_hexTexts_ne hs)
  · obtain ⟨rest, back', rfl, hrest, hback⟩ := List.map_eq_append_iff.1 htexts
    obtain ⟨front', zeros, rfl, hfront, hzeros⟩ := List.map_eq_append_iff.1 hrest
    rw [← hexTexts] at hback hfront hzeros
    have hz : zeros = List.replicate n 0 := by
      refine hexTexts_injective (hzeros.trans ?_)
      simp [hexTexts, hexText]
    subst hz hfront hback
    simp only [List.length_append, List.length_replicate] at hlen
    have hlength := length_aroundGap front' back'
    have hhi : (if (aroundGap front' back').head? = some [] then max 1 front'.length - 1 else max 1 front'.length) =
        front'.length := by
      split
      · rename_i hnil
        simp [(head?_aroundGap front' back').1 hnil]
      · rename_i hnil
        have := List.length_pos_iff.2 (mt (head?_aroundGap front' back').2 hnil)
        omega
    have hlo : (if (aroundGap front' back').getLast? = some []
        then (aroundGap front' back').length - max 1 front'.length - 2
        else (aroundGap front' back').length - max 1 front'.length - 1) = back'.length := by
      split
      · rename_i hnil
        have := congrArg List.length ((getLast?_aroundGap front' back').1 hnil)
        rw [List.length_nil] at this
        omega
      · rename_i hnil
        have := List.length_pos_iff.2 (mt (getLast?_aroundGap front' back').2 hnil)
        omega
    rw [h, ← aroundGap, parseHextets_of_gap (not_mem_of_mem_aroundGap front' back' rfl)
      (not_mem_of_mem_aroundGap front' back' rfl) (by omega) (by omega) (skipIndices_aroundGap front' back') hhi hlo
      (fun h => by rw [(head?_aroundGap front' back').1 h]; rfl)
      (fun h => by rw [(getLast?_aroundGap front' back').1 h]; rfl)
      (by omega) (by rw [take_aroundGap, mapM_parseHextet]) (by rw [drop_aroundGap, mapM_parseHextet]),
      show 8 - (front'.length + back'.length) = n by omega]

/-! ### Addresses -/

theorem eq_or_mem_of_mem_intercalate {c x : Char} {ls : List (List Char)} (h : c ∈ [x].intercalate ls) :
    c = x ∨ ∃ l ∈ ls, c ∈ l := by
  induction ls with
  | nil => simp at h
  | cons l ls ih =>
    cases ls with
    | nil => exact .inr ⟨l, by simp, by simpa using h⟩
    | cons l' ls =>
      rw [List.intercalate_cons_cons, List.append_assoc] at h
      rcases List.mem_append.1 h with h | h
      · exact .inr ⟨l, List.mem_cons_self, h⟩
      · rcases List.mem_cons.1 h with h | h
        · exact .inl h
        · exact (ih h).imp_right fun ⟨k, hk, hc⟩ => ⟨k, List.mem_cons_of_mem l hk, hc⟩

theorem not_mem_compressHextets {c : Char} (hc : hexDigit c = none) (hcolon : c ≠ ':') (hs : List UInt16) :
    c ∉ [':'].intercalate (compressHextets (hexTexts hs)) := by
  intro hmem
  obtain h | ⟨l, hl, hcl⟩ := eq_or_mem_of_mem_intercalate hmem
  · exact hcolon h
  · rcases compressHextets_cases (hexTexts hs) with h | ⟨front, n, back, -, htexts, h⟩
    · rw [h] at hl
      exact not_mem_of_mem_hexTexts hc hl hcl
    · obtain ⟨rest, back', -, hrest, rfl⟩ := List.map_eq_append_iff.1 htexts
      obtain ⟨front', -, -, rfl, -⟩ := List.map_eq_append_iff.1 hrest
      rw [h] at hl
      exact not_mem_of_mem_aroundGap front' back' hc l hl hcl

/-- An address without a scope id is read back from what is printed for it. -/
theorem ipAddress_str {a : IPAddress} (h : ∀ hextets len z, a ≠ .v6 hextets len (some z)) :
    ipAddress a.str = .ok a := by
  cases a with
  | v4 a b c d =>
    have hdigits : ∀ {l : List Char}, l ∈ [a, b, c, d].map (fun o : UInt8 => Nat.toDigits 10 o.toNat) →
        ∀ x ∈ l, x.isDigit = true := by
      intro l hl x hx
      obtain ⟨o, -, rfl⟩ := List.mem_map.1 hl
      exact Nat.isDigit_of_mem_toDigits (by decide) (by decide) hx
    have hslash : '/' ∉ ['.'].intercalate ([a, b, c, d].map fun o => Nat.toDigits 10 o.toNat) := by
      intro hmem
      obtain h | ⟨l, hl, hc⟩ := eq_or_mem_of_mem_intercalate hmem
      · exact absurd h (by decide)
      · exact absurd (hdigits hl _ hc) (by decide)
    have hsplit : (['.'].intercalate ([a, b, c, d].map fun o => Nat.toDigits 10 o.toNat)).splitOn '.' =
        [a, b, c, d].map fun o => Nat.toDigits 10 o.toNat :=
      List.splitOn_intercalate '.' (fun l hl hc => absurd (hdigits hl _ hc) (by decide)) (by simp)
    have hparse : parseIPv4 (['.'].intercalate ([a, b, c, d].map fun o => Nat.toDigits 10 o.toNat)) =
        some (a, b, c, d) := by
      rw [parseIPv4, hsplit]
      simp only [List.map_cons, List.map_nil, parseOctet_toDigits]
      rfl
    rw [ipAddress, IPAddress.str, String.toList_ofList, if_neg hslash, hparse]
  | v6 hextets len scopeId =>
    cases scopeId with
    | some z => exact absurd rfl (h hextets len z)
    | none =>
      have htext : (IPAddress.v6 hextets len none).str.toList =
          [':'].intercalate (compressHextets (hexTexts hextets)) := by
        simp [IPAddress.str, hexTexts]
      have hnot : ∀ {c : Char}, hexDigit c = none → c ≠ ':' →
          c ∉ [':'].intercalate (compressHextets (hexTexts hextets)) :=
        fun hc hcolon => not_mem_compressHextets hc hcolon hextets
      have hv4 : parseIPv4 ([':'].intercalate (compressHextets (hexTexts hextets))) = none := by
        rw [parseIPv4, List.splitOn_eq_singleton (hnot rfl (by decide))]
      have hscope : splitScopeId ([':'].intercalate (compressHextets (hexTexts hextets))) =
          some ([':'].intercalate (compressHextets (hexTexts hextets)), none) := by
        rw [splitScopeId, List.dropWhile_eq_nil_iff.2]
        intro c hc
        have : c ≠ '%' := by
          rintro rfl
          exact hnot rfl (by decide) hc
        simpa using this
      rw [ipAddress, htext, if_neg (hnot rfl (by decide)), hv4, parseIPv6, hscope]
      simp [parseHextets_compressHextets len, len]

/-- The address without its scope id. -/
def IPAddress.unscoped : IPAddress → IPAddress
  | v4 a b c d => v4 a b c d
  | v6 hextets len _ => v6 hextets len none

theorem hextetsOfBytes_flatMap (hs : List UInt16) : hextetsOfBytes (hs.flatMap hextetBytes) = hs := by
  induction hs with
  | nil => rfl
  | cons h hs ih =>
    have hh : UInt16.ofNat (256 * (UInt8.ofNat (h.toNat / 256)).toNat + (UInt8.ofNat h.toNat).toNat) = h := by
      have := h.toNat_lt
      rw [UInt8.toNat_ofNat', UInt8.toNat_ofNat', ← UInt16.toNat_inj, UInt16.toNat_ofNat']
      omega
    rw [List.flatMap_cons, hextetBytes, List.cons_append, List.cons_append, List.nil_append, hextetsOfBytes, ih, hh]

/-- The packed form is that of the address without its scope id. -/
theorem ipOfPacked_packed (a : IPAddress) : ipOfPacked a.packed = .ok a.unscoped := by
  cases a with
  | v4 a b c d => rfl
  | v6 hextets len scopeId =>
    have hlen := IPAddress.length_packed_v6 hextets len scopeId
    have hback : hextetsOfBytes (IPAddress.v6 hextets len scopeId).packed = hextets := hextetsOfBytes_flatMap hextets
    have hfour : ∀ w x y z, (IPAddress.v6 hextets len scopeId).packed = [w, x, y, z] → False := by
      intro w x y z heq
      rw [heq] at hlen
      cases hlen
    rw [ipOfPacked, dif_pos hlen]
    · simp only [hback]
      rfl
    · exact hfour

end Wsnet
