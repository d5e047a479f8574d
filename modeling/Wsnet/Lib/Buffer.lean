import Wsnet.Lib.Bytes

/-!
# Reading and writing a byte buffer

`Buf` is a computation on an `io.BytesIO`: it consumes bytes from the front and may raise. As in
Python, `read n` returns what is there when fewer than `n` bytes are left and never raises.
`concat` writes parts one after another, each of which may raise.

`Reads p bs a` says that `p` consumes exactly `bs`, whatever follows, and returns `a`; `Codes w p a`
that whatever `w` writes, `p` reads back as `a`. `Codes.cons` composes a writer of parts with a
reader of fields, part by part. `Accepts p bs` says that `p` does not raise on `bs`.
-/

namespace Wsnet

variable {α β : Type}

/-- The exceptions the modelled code can raise on its own. -/
inductive PyErr
  | overflowError
  | unicodeDecodeError
  | valueError
  | keyError
  | indexError
  | typeError
  | attributeError
  | unboundLocalError
  | exception (msg : String)
  deriving DecidableEq, Repr

theorem except_bind_eq_ok {x : Except PyErr α} {f : α → Except PyErr β} {b : β} :
    x >>= f = .ok b ↔ ∃ a, x = .ok a ∧ f a = .ok b := by
  cases x <;> simp [bind, Except.bind]

theorem except_bind_eq_error {x : Except PyErr α} {f : α → Except PyErr β} {e : PyErr} :
    x >>= f = .error e ↔ x = .error e ∨ ∃ a, x = .ok a ∧ f a = .error e := by
  cases x <;> simp [bind, Except.bind]

theorem except_map_eq_ok {x : Except PyErr α} {f : α → β} {b : β} : x.map f = .ok b ↔ ∃ a, x = .ok a ∧ f a = b := by
  cases x <;> simp [Except.map]

/-- A computation on an `io.BytesIO` positioned at the bytes of its state. -/
abbrev Buf := StateT Bytes (Except PyErr)

namespace Buf

/-- `buff.read(n)`: short when fewer than `n` bytes are left. -/
def read (n : Nat) : Buf Bytes := fun b => .ok (b.take n, b.drop n)

/-- `buff.read(-1)`. -/
def readAll : Buf Bytes := fun b => .ok (b, [])

/-- Raise unless the value is there. -/
def ofExcept : Except PyErr α → Buf α
  | .ok a => fun b => .ok (a, b)
  | .error e => fun _ => .error e

theorem bind_run (p : Buf α) (f : α → Buf β) (b : Bytes) :
    (p >>= f) b = (p b).bind fun r => f r.1 r.2 := rfl

theorem bind_eq_ok {p : Buf α} {f : α → Buf β} {b : Bytes} {r : β × Bytes} :
    (p >>= f) b = .ok r ↔ ∃ a rest, p b = .ok (a, rest) ∧ f a rest = .ok r := by
  rw [bind_run]
  cases p b with
  | error e => simp [Except.bind]
  | ok x => exact ⟨fun h => ⟨x.1, x.2, rfl, h⟩, fun ⟨_, _, he, h⟩ => by cases he; exact h⟩

theorem map_run (f : α → β) (p : Buf α) (b : Bytes) : (f <$> p) b = (p b).map fun r => (f r.1, r.2) := by
  change (p b).bind (fun r => .ok (f r.1, r.2)) = _
  cases p b <;> rfl

theorem ofExcept_run (x : Except PyErr α) (b : Bytes) : ofExcept x b = x.map (·, b) := by cases x <;> rfl

/-- Read something, then raise unless it is good. -/
theorem bind_ofExcept_run {p : Buf α} {g : α → Except PyErr β} {b rest : Bytes} {r : Except PyErr α}
    (h : p b = r.map (·, rest)) : (do let x ← p; ofExcept (g x)) b = (r.bind g).map (·, rest) := by
  rw [bind_run, h]
  cases r with
  | error e => rfl
  | ok a => exact ofExcept_run (g a) rest

@[simp] theorem read_run (n : Nat) (b : Bytes) : read n b = .ok (b.take n, b.drop n) := rfl

@[simp] theorem readAll_run (b : Bytes) : readAll b = .ok (b, []) := rfl

end Buf

/-- `p` consumes exactly `bs`, whatever follows, and returns `a`. -/
def Reads (p : Buf α) (bs : Bytes) (a : α) : Prop := ∀ rest, p (bs ++ rest) = .ok (a, rest)

namespace Reads
variable {p : Buf α} {f : α → Buf β} {bs cs : Bytes} {a : α} {c : β}

protected theorem pure (a : α) : Reads (pure a) [] a := fun _ => rfl

theorem bind (h : Reads p bs a) (h' : Reads (f a) cs c) : Reads (p >>= f) (bs ++ cs) c := by
  intro rest
  rw [Buf.bind_run, List.append_assoc, h]
  exact h' rest

theorem bind_left (h : Reads p bs a) (h' : Reads (f a) [] c) : Reads (p >>= f) bs c := by
  simpa using h.bind h'

theorem map (g : α → β) (h : Reads p bs a) : Reads (g <$> p) bs (g a) := by
  intro rest
  rw [Buf.map_run, h]
  rfl

theorem run (h : Reads p bs a) : p bs = .ok (a, []) := by simpa using h []

end Reads

theorem reads_read {bs : Bytes} {n : Nat} (h : bs.length = n) : Reads (Buf.read n) bs bs := by
  intro rest
  subst h
  simp [Buf.read]

theorem reads_ofExcept (a : α) : Reads (Buf.ofExcept (.ok a)) [] a := fun _ => rfl

/-- Write the parts in order; the first that raises aborts the whole. -/
def concat : List (Except PyErr Bytes) → Except PyErr Bytes
  | [] => .ok []
  | w :: ws => w.bind fun b => (concat ws).map (b ++ ·)

theorem concat_cons_eq_ok {w : Except PyErr Bytes} {ws : List (Except PyErr Bytes)} {d : Bytes} :
    concat (w :: ws) = .ok d ↔ ∃ b bs, w = .ok b ∧ concat ws = .ok bs ∧ d = b ++ bs := by
  cases w with
  | error e => simp [concat, Except.bind]
  | ok b => cases h : concat ws <;> simp [concat, Except.bind, Except.map, h, eq_comm]

@[simp] theorem concat_nil : concat [] = .ok [] := rfl

theorem concat_cons_ok (b : Bytes) (ws : List (Except PyErr Bytes)) :
    concat (.ok b :: ws) = (concat ws).map (b ++ ·) := rfl

theorem concat_append (ws vs : List (Except PyErr Bytes)) :
    concat (ws ++ vs) = (concat ws).bind fun b => (concat vs).map (b ++ ·) := by
  induction ws with
  | nil => cases h : concat vs <;> simp [Except.bind, Except.map, h]
  | cons w ws ih =>
    cases w with
    | error e => rfl
    | ok b =>
      simp only [List.cons_append, concat_cons_ok, ih]
      cases concat ws <;> cases concat vs <;> simp [Except.bind, Except.map]

/-- Whatever `w` writes, `p` reads back as `a`. -/
def Codes (w : Except PyErr Bytes) (p : Buf α) (a : α) : Prop := ∀ bs, w = .ok bs → Reads p bs a

namespace Codes
variable {w : Except PyErr Bytes} {ws : List (Except PyErr Bytes)} {p : Buf α} {f : α → Buf β} {a : α} {c : β}

protected theorem nil (a : α) : Codes (concat []) (pure a) a := by
  intro bs h
  cases h
  exact .pure a

/-- One part written, one field read. -/
protected theorem cons (h : Codes w p a) (h' : Codes (concat ws) (f a) c) : Codes (concat (w :: ws)) (p >>= f) c := by
  intro bs hbs
  obtain ⟨b, cs, hw, hws, rfl⟩ := concat_cons_eq_ok.1 hbs
  exact (h b hw).bind (h' cs hws)

/-- Two parts that one reader takes together. -/
theorem append {vs : List (Except PyErr Bytes)} (h : Codes (concat vs) p a) (h' : Codes (concat ws) (f a) c) :
    Codes (concat (vs ++ ws)) (p >>= f) c := by
  intro bs hbs
  rw [concat_append] at hbs
  cases hv : concat vs with
  | error e => rw [hv] at hbs; cases hbs
  | ok b =>
    cases hw : concat ws with
    | error e => rw [hv, hw] at hbs; cases hbs
    | ok d =>
      rw [hv, hw] at hbs
      cases hbs
      exact (h b hv).bind (h' d hw)

theorem map (g : α → β) (h : Codes w p a) : Codes w (g <$> p) (g a) := fun bs hbs => (h bs hbs).map g

end Codes

theorem codes_read {bs : Bytes} {n : Nat} (h : bs.length = n) : Codes (.ok bs) (Buf.read n) bs := by
  rintro _ ⟨⟩
  exact reads_read h

/-- `p` does not raise on `bs`. -/
def Accepts (p : Buf α) (bs : Bytes) : Prop := ∃ r, p bs = .ok r

namespace Accepts
variable {p : Buf α} {f : α → Buf β} {bs : Bytes}

protected theorem pure (a : α) : Accepts (pure a) bs := ⟨_, rfl⟩

theorem bind_iff : Accepts (p >>= f) bs ↔ ∃ a rest, p bs = .ok (a, rest) ∧ Accepts (f a) rest := by
  unfold Accepts
  rw [Buf.bind_run]
  cases p bs with
  | error e => simp [Except.bind]
  | ok r => exact ⟨fun h => ⟨r.1, r.2, rfl, h⟩, fun ⟨_, _, he, h⟩ => by cases he; exact h⟩

theorem bind_of_run {a : α} {rest : Bytes} (h : p bs = .ok (a, rest)) : Accepts (p >>= f) bs ↔ Accepts (f a) rest := by
  rw [bind_iff]
  constructor
  · rintro ⟨a', rest', h', hf⟩
    rw [h] at h'
    cases h'
    exact hf
  · exact fun hf => ⟨a, rest, h, hf⟩

theorem map_iff (g : α → β) : Accepts (g <$> p) bs ↔ Accepts p bs := by
  unfold Accepts
  rw [Buf.map_run]
  cases p bs <;> simp [Except.map]

end Accepts

end Wsnet
