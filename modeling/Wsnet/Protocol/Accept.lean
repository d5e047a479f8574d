import Wsnet.Protocol.Cmd

/-!
# What the parser accepts

A short read never raises by itself, so a frame that is cut anywhere is read like a whole one. What
does raise is a text that is not in its encoding, a text that is no number, a missing flag byte, and
an address of an unknown version or cut short. `layout` lists, for every type, what its reader takes
in order, and `Readable` says that each of these is there in what is left of the buffer;
`fromBytes_isOk_iff` is that the parser accepts exactly the readable frames. The length field is not
among the conditions, nor is there a bound on the number of texts that a `RESOLV` announces
(`WSNResolv.bounded_iff`).
-/

namespace Wsnet

/-- What a reader takes from the front of the buffer. -/
inductive Item
  /-- bytes or an unsigned number -/
  | skip (n : Nat)
  /-- a byte string behind its length -/
  | bytes
  | str (enc : Encoding)
  | strInt
  /-- a byte that has to be there -/
  | flag
  /-- a UTF-8 text of `n` bytes -/
  | text (n : Nat)
  | address
  /-- all that is left -/
  | rest

namespace Item

/-- The item can be read at the front of `b`. -/
def Ok : Item → Bytes → Prop
  | skip _, _ => True
  | bytes, _ => True
  | str enc, b => ∃ s, decode enc (fieldOf b) = .ok s
  | strInt, b => ∃ s n, utf8Decode (fieldOf b) = .ok s ∧ pyInt s = .ok n
  | flag, b => b ≠ []
  | text n, b => ∃ s, utf8Decode (b.take n) = .ok s
  | address, [] => False
  | address, v :: b =>
    if v = 0x04 then 4 ≤ b.length
    else if v = 0x06 then b.length = 4 ∨ 16 ≤ b.length -- four bytes make an address of the other version
    else v = 0xFF ∧ ∃ s, utf8Decode (fieldOf b) = .ok s
  | rest, _ => True

/-- What is left of `b` behind the item. -/
def after : Item → Bytes → Bytes
  | skip n, b => b.drop n
  | bytes, b => afterField b
  | str _, b => afterField b
  | strInt, b => afterField b
  | flag, b => b.drop 1
  | text n, b => b.drop n
  | address, [] => []
  | address, v :: b => if v = 0x04 then b.drop 4 else if v = 0x06 then b.drop 16 else afterField b
  | rest, _ => []

end Item

/-- The items can be read one after another. -/
def Readable : List Item → Bytes → Prop
  | [], _ => True
  | i :: is, b => i.Ok b ∧ Readable is (i.after b)

/-- What the reader of a type takes; `RESOLV` says itself how many texts follow. -/
def layout : CMDType → Bytes → List Item
  | .OK, _ | .CONTINUE, _ => [.skip 16, .str .utf8]
  | .NOP, _ | .STOP, _ | .GETINFO, _ | .LISTAGENTS, _ | .SESSIONKEY, _ | .SEQUENCE, _ | .WRAPSSL, _ | .FILESTAT, _
  | .PROCLIST, _ => [.skip 16]
  | .ERR, _ => [.skip 16, .str .utf8, .str .utf8]
  | .LOG, _ => [.skip 16, .skip 2, .str .utf8]
  | .CONNECT, _ => [.skip 16, .text 3, .flag, .address, .skip 2, .skip 1]
  | .DISCONNECT, _ => []
  | .SD, _ => [.skip 16, .rest]
  | .GETINFOREPLY, _ => [.skip 16, .strInt, .str .utf16le, .str .utf16le, .str .utf16le, .str .utf8, .str .utf16le,
      .str .utf8, .str .utf8, .str .utf8]
  | .AUTHERR, _ => [.skip 16, .str .utf8, .str .utf8]
  | .NTLMAUTH, _ => [.skip 16, .str .utf8, .strInt, .strInt, .str .utf8]
  | .NTLMAUTHREPLY, _ | .NTLMCHALLREPLY, _ | .KERBEROSREPLY, _ => [.skip 16, .str .utf8, .strInt, .bytes]
  | .NTLMCHALL, _ => [.skip 16, .bytes, .strInt, .str .utf8]
  | .KERBEROS, _ => [.skip 16, .str .utf8, .strInt, .strInt, .str .utf8, .bytes]
  | .SESSIONKEYREPLY, _ | .SEQUENCEREPLY, _ => [.skip 16, .str .utf8, .bytes]
  | .AGENTINFO, _ => [.skip 16, .bytes, .strInt, .str .utf16le, .str .utf16le, .str .utf16le, .str .utf8,
      .str .utf16le, .str .utf8]
  | .SDSRV, _ => [.skip 16, .skip 16, .address, .skip 2, .rest]
  | .RESOLV, b => .skip 16 :: .skip 4 :: List.replicate (beNat ((b.drop 16).take 4)) (.str .utf8)
  | .DIRLS, _ | .DIRMK, _ | .DIRRM, _ | .FILERM, _ => [.skip 16, .str .utf8]
  | .DIRCOPY, _ | .DIRMOVE, _ | .FILECOPY, _ | .FILEMOVE, _ | .FILEOPEN, _ | .PROCSTART, _ =>
    [.skip 16, .str .utf8, .str .utf8]
  | .FILEREAD, _ => [.skip 16, .skip 4, .skip 8]
  | .FILEDATA, _ => [.skip 16, .skip 8, .bytes]
  | .FILEENTRY, _ => [.skip 16, .str .utf8, .str .utf8, .flag, .skip 8, .skip 8, .skip 8, .skip 8]
  | .PROCKILL, _ => [.skip 16, .skip 8]
  | .PROCINFO, _ => [.skip 16, .skip 8, .str .utf8, .str .utf8, .str .utf8, .skip 8, .skip 8, .skip 8, .skip 8, .flag,
      .str .utf8]
  | .PROCSTD, _ => [.skip 16, .skip 4, .str .utf8]

/-- `p` reads the item: it succeeds where the item can be read, and leaves what is behind it. -/
def Takes {α : Type} (p : Buf α) (i : Item) : Prop :=
  ∀ b, (i.Ok b → ∃ a, p b = .ok (a, i.after b)) ∧ (¬ i.Ok b → ¬ Accepts p b)

/-- `p` succeeds exactly where the items can be read. -/
def Follows {α : Type} (p : Buf α) (is : List Item) : Prop := ∀ b, Accepts p b ↔ Readable is b

namespace Follows
variable {α β : Type} {p : Buf α} {f : α → Buf β} {i : Item} {is : List Item}

protected theorem pure (a : α) : Follows (pure a) [] := fun _ => ⟨fun _ => trivial, fun _ => ⟨_, rfl⟩⟩

theorem bind (h : Takes p i) (h' : ∀ a, Follows (f a) is) : Follows (p >>= f) (i :: is) := by
  intro b
  by_cases hb : i.Ok b
  · obtain ⟨a, ha⟩ := (h b).1 hb
    rw [Accepts.bind_of_run ha, h' a]
    exact ⟨fun hr => ⟨hb, hr⟩, And.right⟩
  · refine ⟨fun hacc => ?_, fun hr => absurd hr.1 hb⟩
    obtain ⟨a, rest, ha, -⟩ := Accepts.bind_iff.1 hacc
    exact absurd ⟨_, ha⟩ ((h b).2 hb)

theorem map (g : α → β) (h : Follows p is) : Follows (g <$> p) is := fun b => by rw [Accepts.map_iff, h]

end Follows

namespace Takes

theorem of_total {α : Type} {p : Buf α} {i : Item} (h : ∀ b, i.Ok b ∧ ∃ a, p b = .ok (a, i.after b)) : Takes p i :=
  fun b => ⟨fun _ => (h b).2, fun hb => absurd (h b).1 hb⟩

theorem read (n : Nat) : Takes (Buf.read n) (.skip n) := of_total fun _ => ⟨trivial, _, rfl⟩

theorem readInt (w : Nat) : Takes (Wsnet.readInt w) (.skip w) := of_total fun _ => ⟨trivial, _, rfl⟩

theorem readBytes : Takes Wsnet.readBytes .bytes := of_total fun _ => ⟨trivial, _, rfl⟩

theorem readAll : Takes Buf.readAll .rest := of_total fun _ => ⟨trivial, _, rfl⟩

theorem of_run {α : Type} {p : Buf α} {i : Item} (r : Bytes → Except PyErr α)
    (h : ∀ b, p b = (r b).map (·, i.after b)) (hok : ∀ b, i.Ok b ↔ ∃ a, r b = .ok a) : Takes p i := by
  intro b
  rw [hok b, Accepts, h b]
  cases r b with
  | ok a => exact ⟨fun _ => ⟨a, rfl⟩, fun hno => absurd ⟨a, rfl⟩ hno⟩
  | error e => exact ⟨by rintro ⟨_, ⟨⟩⟩, fun _ => by rintro ⟨_, ⟨⟩⟩⟩

theorem readStr (enc : Encoding) : Takes (Wsnet.readStr enc) (.str enc) :=
  of_run _ (readStr_run enc) fun _ => Iff.rfl

theorem readStrInt : Takes Wsnet.readStrInt .strInt := by
  refine of_run _ readStrInt_run fun b => ?_
  simp only [Item.Ok]
  cases utf8Decode (fieldOf b) with
  | error e => simp [Except.bind]
  | ok s => simp [Except.bind]

theorem readText (n : Nat) : Takes (Wsnet.readText n) (.text n) :=
  of_run (fun b => utf8Decode (b.take n))
    (fun b => Buf.bind_ofExcept_run (show Buf.read n b = (Except.ok (b.take n)).map (·, b.drop n) from rfl))
    fun _ => Iff.rfl

theorem readOrd : Takes Wsnet.readOrd .flag := by
  refine of_run (fun b => if b.take 1 = [] then .error .typeError else .ok (decide (beNat (b.take 1) ≠ 0)))
    (fun b => Buf.bind_ofExcept_run (show Buf.read 1 b = (Except.ok (b.take 1)).map (·, b.drop 1) from rfl)) fun b => ?_
  cases b <;> simp [Item.Ok]

theorem readFlag : Takes Wsnet.readFlag .flag := by
  intro b
  cases b with
  | nil => exact ⟨fun h => absurd rfl h, fun _ => by rintro ⟨_, ⟨⟩⟩⟩
  | cons x b => exact ⟨fun _ => ⟨_, rfl⟩, fun h => absurd (List.cons_ne_nil x b) h⟩

theorem map_isOk_iff {α β : Type} {g : α → β} {x : Except PyErr α} : (∃ a, x = .ok a) ↔ ∃ b, x.map g = .ok b := by
  cases x <;> simp [Except.map]

/-- Sixteen or four bytes are an address; `b.take n` are there in full or all that `b` has. -/
theorem readPackedIp_run (n : Nat) (b : Bytes) :
    readPackedIp n b = ((ipOfPacked (b.take n)).map IPAddress.str).map (·, b.drop n) :=
  Buf.bind_ofExcept_run (show Buf.read n b = (Except.ok (b.take n)).map (·, b.drop n) from rfl)

/-- The address at the start of a byte string. -/
def addressOf (unknown : Bytes → PyErr) : Bytes → Except PyErr String
  | [] => .error (unknown [])
  | v :: b =>
    if v = 0x04 then (ipOfPacked (b.take 4)).map IPAddress.str
    else if v = 0x06 then (ipOfPacked (b.take 16)).map IPAddress.str
    else if v = 0xFF then utf8Decode (fieldOf b) else .error (unknown [v])

theorem readAddress (unknown : Bytes → PyErr) : Takes (Wsnet.readAddress unknown) .address := by
  refine of_run (addressOf unknown) (fun b => ?_) fun b => ?_
  · cases b with
    | nil => rfl
    | cons v b =>
      by_cases h4 : v = 0x04
      · subst h4; exact readPackedIp_run 4 b
      by_cases h6 : v = 0x06
      · subst h6; exact readPackedIp_run 16 b
      by_cases hf : v = 0xFF
      · subst hf; exact readStr_run .utf8 b
      · simp [Wsnet.readAddress, addressOf, Buf.bind_run, Except.bind, Except.map, Buf.ofExcept, h4, h6, hf]
  · cases b with
    | nil => simp [Item.Ok, addressOf]
    | cons v b =>
      simp only [Item.Ok, addressOf]
      split_ifs
      · rw [← map_isOk_iff, ipOfPacked_ok_iff, List.length_take]
        omega
      · rw [← map_isOk_iff, ipOfPacked_ok_iff, List.length_take]
        omega
      · simp_all
      · simp_all

end Takes

namespace Follows

theorem readStrs (n : Nat) : Follows (Wsnet.readStrs n) (List.replicate n (.str .utf8)) := by
  induction n with
  | zero => exact .pure _
  | succ n ih =>
    refine .bind (.readStr _) fun s b => ?_
    rw [← ih b]
    exact Accepts.map_iff (List.cons s)

theorem resolv (b : Bytes) : Accepts WSNResolv.fromBuffer b ↔ Readable (layout .RESOLV b) b := by
  have h : ∀ a (c : Int), Follows (do
      let ip_or_hostnames ← Wsnet.readStrs c.toNat
      return ({ token := a, ip_or_hostnames } : WSNResolv)) (List.replicate c.toNat (.str .utf8)) :=
    fun a c => (readStrs c.toNat).map (WSNResolv.mk a)
  rw [WSNResolv.fromBuffer, Accepts.bind_of_run (Buf.read_run 16 b), Accepts.bind_of_run (readInt_run 4 _), h]
  simp [layout, Readable, Item.Ok, Item.after]

end Follows

namespace CMD

theorem accepts_type2cmd_iff (t : CMDType) (b : Bytes) :
    Accepts (type2cmd t) b ↔ t ≠ .DISCONNECT ∧ Readable (layout t b) b := by
  by_cases hd : t = .DISCONNECT
  · subst hd
    exact ⟨by rintro ⟨_, ⟨⟩⟩, fun h => absurd rfl h.1⟩
  rw [and_iff_right hd]
  cases t with
  | DISCONNECT => exact absurd rfl hd
  | RESOLV => exact (Accepts.map_iff _).trans (Follows.resolv b)
  | OK | CONTINUE | DIRLS | DIRMK | DIRRM | FILERM =>
    exact (Follows.bind (.read 16) fun _ => .bind (.readStr _) fun _ => .pure _).map _ b
  | NOP | STOP | GETINFO | LISTAGENTS | SESSIONKEY | SEQUENCE | WRAPSSL | FILESTAT | PROCLIST =>
    exact (Follows.bind (.read 16) fun _ => .pure _).map _ b
  | ERR | AUTHERR | DIRCOPY | DIRMOVE | FILECOPY | FILEMOVE | FILEOPEN | PROCSTART =>
    exact (Follows.bind (.read 16) fun _ => .bind (.readStr _) fun _ => .bind (.readStr _) fun _ => .pure _).map _ b
  | LOG | PROCSTD =>
    exact (Follows.bind (.read 16) fun _ => .bind (.readInt _) fun _ => .bind (.readStr _) fun _ => .pure _).map _ b
  | SD => exact (Follows.bind (.read 16) fun _ => .bind .readAll fun _ => .pure _).map _ b
  | SDSRV =>
    exact (Follows.bind (.read 16) fun _ => .bind (.read 16) fun _ => .bind (.readAddress _) fun _ =>
      .bind (.readInt 2) fun _ => .bind .readAll fun _ => .pure _).map _ b
  | CONNECT =>
    exact (Follows.bind (.read 16) fun _ => .bind (.readText 3) fun _ => .bind .readOrd fun _ =>
      .bind (.readAddress _) fun _ => .bind (.readInt 2) fun _ => .bind (.readInt 1) fun _ => .pure _).map _ b
  | NTLMAUTHREPLY | NTLMCHALLREPLY | KERBEROSREPLY =>
    exact (Follows.bind (.read 16) fun _ => .bind (.readStr _) fun _ => .bind .readStrInt fun _ =>
      .bind .readBytes fun _ => .pure _).map _ b
  | SESSIONKEYREPLY | SEQUENCEREPLY =>
    exact (Follows.bind (.read 16) fun _ => .bind (.readStr _) fun _ => .bind .readBytes fun _ => .pure _).map _ b
  | NTLMAUTH =>
    exact (Follows.bind (.read 16) fun _ => .bind (.readStr _) fun _ => .bind .readStrInt fun _ =>
      .bind .readStrInt fun _ => .bind (.readStr _) fun _ => .pure _).map _ b
  | NTLMCHALL =>
    exact (Follows.bind (.read 16) fun _ => .bind .readBytes fun _ => .bind .readStrInt fun _ =>
      .bind (.readStr _) fun _ => .pure _).map _ b
  | KERBEROS =>
    exact (Follows.bind (.read 16) fun _ => .bind (.readStr _) fun _ => .bind .readStrInt fun _ =>
      .bind .readStrInt fun _ => .bind (.readStr _) fun _ => .bind .readBytes fun _ => .pure _).map _ b
  | GETINFOREPLY =>
    exact (Follows.bind (.read 16) fun _ => .bind .readStrInt fun _ => .bind (.readStr _) fun _ =>
      .bind (.readStr _) fun _ => .bind (.readStr _) fun _ => .bind (.readStr _) fun _ => .bind (.readStr _) fun _ =>
      .bind (.readStr _) fun _ => .bind (.readStr _) fun _ => .bind (.readStr _) fun _ => .pure _).map _ b
  | AGENTINFO =>
    exact (Follows.bind (.read 16) fun _ => .bind .readBytes fun _ => .bind .readStrInt fun _ =>
      .bind (.readStr _) fun _ =>
      .bind (.readStr _) fun _ => .bind (.readStr _) fun _ => .bind (.readStr _) fun _ => .bind (.readStr _) fun _ =>
      .bind (.readStr _) fun _ => .pure _).map _ b
  | FILEREAD =>
    exact (Follows.bind (.read 16) fun _ => .bind (.readInt 4) fun _ => .bind (.readInt 8) fun _ => .pure _).map _ b
  | FILEDATA =>
    exact (Follows.bind (.read 16) fun _ => .bind (.readInt 8) fun _ => .bind .readBytes fun _ => .pure _).map _ b
  | FILEENTRY =>
    exact (Follows.bind (.read 16) fun _ => .bind (.readStr _) fun _ => .bind (.readStr _) fun _ =>
      .bind .readFlag fun _ => .bind (.readInt 8) fun _ => .bind (.readInt 8) fun _ => .bind (.readInt 8) fun _ =>
      .bind (.readInt 8) fun _ => .pure _).map _ b
  | PROCKILL => exact (Follows.bind (.read 16) fun _ => .bind (.readInt 8) fun _ => .pure _).map _ b
  | PROCINFO =>
    exact (Follows.bind (.read 16) fun _ => .bind (.readInt 8) fun _ => .bind (.readStr _) fun _ =>
      .bind (.readStr _) fun _ => .bind (.readStr _) fun _ => .bind (.readInt 8) fun _ => .bind (.readInt 8) fun _ =>
      .bind (.readInt 8) fun _ => .bind (.readInt 8) fun _ => .bind .readFlag fun _ => .bind (.readStr _) fun _ =>
      .pure _).map _ b

/-- The type number of `d` is that of a class whose fields can be read behind it. -/
def Parsable (d : Bytes) : Prop :=
  ∃ t : CMDType, t.value = beNat ((d.drop 4).take 2) ∧ t ≠ .DISCONNECT ∧ Readable (layout t (d.drop 6)) (d.drop 6)

variable {c : CMD} {b d : Bytes}

/-- The parser accepts exactly the parsable byte strings. -/
theorem fromBytes_isOk_iff : (∃ c, fromBytes d = .ok c) ↔ Parsable d := by
  have hacc : (∃ c, fromBytes d = .ok c) ↔ Accepts fromBuffer d := by
    unfold fromBytes Accepts
    cases fromBuffer d <;> simp [Except.map]
  rw [hacc, Accepts, fromBuffer_eq]
  cases hv : CMDType.ofValue (beNat ((d.drop 4).take 2)) with
  | ok t =>
    have ht := CMDType.ofValue_eq_ok.1 hv
    refine (accepts_type2cmd_iff t _).trans ⟨fun h => ⟨t, ht, h⟩, ?_⟩
    rintro ⟨t', ht', h⟩
    rw [← ht', CMDType.ofValue_value] at hv
    cases hv
    exact h
  | error e =>
    refine ⟨by rintro ⟨_, ⟨⟩⟩, ?_⟩
    rintro ⟨t, ht, -⟩
    rw [← ht, CMDType.ofValue_value] at hv
    cases hv

theorem ne_DISCONNECT (c : CMD) : c.type ≠ .DISCONNECT := by
  cases c <;> simp [type]

/-- The first five bytes say no more than the high byte of the type number, which is that of an `OK` or an `ERR`. -/
theorem parsable_of_short {t : CMDType} {l : Bytes} {n : Nat} (hl : l.length = 4) (hn : n < 6) (body : Bytes) :
    Parsable ((l ++ (t.toBytes ++ body)).take n) := by
  have hhigh : beNat (t.toBytes.take 1) = CMDType.OK.value ∨ beNat (t.toBytes.take 1) = CMDType.ERR.value := by
    cases t <;> decide
  have ht : t.toBytes.length = 2 := length_beBytes 2 t.value
  have hrest : ((l ++ (t.toBytes ++ body)).take n).drop 6 = [] := by
    rw [List.drop_eq_nil_iff, List.length_take]
    omega
  have hok : Readable (layout .OK []) [] := by simp [layout, Readable, Item.Ok, Item.after, fieldOf, decode]
  have herr : Readable (layout .ERR []) [] := by simp [layout, Readable, Item.Ok, Item.after, afterField, fieldOf, decode]
  by_cases h4 : n ≤ 4
  · have hnone : ((l ++ (t.toBytes ++ body)).take n).drop 4 = [] := by
      rw [List.drop_eq_nil_iff, List.length_take]
      omega
    refine ⟨.OK, ?_, by decide, by rwa [hrest]⟩
    rw [hnone]
    rfl
  · obtain rfl : n = 5 := by omega
    have hone : (((l ++ (t.toBytes ++ body)).take 5).drop 4).take 2 = t.toBytes.take 1 := by
      rw [List.drop_take, List.drop_left' hl, List.take_append_of_le_length (by omega), List.take_take]
      rfl
    rcases hhigh with h | h
    · exact ⟨.OK, by rw [hone, h], by decide, by rwa [hrest]⟩
    · exact ⟨.ERR, by rw [hone, h], by decide, by rwa [hrest]⟩

/-- Which truncations of a frame are accepted: those without a whole type number, and those in which the fields
can be read from what is left of them. -/
theorem fromBytes_take_isOk_iff (hb : toBytes c = .ok b) (n : Nat) : (∃ c', fromBytes (b.take n) = .ok c') ↔
    n < 6 ∨ Readable (layout c.type ((b.take n).drop 6)) ((b.take n).drop 6) := by
  obtain ⟨body, -, -, rfl⟩ := toBytes_eq_ok.1 hb
  have hl : (beBytes 4 (body.length + 6)).length = 4 := length_beBytes 4 _
  have ht : c.type.toBytes.length = 2 := length_beBytes 2 c.type.value
  rw [fromBytes_isOk_iff]
  by_cases hn : n < 6
  · exact iff_of_true (parsable_of_short hl hn body) (.inl hn)
  · have htype : (((beBytes 4 (body.length + 6) ++ (c.type.toBytes ++ body)).take n).drop 4).take 2 = c.type.toBytes := by
      rw [List.drop_take, List.drop_left' hl, List.take_take, min_eq_left (by omega), List.take_left' ht]
    have hvalue : beNat c.type.toBytes = c.type.value := by
      cases c.type <;> rfl
    rw [or_iff_right hn, Parsable]
    simp only [htype, hvalue]
    constructor
    · rintro ⟨t, hval, -, hread⟩
      obtain rfl : t = c.type := by
        have h := CMDType.ofValue_value t
        rw [hval, CMDType.ofValue_value] at h
        exact (Except.ok.inj h).symm
      exact hread
    · exact fun h => ⟨c.type, rfl, ne_DISCONNECT c, h⟩

/-- An accepted byte string has the length its first four bytes say only where that is so of the bytes
themselves; and every frame has proper prefixes that are accepted, which are these. -/
theorem length_of_fromBytes_iff (d : Bytes) :
    ((∀ c, fromBytes d = .ok c → beNat (d.take 4) = d.length) ↔ (beNat (d.take 4) = d.length ∨ ¬ Parsable d)) ∧
      ∀ c b, toBytes c = .ok b → (∃ p, p <+: b ∧ p ≠ b ∧ ∃ c', fromBytes p = .ok c') ∧
        ∀ n, (∃ c', fromBytes (b.take n) = .ok c') ↔
          n < 6 ∨ Readable (layout c.type ((b.take n).drop 6)) ((b.take n).drop 6) := by
  refine ⟨?_, fun c b hb => ⟨⟨[], List.nil_prefix, ?_, _, fromBytes_nil⟩, fromBytes_take_isOk_iff hb⟩⟩
  · rw [← fromBytes_isOk_iff]
    by_cases hl : beNat (d.take 4) = d.length
    · simp [hl]
    · simp [hl]
  · rintro rfl
    have := length_of_toBytes hb
    rw [frameLength, List.length_nil] at this
    omega

/-- The first 30 bytes of the frame of a `DIRRM` of `/srv/old`. -/
theorem fromBytes_truncated_dirrm : ∃ b d,
    toBytes (DIRRM ⟨List.replicate 16 1, "/srv/old"⟩) = .ok b ∧ d = b.take 30 ∧ beNat (d.take 4) ≠ d.length ∧
      fromBytes d = .ok (DIRRM ⟨List.replicate 16 1, "/srv"⟩) :=
  ⟨[0, 0, 0, 34, 1, 46, 1, 1, 1, 1, 1, 1, 1, 1, 1, 1, 1, 1, 1, 1, 1, 1, 0, 0, 0, 8, 47, 115, 114, 118, 47, 111,
    108, 100],
    _, by decide +kernel, rfl, by decide +kernel, by decide +kernel⟩

end CMD

/-! ### The texts of a RESOLV -/

/-- A text takes its length field, unless it starts behind it. -/
theorem length_afterField (b : Bytes) : (afterField b).length + 4 ≤ b.length ↔ 4 ≤ b.length := by
  rw [afterField, List.length_drop, List.length_drop]
  omega

/-- Each text is read from what the ones before it left. -/
theorem readStrs_eq_ok {n : Nat} {b rest : Bytes} {ss : List String} (h : readStrs n b = .ok (ss, rest)) :
    ss.length = n ∧ ∀ i < n, ∃ s, ss[i]? = some s ∧
      readStr .utf8 (afterField^[i] b) = .ok (s, afterField^[i + 1] b) := by
  induction n generalizing b ss with
  | zero =>
    cases h
    exact ⟨rfl, fun i hi => absurd hi (Nat.not_lt_zero i)⟩
  | succ n ih =>
    obtain ⟨s, left, hs, h⟩ := Buf.bind_eq_ok.1 h
    obtain ⟨ss', left', hss, ⟨⟩⟩ := Buf.bind_eq_ok.1 h
    have hleft : left = afterField b := by
      rw [readStr_run, except_map_eq_ok] at hs
      obtain ⟨_, -, heq⟩ := hs
      exact (Prod.mk.inj heq).2.symm
    subst hleft
    obtain ⟨hlen, hread⟩ := ih hss
    refine ⟨by rw [List.length_cons, hlen], fun i hi => ?_⟩
    cases i with
    | zero => exact ⟨s, rfl, hs⟩
    | succ i =>
      simp only [Function.iterate_succ_apply, List.getElem?_cons_succ] at hread ⊢
      exact hread i (by omega)

namespace WSNResolv
variable {b rest : Bytes} {c : WSNResolv}

/-- The number of texts that is announced. -/
def count (b : Bytes) : Nat := beNat ((b.drop 16).take 4)

/-- What is left of a message behind its first `i` texts. -/
def left (b : Bytes) (i : Nat) : Bytes := afterField^[i] (b.drop 20)

/-- Where the `i`-th text of a message starts, by the lengths that are announced before it. -/
def textOffset (b : Bytes) : Nat → Nat
  | 0 => 20
  | i + 1 => textOffset b i + 4 + beNat ((b.drop (textOffset b i)).take 4)

theorem left_eq_drop (b : Bytes) (i : Nat) : left b i = b.drop (textOffset b i) := by
  induction i with
  | zero => rfl
  | succ i ih =>
    have hstep : left b (i + 1) = afterField (left b i) := Function.iterate_succ_apply' ..
    rw [hstep, ih, afterField, List.drop_drop, List.drop_drop, textOffset, Nat.add_assoc]

theorem fromBuffer_eq_ok (h : fromBuffer b = .ok (c, rest)) : c.ip_or_hostnames.length = count b ∧
    ∀ i < count b, ∃ s, c.ip_or_hostnames[i]? = some s ∧ readStr .utf8 (left b i) = .ok (s, left b (i + 1)) := by
  obtain ⟨token, _, ⟨⟩, h⟩ := Buf.bind_eq_ok.1 h
  obtain ⟨n, _, ⟨⟩, h⟩ := Buf.bind_eq_ok.1 h
  obtain ⟨ss, _, hss, ⟨⟩⟩ := Buf.bind_eq_ok.1 h
  rw [Int.toNat_natCast, List.drop_drop] at hss
  exact readStrs_eq_ok hss

/-- Texts that all take their length fields fit in the message. -/
theorem four_mul_le {n : Nat} (h : ∀ i < n, (left b (i + 1)).length + 4 ≤ (left b i).length) :
    4 * n ≤ (left b 0).length := by
  have hsum : ∀ i ≤ n, 4 * i + (left b i).length ≤ (left b 0).length := by
    intro i hi
    induction i with
    | zero => omega
    | succ i ih =>
      have := ih (by omega)
      have := h i (by omega)
      omega
  have := hsum n le_rfl
  omega

/-- A message is as long as the number of its texts demands exactly when every text starts before its end. -/
theorem bounded_iff (h : fromBuffer b = .ok (c, rest)) :
    (20 + 4 * c.ip_or_hostnames.length ≤ b.length ∧ ∀ i < c.ip_or_hostnames.length, ∃ s,
    c.ip_or_hostnames[i]? = some s ∧
        readStr .utf8 (left b i) = .ok (s, left b (i + 1)) ∧ (left b (i + 1)).length + 4 ≤ (left b i).length) ↔
      20 ≤ b.length ∧ ∀ i < count b, textOffset b i + 4 ≤ b.length := by
  obtain ⟨hlen, hread⟩ := fromBuffer_eq_ok h
  rw [hlen]
  have htakes : ∀ i, (left b (i + 1)).length + 4 ≤ (left b i).length ↔ textOffset b i + 4 ≤ b.length := by
    intro i
    have hstep : left b (i + 1) = afterField (left b i) := Function.iterate_succ_apply' ..
    rw [hstep, length_afterField, left_eq_drop, List.length_drop]
    omega
  constructor
  · rintro ⟨hbound, hall⟩
    refine ⟨by omega, fun i hi => ?_⟩
    obtain ⟨s, -, -, htake⟩ := hall i hi
    exact (htakes i).1 htake
  · rintro ⟨hheader, hall⟩
    have hfour := four_mul_le fun i hi => (htakes i).2 (hall i hi)
    rw [left, Function.iterate_zero, id, List.length_drop] at hfour
    refine ⟨by omega, fun i hi => ?_⟩
    obtain ⟨s, hs, hstr⟩ := hread i hi
    exact ⟨s, hs, hstr, (htakes i).2 (hall i hi)⟩

/-- Three texts, the second of them empty, and a byte behind them. -/
def threeTexts : Bytes :=
  List.replicate 16 1 ++ [0, 0, 0, 3] ++ [0, 0, 0, 2, 104, 105] ++ [0, 0, 0, 0] ++ [0, 0, 0, 2, 195, 169] ++ [7]

theorem bounded_iff_threeTexts :
    (20 + 4 * ["hi", "", "é"].length ≤ threeTexts.length ∧ ∀ i < ["hi", "", "é"].length, ∃ s,
        ["hi", "", "é"][i]? = some s ∧ readStr .utf8 (left threeTexts i) = .ok (s, left threeTexts (i + 1)) ∧
          (left threeTexts (i + 1)).length + 4 ≤ (left threeTexts i).length) ↔
      20 ≤ threeTexts.length ∧ ∀ i < count threeTexts, textOffset threeTexts i + 4 ≤ threeTexts.length :=
  bounded_iff (b := threeTexts) (c := ⟨List.replicate 16 1, ["hi", "", "é"]⟩)
    (by decide +kernel : fromBuffer threeTexts = .ok (_, [7]))

/-- Twenty bytes that announce five texts decode to five empty ones. -/
theorem not_bounded : ¬ ∀ (b rest : Bytes) (c : WSNResolv), fromBuffer b = .ok (c, rest) →
    20 + 4 * c.ip_or_hostnames.length ≤ b.length ∧ ∀ i < c.ip_or_hostnames.length, ∃ s, c.ip_or_hostnames[i]? = some s ∧
      readStr .utf8 (left b i) = .ok (s, left b (i + 1)) ∧ (left b (i + 1)).length + 4 ≤ (left b i).length := by
  intro h
  have hfive : fromBuffer (List.replicate 16 0 ++ [0, 0, 0, 5]) =
      .ok (⟨List.replicate 16 0, ["", "", "", "", ""]⟩, []) := by decide +kernel
  have := (h _ _ _ hfive).1
  revert this
  decide

end WSNResolv

end Wsnet
