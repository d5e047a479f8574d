import Wsnet.Protocol.Kept

/-!
# The messages that do not come back

`ERR`, `LOG` and `CONNECT` write the number of characters of a text where its reader takes a number of
bytes, so that such a text is read back exactly when it is ASCII (`readStr_textParts`), and anything behind
another text is read from the wrong place. The times of a `PROCINFO` come back as numbers, which its writer
takes only when they are zero.
-/

namespace Wsnet

/-- A text behind its number of characters. -/
def textParts (s : String) : List Field := [.int s.length 4, .raw (utf8Encode s)]

theorem writeFields_textParts {s : String} {b : Bytes} :
    writeFields (textParts s) = .ok b ↔ s.length < 256 ^ 4 ∧ b = beBytes 4 s.length ++ utf8Encode s := by
  change concat [intToBytes s.length 4, .ok (utf8Encode s)] = .ok b ↔ _
  rw [concat_cons_eq_ok]
  constructor
  · rintro ⟨l, d, hl, ⟨⟩, rfl⟩
    obtain ⟨hlt, rfl⟩ := lenToBytes_eq_ok.1 hl
    exact ⟨hlt, by simp⟩
  · rintro ⟨hlt, rfl⟩
    exact ⟨_, utf8Encode s, lenToBytes_eq_ok.2 ⟨hlt, rfl⟩, by simp [concat_cons_ok, Except.map], rfl⟩

/-- A text behind its number of characters is read back exactly when it is ASCII. -/
theorem readStr_textParts {s : String} {b : Bytes} (h : writeFields (textParts s) = .ok b) (rest r : Bytes) :
    readStr .utf8 (b ++ rest) = .ok (s, r) ↔ Ascii s ∧ r = rest := by
  obtain ⟨hlt, rfl⟩ := writeFields_textParts.1 h
  have hle : s.length ≤ (utf8Encode s).length := length_le_utf8Encode s
  have hlen : (beBytes 4 s.length).length = 4 := length_beBytes ..
  have hn : beNat ((beBytes 4 s.length ++ utf8Encode s ++ rest).take 4) = s.length := by
    rw [List.append_assoc, List.take_left' hlen, beNat_beBytes hlt]
  have hfield : fieldOf (beBytes 4 s.length ++ utf8Encode s ++ rest) = (utf8Encode s).take s.length := by
    rw [fieldOf, hn, List.append_assoc, List.drop_left' hlen, List.take_append_of_le_length hle]
  have hafter : afterField (beBytes 4 s.length ++ utf8Encode s ++ rest) = (utf8Encode s).drop s.length ++ rest := by
    rw [afterField, hn, List.append_assoc, List.drop_left' hlen, List.drop_append_of_le_length hle]
  rw [readStr_run, hfield, hafter, except_map_eq_ok]
  constructor
  · rintro ⟨t, ht, heq⟩
    obtain ⟨rfl, rfl⟩ := Prod.mk.inj heq
    have htake : (utf8Encode t).length = t.length := by
      have := congrArg List.length (utf8Encode_of_utf8Decode ht)
      rw [List.length_take] at this
      omega
    refine ⟨(length_utf8Encode_eq_iff t).1 htake, ?_⟩
    rw [← htake, List.drop_length, List.nil_append]
  · rintro ⟨hascii, rfl⟩
    have hall : s.length = (utf8Encode s).length := ((length_utf8Encode_eq_iff s).2 hascii).symm
    refine ⟨s, ?_, ?_⟩
    · rw [hall, List.take_length]
      exact utf8Decode_utf8Encode s
    · rw [hall, List.drop_length, List.nil_append]

namespace CMD

/-- The command is encoded, and its frame decodes to it. -/
def Survives (c : CMD) : Prop := ∃ b, c.toBytes = .ok b ∧ fromBytes b = .ok c

theorem survives_iff {c : CMD} : c.Survives ↔
    ∃ body, writeFields c.fields = .ok body ∧ body.length + 6 < 256 ^ 4 ∧ ∃ r, type2cmd c.type body = .ok (c, r) := by
  have hread : ∀ body : Bytes, fromBytes (beBytes 4 (body.length + 6) ++ (c.type.toBytes ++ body)) = .ok c ↔
      ∃ r, type2cmd c.type body = .ok (c, r) := by
    intro body
    rw [fromBytes, fromBuffer_run (length_beBytes ..), except_map_eq_ok]
    constructor
    · rintro ⟨r, hr, he⟩
      exact ⟨r.2, by rw [hr, ← he]⟩
    · rintro ⟨r, hr⟩
      exact ⟨_, hr, rfl⟩
  constructor
  · rintro ⟨b, hb, hd⟩
    obtain ⟨body, hw, hlen, rfl⟩ := toBytes_eq_ok.1 hb
    exact ⟨body, hw, hlen, (hread body).1 hd⟩
  · rintro ⟨body, hw, hlen, hr⟩
    exact ⟨_, toBytes_eq_ok.2 ⟨body, hw, hlen, rfl⟩, (hread body).2 hr⟩

end CMD

/-! ### ERR and LOG -/

theorem length_textParts (s : String) : ((textParts s).map Field.size).sum = 4 + (utf8Encode s).length := rfl

theorem WSNErr.fromBuffer_append {token : Bytes} (ht : token.length = 16) {reason extra : String} {x y : Bytes}
    (hx : writeFields (textParts reason) = .ok x) (hy : writeFields (textParts extra) = .ok y) :
    (∃ r, fromBuffer (token ++ (x ++ y)) = .ok (⟨token, reason, extra⟩, r)) ↔ Ascii reason ∧ Ascii extra := by
  have hrun : fromBuffer (token ++ (x ++ y)) =
      (do let reason ← readStr; let extra ← readStr; return (⟨token, reason, extra⟩ : WSNErr)) (x ++ y) := by
    rw [fromBuffer, Buf.bind_run, reads_read ht]
    rfl
  rw [hrun]
  constructor
  · rintro ⟨r, hr⟩
    obtain ⟨reason', rest, hreason, hr⟩ := Buf.bind_eq_ok.1 hr
    obtain ⟨extra', rest', hextra, hr⟩ := Buf.bind_eq_ok.1 hr
    cases hr
    obtain ⟨hascii, rfl⟩ := (readStr_textParts hx y rest).1 hreason
    rw [← List.append_nil rest] at hextra
    exact ⟨hascii, ((readStr_textParts hy [] _).1 hextra).1⟩
  · rintro ⟨hreason, hextra⟩
    refine ⟨[], Buf.bind_eq_ok.2 ⟨reason, y, (readStr_textParts hx y y).2 ⟨hreason, rfl⟩, ?_⟩⟩
    refine Buf.bind_eq_ok.2 ⟨extra, [], ?_, rfl⟩
    rw [← List.append_nil y]
    exact (readStr_textParts hy [] []).2 ⟨hextra, rfl⟩

theorem WSNLog.fromBuffer_append {token : Bytes} (ht : token.length = 16) {level : Int} {msg : String} {l x : Bytes}
    (hl : intToBytes level 2 = .ok l) (hx : writeFields (textParts msg) = .ok x) :
    (∃ r, fromBuffer (token ++ (l ++ x)) = .ok (⟨token, level, msg⟩, r)) ↔ Ascii msg := by
  have hrun : fromBuffer (token ++ (l ++ x)) = (do let msg ← readStr; return (⟨token, level, msg⟩ : WSNLog)) x := by
    rw [fromBuffer, Buf.bind_run, reads_read ht, Except.bind, Buf.bind_run, codes_int level 2 l hl]
    rfl
  rw [hrun]
  constructor
  · rintro ⟨r, hr⟩
    obtain ⟨msg', rest, hmsg, hr⟩ := Buf.bind_eq_ok.1 hr
    cases hr
    rw [← List.append_nil x] at hmsg
    exact ((readStr_textParts hx [] _).1 hmsg).1
  · intro hmsg
    refine ⟨[], Buf.bind_eq_ok.2 ⟨msg, [], ?_, rfl⟩⟩
    rw [← List.append_nil x]
    exact (readStr_textParts hx [] []).2 ⟨hmsg, rfl⟩

theorem CMD.survives_ERR_iff {token : Bytes} (ht : token.length = 16) (reason extra : String) :
    (CMD.ERR ⟨token, reason, extra⟩).Survives ↔
      Ascii reason ∧ Ascii extra ∧ 30 + (utf8Encode reason).length + (utf8Encode extra).length < 256 ^ 4 := by
  rw [survives_iff]
  have hfields : (CMD.ERR ⟨token, reason, extra⟩).fields = .raw token :: (textParts reason ++ textParts extra) := rfl
  have hread : ∀ {x y : Bytes}, writeFields (textParts reason) = .ok x → writeFields (textParts extra) = .ok y →
      ((∃ r, type2cmd .ERR (token ++ (x ++ y)) = .ok (CMD.ERR ⟨token, reason, extra⟩, r)) ↔
      Ascii reason ∧ Ascii extra) := by
    intro x y hx hy
    rw [← WSNErr.fromBuffer_append ht hx hy, type2cmd, Buf.map_run]
    simp only [except_map_eq_ok, Prod.mk.injEq, CMD.ERR.injEq, Prod.exists]
    constructor
    · rintro ⟨r, c, rest, hr, rfl, rfl⟩
      exact ⟨_, hr⟩
    · rintro ⟨r, hr⟩
      exact ⟨r, _, r, hr, rfl, rfl⟩
  rw [hfields]
  constructor
  · rintro ⟨body, hw, hlen, hr⟩
    rw [length_of_writeFields hw] at hlen
    obtain ⟨_, tail, ⟨⟩, htail, rfl⟩ := concat_cons_eq_ok.1 hw
    obtain ⟨x, y, hx, hy, rfl⟩ := writeFields_append.1 htail
    obtain ⟨hreason, hextra⟩ := (hread hx hy).1 hr
    refine ⟨hreason, hextra, ?_⟩
    simp only [List.map_cons, List.map_append, List.sum_cons, List.sum_append, length_textParts, Field.size, ht] at hlen
    omega
  · rintro ⟨hreason, hextra, hfit⟩
    have hr := (length_utf8Encode_eq_iff reason).2 hreason
    have he := (length_utf8Encode_eq_iff extra).2 hextra
    have hx := writeFields_textParts.2 (⟨by omega, rfl⟩ : reason.length < 256 ^ 4 ∧ _ = _)
    have hy := writeFields_textParts.2 (⟨by omega, rfl⟩ : extra.length < 256 ^ 4 ∧ _ = _)
    refine ⟨_, concat_cons_eq_ok.2 ⟨token, _, rfl, writeFields_append.2 ⟨_, _, hx, hy, rfl⟩, rfl⟩, ?_,
      (hread hx hy).2 ⟨hreason, hextra⟩⟩
    simp only [List.length_append, length_beBytes, ht]
    omega

theorem CMD.survives_LOG_iff {token : Bytes} (ht : token.length = 16) {level : Int} (h₀ : 0 ≤ level)
    (h₁ : level < 2 ^ 16)
    (msg : String) : (CMD.LOG ⟨token, level, msg⟩).Survives ↔ Ascii msg ∧ 28 + (utf8Encode msg).length < 256 ^ 4 := by
  rw [survives_iff]
  have hfields : (CMD.LOG ⟨token, level, msg⟩).fields = .raw token :: .int level 2 :: textParts msg := rfl
  have hl : intToBytes level 2 = .ok (beBytes 2 level.toNat) := intToBytes_eq_ok.2 ⟨⟨h₀, h₁⟩, rfl⟩
  have hread : ∀ {x : Bytes}, writeFields (textParts msg) = .ok x →
      ((∃ r, type2cmd .LOG (token ++ (beBytes 2 level.toNat ++ x)) = .ok (CMD.LOG ⟨token, level, msg⟩, r)) ↔
      Ascii msg) := by
    intro x hx
    rw [← WSNLog.fromBuffer_append ht hl hx, type2cmd, Buf.map_run]
    simp only [except_map_eq_ok, Prod.mk.injEq, CMD.LOG.injEq, Prod.exists]
    constructor
    · rintro ⟨r, c, rest, hr, rfl, rfl⟩
      exact ⟨_, hr⟩
    · rintro ⟨r, hr⟩
      exact ⟨r, _, r, hr, rfl, rfl⟩
  rw [hfields]
  constructor
  · rintro ⟨body, hw, hlen, hr⟩
    rw [length_of_writeFields hw] at hlen
    obtain ⟨_, tail, ⟨⟩, htail, rfl⟩ := concat_cons_eq_ok.1 hw
    obtain ⟨l, x, hl', hx, rfl⟩ := concat_cons_eq_ok.1 htail
    cases hl.symm.trans hl'
    refine ⟨(hread hx).1 hr, ?_⟩
    simp only [List.map_cons, List.sum_cons, length_textParts, Field.size, ht] at hlen
    omega
  · rintro ⟨hmsg, hfit⟩
    have hm := (length_utf8Encode_eq_iff msg).2 hmsg
    have hx := writeFields_textParts.2 (⟨by omega, rfl⟩ : msg.length < 256 ^ 4 ∧ _ = _)
    refine ⟨_, concat_cons_eq_ok.2 ⟨token, _, rfl, concat_cons_eq_ok.2 ⟨_, _, hl, hx, rfl⟩, rfl⟩, ?_, (hread hx).2 hmsg⟩
    simp only [List.length_append, length_beBytes, ht]
    omega

/-- Error and log texts come back exactly when they are ASCII and leave the frame below `2 ^ 32` bytes. -/
theorem CMD.texts_survive_iff {token : Bytes} (ht : token.length = 16) (reason extra msg : String) {level : Int}
    (h₀ : 0 ≤ level) (h₁ : level < 2 ^ 16) :
    ((CMD.ERR ⟨token, reason, extra⟩).Survives ↔
        Ascii reason ∧ Ascii extra ∧ 30 + (utf8Encode reason).length + (utf8Encode extra).length < 2 ^ 32) ∧
      ((CMD.LOG ⟨token, level, msg⟩).Survives ↔ Ascii msg ∧ 28 + (utf8Encode msg).length < 2 ^ 32) :=
  ⟨survives_ERR_iff ht reason extra, survives_LOG_iff ht h₀ h₁ msg⟩

theorem CMD.texts_survive_iff_noSuchFile :
    ((CMD.ERR ⟨List.replicate 16 1, "No such file", "/tmp/x"⟩).Survives ↔
        Ascii "No such file" ∧ Ascii "/tmp/x" ∧
          30 + (utf8Encode "No such file").length + (utf8Encode "/tmp/x").length < 2 ^ 32) ∧
      ((CMD.LOG ⟨List.replicate 16 1, 20, "ok"⟩).Survives ↔ Ascii "ok" ∧ 28 + (utf8Encode "ok").length < 2 ^ 32) :=
  texts_survive_iff (show (List.replicate 16 1 : Bytes).length = 16 from rfl) "No such file" "/tmp/x" "ok"
    (by decide) (by decide)

/-- Of the two bytes of `é` the first alone is read, which is no text. -/
theorem CMD.not_texts_survive : ¬ ∀ (token : Bytes) (reason extra msg : String) (level : Int), token.length = 16 →
    (utf8Encode reason).length < 2 ^ 32 → (utf8Encode extra).length < 2 ^ 32 → (utf8Encode msg).length < 2 ^ 32 →
    0 ≤ level → level < 2 ^ 16 → (CMD.ERR ⟨token, reason, extra⟩).Survives ∧
      (CMD.LOG ⟨token, level, msg⟩).Survives := by
  intro h
  have herr := (h (List.replicate 16 0) "é" "" "" 0 rfl (by decide) (by decide) (by decide) (by decide) (by decide)).1
  have hascii := ((survives_ERR_iff rfl _ _).1 herr).1
  revert hascii
  decide

/-! ### PROCINFO -/

namespace ProcTime
variable {t : ProcTime}

/-- The whole seconds that are written for a time. -/
def seconds : ProcTime → Int
  | none => 0
  | datetime n | timedelta n | int n => n

/-- A start time that a record is made with: `None`, or a `datetime` at or after the epoch. -/
def IsStart : ProcTime → Prop
  | none => True
  | datetime n => 0 ≤ n ∧ n < 2 ^ 64
  | _ => False

/-- A CPU time that a record is made with: `None`, or a `timedelta` that is not negative. -/
def IsCpu : ProcTime → Prop
  | none => True
  | timedelta n => 0 ≤ n ∧ n < 2 ^ 64
  | _ => False

theorem startBytes_eq (h : t.IsStart) :
    t.startBytes = intToBytes t.seconds 8 ∧ 0 ≤ t.seconds ∧ t.seconds < 256 ^ 8 := by
  cases t with
  | none => exact ⟨rfl, by decide, by decide⟩
  | datetime n => exact ⟨rfl, h.1, h.2⟩
  | timedelta n | int n => cases h

theorem cpuBytes_eq (h : t.IsCpu) :
    t.cpuBytes = intToBytes t.seconds 8 ∧ 0 ≤ t.seconds ∧ t.seconds < 256 ^ 8 := by
  cases t with
  | none => exact ⟨rfl, by decide, by decide⟩
  | timedelta n => exact ⟨rfl, h.1, h.2⟩
  | datetime n | int n => cases h

/-- A time that was read is written only when it is zero. -/
theorem bytes_int_iff (n : Int) :
    ((∃ b, startBytes (int n) = .ok b) ↔ n = 0) ∧ ((∃ b, cpuBytes (int n) = .ok b) ↔ n = 0) := by
  by_cases h : n = 0 <;> simp [startBytes, cpuBytes, h]

end ProcTime

namespace WSNProcessInfo
variable {p : WSNProcessInfo}

/-- The record with its times as whole seconds. -/
def whole (p : WSNProcessInfo) : WSNProcessInfo :=
  { p with start_time := .int p.start_time.seconds, cpu_time := .int p.cpu_time.seconds }

theorem codes (ht : p.token.length = 16) (hs : p.start_time.IsStart) (hc : p.cpu_time.IsCpu) :
    Codes (writeFields p.fields) fromBuffer p.whole :=
  have hstart : Codes p.start_time.startBytes (readInt 8) p.start_time.seconds := by
    rw [(ProcTime.startBytes_eq hs).1]
    exact codes_int _ 8
  have hcpu : Codes p.cpu_time.cpuBytes (readInt 8) p.cpu_time.seconds := by
    rw [(ProcTime.cpuBytes_eq hc).1]
    exact codes_int _ 8
  .cons (codes_read ht) <| .cons (codes_int _ 8) <| .cons (codes_str _ _) <| .cons (codes_str _ _) <|
    .cons (codes_str _ _) <| .cons (codes_int _ 8) <| .cons (codes_int _ 8) <| .cons hstart <| .cons hcpu <|
      .cons (codes_flag _) <| .cons (codes_str _ _) <| .nil _

/-- The number of bytes of the texts. -/
def textLength (p : WSNProcessInfo) : Nat :=
  (utf8Encode p.name).length + (utf8Encode p.window_title).length + (utf8Encode p.binpath).length +
    (utf8Encode p.main_window_title).length

theorem frameLength_eq (ht : p.token.length = 16) (hs : p.start_time.IsStart) (hc : p.cpu_time.IsCpu) :
    (CMD.PROCINFO p).frameLength = 79 + p.textLength := by
  obtain ⟨hstart, hstart₀, hstart₁⟩ := ProcTime.startBytes_eq hs
  obtain ⟨hcpu, hcpu₀, hcpu₁⟩ := ProcTime.cpuBytes_eq hc
  have hs' : p.start_time.startBytes = .ok (beBytes 8 p.start_time.seconds.toNat) :=
    hstart.trans (intToBytes_eq_ok.2 ⟨⟨hstart₀, hstart₁⟩, rfl⟩)
  have hc' : p.cpu_time.cpuBytes = .ok (beBytes 8 p.cpu_time.seconds.toNat) :=
    hcpu.trans (intToBytes_eq_ok.2 ⟨⟨hcpu₀, hcpu₁⟩, rfl⟩)
  simp only [CMD.frameLength, CMD.fields, fields, List.map_cons, List.map_nil, List.sum_cons, List.sum_nil, hs', hc',
    Field.size, encode, ht, flagByte, List.length_singleton, length_beBytes, textLength]
  omega

end WSNProcessInfo

/-- A record can be sent on as it was received exactly when both its times are zero. -/
theorem CMD.relayed_iff {p : WSNProcessInfo} (ht : p.token.length = 16) (hpid : 0 ≤ p.pid ∧ p.pid < 2 ^ 64)
    (hmem : 0 ≤ p.memory_usage ∧ p.memory_usage < 2 ^ 64) (hthr : 0 ≤ p.thread_count ∧ p.thread_count < 2 ^ 64)
    (hs : p.start_time.IsStart) (hc : p.cpu_time.IsCpu) :
    (∃ b, (PROCINFO p).toBytes = .ok b ∧ fromBytes b = .ok (PROCINFO p.whole) ∧ (PROCINFO p.whole).toBytes = .ok b) ↔
      79 + p.textLength < 2 ^ 32 ∧ p.start_time.seconds = 0 ∧ p.cpu_time.seconds = 0 := by
  have hlen := WSNProcessInfo.frameLength_eq ht hs hc
  obtain ⟨hstart, hstart₀, hstart₁⟩ := ProcTime.startBytes_eq hs
  obtain ⟨hcpu, hcpu₀, hcpu₁⟩ := ProcTime.cpuBytes_eq hc
  constructor
  · rintro ⟨b, hb, -, hb'⟩
    have hfit := frameLength_lt hb
    obtain ⟨body, hw, -⟩ := toBytes_eq_ok.1 hb'
    refine ⟨by omega, ?_, ?_⟩
    · obtain ⟨x, hx⟩ := write_of_writeFields hw (f := .part (ProcTime.int p.start_time.seconds).startBytes)
        (by simp [fields, WSNProcessInfo.fields, WSNProcessInfo.whole])
      exact (ProcTime.bytes_int_iff _).1.1 ⟨x, hx⟩
    · obtain ⟨x, hx⟩ := write_of_writeFields hw (f := .part (ProcTime.int p.cpu_time.seconds).cpuBytes)
        (by simp [fields, WSNProcessInfo.fields, WSNProcessInfo.whole])
      exact (ProcTime.bytes_int_iff _).2.1 ⟨x, hx⟩
  · rintro ⟨hfit, hstartz, hcpuz⟩
    have hw : ∀ f ∈ (PROCINFO p).fields, f.InWidth := by
      simp only [fields, WSNProcessInfo.fields, List.forall_mem_cons, hstart, hcpu, hstartz, hcpuz]
      exact ⟨rfl, hpid, trivial, trivial, trivial, hmem, hthr, rfl, rfl, rfl, trivial, fun _ h =>
        absurd h List.not_mem_nil⟩
    obtain ⟨b, hb⟩ := toBytes_of_fits hw (by omega)
    refine ⟨b, hb, ?_, ?_⟩
    · obtain ⟨body, hbody, -, rfl⟩ := toBytes_eq_ok.1 hb
      have hrun := ((WSNProcessInfo.codes ht hs hc).map PROCINFO body hbody).run
      rw [fromBytes, fromBuffer_run (length_beBytes ..)]
      exact except_map_eq_ok.2 ⟨_, hrun, rfl⟩
    · have hfields : (PROCINFO p.whole).fields = (PROCINFO p).fields := by
        simp only [fields, WSNProcessInfo.fields, WSNProcessInfo.whole, hstart, hcpu, hstartz, hcpuz]
        rfl
      rw [← hb, toBytes, toBytes, toData, toData, hfields]
      rfl

/-- A record without times. -/
def WSNProcessInfo.untimed : WSNProcessInfo where
  token := List.replicate 16 2
  pid := 4
  name := "System"
  window_title := ""
  binpath := "C:\\é"
  memory_usage := 2 ^ 40
  thread_count := 3
  start_time := .none
  cpu_time := .timedelta 0
  is_responding := true
  main_window_title := ""

theorem CMD.relayed_iff_untimed :
    (∃ b, (PROCINFO .untimed).toBytes = .ok b ∧ fromBytes b = .ok (PROCINFO (WSNProcessInfo.whole .untimed)) ∧
        (PROCINFO (WSNProcessInfo.whole .untimed)).toBytes = .ok b) ↔
      79 + WSNProcessInfo.textLength .untimed < 2 ^ 32 ∧ ProcTime.seconds .none = 0 ∧
        (ProcTime.timedelta 0).seconds = 0 :=
  relayed_iff (p := .untimed) rfl ⟨by decide, by decide⟩ ⟨by decide, by decide⟩ ⟨by decide, by decide⟩ trivial
    ⟨by decide, by decide⟩

/-- A record of a process that was started a second after the epoch is received and cannot be sent on. -/
theorem CMD.not_relayed : ¬ ∀ p : WSNProcessInfo, p.token.length = 16 → (0 ≤ p.pid ∧ p.pid < 2 ^ 64) →
    (0 ≤ p.memory_usage ∧ p.memory_usage < 2 ^ 64) → (0 ≤ p.thread_count ∧ p.thread_count < 2 ^ 64) →
    p.start_time.IsStart → p.cpu_time.IsCpu → ∃ b, (PROCINFO p).toBytes = .ok b ∧
      fromBytes b = .ok (PROCINFO p.whole) ∧ (PROCINFO p.whole).toBytes = .ok b := by
  intro h
  obtain ⟨b, -, -, hb⟩ := h { WSNProcessInfo.untimed with start_time := .datetime 1 } rfl ⟨by decide, by decide⟩
    ⟨by decide, by decide⟩ ⟨by decide, by decide⟩ ⟨by decide, by decide⟩ ⟨by decide, by decide⟩
  have herr : (PROCINFO (WSNProcessInfo.whole { WSNProcessInfo.untimed with start_time := .datetime 1 })).toBytes =
      .error .attributeError := by rfl
  cases hb.symm.trans herr

end Wsnet
