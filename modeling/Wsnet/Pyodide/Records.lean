import Wsnet.Lib.Record
import Wsnet.Protocol.Kept

/-!
# TLS records on the way in

`connection_handler_in_ssl` collects the data of the `SD` messages in a buffer and feeds the TLS object the
whole records at its front. Its inner loop runs while more than five bytes are there, whatever they are:
it spins on a record that is not whole (`feed_eq_none`), and it leaves a record of five bytes, one without a
body, when nothing follows. `fed_iff` says which ways of cutting the stream escape both.
-/

namespace Wsnet.Pyodide

/-- A five byte header whose bytes 3 and 4 tell the length of the body. -/
def tlsRecord : RecordFormat UInt8 where
  header := 5
  header_pos := by decide
  bodyLen b := beNat ((b.drop 3).take 2)
  bodyLen_append b rest h := by
    rw [List.drop_append_of_le_length (by omega), List.take_append_of_le_length (by rw [List.length_drop]; omega)]

/-- `cmd.data`, as far as it can be added to a byte string. -/
def cmdData (cmd : CMD) : Except PyErr Bytes :=
  match cmd.data with
  | some (.bytes b) => .ok b
  | some (.text _) => .error .typeError
  | none => .error .attributeError

namespace WSNETConnection

/-- `while len(buffer) > 5`, for `n` tests of the condition: what is fed and the buffer behind the loop. -/
def feed : Nat → Bytes → Option (List Bytes × Bytes)
  | 0, _ => none
  | n + 1, buffer =>
    if 5 < buffer.length then
      if beNat ((buffer.drop 3).take 2) + 5 ≤ buffer.length then
        (feed n (buffer.drop (beNat ((buffer.drop 3).take 2) + 5))).map fun r =>
          (buffer.take (beNat ((buffer.drop 3).take 2) + 5) :: r.1, r.2)
      else feed n buffer
    else some ([], buffer)

/-- How the loop around `tls_obj.read()` goes: the data it returns, and then it wants more or raises. -/
inductive TlsReads
  | wantRead (blocks : List Bytes)
  | raises (blocks : List Bytes) (e : PyErr)
  deriving DecidableEq, Repr

/-- The handler where it waits for the next message: what it has written to `tls_in_buff` and delivered to
the protocol, and the buffer it keeps. -/
structure InSsl where
  fed : List Bytes := []
  buffer : Bytes
  delivered : List Bytes := []
  deriving DecidableEq, Repr

/-- One message, up to the next `internal_in_q.get()`; `none` when the inner loop has not ended in time. -/
def InSsl.message (n : Nat) (s : InSsl) (raw : Bytes) (reads : TlsReads) : Option (Except PyErr InSsl) :=
  match CMD.fromBytes raw with
  | .error e => some (.error e)
  | .ok cmd =>
    if cmd.type = .OK then some (.error (.exception "SSL Remote end terminated the socket"))
    else if cmd.type = .ERR then
      some (.error (.exception "SSL Proxy sent error during data transmission. Killing the tunnel."))
    else
      match cmdData cmd with
      | .error e => some (.error e)
      | .ok data =>
        if (s.buffer ++ data).length < 5 then some (.ok { s with buffer := s.buffer ++ data })
        else
          match feed n (s.buffer ++ data) with
          | none => none
          | some (fed, buffer) =>
            match reads with
            | .wantRead blocks =>
              some (.ok { fed := s.fed ++ fed, buffer, delivered := s.delivered ++ blocks })
            | .raises _ e => some (.error e)

/-- `connection_handler_in_ssl` on the messages, from a state in which it waits. -/
def connection_handler_in_ssl (n : Nat) : InSsl → List (Bytes × TlsReads) → Option (Except PyErr InSsl)
  | s, [] => some (.ok s)
  | s, (raw, reads) :: rest =>
    match s.message n raw reads with
    | some (.ok s') => connection_handler_in_ssl n s' rest
    | r => r

/-! ### The inner loop -/

variable {n k : Nat} {b rest : Bytes} {fed : List Bytes}

theorem feed_of_le (h : b.length ≤ 5) : feed (n + 1) b = some ([], b) := by
  rw [feed, if_neg (by omega)]

theorem feed_of_whole (h : 5 < b.length) (hw : tlsRecord.Whole b) :
    feed (n + 1) b = (feed n (tlsRecord.behind b)).map fun r => (tlsRecord.first b :: r.1, r.2) := by
  have hlen : tlsRecord.recordLen b = beNat ((b.drop 3).take 2) + 5 := Nat.add_comm ..
  rw [RecordFormat.Whole, hlen] at hw
  rw [feed, if_pos h, if_pos hw, RecordFormat.behind, RecordFormat.first, hlen]

theorem feed_of_not_whole (h : 5 < b.length) (hw : ¬ tlsRecord.Whole b) : feed (n + 1) b = feed n b := by
  have hlen : tlsRecord.recordLen b = beNat ((b.drop 3).take 2) + 5 := Nat.add_comm ..
  rw [RecordFormat.Whole, hlen] at hw
  rw [feed, if_pos h, if_neg hw]

/-- A record that is not whole is never left. -/
theorem feed_eq_none (h : 5 < (tlsRecord.tail b).length) : feed n b = none := by
  induction n generalizing b with
  | zero => rfl
  | succ n ih =>
    have hlen : 5 < b.length := lt_of_lt_of_le h (RecordFormat.length_tail_le b)
    by_cases hw : tlsRecord.Whole b
    · rw [RecordFormat.tail_of_whole hw] at h
      rw [feed_of_whole hlen hw, ih h]
      rfl
    · rw [feed_of_not_whole hlen hw]
      exact ih h

theorem exists_feed (h : (tlsRecord.tail b).length ≤ 5) : ∃ n r, feed n b = some r := by
  induction b using RecordFormat.records_induction (F := tlsRecord) with
  | hwhole b hw ih =>
    by_cases hlen : 5 < b.length
    · rw [RecordFormat.tail_of_whole hw] at h
      obtain ⟨n, r, hr⟩ := ih h
      exact ⟨n + 1, _, by rw [feed_of_whole hlen hw, hr]; rfl⟩
    · exact ⟨1, _, feed_of_le (not_lt.1 hlen)⟩
  | hnot b hw =>
    rw [RecordFormat.tail_of_not_whole hw] at h
    exact ⟨1, _, feed_of_le h⟩

theorem feed_mono {r : List Bytes × Bytes} (hk : n ≤ k) (h : feed n b = some r) : feed k b = some r := by
  induction n generalizing b k r with
  | zero => cases h
  | succ n ih =>
    obtain ⟨k, rfl⟩ := Nat.exists_eq_succ_of_ne_zero (by omega : k ≠ 0)
    by_cases hlen : 5 < b.length
    · by_cases hw : tlsRecord.Whole b
      · rw [feed_of_whole hlen hw] at h ⊢
        obtain ⟨r', hr', rfl⟩ := Option.map_eq_some_iff.1 h
        rw [ih (by omega) hr']
        rfl
      · rw [feed_of_not_whole hlen hw] at h ⊢
        exact ih (by omega) h
    · rw [feed_of_le (not_lt.1 hlen)] at h ⊢
      exact h

/-- What the loop has done when it ends: it has fed the first records, down to at most five bytes. -/
structure Fed (b : Bytes) (fed : List Bytes) (rest : Bytes) : Prop where
  short : rest.length ≤ 5
  records : tlsRecord.records b = fed ++ tlsRecord.records rest
  tail : tlsRecord.tail b = tlsRecord.tail rest
  nil : fed = [] → rest = b
  last : ∀ r, fed.getLast? = some r → 5 < r.length + rest.length

theorem fed_of_feed (h : feed n b = some (fed, rest)) : Fed b fed rest := by
  induction n generalizing b fed with
  | zero => cases h
  | succ n ih =>
    by_cases hlen : 5 < b.length
    · by_cases hw : tlsRecord.Whole b
      · rw [feed_of_whole hlen hw] at h
        obtain ⟨⟨fed', rest'⟩, hr', hr⟩ := Option.map_eq_some_iff.1 h
        obtain ⟨rfl, rfl⟩ := Prod.mk.inj hr
        have hfed := ih hr'
        refine ⟨hfed.short, ?_, ?_, fun h' => (by cases h'), ?_⟩
        · rw [RecordFormat.records_of_whole hw, hfed.records, List.cons_append]
        · rw [RecordFormat.tail_of_whole hw, hfed.tail]
        · intro r hr
          cases fed' with
          | nil =>
            rw [List.getLast?_singleton, Option.some.injEq] at hr
            have hcut : (tlsRecord.first b).length + (tlsRecord.behind b).length = b.length := by
              rw [← List.length_append, RecordFormat.first, RecordFormat.behind, List.take_append_drop]
            rw [← hr, hfed.nil rfl, hcut]
            exact hlen
          | cons x l => exact hfed.last r (by rwa [List.getLast?_cons_cons] at hr)
      · rw [feed_of_not_whole hlen hw] at h
        exact ih h
    · rw [feed_of_le (not_lt.1 hlen)] at h
      cases h
      exact ⟨not_lt.1 hlen, rfl, rfl, fun _ => rfl, fun r hr => by cases hr⟩

/-- The loop feeds all the whole records, and keeps the rest, of these buffers and no others. -/
theorem feed_iff : (∃ n, feed n b = some (tlsRecord.records b, tlsRecord.tail b)) ↔
    (tlsRecord.tail b).length ≤ 5 ∧ ¬ tlsRecord.EndsEmpty b := by
  constructor
  · rintro ⟨n, hn⟩
    have hfed := fed_of_feed hn
    refine ⟨hfed.short, ?_⟩
    rintro ⟨htail, r, hr, hlen⟩
    have := hfed.last r hr
    rw [htail, hlen] at this
    exact absurd this (by decide)
  · rintro ⟨htail, hends⟩
    obtain ⟨n, ⟨fed, rest⟩, hn⟩ := exists_feed htail
    have hfed := fed_of_feed hn
    have hrest : ¬ tlsRecord.Whole rest := by
      intro hw
      -- the record that the loop leaves is five bytes long, and nothing follows it
      have hrec : tlsRecord.recordLen rest = 5 := by
        have h5 : 5 ≤ tlsRecord.recordLen rest := Nat.le_add_right 5 _
        have := hfed.short
        simp only [RecordFormat.Whole] at hw
        omega
      have hrl : rest.length = 5 := by
        have := hfed.short
        simp only [RecordFormat.Whole] at hw
        omega
      have hbehind : tlsRecord.behind rest = [] := by
        rw [RecordFormat.behind, List.drop_eq_nil_iff]
        omega
      have hnil : ¬ tlsRecord.Whole [] := by decide
      have hrecs : tlsRecord.records rest = [tlsRecord.first rest] := by
        rw [RecordFormat.records_of_whole hw, hbehind, RecordFormat.records_of_not_whole hnil]
      refine hends ⟨?_, tlsRecord.first rest, ?_, ?_⟩
      · rw [hfed.tail, RecordFormat.tail_of_whole hw, hbehind, RecordFormat.tail_of_not_whole hnil]
      · rw [hfed.records, hrecs]
        exact List.getLast?_concat
      · rw [RecordFormat.first, List.length_take, hrec, hrl]
        rfl
    have hrecords := hfed.records
    have htails := hfed.tail
    rw [RecordFormat.records_of_not_whole hrest, List.append_nil] at hrecords
    rw [RecordFormat.tail_of_not_whole hrest] at htails
    exact ⟨n, by rw [hrecords, htails]; exact hn⟩

/-! ### Runs -/

/-- The whole records of `b` are followed by at most five bytes, and if by none, the last has a body. -/
def Splits (b : Bytes) : Prop := (tlsRecord.tail b).length ≤ 5 ∧ ¬ tlsRecord.EndsEmpty b

/-- A message with the data `p`, after which the TLS object goes on to want more. -/
def Brings (token : Bytes) (m : Bytes × TlsReads) (p : Bytes) : Prop :=
  CMD.fromBytes m.1 = .ok (.SD ⟨token, p⟩) ∧ ∃ blocks, m.2 = .wantRead blocks

/-- Where the handler should be when it has received the bytes `b`. -/
structure InSsl.Follows (s : InSsl) (b : Bytes) : Prop where
  fed : s.fed = tlsRecord.records b
  buffer : s.buffer = tlsRecord.tail b

variable {token p : Bytes} {m : Bytes × TlsReads} {s s' : InSsl}

theorem message_of_short (hm : Brings token m p) (h : (s.buffer ++ p).length < 5) :
    s.message n m.1 m.2 = some (.ok { s with buffer := s.buffer ++ p }) := by
  simp only [InSsl.message, hm.1, CMD.type, cmdData, CMD.data, if_pos h]
  rfl

theorem message_of_long (hm : Brings token m p) (h : ¬ (s.buffer ++ p).length < 5) :
    ∃ delivered, s.message n m.1 m.2 =
      (feed n (s.buffer ++ p)).map fun r => .ok { fed := s.fed ++ r.1, buffer := r.2, delivered } := by
  obtain ⟨hsd, blocks, hreads⟩ := hm
  refine ⟨s.delivered ++ blocks, ?_⟩
  simp only [InSsl.message, hsd, CMD.type, cmdData, CMD.data, if_neg h, hreads]
  cases feed n (s.buffer ++ p) <;> rfl

/-- One message is split right exactly when the bytes so far can be. -/
theorem message_iff (hs : s.Follows b) (hb : ¬ tlsRecord.EndsEmpty b) (hm : Brings token m p) :
    (∃ n s', s.message n m.1 m.2 = some (.ok s') ∧ s'.Follows (b ++ p)) ↔ Splits (b ++ p) := by
  have hrecords := RecordFormat.records_append (F := tlsRecord) b p
  have htail := RecordFormat.tail_append (F := tlsRecord) b p
  rw [← hs.buffer] at hrecords htail
  by_cases hshort : (s.buffer ++ p).length < 5
  · have hw : ¬ tlsRecord.Whole (s.buffer ++ p) := by
      have h5 : 5 ≤ tlsRecord.recordLen (s.buffer ++ p) := Nat.le_add_right 5 _
      simp only [RecordFormat.Whole]
      omega
    rw [RecordFormat.records_of_not_whole hw, List.append_nil] at hrecords
    rw [RecordFormat.tail_of_not_whole hw] at htail
    refine iff_of_true ⟨0, _, message_of_short hm hshort, ?_, htail.symm⟩ ⟨by rw [htail]; omega, ?_⟩
    · rw [hrecords]
      exact hs.fed
    · rintro ⟨hnil, hlast⟩
      rw [htail, List.append_eq_nil_iff] at hnil
      rw [hrecords] at hlast
      exact hb ⟨by rw [← hs.buffer]; exact hnil.1, hlast⟩
  · have hne : tlsRecord.tail b ++ p ≠ [] := by
      intro hnil
      rw [hs.buffer, hnil] at hshort
      exact hshort (by decide)
    rw [Splits, RecordFormat.endsEmpty_append hne, htail, ← hs.buffer, ← feed_iff]
    constructor
    · rintro ⟨n, s', hmsg, hs'⟩
      obtain ⟨delivered, heq⟩ := message_of_long (n := n) hm hshort
      rw [heq] at hmsg
      obtain ⟨r, hr, hr'⟩ := Option.map_eq_some_iff.1 hmsg
      rw [Except.ok.injEq] at hr'
      have hfed := hs'.fed
      have hbuf := hs'.buffer
      rw [← hr', hrecords, hs.fed] at hfed
      rw [← hr', htail] at hbuf
      refine ⟨n, ?_⟩
      rw [hr, ← List.append_cancel_left hfed, ← hbuf]
    · rintro ⟨n, hn⟩
      obtain ⟨delivered, heq⟩ := message_of_long (n := n) hm hshort
      refine ⟨n, _, by rw [heq, hn]; rfl, ?_, htail.symm⟩
      rw [hrecords, hs.fed]

theorem message_mono {r : Except PyErr InSsl} {raw : Bytes} {reads : TlsReads} (hk : n ≤ k)
    (h : s.message n raw reads = some r) : s.message k raw reads = some r := by
  unfold InSsl.message at h ⊢
  cases hraw : CMD.fromBytes raw with
  | error e => rw [hraw] at h; exact h
  | ok cmd =>
    rw [hraw] at h
    revert h
    dsimp only
    split_ifs
    · exact id
    · exact id
    · cases hdata : cmdData cmd with
      | error e => exact id
      | ok data =>
        dsimp only
        split_ifs
        · exact id
        · intro h
          cases hfeed : feed n (s.buffer ++ data) with
          | none => rw [hfeed] at h; cases h
          | some r => rw [hfeed] at h; rw [feed_mono hk hfeed]; exact h

theorem connection_handler_in_ssl_cons {raw : Bytes} {reads : TlsReads} {ms : List (Bytes × TlsReads)} :
    connection_handler_in_ssl n s ((raw, reads) :: ms) = some (.ok s') ↔
      ∃ s₁, s.message n raw reads = some (.ok s₁) ∧ connection_handler_in_ssl n s₁ ms = some (.ok s') := by
  rw [connection_handler_in_ssl]
  rcases s.message n raw reads with _ | _ | s₁ <;> simp

theorem connection_handler_in_ssl_mono {ms : List (Bytes × TlsReads)} (hk : n ≤ k)
    (h : connection_handler_in_ssl n s ms = some (.ok s')) : connection_handler_in_ssl k s ms = some (.ok s') := by
  induction ms generalizing s with
  | nil => exact h
  | cons m ms ih =>
    obtain ⟨s₁, hmsg, hrun⟩ := connection_handler_in_ssl_cons.1 h
    exact connection_handler_in_ssl_cons.2 ⟨s₁, message_mono hk hmsg, ih hrun⟩

/-- The handler is where it should be whenever it waits. -/
def FollowsAll (s : InSsl) (b : Bytes) (ms : List (Bytes × TlsReads)) (ps : List Bytes) : Prop :=
  ∀ j ≤ ps.length, ∃ n s', connection_handler_in_ssl n s (ms.take j) = some (.ok s') ∧
    s'.Follows (b ++ (ps.take j).flatten)

theorem followsAll_cons {ms : List (Bytes × TlsReads)} {ps : List Bytes} (hs : s.Follows b) :
    FollowsAll s b (m :: ms) (p :: ps) ↔
      ∃ n s₁, s.message n m.1 m.2 = some (.ok s₁) ∧ s₁.Follows (b ++ p) ∧ FollowsAll s₁ (b ++ p) ms ps := by
  constructor
  · intro h
    obtain ⟨n, s₁, hrun, hs₁⟩ := h 1 (by simp)
    obtain ⟨_, hmsg, ⟨⟩⟩ := connection_handler_in_ssl_cons.1 hrun
    refine ⟨n, s₁, hmsg, by simpa using hs₁, fun j hj => ?_⟩
    obtain ⟨k, s₂, hrun, hs₂⟩ := h (j + 1) (by simpa using hj)
    obtain ⟨s₁', hmsg', hrun⟩ := connection_handler_in_ssl_cons.1 hrun
    -- both are the state after the same message
    have heq : s₁' = s₁ := by
      have h₁ := message_mono (le_max_left n k) hmsg
      rw [message_mono (le_max_right n k) hmsg'] at h₁
      simpa using h₁
    exact ⟨k, s₂, heq ▸ hrun, by simpa using hs₂⟩
  · rintro ⟨n, s₁, hmsg, hs₁, h⟩ j hj
    cases j with
    | zero => exact ⟨0, s, rfl, by simpa using hs⟩
    | succ j =>
      obtain ⟨k, s₂, hrun, hs₂⟩ := h j (by simpa using hj)
      have hrun' := connection_handler_in_ssl_cons.2
        ⟨s₁, message_mono (le_max_left n k) hmsg, connection_handler_in_ssl_mono (le_max_right n k) hrun⟩
      exact ⟨max n k, s₂, hrun', by simpa using hs₂⟩

theorem followsAll_iff {ms : List (Bytes × TlsReads)} {ps : List Bytes} (hs : s.Follows b)
    (hb : ¬ tlsRecord.EndsEmpty b) (hm : List.Forall₂ (Brings token) ms ps) :
    FollowsAll s b ms ps ↔ ∀ j, 0 < j → j ≤ ps.length → Splits (b ++ (ps.take j).flatten) := by
  induction hm generalizing s b with
  | nil =>
    refine iff_of_true (fun j hj => ?_) (fun j hpos hj => absurd hj (not_le.2 hpos))
    have hj' : j = 0 := by simpa using hj
    exact ⟨0, s, by rw [hj']; rfl, by simpa using hs⟩
  | @cons m p ms ps hmp _ ih =>
    rw [followsAll_cons hs]
    constructor
    · rintro ⟨n, s₁, hmsg, hs₁, h⟩ j hpos hj
      have hsplit : Splits (b ++ p) := (message_iff hs hb hmp).1 ⟨n, s₁, hmsg, hs₁⟩
      obtain ⟨j, rfl⟩ := Nat.exists_eq_succ_of_ne_zero hpos.ne'
      rcases Nat.eq_zero_or_pos j with rfl | hj'
      · simpa using hsplit
      · simpa using (ih hs₁ hsplit.2).1 h j hj' (by simpa using hj)
    · intro h
      have hsplit : Splits (b ++ p) := by simpa using h 1 one_pos (by simp)
      obtain ⟨n, s₁, hmsg, hs₁⟩ := (message_iff hs hb hmp).2 hsplit
      refine ⟨n, s₁, hmsg, hs₁, (ih hs₁ hsplit.2).2 fun j hpos hj => ?_⟩
      simpa using h (j + 1) (Nat.succ_pos j) (by simpa using hj)

/-- From a leftover of the handshake on, the handler is where it should be at every wait exactly when the
leftover has no whole record and every message ends at most five bytes behind a record that it may end with. -/
theorem fed_iff (leftover : Bytes) {ms : List (Bytes × TlsReads)} {ps : List Bytes}
    (hm : List.Forall₂ (Brings token) ms ps) :
    (∀ j ≤ ps.length, ∃ n s', connection_handler_in_ssl n { buffer := leftover } (ms.take j) = some (.ok s') ∧
        s'.Follows (leftover ++ (ps.take j).flatten)) ↔
      tlsRecord.records leftover = [] ∧ ∀ j, 0 < j → j ≤ ps.length → Splits (leftover ++ (ps.take j).flatten) := by
  by_cases hw : tlsRecord.Whole leftover
  · refine iff_of_false (fun h => ?_) (fun h => RecordFormat.records_eq_nil_iff.1 h.1 hw)
    obtain ⟨n, s', hrun, hs'⟩ := h 0 (Nat.zero_le _)
    cases hrun
    have hfed : [] = tlsRecord.records leftover := by simpa using hs'.fed
    exact RecordFormat.records_eq_nil_iff.1 hfed.symm hw
  · have hrecords := RecordFormat.records_of_not_whole hw
    have hs : InSsl.Follows { buffer := leftover } leftover :=
      ⟨hrecords.symm, (RecordFormat.tail_of_not_whole hw).symm⟩
    rw [and_iff_right hrecords]
    exact followsAll_iff hs (RecordFormat.not_endsEmpty hw) hm

theorem fed_iff_oneRecord :
    (∀ j ≤ 1, ∃ n s', connection_handler_in_ssl n { buffer := [22, 3] }
        ([([0, 0, 0, 27, 0, 7] ++ List.replicate 16 0 ++ [3, 0, 1, 9, 22], .wantRead [])].take j) = some (.ok s') ∧
        s'.Follows ([22, 3] ++ ([[3, 0, 1, 9, 22]].take j).flatten)) ↔
      tlsRecord.records [22, 3] = [] ∧
        ∀ j, 0 < j → j ≤ 1 → Splits ([22, 3] ++ ([[3, 0, 1, 9, 22]].take j).flatten) :=
  have hm : Brings (List.replicate 16 0)
      ([0, 0, 0, 27, 0, 7] ++ List.replicate 16 0 ++ [3, 0, 1, 9, 22], .wantRead []) [3, 0, 1, 9, 22] := ⟨rfl, _, rfl⟩
  fed_iff [22, 3] (.cons hm .nil)

/-- The header of a record and one of the two bytes of its body: the handler never comes to wait again. -/
theorem not_fed_partialRecord : Brings (List.replicate 16 0)
      ([0, 0, 0, 28, 0, 7] ++ List.replicate 16 0 ++ [22, 3, 3, 0, 2, 9], .wantRead []) [22, 3, 3, 0, 2, 9] ∧
    ∀ n, connection_handler_in_ssl n { buffer := [] }
      [([0, 0, 0, 28, 0, 7] ++ List.replicate 16 0 ++ [22, 3, 3, 0, 2, 9], .wantRead [])] = none := by
  have hm : Brings (List.replicate 16 0)
      ([0, 0, 0, 28, 0, 7] ++ List.replicate 16 0 ++ [22, 3, 3, 0, 2, 9], .wantRead []) [22, 3, 3, 0, 2, 9] :=
      ⟨rfl, _, rfl⟩
  refine ⟨hm, fun n => ?_⟩
  obtain ⟨delivered, heq⟩ := message_of_long (n := n) (s := { buffer := [] }) hm (by decide)
  have hw : ¬ tlsRecord.Whole [22, 3, 3, 0, 2, 9] := by decide
  have htail : tlsRecord.tail [22, 3, 3, 0, 2, 9] = [22, 3, 3, 0, 2, 9] := RecordFormat.tail_of_not_whole hw
  have hnone : feed n [22, 3, 3, 0, 2, 9] = none := feed_eq_none (by rw [htail]; decide)
  rw [connection_handler_in_ssl, heq]
  simp [hnone]

end WSNETConnection

end Wsnet.Pyodide
