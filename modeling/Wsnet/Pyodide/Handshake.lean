import Wsnet.Pyodide.Records

/-!
# The TLS handshake of a connection

`__ssl_recv_one` is to read one TLS record, from what an earlier call left over or from further messages.
It returns behind the first message that makes its buffer longer than five bytes, with the record or, when
the record is not whole yet, with nothing (`ssl_recv_one_iff`). `do_handshake` drives the TLS object, whose
calls are an arbitrary list here; it takes nothing twice in a row for a failure.
-/

namespace Wsnet.Pyodide.WSNETConnection

/-- The messages that come, each with the state of `disconnected_evt` when it is taken from the queue. -/
abbrev Inbox := List (Bytes × Bool)

/-- `__ssl_recv_one` waits for a message that has not come, or returns: `None`, or a record and what remains. -/
inductive Received
  | waits
  | returned (r : Option (Bytes × Bytes)) (disconnected : Bool) (q : Inbox)
  deriving DecidableEq, Repr

/-- The data of one message; the exceptions all end in the same handler. -/
def messageData (raw : Bytes) : Except PyErr Bytes := do
  let cmd ← CMD.fromBytes raw
  if cmd.type = .OK then .error (.exception "Remote end terminated the socket")
  else if cmd.type = .ERR then .error (.exception "Proxy sent error during data transmission. Killing the tunnel.")
  else cmdData cmd

/-- The `while` loop of `__ssl_recv_one`. -/
def ssl_recv_loop (buffer : Bytes) : Bool → Inbox → Received
  | true, q => .returned none true q
  | false, [] => .waits
  | false, (raw, disconnected) :: q =>
    match messageData raw with
    | .error _ => .returned (some ([], [])) disconnected q
    | .ok data =>
      if 5 < (buffer ++ data).length then
        -- the `return` stands outside of the `if` that looks whether the record is whole
        if tlsRecord.Whole (buffer ++ data) then
          .returned (some (tlsRecord.first (buffer ++ data), tlsRecord.behind (buffer ++ data))) disconnected q
        else .returned (some ([], buffer ++ data)) disconnected q
      else ssl_recv_loop (buffer ++ data) disconnected q

/-- `__ssl_recv_one` -/
def ssl_recv_one (remaining : Bytes) (disconnected : Bool) (q : Inbox) : Received :=
  if 5 < remaining.length ∧ tlsRecord.Whole remaining then
    .returned (some (tlsRecord.first remaining, tlsRecord.behind remaining)) disconnected q
  else ssl_recv_loop remaining disconnected q

/-- A call of `tls_obj.do_handshake`, with what it writes to `tls_out_buff`. -/
inductive TlsCall
  | wantRead (out : Bytes)
  | done (out : Bytes)
  | raises (e : PyErr)
  deriving DecidableEq, Repr

/-- The locals of `do_handshake` and what it uses of the connection. -/
structure Handshake where
  token : Bytes
  rest : Bytes := []
  disconnected : Bool := false
  q : Inbox
  tls_out_buff : Bytes := []
  /-- what it wrote to `tls_in_buff` -/
  fed : List Bytes := []
  sent : List Bytes := []
  deriving DecidableEq, Repr

/-- The handling of one `SSLWantReadError`. -/
inductive Round
  | waits
  | raises (e : PyErr)
  | continues (s : Handshake)
  deriving DecidableEq, Repr

namespace Handshake

/-- What a call of the TLS object leaves in `tls_out_buff`. -/
def put (s : Handshake) (out : Bytes) : Handshake := { s with tls_out_buff := s.tls_out_buff ++ out }

/-- Send what is in `tls_out_buff`. -/
def flush (s : Handshake) : Except PyErr Handshake :=
  if s.tls_out_buff = [] then .ok s
  else (CMD.SD ⟨s.token, s.tls_out_buff⟩).toBytes.map fun frame =>
    { s with tls_out_buff := [], sent := s.sent ++ [frame] }

/-- `server_hello, rest = await self.__ssl_recv_one(rest)`, and then `k server_hello`. -/
def recv (s : Handshake) (k : Bytes → Handshake → Round) : Round :=
  match ssl_recv_one s.rest s.disconnected s.q with
  | .waits => .waits
  | .returned none _ _ => .raises .typeError
  | .returned (some (server_hello, rest)) disconnected q => k server_hello { s with rest, disconnected, q }

/-- The second attempt: flush, and then a record must come. -/
def recv_hello (s : Handshake) : Round :=
  match if s.disconnected then .ok s else s.flush with
  | .error e => .raises e
  | .ok s => s.recv fun server_hello s =>
    if server_hello = [] then .raises (.exception "Server hello is empty")
    else .continues { s with fed := s.fed ++ [server_hello] }

/-- `except ssl.SSLWantReadError` -/
def want_read (s : Handshake) : Round :=
  if s.rest = [] then s.recv_hello
  else s.recv fun server_hello s =>
    if server_hello = [] then s.recv_hello else .continues { s with fed := s.fed ++ [server_hello] }

end Handshake

/-- How `do_handshake` ends, if it does: by completing the handshake, by finding the connection closed, or
by an exception, which it turns into an empty byte string. -/
inductive HandshakeEnd
  | waits
  | completed (s : Handshake)
  | disconnected (s : Handshake)
  | failed (e : PyErr)
  deriving DecidableEq, Repr

/-- The `while` loop of `do_handshake`. -/
def handshake_loop (s : Handshake) : List TlsCall → HandshakeEnd
  | [] => if s.disconnected then .disconnected s else .waits
  | call :: calls =>
    if s.disconnected then .disconnected s
    else
      match call with
      | .raises e => .failed e
      | .done out =>
        match (s.put out).flush with
        | .error e => .failed e
        | .ok s => .completed s
      | .wantRead out =>
        match (s.put out).want_read with
        | .waits => .waits
        | .raises e => .failed e
        | .continues s => handshake_loop s calls

/-- What `do_handshake` returns. -/
def HandshakeEnd.value : HandshakeEnd → Option Bytes
  | .waits => none
  | .completed s => some s.rest
  | .disconnected s => some s.rest
  | .failed _ => some []

/-! ### One record -/

variable {rest : Bytes} {q : Inbox} {ps : List Bytes}

/-- A message with the data `p`, taken while the connection is up. -/
def Carried (m : Bytes × Bool) (p : Bytes) : Prop :=
  (∃ token, CMD.fromBytes m.1 = .ok (.SD ⟨token, p⟩)) ∧ m.2 = false

theorem messageData_of_carried {raw p : Bytes} {flag : Bool} (h : Carried (raw, flag) p) : messageData raw = .ok p := by
  obtain ⟨⟨token, htoken⟩, -⟩ := h
  dsimp only at htoken
  rw [messageData, htoken]
  rfl

/-- The first record is read whole: it is there when the buffer first is longer than five bytes, before any
message or behind one. -/
def ReadsWhole (rest : Bytes) (ps : List Bytes) : Prop :=
  ∃ j ≤ ps.length, 5 < (rest ++ (ps.take j).flatten).length ∧ tlsRecord.Whole (rest ++ (ps.take j).flatten) ∧
    ∀ i, 0 < i → i < j → (rest ++ (ps.take i).flatten).length ≤ 5

/-- `__ssl_recv_one` returns the first record of the stream and what it has taken behind it. -/
def RecvFirst (rest : Bytes) (q : Inbox) (ps : List Bytes) : Prop :=
  ∃ j ≤ ps.length, ∃ r,
    ssl_recv_one rest false q = .returned (some (tlsRecord.first (rest ++ ps.flatten), r)) false (q.drop j) ∧
    tlsRecord.first (rest ++ ps.flatten) ++ r = rest ++ (ps.take j).flatten

/-- Where the loop stops: behind the first message that makes the buffer longer than five bytes. -/
theorem ssl_recv_loop_eq (rest : Bytes) (hq : List.Forall₂ Carried q ps) :
    (∃ j b, 0 < j ∧ j ≤ ps.length ∧ b = rest ++ (ps.take j).flatten ∧ 5 < b.length ∧
        (∀ i, 0 < i → i < j → (rest ++ (ps.take i).flatten).length ≤ 5) ∧
        ssl_recv_loop rest false q =
          .returned (some (if tlsRecord.Whole b then (tlsRecord.first b, tlsRecord.behind b) else ([], b)))
            false (q.drop j)) ∨
      (∀ j, 0 < j → j ≤ ps.length → (rest ++ (ps.take j).flatten).length ≤ 5) ∧
      ssl_recv_loop rest false q = .waits := by
  induction hq generalizing rest with
  | nil => exact .inr ⟨fun j hpos hj => absurd hj (not_le.2 hpos), rfl⟩
  | @cons m p q ps hm _ ih =>
    obtain ⟨raw, flag⟩ := m
    have hdata : messageData raw = .ok p := messageData_of_carried hm
    have hflag : flag = false := hm.2
    have hone : rest ++ ((p :: ps).take 1).flatten = rest ++ p := by simp
    have hmore : ∀ j, rest ++ ((p :: ps).take (j + 1)).flatten = rest ++ p ++ (ps.take j).flatten := by intro j; simp
    subst hflag
    by_cases hlen : 5 < (rest ++ p).length
    · refine .inl ⟨1, rest ++ p, one_pos, by simp, hone.symm, hlen, fun i hpos hi => absurd hi (by omega), ?_⟩
      rw [ssl_recv_loop, hdata]
      simp only [if_pos hlen]
      split <;> rfl
    · have hloop : ssl_recv_loop rest false ((raw, false) :: q) = ssl_recv_loop (rest ++ p) false q := by
        rw [ssl_recv_loop, hdata]
        simp only [if_neg hlen]
      rw [hloop]
      rcases ih (rest ++ p) with ⟨j, b, hpos, hj, hb, hlong, hfirst, heq⟩ | ⟨hshort, heq⟩
      · refine .inl ⟨j + 1, b, Nat.succ_pos j, by simpa using hj, by rw [hb, hmore], hlong, fun i hpos' hi =>
          ?_, by simpa using heq⟩
        obtain ⟨i, rfl⟩ := Nat.exists_eq_succ_of_ne_zero hpos'.ne'
        rcases Nat.eq_zero_or_pos i with rfl | hi'
        · rw [hone]; exact not_lt.1 hlen
        · rw [hmore]; exact hfirst i hi' (by omega)
      · refine .inr ⟨fun j hpos hj => ?_, heq⟩
        obtain ⟨j, rfl⟩ := Nat.exists_eq_succ_of_ne_zero hpos.ne'
        rcases Nat.eq_zero_or_pos j with rfl | hj'
        · rw [hone]; exact not_lt.1 hlen
        · rw [hmore]; exact hshort j hj' (by simpa using hj)

/-- The first record is the same however much of the stream is looked at. -/
theorem first_stream {j : Nat} (h : tlsRecord.Whole (rest ++ (ps.take j).flatten)) :
    tlsRecord.first (rest ++ ps.flatten) = tlsRecord.first (rest ++ (ps.take j).flatten) := by
  have hcut : rest ++ ps.flatten = rest ++ (ps.take j).flatten ++ (ps.drop j).flatten := by
    rw [List.append_assoc, ← List.flatten_append, List.take_append_drop]
  rw [hcut, RecordFormat.first_append h]

theorem first_ne_nil {b : Bytes} (h : tlsRecord.Whole b) : tlsRecord.first b ≠ [] := by
  have h5 : 5 ≤ tlsRecord.recordLen b := Nat.le_add_right 5 _
  simp only [RecordFormat.Whole] at h
  rw [RecordFormat.first, ← List.length_pos_iff, List.length_take]
  omega

theorem recvFirst_iff (hq : List.Forall₂ Carried q ps) (hw : tlsRecord.Whole (rest ++ ps.flatten)) :
    RecvFirst rest q ps ↔ ReadsWhole rest ps := by
  by_cases hfast : 5 < rest.length ∧ tlsRecord.Whole rest
  · have hrec : ssl_recv_one rest false q = .returned (some (tlsRecord.first rest, tlsRecord.behind rest)) false q :=
      if_pos hfast
    have hzero : tlsRecord.Whole (rest ++ (ps.take 0).flatten) := by simpa using hfast.2
    refine iff_of_true ⟨0, Nat.zero_le _, tlsRecord.behind rest, ?_, ?_⟩
      ⟨0, Nat.zero_le _, by simpa using hfast.1, hzero, fun i _ hi => absurd hi (Nat.not_lt_zero i)⟩
    · rw [hrec, first_stream hzero]
      simp
    · rw [first_stream hzero]
      simp [RecordFormat.first, RecordFormat.behind]
  · have hrec : ssl_recv_one rest false q = ssl_recv_loop rest false q := if_neg hfast
    rcases ssl_recv_loop_eq rest hq with ⟨j, b, hpos, hj, hb, hlong, hfirst, heq⟩ | ⟨hshort, heq⟩
    · constructor
      · rintro ⟨k, hk, r, hk', -⟩
        rw [hrec, heq] at hk'
        by_cases hwhole : tlsRecord.Whole b
        · exact ⟨j, hj, hb ▸ hlong, hb ▸ hwhole, hfirst⟩
        · rw [if_neg hwhole] at hk'
          simp only [Received.returned.injEq, Option.some.injEq, Prod.mk.injEq] at hk'
          exact absurd hk'.1.1.symm (first_ne_nil hw)
      · rintro ⟨k, hk, hlong', hwhole, hfirst'⟩
        have hkpos : 0 < k := by
          rcases Nat.eq_zero_or_pos k with rfl | hk0
          · exact absurd ⟨by simpa using hlong', by simpa using hwhole⟩ hfast
          · exact hk0
        -- both are the first place where the buffer is longer than five bytes
        have hkj : k = j := by
          rcases lt_trichotomy k j with hlt | heq' | hgt
          · exact absurd (hfirst k hkpos hlt) (not_le.2 hlong')
          · exact heq'
          · exact absurd (hfirst' j hpos hgt) (not_le.2 (hb ▸ hlong))
        subst hkj
        rw [← hb] at hwhole
        refine ⟨k, hk, tlsRecord.behind b, ?_, ?_⟩
        · rw [hrec, heq, if_pos hwhole, first_stream (hb ▸ hwhole), hb]
        · rw [first_stream (hb ▸ hwhole), ← hb, RecordFormat.first, RecordFormat.behind, List.take_append_drop]
    · refine iff_of_false ?_ ?_
      · rintro ⟨k, hk, r, hk', -⟩
        rw [hrec, heq] at hk'
        cases hk'
      · rintro ⟨k, hk, hlong, hwhole, -⟩
        rcases Nat.eq_zero_or_pos k with rfl | hpos
        · exact hfast ⟨by simpa using hlong, by simpa using hwhole⟩
        · exact absurd (hshort k hpos hk) (not_le.2 hlong)

namespace Handshake
variable {s s' : Handshake} {e : PyErr}

theorem overflowError_of_flush (h : s.flush = .error e) : e = .overflowError := by
  unfold flush at h
  split at h
  · cases h
  · cases hb : (CMD.SD ⟨s.token, s.tls_out_buff⟩).toBytes with
    | ok frame => rw [hb] at h; cases h
    | error e' =>
      have hdata : (CMD.SD ⟨s.token, s.tls_out_buff⟩).toData =
          .ok (CMDType.SD.toBytes ++ (s.token ++ (s.tls_out_buff ++ []))) := rfl
      rw [hb] at h
      rw [← Except.error.inj h]
      exact CMD.overflowError_of_toBytes hdata hb

/-- Sending leaves what is received alone. -/
theorem flush_eq_ok (h : s.flush = .ok s') : s'.rest = s.rest ∧ s'.disconnected = s.disconnected ∧ s'.q = s.q := by
  unfold flush at h
  split at h
  · obtain rfl := Except.ok.inj h
    exact ⟨rfl, rfl, rfl⟩
  · obtain ⟨frame, -, rfl⟩ := except_map_eq_ok.1 h
    exact ⟨rfl, rfl, rfl⟩

theorem recv_eq {k : Bytes → Handshake → Round} {hello rest : Bytes} {d : Bool} {q : Inbox}
    (h : ssl_recv_one s.rest s.disconnected s.q = .returned (some (hello, rest)) d q) :
    s.recv k = k hello { s with rest, disconnected := d, q } := by
  rw [recv, h]

/-- When a record is there for the next read, the round goes on. -/
theorem want_read_ne (hs : s.disconnected = false) {hello rest : Bytes} {d : Bool} {q : Inbox} (hne : hello ≠ [])
    (h : ssl_recv_one s.rest false s.q = .returned (some (hello, rest)) d q) :
    s.want_read ≠ .raises (.exception "Server hello is empty") := by
  unfold want_read
  by_cases hrest : s.rest = []
  · rw [if_pos hrest, recv_hello, hs]
    cases hflush : s.flush with
    | error e =>
      have he : e = .overflowError := overflowError_of_flush hflush
      simp [he]
    | ok s' =>
      obtain ⟨hr, hd, hq⟩ := flush_eq_ok hflush
      have hrecv : ssl_recv_one s'.rest s'.disconnected s'.q = .returned (some (hello, rest)) d q := by
        rw [hr, hd, hq, hs, h]
      simp only [Bool.false_eq_true, if_false]
      rw [recv_eq hrecv, if_neg hne]
      simp
  · have hrecv : ssl_recv_one s.rest s.disconnected s.q = .returned (some (hello, rest)) d q := by rw [hs, h]
    rw [if_neg hrest, recv_eq hrecv, if_neg hne]
    simp

end Handshake

/-- As long as the peer has a whole record to send, the next read returns it, and the handshake does not fail
for want of one, exactly when the messages are not cut inside the record, more than five bytes into it. -/
theorem ssl_recv_one_iff {s : Handshake} (hs : s.disconnected = false) {ps : List Bytes}
    (hq : List.Forall₂ Carried s.q ps)
    (hw : tlsRecord.Whole (s.rest ++ ps.flatten)) :
    RecvFirst s.rest s.q ps ∧ s.want_read ≠ .raises (.exception "Server hello is empty") ↔ ReadsWhole s.rest ps := by
  rw [← recvFirst_iff hq hw]
  refine and_iff_left_of_imp ?_
  rintro ⟨j, -, r, hrecv, -⟩
  exact Handshake.want_read_ne hs (first_ne_nil hw) hrecv

/-- The header of a record and its two body bytes in two messages. -/
def cutRecord : Inbox :=
  [([0, 0, 0, 28, 0, 7] ++ List.replicate 16 0 ++ [22, 3, 3, 0, 2, 9], false),
    ([0, 0, 0, 23, 0, 7] ++ List.replicate 16 0 ++ [8], false)]

theorem carried_cutRecord : List.Forall₂ Carried cutRecord [[22, 3, 3, 0, 2, 9], [8]] :=
  .cons ⟨⟨List.replicate 16 0, rfl⟩, rfl⟩ (.cons ⟨⟨List.replicate 16 0, rfl⟩, rfl⟩ .nil)

theorem ssl_recv_one_iff_leftover :
    RecvFirst [22, 3, 3, 0, 1, 7, 22, 3, 3] cutRecord [[22, 3, 3, 0, 2, 9], [8]] ∧
        Handshake.want_read { token := List.replicate 16 0, rest := [22, 3, 3, 0, 1, 7, 22, 3, 3], q := cutRecord } ≠
          .raises (.exception "Server hello is empty") ↔
      ReadsWhole [22, 3, 3, 0, 1, 7, 22, 3, 3] [[22, 3, 3, 0, 2, 9], [8]] :=
  ssl_recv_one_iff (s := { token := List.replicate 16 0, rest := [22, 3, 3, 0, 1, 7, 22, 3, 3], q := cutRecord }) rfl
    carried_cutRecord (by decide)

theorem not_recvFirst_cutRecord : List.Forall₂ Carried cutRecord [[22, 3, 3, 0, 2, 9], [8]] ∧
    tlsRecord.Whole ([] ++ [[22, 3, 3, 0, 2, 9], [8]].flatten) ∧ ¬ RecvFirst [] cutRecord [[22, 3, 3, 0, 2, 9], [8]] ∧
    Handshake.want_read { token := List.replicate 16 0, q := cutRecord } = .raises
      (.exception "Server hello is empty") := by
  have hw : tlsRecord.Whole ([] ++ [[22, 3, 3, 0, 2, 9], [8]].flatten) := by decide
  refine ⟨carried_cutRecord, hw, ?_, by decide⟩
  rintro ⟨j, -, r, hrecv, -⟩
  have hempty : ssl_recv_one [] false cutRecord =
      .returned (some ([], [22, 3, 3, 0, 2, 9])) false (cutRecord.drop 1) := by decide
  rw [hempty] at hrecv
  simp only [Received.returned.injEq, Option.some.injEq, Prod.mk.injEq] at hrecv
  exact first_ne_nil hw hrecv.1.1.symm

end Wsnet.Pyodide.WSNETConnection
