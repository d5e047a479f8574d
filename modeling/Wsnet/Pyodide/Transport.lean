import Wsnet.Lib.Run
import Wsnet.Pyodide.Senders

/-!
# The writing side of the plain transport

`WSNETTransport.write`, `writelines` and `write_eof` only put an item on `out_q`; `connection_handler_out`
takes the items one by one. `None` is the end marker that `write_eof` puts there, and an empty byte string
ends the handler too. `Written` says what has been sent when the handler has taken a prefix of the items;
what was written after an empty write is never sent (`sent_iff`).
-/

namespace Wsnet.Pyodide

/-- What the application calls on the transport. -/
inductive WSNETTransport.Call
  | write (data : Bytes)
  | writelines (list_of_data : List Bytes)
  | write_eof
  deriving DecidableEq, Repr

open WSNETTransport

/-- The item a call puts on the queue. -/
def WSNETTransport.Call.item : Call → Option Bytes
  | .write data => some data
  | .writelines list_of_data => some list_of_data.flatten
  | .write_eof => none

namespace WSNETConnection

/-- What `connection_handler_out` reads, of a connection without TLS that is connected. Nothing but the end of
this handler closes the connection, so `disconnected_evt` is set exactly when it is not `running`. -/
structure OutSide where
  token : Bytes
  out_q : List (Option Bytes) := []
  running : Bool := true
  deriving DecidableEq, Repr

inductive OutEvent
  | call (c : Call)
  /-- the handler takes the next item of its queue -/
  | out
  deriving DecidableEq, Repr

/-- The `OK` of the `finally` block. -/
def okFrames (token : Bytes) : List Bytes := trySend (.OK { token })

namespace OutSide

/-- The `finally` block of the handler, with `close`. -/
def finish (s : OutSide) : OutSide × List Bytes :=
  ({ s with running := false }, okFrames s.token)

/-- `connection_handler_out` from one `out_q.get()` to the next. -/
def connection_handler_out (s : OutSide) : Option (OutSide × List Bytes) :=
  if s.running then
    match s.out_q with
    | [] => none
    | none :: rest => some ({ s with out_q := rest }.finish)
    | some [] :: rest => some ({ s with out_q := rest }.finish)
    | some data :: rest =>
      match handlerOut s.token data with
      | (sent, none) => some ({ s with out_q := rest }, sent)
      | (sent, some _) => some (({ s with out_q := rest }.finish).1, sent ++ okFrames s.token)
  else none

def step (s : OutSide) : OutEvent → Option (OutSide × List Bytes)
  | .call c => some ({ s with out_q := s.out_q ++ [c.item] }, [])
  | .out => s.connection_handler_out

end OutSide

/-- The calls among the events. -/
def calls (es : List OutEvent) : List Call :=
  es.filterMap fun
    | .call c => some c
    | .out => none

@[simp] theorem calls_append (es es' : List OutEvent) : calls (es ++ es') = calls es ++ calls es' :=
  List.filterMap_append

/-- What each of the calls writes. -/
def writes (cs : List Call) : List Bytes := cs.map fun c => c.item.getD []

/-- The `SD` frames of a list of non-empty writes. -/
def sdFrames (token : Bytes) (ds : List Bytes) : List Bytes := ds.flatMap fun d => (handlerOut token d).1

theorem handlerOut_spec {token d : Bytes} (ht : token.length = 16) :
    (handlerOut token d).2 = none ∧ payloads (handlerOut token d).1 = d := by
  unfold handlerOut
  split
  · rename_i h
    exact ⟨rfl, h.symm⟩
  · have hfit : ∀ p ∈ pieces d, 22 + p.length < 256 ^ 4 := by
      intro p hp
      rcases length_of_mem_pieces hp with ⟨rfl, hlt⟩ | ⟨hle, -⟩
      · simp only [maxMessage] at hlt; omega
      · simp only [chunkSize] at hle; omega
    obtain ⟨hnone, hpay, -⟩ := (carries_SD ht).frames_spec hfit
    exact ⟨hnone, by rw [hpay, flatten_pieces]⟩

theorem payloads_append (fs gs : List Bytes) : payloads (fs ++ gs) = payloads fs ++ payloads gs := by
  simp [payloads]

theorem payloads_sdFrames {token : Bytes} (ht : token.length = 16) (ds : List Bytes) :
    payloads (sdFrames token ds) = ds.flatten := by
  induction ds with
  | nil => rfl
  | cons d ds ih =>
    calc payloads (sdFrames token (d :: ds))
        = payloads (handlerOut token d).1 ++ payloads (sdFrames token ds) := payloads_append _ _
      _ = d ++ ds.flatten := by rw [(handlerOut_spec ht).2, ih]
      _ = (d :: ds).flatten := rfl

/-- One turn of the handler takes the next item: it sends a non-empty write and ends on anything else. -/
theorem out_cases {s s' : OutSide} {o : List Bytes} (ht : s.token.length = 16)
    (h : s.connection_handler_out = some (s', o)) : s.running = true ∧
      ((∃ last rest, (last = none ∨ last = some []) ∧ s.out_q = last :: rest ∧
          s' = { s with out_q := rest, running := false } ∧ o = okFrames s.token) ∨
        ∃ d rest, d ≠ [] ∧ s.out_q = some d :: rest ∧ s' = { s with out_q := rest } ∧
          o = (handlerOut s.token d).1) := by
  unfold OutSide.connection_handler_out at h
  by_cases hr : s.running = true
  · rw [if_pos hr] at h
    refine ⟨hr, ?_⟩
    rcases hq : s.out_q with _ | ⟨_ | _ | ⟨b, d⟩, rest⟩
    · simp [hq] at h
    · simp only [hq, OutSide.finish, Option.some.injEq, Prod.mk.injEq] at h
      exact .inl ⟨none, rest, .inl rfl, rfl, h.1.symm, h.2.symm⟩
    · simp only [hq, OutSide.finish, Option.some.injEq, Prod.mk.injEq] at h
      exact .inl ⟨some [], rest, .inr rfl, rfl, h.1.symm, h.2.symm⟩
    · obtain ⟨sent, hsent⟩ : ∃ sent, handlerOut s.token (b :: d) = (sent, none) :=
        ⟨_, Prod.ext rfl (handlerOut_spec ht).1⟩
      simp only [hq, hsent, Option.some.injEq, Prod.mk.injEq] at h
      exact .inr ⟨b :: d, rest, by simp, rfl, h.1.symm, by rw [hsent]; exact h.2.symm⟩
  · rw [if_neg hr] at h
    cases h

theorem out_ne_none {s : OutSide} {item : Option Bytes} {rest : List (Option Bytes)} (hr : s.running = true)
    (hq : s.out_q = item :: rest) : s.connection_handler_out ≠ none := by
  unfold OutSide.connection_handler_out
  rw [if_pos hr, hq]
  rcases item with _ | _ | ⟨b, d⟩
  · simp
  · simp
  · rcases hsent : handlerOut s.token (b :: d) with ⟨sent, _ | e⟩ <;> simp [hsent]

/-- The handler has taken the non-empty writes `taken`, and what else of `items` it took ended it. -/
structure Taken (s : OutSide) (items : List (Option Bytes)) (taken : List Bytes) (sent : List Bytes) : Prop where
  nonempty : ∀ d ∈ taken, d ≠ []
  running : s.running = true → items = taken.map some ++ s.out_q ∧ sent = sdFrames s.token taken
  ended : s.running = false → ∃ last, (last = none ∨ last = some []) ∧ items = taken.map some ++ last :: s.out_q ∧
    sent = sdFrames s.token taken ++ okFrames s.token

namespace Taken
variable {s s' : OutSide} {items : List (Option Bytes)} {taken : List Bytes} {sent o : List Bytes}

theorem call (h : Taken s items taken sent) (c : Call) :
    Taken { s with out_q := s.out_q ++ [c.item] } (items ++ [c.item]) taken sent where
  nonempty := h.nonempty
  running hr := by
    obtain ⟨hitems, hsent⟩ := h.running hr
    exact ⟨by rw [hitems, List.append_assoc], hsent⟩
  ended hr := by
    obtain ⟨last, hlast, hitems, hsent⟩ := h.ended hr
    exact ⟨last, hlast, by rw [hitems, List.append_assoc]; rfl, hsent⟩

theorem out (h : Taken s items taken sent) (ht : s.token.length = 16) (hs : s.connection_handler_out = some (s', o)) :
    ∃ taken', Taken s' items taken' (sent ++ o) := by
  obtain ⟨hr, hcase⟩ := out_cases ht hs
  rcases hcase with ⟨last, rest, hlast, hq, hs', ho⟩ | ⟨d, rest, hd, hq, hs', ho⟩
  · obtain ⟨hitems, hsent⟩ := h.running hr
    rw [hs', ho]
    refine ⟨taken, h.nonempty, fun hr' => ?_, fun _ => ⟨last, hlast, ?_, ?_⟩⟩
    · cases hr'
    · rw [hitems, hq]
    · rw [hsent]
  · rw [hs', ho]
    obtain ⟨hitems, hsent⟩ := h.running hr
    refine ⟨taken ++ [d], fun d' hmem => ?_, fun _ => ⟨?_, ?_⟩, fun hr' => ?_⟩
    · rcases List.mem_append.1 hmem with hmem | hmem
      · exact h.nonempty d' hmem
      · rw [List.mem_singleton.1 hmem]
        exact hd
    · rw [hitems, hq]
      simp
    · rw [hsent]
      simp [sdFrames]
    · rw [hr] at hr'
      cases hr'

end Taken

theorem token_of_step {s s' : OutSide} {e : OutEvent} {o : List Bytes} (ht : s.token.length = 16)
    (h : s.step e = some (s', o)) : s'.token = s.token := by
  cases e with
  | call c => cases h; rfl
  | out =>
    obtain ⟨-, ⟨last, rest, -, -, hs', -⟩ | ⟨d, rest, -, -, hs', -⟩⟩ := out_cases ht h
    · rw [hs']
    · rw [hs']

theorem taken_of_run {token : Bytes} {es : List OutEvent} {s : OutSide} {sent : List Bytes} (ht : token.length = 16)
    (h : Run OutSide.step { token } es s sent) :
    s.token = token ∧ ∃ taken, Taken s ((calls es).map Call.item) taken sent := by
  refine h.history_invariant_of (A := fun _ => True)
    (P := fun es s sent => s.token = token ∧ ∃ taken, Taken s ((calls es).map Call.item) taken sent) ?_
    (fun _ _ => trivial)
    ⟨rfl, [], fun _ hd => by simp at hd, fun _ => ⟨rfl, rfl⟩, fun hr => by cases hr⟩
  rintro es s s' e sent o - ⟨htok, taken, hT⟩ hstep
  refine ⟨(token_of_step (htok ▸ ht) hstep).trans htok, ?_⟩
  cases e with
  | call c =>
    cases hstep
    refine ⟨taken, ?_⟩
    simpa [calls] using hT.call c
  | out =>
    obtain ⟨taken', hT'⟩ := hT.out (htok ▸ ht) hstep
    exact ⟨taken', by simpa [calls] using hT'⟩

theorem supported_OK {token : Bytes} (ht : token.length = 16) : (CMD.OK { token }).Supported where
  type := by simp [CMD.type, CMD.lossy]
  token := ht
  text := Option.some_ne_none _
  width f hf := by
    rw [CMD.fields, MsgCmd.fields] at hf
    simp only [List.mem_cons, List.not_mem_nil, or_false] at hf
    rcases hf with hf | hf
    · rw [hf]; exact rfl
    · rw [hf, Field.InWidth]; trivial

theorem frameLength_OK (token : Bytes) : (CMD.OK { token }).frameLength = token.length + 10 := by
  simp only [CMD.frameLength, CMD.fields, MsgCmd.fields, List.map_cons, List.map_nil, Field.size, encode,
    utf8Encode_empty, List.length_nil, List.sum_cons, List.sum_nil]
  omega

theorem okFrames_eq {token : Bytes} (ht : token.length = 16) :
    ∃ ok, okFrames token = [ok] ∧ CMD.fromBytes ok = .ok (.OK { token }) := by
  have hlen : (CMD.OK { token }).frameLength < 2 ^ 32 := by
    rw [frameLength_OK, ht]
    norm_num
  obtain ⟨ok, hok, hread, -⟩ := CMD.fromBytes_toBytes (supported_OK ht) hlen
  exact ⟨ok, trySend_eq hok, hread⟩

theorem isSD_of_mem_sdFrames {token f : Bytes} (ht : token.length = 16) {ds : List Bytes} (hf : f ∈ sdFrames token ds) :
    ∃ d, CMD.fromBytes f = .ok (.SD ⟨token, d⟩) := by
  obtain ⟨d, -, hd⟩ := List.mem_flatMap.1 hf
  unfold handlerOut at hd
  split at hd
  · simp at hd
  · obtain ⟨p, -, hp⟩ := exists_of_mem_frames hd
    exact ⟨p, by rw [CMD.fromBytes, CMD.fromBuffer_toBytes_SD ht hp]; rfl⟩

/-- A list of writes with the end marker behind it, cut at an item that ends the handler: the marker, or an
empty write. -/
theorem writes_cut {ds taken : List Bytes} {last : Option Bytes} {rest : List (Option Bytes)}
    (h : ds.map some ++ [none] = taken.map some ++ last :: rest) (hlast : last = none ∨ last = some []) :
    ds = taken ∨ ∃ later, ds = taken ++ [] :: later := by
  induction taken generalizing ds with
  | nil =>
    cases ds with
    | nil => exact .inl rfl
    | cons d ds =>
      simp only [List.map_cons, List.cons_append, List.map_nil, List.nil_append, List.cons.injEq] at h
      obtain ⟨rfl, -⟩ := h
      have hd : d = [] := by simpa using hlast
      exact .inr ⟨ds, by rw [hd]; rfl⟩
  | cons t taken ih =>
    cases ds with
    | nil => simp at h
    | cons d ds =>
      simp only [List.map_cons, List.cons_append, List.cons.injEq, Option.some.injEq] at h
      obtain ⟨rfl, h⟩ := h
      rcases ih h with rfl | ⟨later, rfl⟩
      · exact .inl rfl
      · exact .inr ⟨later, rfl⟩

/-- Nothing but empty byte strings is written after an empty one. -/
def NoWriteAfterEmpty (ds : List Bytes) : Prop := ds.Pairwise fun d d' => d = [] → d' = []

theorem noWriteAfterEmpty_of_nonempty {ds : List Bytes} (h : ∀ d ∈ ds, d ≠ []) : NoWriteAfterEmpty ds :=
  (List.pairwise_of_forall_mem_list fun d hd _ _ hnil => absurd hnil (h d hd))

theorem noWriteAfterEmpty_append_nil {taken later : List Bytes} (h : ∀ d ∈ taken, d ≠ []) :
    NoWriteAfterEmpty (taken ++ [] :: later) ↔ later.flatten = [] := by
  rw [NoWriteAfterEmpty, List.pairwise_append, List.pairwise_cons, List.flatten_eq_nil_iff]
  constructor
  · rintro ⟨-, ⟨hlater, -⟩, -⟩ d hd
    exact hlater d hd rfl
  · intro hlater
    refine ⟨noWriteAfterEmpty_of_nonempty h, ⟨fun d hd _ => hlater d hd, ?_⟩, fun d hd _ _ hnil => absurd hnil (h d hd)⟩
    exact List.pairwise_of_forall_mem_list fun _ _ d' hd' _ => hlater d' hd'

/-- A connection that is written to and then closed with `write_eof` sends all that was written, and one `OK`
behind it, exactly when no write that carries something follows an empty one. -/
theorem sent_iff {token : Bytes} (ht : token.length = 16) {cs : List Call} (hcs : .write_eof ∉ cs) {es : List OutEvent}
    {s : OutSide} {sent : List Bytes} (h : Run OutSide.step { token } es s sent) (hes : calls es = cs ++ [.write_eof])
    (hend : s.connection_handler_out = none) :
    (∃ sds ok, sent = sds ++ [ok] ∧ (∀ f ∈ sds, ∃ d, CMD.fromBytes f = .ok (.SD ⟨token, d⟩)) ∧
        payloads sds = (writes cs).flatten ∧ CMD.fromBytes ok = .ok (.OK { token })) ↔
          NoWriteAfterEmpty (writes cs) := by
  obtain ⟨htok, taken, hT⟩ := taken_of_run ht h
  have hitems : (calls es).map Call.item = (writes cs).map some ++ [none] := by
    have hsome : cs.map Call.item = (writes cs).map some := by
      rw [writes, List.map_map]
      refine List.map_congr_left fun c hc => ?_
      cases c with
      | write data => rfl
      | writelines l => rfl
      | write_eof => exact absurd hc hcs
    rw [hes, List.map_append, hsome]
    rfl
  -- the end marker is still there as long as the handler runs
  have hdone : s.running = false := by
    cases hr : s.running with
    | false => rfl
    | true =>
      exfalso
      obtain ⟨hi, -⟩ := hT.running hr
      have hq : s.out_q = [] := by
        cases hq : s.out_q with
        | nil => rfl
        | cons item rest => exact absurd hend (out_ne_none hr hq)
      rw [hq, List.append_nil, hitems] at hi
      have hmem : none ∈ taken.map some := hi ▸ List.mem_append_right _ (List.mem_singleton.2 rfl)
      simp at hmem
  obtain ⟨last, hlast, hi, hsent⟩ := hT.ended hdone
  rw [htok] at hsent
  obtain ⟨ok, hok, hread⟩ := okFrames_eq ht
  rw [hok] at hsent
  have hiff : (∃ sds ok, sent = sds ++ [ok] ∧ (∀ f ∈ sds, ∃ d, CMD.fromBytes f = .ok (.SD ⟨token, d⟩)) ∧
        payloads sds = (writes cs).flatten ∧ CMD.fromBytes ok = .ok (.OK { token })) ↔
          taken.flatten = (writes cs).flatten := by
    have hpay : payloads (sdFrames token taken) = taken.flatten := payloads_sdFrames ht taken
    rw [hsent]
    constructor
    · rintro ⟨sds, ok', happ, -, hsds, -⟩
      rw [← hpay, (List.append_inj' happ rfl).1, hsds]
    · intro hflat
      exact ⟨_, ok, rfl, fun f hf => isSD_of_mem_sdFrames ht hf, hpay.trans hflat, hread⟩
  rw [hiff]
  rcases writes_cut (hitems.symm.trans hi) hlast with hw | ⟨later, hw⟩
  · rw [hw, eq_self_iff_true, true_iff]
    exact noWriteAfterEmpty_of_nonempty hT.nonempty
  · rw [hw, noWriteAfterEmpty_append_nil hT.nonempty]
    simp

theorem sent_iff_twoWrites : ∃ s sent, Run OutSide.step { token := List.replicate 16 5 }
      [.call (.write [1]), .out, .call (.writelines [[2], [], [3]]), .call .write_eof, .out, .out] s sent ∧
    ((∃ sds ok, sent = sds ++ [ok] ∧ (∀ f ∈ sds, ∃ d, CMD.fromBytes f = .ok (.SD ⟨List.replicate 16 5, d⟩)) ∧
        payloads sds = [1, 2, 3] ∧ CMD.fromBytes ok = .ok (.OK { token := List.replicate 16 5 })) ↔
      NoWriteAfterEmpty [[1], [2, 3]]) :=
  have h : Run OutSide.step { token := List.replicate 16 5 }
      [.call (.write [1]), .out, .call (.writelines [[2], [], [3]]), .call .write_eof, .out, .out] _ _ := .of_exec rfl
  have hcs : Call.write_eof ∉ [Call.write [1], .writelines [[2], [], [3]]] := by decide
  ⟨_, _, h, sent_iff rfl hcs h rfl rfl⟩

/-- An empty write, a byte, and the end: the byte is not sent. -/
theorem not_sent_afterEmpty : ∃ s sent, Run OutSide.step { token := List.replicate 16 5 }
      [.call (.write []), .call (.write [1]), .call .write_eof, .out] s sent ∧ s.connection_handler_out = none ∧
    ¬ ∃ sds ok, sent = sds ++ [ok] ∧ payloads sds = (writes [.write [], .write [1]]).flatten := by
  refine ⟨_, [[0, 0, 0, 26, 0, 0] ++ List.replicate 16 5 ++ [0, 0, 0, 0]], .of_exec rfl, rfl, ?_⟩
  rintro ⟨sds, ok, happ, hpay⟩
  have hsds : sds = [] := by simpa using congrArg List.length happ
  rw [hsds] at hpay
  revert hpay
  decide

end WSNETConnection

end Wsnet.Pyodide
