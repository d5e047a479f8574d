import Wsnet.Pyodide.File

/-!
# What a remote write reports

`WSNETFile.write` against an agent that answers anything: `recv` takes what comes in time, whatever it is. The
loop cuts its data down as it goes and returns the length of what is left, and the handler around it swallows
every exception, so `write` returns 0 or `None` (`reports_iff`). The offset follows what has been acknowledged.
-/

namespace Wsnet.Pyodide

/-- What a `WSNETFile` writes with. -/
structure WSNETFile where
  token : Bytes
  mode : String
  offset : Int := 0
  deriving DecidableEq, Repr

/-- What the agent says to a request that it writes a chunk: an answer the client does not wait past. -/
inductive Answer
  | acknowledged
  | refused
  /-- a frame that cannot be decoded, or none in time -/
  | lost
  deriving DecidableEq, Repr

/-- What a `recv` gets, a frame or nothing in time, as an answer; other replies are waited past. -/
def Answer.ofReply : Option Bytes → Option Answer
  | none => some .lost
  | some raw =>
    match CMD.fromBytes raw with
    | .error _ => some .lost
    | .ok (.ERR _) => some .refused
    | .ok (.CONTINUE _) => some .acknowledged
    | .ok _ => none

def answers (replies : List (Option Bytes)) : List Answer := replies.filterMap Answer.ofReply

namespace WSNETFile

/-- `self.__chunk_size` -/
def chunk_size : Nat := 1024 * 1024

/-- The `while True` of `write`, over what the calls of `recv` get. -/
def recvContinue : List (Option Bytes) → Except PyErr Unit × List (Option Bytes)
  | [] => (.error timeoutError, [])
  | none :: rest => (.error timeoutError, rest)
  | some raw :: rest =>
    match CMD.fromBytes raw with
    | .error e => (.error e, rest)
    | .ok (.ERR c) => (.error (.exception c.reason), rest)
    | .ok (.CONTINUE _) => (.ok (), rest)
    | .ok _ => recvContinue rest

/-- The `while` loop of `write`, and what is returned behind it. -/
def write_loop (f : WSNETFile) (data : Bytes) (replies : List (Option Bytes)) :
    Except PyErr Nat × WSNETFile × List (Option Bytes) :=
  if 0 < data.length then
    let tdata := data.take (min data.length chunk_size)
    match (CMD.FILEDATA ⟨f.token, tdata, f.offset⟩).toBytes with
    | .error e => (.error e, f, replies)
    | .ok _ =>
      match recvContinue replies with
      | (.error e, replies) => (.error e, f, replies)
      | (.ok _, replies) =>
        write_loop { f with offset := f.offset + tdata.length } (data.drop tdata.length) replies
  else (.ok data.length, f, replies)
termination_by data.length
decreasing_by
  simp only [List.length_drop, List.length_take, chunk_size]
  omega

/-- `write`: what it returns, or raises. -/
def write (f : WSNETFile) (data : Bytes) (replies : List (Option Bytes)) :
    Except PyErr (Option Nat) × WSNETFile × List (Option Bytes) :=
  if ¬ 'w' ∈ f.mode.toList then (.ok none, f, replies)
  else
    match f.write_loop data replies with
    | (.ok n, f, replies) => (.ok (some n), f, replies)
    | (.error _, f, replies) => (.ok none, f, replies)

/-- The chunks whose requests can be encoded, up to the first that cannot. -/
def sendable (token : Bytes) (offset : Int) : List Bytes → List Bytes
  | [] => []
  | tdata :: rest =>
    match (CMD.FILEDATA ⟨token, tdata, offset⟩).toBytes with
    | .error _ => []
    | .ok _ => tdata :: sendable token (offset + tdata.length) rest

/-- The requests that `write` can send for these data. -/
def requests (f : WSNETFile) (data : Bytes) : List Bytes := sendable f.token f.offset (readChunks chunk_size data)

/-- The number of bytes that the agent acknowledges: the chunks it answers with CONTINUE before anything else. -/
def acknowledged (f : WSNETFile) (data : Bytes) (replies : List (Option Bytes)) : Nat :=
  ((f.requests data).take ((answers replies).takeWhile (· = .acknowledged)).length).flatten.length

/-- The agent answers a chunk with ERR. -/
def Refused (f : WSNETFile) (data : Bytes) (replies : List (Option Bytes)) : Prop :=
  (((answers replies).take (f.requests data).length).dropWhile (· = .acknowledged)).head? = some .refused

/-- What `write` should tell its caller, and where it should leave the file. -/
structure Reports (f : WSNETFile) (data : Bytes) (replies : List (Option Bytes)) : Prop where
  raises : f.Refused data replies → ∃ e, (f.write data replies).1 = .error e
  returns : ¬ f.Refused data replies → (f.write data replies).1 = .ok (some (f.acknowledged data replies))
  offset : (f.write data replies).2.1.offset = f.offset + f.acknowledged data replies

variable {f : WSNETFile} {data : Bytes} {replies : List (Option Bytes)}

theorem answers_cons (r : Option Bytes) (rest : List (Option Bytes)) :
    answers (r :: rest) = (Answer.ofReply r).toList ++ answers rest := by
  unfold answers
  rw [List.filterMap_cons]
  cases Answer.ofReply r <;> rfl

/-- The wait for a reply ends with the next answer. -/
theorem recvContinue_spec (replies : List (Option Bytes)) :
    (∃ rest, recvContinue replies = (.ok (), rest) ∧ answers replies = .acknowledged :: answers rest) ∨
      ∃ e rest, recvContinue replies = (.error e, rest) ∧ (answers replies).head? ≠ some .acknowledged := by
  fun_induction recvContinue replies with
  | case1 => exact .inr ⟨_, _, rfl, by simp [answers]⟩
  | case2 rest => exact .inr ⟨_, _, rfl, by simp [answers_cons, Answer.ofReply]⟩
  | case3 raw rest e h => exact .inr ⟨_, _, rfl, by simp [answers_cons, Answer.ofReply, h]⟩
  | case4 raw rest c h => exact .inr ⟨_, _, rfl, by simp [answers_cons, Answer.ofReply, h]⟩
  | case5 raw rest c h => exact .inl ⟨_, rfl, by simp [answers_cons, Answer.ofReply, h]⟩
  | case6 raw rest c herr hcont h ih =>
    have hskip : answers (some raw :: rest) = answers rest := by
      rw [answers_cons, Answer.ofReply, h]
      split <;> simp_all
    rw [hskip]
    exact ih

theorem requests_of_pos (h : 0 < data.length) : f.requests data =
    match (CMD.FILEDATA ⟨f.token, data.take (min data.length chunk_size), f.offset⟩).toBytes with
    | .error _ => []
    | .ok _ => data.take (min data.length chunk_size) ::
      requests { f with offset := f.offset + (data.take (min data.length chunk_size)).length }
        (data.drop (data.take (min data.length chunk_size)).length) := by
  have htake : data.take (min data.length chunk_size) = data.take chunk_size := by
    rw [List.take_eq_take_iff]
    omega
  have hdrop : data.drop (data.take chunk_size).length = data.drop chunk_size := by
    rw [List.drop_eq_drop_iff, List.length_take]
    omega
  rw [htake, hdrop, requests, readChunks_of_ne_nil (by decide) (List.length_pos_iff.1 h), sendable]
  rfl

theorem requests_of_error (h : 0 < data.length) {e : PyErr}
    (he : (CMD.FILEDATA ⟨f.token, data.take (min data.length chunk_size), f.offset⟩).toBytes = .error e) :
    f.requests data = [] := by rw [requests_of_pos h, he]

theorem acknowledged_nil : f.acknowledged [] replies = 0 := by simp [acknowledged, requests, sendable]

/-- The loop moves the offset by what is acknowledged, and comes to its end when that is all. -/
theorem write_loop_spec (f : WSNETFile) (data : Bytes) (replies : List (Option Bytes)) :
    (f.write_loop data replies).2.1.offset = f.offset + f.acknowledged data replies ∧
      ∀ n, (f.write_loop data replies).1 = .ok n → n = 0 ∧ f.acknowledged data replies = data.length := by
  fun_induction write_loop f data replies with
  | case1 f data replies hpos tdata e he =>
    have hzero : f.acknowledged data replies = 0 := by simp [acknowledged, requests_of_error hpos he]
    exact ⟨by simp [hzero], fun n hn => by cases hn⟩
  | case2 f data replies hpos tdata raw hraw e rest hrecv =>
    have hzero : f.acknowledged data replies = 0 := by
      rcases recvContinue_spec replies with ⟨rest', h, -⟩ | ⟨e', rest', -, h⟩
      · rw [hrecv] at h
        cases h
      · have hnone : (answers replies).takeWhile (· = .acknowledged) = [] := by
          cases ha : answers replies with
          | nil => rfl
          | cons a as =>
            have hne : a ≠ .acknowledged := by simpa [ha] using h
            simp [hne]
        simp [acknowledged, hnone]
    exact ⟨by simp [hzero], fun n hn => by cases hn⟩
  | case3 f data replies hpos tdata raw hraw u rest hrecv ih =>
    have hsum : f.acknowledged data replies =
        tdata.length + acknowledged { f with offset := f.offset + tdata.length } (data.drop tdata.length) rest := by
      rcases recvContinue_spec replies with ⟨rest', h, hans⟩ | ⟨e', rest', h, -⟩
      · rw [hrecv] at h
        cases h
        rw [acknowledged, requests_of_pos hpos, hraw, hans]
        simp [acknowledged, tdata]
      · rw [hrecv] at h
        cases h
    obtain ⟨hoff, hdone⟩ := ih
    refine ⟨?_, fun n hn => ?_⟩
    · rw [hoff, hsum]
      push_cast
      omega
    · obtain ⟨hzero, hall⟩ := hdone n hn
      refine ⟨hzero, ?_⟩
      rw [hsum, hall, List.length_drop]
      have : tdata.length ≤ data.length := List.length_take_le' _ _
      omega
  | case4 f data replies hpos =>
    have hnil : data = [] := List.length_eq_zero_iff.1 (by omega)
    subst hnil
    exact ⟨by simp [acknowledged_nil], fun n hn => ⟨by cases hn; rfl, acknowledged_nil⟩⟩

/-- `write` never raises; what it returns is 0 at the end of the loop and `None` behind an exception. -/
theorem write_eq (hw : 'w' ∈ f.mode.toList) : f.write data replies =
    (.ok (f.write_loop data replies).1.toOption, (f.write_loop data replies).2) := by
  rw [write, if_neg (not_not.2 hw)]
  rcases f.write_loop data replies with ⟨_ | n, f', rest⟩ <;> rfl

end WSNETFile

/-- A write on a file opened for writing tells its caller what happened exactly when there is nothing to write;
the offset is right in any case. -/
theorem WSNETFile.reports_iff {f : WSNETFile} (hw : 'w' ∈ f.mode.toList) (data : Bytes)
    (replies : List (Option Bytes)) :
    (f.write data replies).2.1.offset = f.offset + f.acknowledged data replies ∧
    (f.Reports data replies ↔ data = []) := by
  obtain ⟨hoff, hdone⟩ := f.write_loop_spec data replies
  have hoffset : (f.write data replies).2.1.offset = f.offset + f.acknowledged data replies := by rw [write_eq hw, hoff]
  refine ⟨hoffset, fun h => ?_, fun hnil => ?_⟩
  · have hnot : ¬ f.Refused data replies := fun hr => by
      obtain ⟨e, he⟩ := h.raises hr
      rw [write_eq hw] at he
      cases he
    have hret := h.returns hnot
    rw [write_eq hw] at hret
    have hn : (f.write_loop data replies).1.toOption = some (f.acknowledged data replies) := Except.ok.inj hret
    cases hres : (f.write_loop data replies).1 with
    | error e => simp [hres, Except.toOption] at hn
    | ok n =>
      obtain ⟨hzero, hall⟩ := hdone n hres
      simp only [hres, Except.toOption, Option.some.injEq] at hn
      exact List.length_eq_zero_iff.1 (by omega)
  · subst hnil
    have hret : (f.write [] replies).1 = .ok (some 0) := by rw [write_eq hw, write_loop]; rfl
    refine ⟨fun hr => ?_, fun _ => by rw [hret, acknowledged_nil], hoffset⟩
    simp [Refused, requests, sendable] at hr

/-- A file positioned at 5: two bytes, acknowledged by a CONTINUE, and then nothing. -/
theorem WSNETFile.reports_iff_twoBytes :
    let f : WSNETFile := ⟨List.replicate 16 7, "rw", 5⟩
    let replies : List (Option Bytes) := [some ([0, 0, 0, 26, 0, 4] ++ List.replicate 16 7 ++ [0, 0, 0, 0])]
    (f.write [1, 2] replies).2.1.offset = 5 + f.acknowledged [1, 2] replies ∧
      (f.Reports [1, 2] replies ↔ ([1, 2] : Bytes) = []) ∧ (f.Reports [] [none] ↔ ([] : Bytes) = []) := by
  intro f replies
  have hw : 'w' ∈ f.mode.toList := by decide
  obtain ⟨hoffset, hiff⟩ := WSNETFile.reports_iff hw [1, 2] replies
  exact ⟨hoffset, hiff, (WSNETFile.reports_iff hw [] [none]).2⟩

/-- The agent acknowledges the only chunk, and `write` returns 0. -/
theorem WSNETFile.not_reports_acknowledged : ¬ (WSNETFile.mk (List.replicate 16 7) "w" 0).Reports [1]
    [some ([0, 0, 0, 26, 0, 4] ++ List.replicate 16 7 ++ [0, 0, 0, 0])] := by
  intro h
  have hloop : (WSNETFile.mk (List.replicate 16 7) "w" 0).write_loop [1]
      [some ([0, 0, 0, 26, 0, 4] ++ List.replicate 16 7 ++ [0, 0, 0, 0])] =
        (.ok 0, ⟨List.replicate 16 7, "w", 1⟩, []) := by
    rw [write_loop, if_pos (by decide), show min ([1] : Bytes).length chunk_size = 1 by decide]
    have hframe : (CMD.FILEDATA ⟨List.replicate 16 7, [1], 0⟩).toBytes =
        .ok ([0, 0, 0, 35, 1, 51] ++ List.replicate 16 7 ++
          [0, 0, 0, 0, 0, 0, 0, 0, 0, 0, 0, 1, 1]) := by decide +kernel
    have hrecv : recvContinue [some ([0, 0, 0, 26, 0, 4] ++ List.replicate 16 7 ++ [0, 0, 0, 0])] = (.ok (), []) := by
      rfl
    simp only [List.take_succ_cons, List.take_zero, hframe, hrecv]
    rw [write_loop, if_neg (by decide)]
    rfl
  have hret : ((WSNETFile.mk (List.replicate 16 7) "w" 0).write [1]
      [some ([0, 0, 0, 26, 0, 4] ++ List.replicate 16 7 ++ [0, 0, 0, 0])]).1 = .ok (some 0) := by
    rw [write, if_neg (by decide), hloop]
  have hacked : (WSNETFile.mk (List.replicate 16 7) "w" 0).acknowledged [1]
      [some ([0, 0, 0, 26, 0, 4] ++ List.replicate 16 7 ++ [0, 0, 0, 0])] = 1 := by
    rw [acknowledged, requests, show readChunks chunk_size ([1] : Bytes) = [[1]] from Remote.readChunks_single]
    decide +kernel
  by_cases hr : (WSNETFile.mk (List.replicate 16 7) "w" 0).Refused [1]
      [some ([0, 0, 0, 26, 0, 4] ++ List.replicate 16 7 ++ [0, 0, 0, 0])]
  · obtain ⟨e, he⟩ := h.raises hr
    rw [hret] at he
    cases he
  · have := h.returns hr
    rw [hret, hacked] at this
    cases this

namespace Remote

/-- What the client holds of a remote file. -/
def file (s : Remote) : WSNETFile := ⟨s.token, s.mode, s.offset⟩

/-- What `write` makes of the reply to a request. -/
def outcome : Except PyErr CMD → Except PyErr Unit
  | .error e => .error e
  | .ok (.ERR c) => .error (.exception c.reason)
  | .ok (.CONTINUE _) => .ok ()
  | .ok _ => .error timeoutError

theorem write_loop_cons (s : Remote) (tdata : Bytes) (rest : List Bytes) : s.write_loop (tdata :: rest) =
    match outcome (s.request (.data ⟨s.token, tdata, s.offset⟩)).1 with
    | .error e => (.error e, (s.request (.data ⟨s.token, tdata, s.offset⟩)).2)
    | .ok _ => ((s.request (.data ⟨s.token, tdata, s.offset⟩)).2.advance tdata.length).write_loop rest := by
  rw [write_loop]
  rcases s.request (.data ⟨s.token, tdata, s.offset⟩) with ⟨_ | c, s₁⟩
  · rfl
  · cases c <;> rfl

/-- A request is answered by a frame that comes, or by none. -/
theorem exists_reply (s : Remote) {c : WSNFileData} {frame : Bytes} (hframe : (CMD.FILEDATA c).toBytes = .ok frame) :
    ∃ reply, WSNETFile.recvContinue [reply] = (outcome (s.request (.data c)).1, []) ∧
      (outcome (s.request (.data c)).1 = .ok () → ∀ rest, WSNETFile.recvContinue (reply :: rest) = (.ok (), rest)) := by
  have hcmd : (FileRequest.data c).cmd.toBytes = .ok frame := hframe
  simp only [request, hcmd]
  cases (CMD.fromBytes frame).toOption.bind FileRequest.ofCmd with
  | none => exact ⟨none, rfl, fun h => by cases h⟩
  | some r =>
    dsimp only
    cases hraw : (s.agent.process_fileop s.full r).1.toBytes with
    | error e => exact ⟨none, rfl, fun h => by cases h⟩
    | ok raw =>
      refine ⟨some raw, ?_⟩
      simp only [WSNETFile.recvContinue]
      rcases CMD.fromBytes raw with e | reply
      · exact ⟨rfl, fun h => by cases h⟩
      · cases reply with
        | CONTINUE c => exact ⟨rfl, fun _ _ => rfl⟩
        | _ => exact ⟨rfl, fun h => by cases h⟩

/-- Against an agent with an open file, `write` is the `write` of what that agent replies. -/
theorem write_loop_eq_file (s : Remote) (data : Bytes) : ∃ replies, s.file.write_loop data replies =
    ((s.write_loop (readChunks chunk_size data)).1.map fun _ => 0,
      { s.file with offset := (s.write_loop (readChunks chunk_size data)).2.offset }, []) := by
  induction data using readChunks_induction (n := chunk_size) (by decide) generalizing s with
  | hnil =>
    refine ⟨[], ?_⟩
    rw [WSNETFile.write_loop, if_neg (by simp), readChunks_nil, write_loop]
    rfl
  | hstep data hne ih =>
    have hpos : 0 < data.length := List.length_pos_iff.2 hne
    have htake : data.take (min data.length WSNETFile.chunk_size) = data.take chunk_size := by
      rw [List.take_eq_take_iff]
      simp only [WSNETFile.chunk_size, chunk_size]
      omega
    have hdrop : data.drop (data.take chunk_size).length = data.drop chunk_size := by
      rw [List.drop_eq_drop_iff, List.length_take]
      omega
    have hkeeps := keeps_request s (.data ⟨s.token, data.take chunk_size, s.offset⟩)
    rw [readChunks_of_ne_nil (by decide) hne, write_loop_cons]
    cases hframe : (CMD.FILEDATA ⟨s.token, data.take chunk_size, s.offset⟩).toBytes with
    | error e =>
      refine ⟨[], ?_⟩
      have hcmd : (FileRequest.data ⟨s.token, data.take chunk_size, s.offset⟩).cmd.toBytes = .error e := hframe
      rw [WSNETFile.write_loop, if_pos hpos]
      simp only [file, htake, hframe, request, hcmd, outcome]
      rfl
    | ok frame =>
      obtain ⟨reply, hone, hmore⟩ := exists_reply s hframe
      generalize hreq : s.request (.data ⟨s.token, data.take chunk_size, s.offset⟩) = r at hone hmore hkeeps ⊢
      have hoff : r.2.offset = s.offset := hreq ▸ offset_request s _
      cases hout : outcome r.1 with
      | error e =>
        refine ⟨[reply], ?_⟩
        rw [WSNETFile.write_loop, if_pos hpos]
        simp only [file, htake, hframe, hone, hout, hoff]
        rfl
      | ok u =>
        obtain ⟨replies, hrest⟩ := ih (r.2.advance (data.take chunk_size).length)
        refine ⟨reply :: replies, ?_⟩
        rw [WSNETFile.write_loop, if_pos hpos]
        have hfile : (r.2.advance (data.take chunk_size).length).file =
            { s.file with offset := s.offset + (data.take chunk_size).length } := by
          rw [file, file, (keeps_advance _ _).token, (keeps_advance _ _).mode, hkeeps.token, hkeeps.mode, advance, hoff]
        rw [hfile] at hrest
        simp only [file, htake, hframe, hmore hout, hdrop] at hrest ⊢
        exact hrest

end Remote

end Wsnet.Pyodide
