import Wsnet.Lib.File
import Wsnet.Lib.Chunk
import Wsnet.Lib.Run
import Wsnet.Protocol.RoundTrip
import Wsnet.Agent.Agent

/-!
# Remote files

A `WSNETFile` keeps an offset and a size; the agent keeps an open file with a position of its own, and every
request names the offset at which it is to read or to write. `write` sends its data in chunks, `read` asks for
chunks until it has what `n` and the size allow. `Meets` says what an operation should do to the content and
the offset, in terms of a local file; `meets_of_run` that every operation of a run does so, as long as no
request carries an offset that eight bytes cannot hold.
-/

namespace Wsnet.Pyodide

/-! ### The agent's side -/

/-- A file that the agent has open, and what the next calls of the file system do: a call that raises leaves
the file as it is. -/
structure AgentFile where
  content : Bytes
  position : Nat := 0
  /-- opened with `'wb'`, otherwise with `'rb'` -/
  writing : Bool
  atime : Int := 0
  mtime : Int := 0
  ctime : Int := 0
  io : List (Option String) := []
  /-- how much of the end of the content `os.fstat` will not see, because it is in the buffer of the writer -/
  unflushed : List Nat := []
  deriving DecidableEq, Repr

/-- The commands on an open file. -/
inductive FileRequest
  | read (c : WSNFileRead)
  | data (c : WSNFileData)
  | stat (c : WSNFileStat)
  deriving DecidableEq, Repr

def FileRequest.cmd : FileRequest → CMD
  | .read c => .FILEREAD c
  | .data c => .FILEDATA c
  | .stat c => .FILESTAT c

def FileRequest.ofCmd : CMD → Option FileRequest
  | .FILEREAD c => some (.read c)
  | .FILEDATA c => some (.data c)
  | .FILESTAT c => some (.stat c)
  | _ => none

namespace AgentFile

/-- `f.seek(offset, 0)`; the offset of a file is below `2 ^ 63`. -/
def seek (f : AgentFile) (offset : Int) : Except String AgentFile :=
  if offset < 2 ^ 63 then .ok { f with position := offset.toNat } else .error "OverflowError"

/-- `f.read(size)` -/
def read (f : AgentFile) (size : Nat) : Except String (Bytes × AgentFile) :=
  if f.writing then .error "UnsupportedOperation: read"
  else
    let data := (f.content.drop f.position).take size
    .ok (data, { f with position := f.position + data.length })

/-- `f.write(data)` -/
def write (f : AgentFile) (data : Bytes) : Except String AgentFile :=
  if f.writing then
    .ok { f with content := overwrite 0 f.content f.position data, position := f.position + data.length }
  else .error "UnsupportedOperation: write"

/-- `os.fstat(f.fileno()).st_size` -/
def st_size (f : AgentFile) : Nat := if f.writing then f.content.length - f.unflushed.headD 0 else f.content.length

/-- The `try` block of `process_fileop` for these commands: the reply or what is raised, and the file. -/
def tryProcess (f : AgentFile) : FileRequest → Except String CMD × AgentFile
  | .read c =>
    match f.seek c.offset with
    | .error exc => (.error exc, f)
    | .ok f =>
      match f.read c.size.toNat with
      | .error exc => (.error exc, f)
      | .ok (data, f) => (.ok (.FILEDATA ⟨c.token, data, f.position - data.length⟩), f)
  | .data c =>
    match f.seek c.offset with
    | .error exc => (.error exc, f)
    | .ok f =>
      match f.write c.data with
      | .error exc => (.error exc, f)
      | .ok f => (.ok (continueReply c.token), f)
  | .stat c =>
    (.ok (.FILEENTRY ⟨c.token, "", "", false, f.st_size, f.atime, f.mtime, f.ctime⟩),
      { f with unflushed := f.unflushed.tail })

/-- The file with its handle elsewhere. -/
def moved (f : AgentFile) (position : Nat) : AgentFile := { f with position }

/-- The file behind a call of the file system. -/
def called (f : AgentFile) : AgentFile := { f with io := f.io.tail }

/-- What is sent: what is raised is answered with `ERR`, also when it is the reply that cannot be written. -/
def answer (full : Bool) (r : FileRequest) : Except String CMD → CMD
  | .error exc => errReply full r.cmd.token (fileOpFailed r.cmd.type) exc
  | .ok reply =>
    match reply.toBytes with
    | .error _ => errReply full r.cmd.token (fileOpFailed r.cmd.type) "OverflowError"
    | .ok _ => reply

/-- `process_fileop`: the reply, and the file afterwards. -/
def process_fileop (f : AgentFile) (full : Bool) (r : FileRequest) : CMD × AgentFile :=
  match f.io.headD none with
  | some exc => (answer full r (.error exc), f.called)
  | none => (answer full r (f.called.tryProcess r).1, (f.called.tryProcess r).2)

variable {f f' : AgentFile} {reply : CMD}

theorem seek_eq_ok {offset : Int} :
    f.seek offset = .ok f' ↔ offset < 2 ^ 63 ∧ { f with position := offset.toNat } = f' := by
  unfold seek
  by_cases h : offset < 2 ^ 63
  · rw [if_pos h, Except.ok.injEq]
    exact ⟨fun e => ⟨h, e⟩, fun e => e.2⟩
  · rw [if_neg h]
    exact ⟨fun e => (by cases e), fun e => absurd e.1 h⟩

/-- What a read replies; the file is only positioned. -/
theorem tryProcess_read {c : WSNFileRead} (h : f.tryProcess (.read c) = (.ok reply, f')) :
    c.offset < 2 ^ 63 ∧ (∃ p, f' = { f with position := p }) ∧
      reply = .FILEDATA ⟨c.token, (f.content.drop c.offset.toNat).take c.size.toNat, c.offset.toNat⟩ := by
  simp only [tryProcess] at h
  cases hseek : f.seek c.offset with
  | error exc =>
    rw [hseek] at h
    cases h
  | ok f₁ =>
    obtain ⟨hoff, rfl⟩ := seek_eq_ok.1 hseek
    rw [hseek] at h
    cases hw : f.writing with
    | true => simp [read, hw] at h
    | false =>
      simp only [read, hw, Bool.false_eq_true, if_false, Prod.mk.injEq, Except.ok.injEq] at h
      obtain ⟨rfl, rfl⟩ := h
      refine ⟨hoff, ⟨_, rfl⟩, ?_⟩
      congr 2
      omega

theorem tryProcess_data {c : WSNFileData} (h : f.tryProcess (.data c) = (.ok reply, f')) :
    c.offset < 2 ^ 63 ∧ (∃ p, f' = { f with content := overwrite 0 f.content c.offset.toNat c.data, position := p }) ∧
      reply = continueReply c.token := by
  simp only [tryProcess] at h
  cases hseek : f.seek c.offset with
  | error exc =>
    rw [hseek] at h
    cases h
  | ok f₁ =>
    obtain ⟨hoff, rfl⟩ := seek_eq_ok.1 hseek
    rw [hseek] at h
    cases hw : f.writing with
    | false => simp [write, hw] at h
    | true =>
      simp only [write, hw, if_true, Prod.mk.injEq, Except.ok.injEq] at h
      obtain ⟨rfl, rfl⟩ := h
      exact ⟨hoff, ⟨_, rfl⟩, rfl⟩

/-- The reply that is not an error is the one of the `try` block. -/
theorem answer_of_ne {full : Bool} {r : FileRequest} {x : Except String CMD} (h : (answer full r x).type ≠ .ERR) :
    x = .ok (answer full r x) ∧ ∃ raw, (answer full r x).toBytes = .ok raw := by
  cases x with
  | error exc => exact absurd rfl h
  | ok c =>
    cases hraw : c.toBytes with
    | error e =>
      simp only [answer, hraw] at h
      exact absurd rfl h
    | ok raw =>
      simp only [answer, hraw]
      exact ⟨trivial, raw, rfl⟩

theorem tryProcess_of_process_fileop {full : Bool} {r : FileRequest} (h : (f.process_fileop full r).1.type ≠ .ERR) :
    f.called.tryProcess r = (.ok (f.process_fileop full r).1, (f.process_fileop full r).2) ∧
      ∃ raw, (f.process_fileop full r).1.toBytes = .ok raw := by
  unfold process_fileop at h ⊢
  cases hio : f.io.headD none with
  | some exc =>
    rw [hio] at h
    exact absurd rfl h
  | none =>
    rw [hio] at h
    obtain ⟨hx, hraw⟩ := answer_of_ne h
    exact ⟨Prod.ext hx rfl, hraw⟩

/-- A request changes the content only where the file is written, and never how the file is open. -/
theorem snd_tryProcess (f : AgentFile) (r : FileRequest) :
    (f.tryProcess r).2.writing = f.writing ∧ (f.writing = false → (f.tryProcess r).2.content = f.content) := by
  cases r with
  | read c =>
    simp only [tryProcess]
    cases hseek : f.seek c.offset with
    | error exc => exact ⟨rfl, fun _ => rfl⟩
    | ok f₁ =>
      obtain ⟨-, rfl⟩ := seek_eq_ok.1 hseek
      cases hw : f.writing <;> simp [read]
  | data c =>
    simp only [tryProcess]
    cases hseek : f.seek c.offset with
    | error exc => exact ⟨rfl, fun _ => rfl⟩
    | ok f₁ =>
      obtain ⟨-, rfl⟩ := seek_eq_ok.1 hseek
      cases hw : f.writing <;> simp [write]
  | stat c => exact ⟨rfl, fun _ => rfl⟩

theorem seek_moved (f : AgentFile) (p : Nat) (offset : Int) : (f.moved p).seek offset = f.seek offset := rfl

/-- The reply is the same wherever the handle is. -/
theorem tryProcess_moved (f : AgentFile) (p : Nat) (r : FileRequest) :
    ∃ p', (f.moved p).tryProcess r = ((f.tryProcess r).1, (f.tryProcess r).2.moved p') := by
  cases r with
  | read c =>
    cases hseek : f.seek c.offset with
    | error exc => exact ⟨p, by simp only [tryProcess, seek_moved, hseek]⟩
    | ok f₁ => exact ⟨(f.tryProcess (.read c)).2.position, by simp only [tryProcess, seek_moved, hseek]; rfl⟩
  | data c =>
    cases hseek : f.seek c.offset with
    | error exc => exact ⟨p, by simp only [tryProcess, seek_moved, hseek]⟩
    | ok f₁ => exact ⟨(f.tryProcess (.data c)).2.position, by simp only [tryProcess, seek_moved, hseek]; rfl⟩
  | stat c => exact ⟨p, rfl⟩

theorem process_fileop_moved (f : AgentFile) (full : Bool) (p : Nat) (r : FileRequest) :
    ∃ p', (f.moved p).process_fileop full r = ((f.process_fileop full r).1, (f.process_fileop full r).2.moved p') := by
  have hio : (f.moved p).io.headD none = f.io.headD none := rfl
  have hcalled : (f.moved p).called = f.called.moved p := rfl
  simp only [process_fileop, hio, hcalled]
  cases f.io.headD none with
  | some exc => exact ⟨p, rfl⟩
  | none =>
    obtain ⟨p', h⟩ := tryProcess_moved f.called p r
    exact ⟨p', by rw [h]⟩

theorem writing_process_fileop (f : AgentFile) (full : Bool) (r : FileRequest) :
    (f.process_fileop full r).2.writing = f.writing := by
  unfold process_fileop
  cases f.io.headD none with
  | some exc => rfl
  | none => exact (snd_tryProcess f.called r).1

theorem content_process_fileop (full : Bool) (r : FileRequest) (hw : f.writing = false) :
    (f.process_fileop full r).2.content = f.content := by
  unfold process_fileop
  cases f.io.headD none with
  | some exc => rfl
  | none => exact (snd_tryProcess f.called r).2 hw

end AgentFile

/-! ### The client's side -/

/-- A `WSNETFile` and the file it stands for, with the agent's replies so far. -/
structure Remote where
  token : Bytes
  mode : String
  offset : Int := 0
  size : Int := 0
  agent : AgentFile
  /-- `send_full_exception` of the agent -/
  full : Bool := true
  replies : List CMD := []
  deriving DecidableEq, Repr

def timeoutError : PyErr := .exception "TimeoutError"

namespace Remote

/-- `self.__chunk_size` -/
def chunk_size : Nat := 1024 * 1024

/-- A request and the first reply to it: `session.send(cmd)`, and then `session.recv()`. -/
def request (s : Remote) (r : FileRequest) : Except PyErr CMD × Remote :=
  match r.cmd.toBytes with
  | .error e => (.error e, s)
  | .ok frame =>
    match (CMD.fromBytes frame).toOption.bind FileRequest.ofCmd with
    | none => (.error timeoutError, s)
    | some r =>
      let (reply, agent) := s.agent.process_fileop s.full r
      let s := { s with agent, replies := s.replies ++ [reply] }
      match reply.toBytes with
      | .error _ => (.error timeoutError, s)
      | .ok raw => (CMD.fromBytes raw, s)

/-- What `fstat` does with the reply. -/
def fstatReply : Except PyErr CMD × Remote → Except PyErr WSNFileEntry × Remote
  | (.error e, s) => (.error e, s)
  | (.ok (.ERR c), s) => (.error (.exception c.reason), s)
  | (.ok (.FILEENTRY c), s) => (.ok c, { s with size := c.size })
  | (.ok _, s) => (.error timeoutError, s)

def fstat (s : Remote) : Except PyErr WSNFileEntry × Remote := fstatReply (s.request (.stat ⟨s.token⟩))

/-- `self.offset += n` -/
def advance (s : Remote) (n : Nat) : Remote := { s with offset := s.offset + n }

/-- `__read`, with the chunks it yields put together as `read` does. -/
def read_loop (s : Remote) (size : Int) : Except PyErr Bytes × Remote :=
  if 0 < size then
    match s.request (.read ⟨s.token, min size chunk_size, s.offset⟩) with
    | (.error e, s) => (.error e, s)
    | (.ok (.ERR c), s) => (.error (.exception c.reason), s)
    | (.ok (.FILEDATA c), s) =>
      if c.data = [] then (.error (.exception "EOF"), s)
      else
        match read_loop (s.advance c.data.length) (size - c.data.length) with
        | (.ok data, s) => (.ok (c.data ++ data), s)
        | r => r
    | (.ok _, s) => (.error timeoutError, s)
  else (.ok [], s)
termination_by size.toNat
decreasing_by
  have hpos : 0 < c.data.length := List.length_pos_of_ne_nil ‹_›
  omega

def read (s : Remote) (n : Int) : Except PyErr Bytes × Remote :=
  if ¬ 'r' ∈ s.mode.toList then (.error (.exception "File not opened in read mode"), s)
  else
    let n := if n = -1 then s.size - s.offset else n
    if n = 0 ∨ s.size ≤ s.offset then (.ok [], s)
    else s.read_loop (if s.size < s.offset + n then s.size - s.offset else n)

/-- The loop of `write`, over the chunks it cuts off. -/
def write_loop (s : Remote) : List Bytes → Except PyErr Unit × Remote
  | [] => (.ok (), s)
  | tdata :: rest =>
    match s.request (.data ⟨s.token, tdata, s.offset⟩) with
    | (.error e, s) => (.error e, s)
    | (.ok (.ERR c), s) => (.error (.exception c.reason), s)
    | (.ok (.CONTINUE _), s) => write_loop (s.advance tdata.length) rest
    | (.ok _, s) => (.error timeoutError, s)

/-- `write` returns the length of the data that are left, or `None` behind an exception. -/
def write (s : Remote) (data : Bytes) : Option Nat × Remote :=
  if ¬ 'w' ∈ s.mode.toList then (none, s)
  else
    match s.write_loop (readChunks chunk_size data) with
    | (.ok (), s) => (some 0, s)
    | (.error _, s) => (none, s)

def seek (s : Remote) (offset whence : Int) : Except PyErr Unit × Remote :=
  if whence = 0 then (.ok (), { s with offset })
  else if whence = 1 then (.ok (), { s with offset := s.offset + offset })
  else if whence = 2 then
    if 0 < offset then (.error (.exception "Seeking from end is only supported for negative offsets"), s)
    else if s.size = 0 then (.error (.exception "Seeking from end is not supported for files with unknown size"), s)
    else (.ok (), { s with offset := s.size + offset })
  else (.error (.exception "Invalid whence"), s)

/-- What the agent's file system has under a path. -/
structure Disk where
  content : Bytes := []
  atime : Int := 0
  mtime : Int := 0
  ctime : Int := 0
  /-- what `open` raises -/
  openRaises : Option String := none
  io : List (Option String) := []
  unflushed : List Nat := []
  full : Bool := true

/-- `process_fileop` for FILEOPEN: `'wb'` truncates the file. -/
def agentOpen (d : Disk) (c : WSNFileOpen) : Option AgentFile × CMD :=
  if c.mode = "rb" ∨ c.mode = "r" ∨ c.mode = "wb" ∨ c.mode = "w" then
    match d.openRaises with
    | some exc => (none, errReply d.full c.token (fileOpFailed .FILEOPEN) exc)
    | none =>
      let writing := decide ¬ 'r' ∈ c.mode.toList
      let content := if writing then [] else d.content
      (some { d with content, writing }, continueReply c.token)
  else (none, errReply d.full c.token "Mode not supported" "")

/-- `WSNETFile.open`, in a session with this token. -/
def openFile (token : Bytes) (path mode : String) (d : Disk) : Except PyErr Remote := do
  let frame ← (CMD.FILEOPEN ⟨token, path, mode⟩).toBytes
  match CMD.fromBytes frame with
  | .ok (.FILEOPEN c) =>
    let raw ← (agentOpen d c).2.toBytes
    let reply ← CMD.fromBytes raw
    match reply, (agentOpen d c).1 with
    | .ERR c, _ => .error (.exception c.reason)
    | .CONTINUE _, some agent =>
      let s : Remote := { token, mode, agent, full := d.full }
      if 'r' ∈ mode.toList then
        let _entry ← s.fstat.1
        return s.fstat.2
      else return s
    | _, _ => .error timeoutError
  | _ => .error timeoutError

/-- The operations of a `WSNETFile`. -/
inductive Op
  | read (n : Int)
  | write (data : Bytes)
  | seek (offset whence : Int)
  | tell
  | fstat
  deriving DecidableEq, Repr

inductive OpResult
  | read (r : Except PyErr Bytes)
  | wrote (r : Option Nat)
  | seeked (r : Except PyErr Unit)
  | told (offset : Int)
  | stat (r : Except PyErr WSNFileEntry)

def step (s : Remote) : Op → Option (Remote × List OpResult)
  | .read n => some ((s.read n).2, [.read (s.read n).1])
  | .write data => some ((s.write data).2, [.wrote (s.write data).1])
  | .seek offset whence => some ((s.seek offset whence).2, [.seeked (s.seek offset whence).1])
  | .tell => some (s, [.told s.offset])
  | .fstat => some (s.fstat.2, [.stat s.fstat.1])

/-! ### One request -/

/-- The agent has reported no error. -/
def NoError (s : Remote) : Prop := ∀ c ∈ s.replies, c.type ≠ .ERR

variable {s s' : Remote} {r : FileRequest}

/-- The values of a request fit in its fields. -/
def RequestFits (token : Bytes) : FileRequest → Prop
  | .read c => c.token = token ∧ (0 ≤ c.size ∧ c.size < 2 ^ 32) ∧ 0 ≤ c.offset ∧ c.offset < 2 ^ 64
  | .data c => c.token = token ∧ c.data.length ≤ chunk_size ∧ 0 ≤ c.offset ∧ c.offset < 2 ^ 64
  | .stat c => c.token = token

theorem supported_request (ht : s.token.length = 16) (hr : RequestFits s.token r) : r.cmd.Supported := by
  cases r with
  | read c =>
    obtain ⟨htok, hsize, hoff⟩ := hr
    refine ⟨by simp [FileRequest.cmd, CMD.type, CMD.lossy], by rw [← htok] at ht; exact ht, trivial, fun f hf => ?_⟩
    simp only [FileRequest.cmd, CMD.fields, WSNFileRead.fields, List.mem_cons, List.not_mem_nil, or_false] at hf
    rcases hf with rfl | rfl | rfl
    · rfl
    · exact hsize
    · exact hoff
  | data c =>
    obtain ⟨htok, -, hoff⟩ := hr
    refine ⟨by simp [FileRequest.cmd, CMD.type, CMD.lossy], by rw [← htok] at ht; exact ht, trivial, fun f hf => ?_⟩
    simp only [FileRequest.cmd, CMD.fields, WSNFileData.fields, List.mem_cons, List.not_mem_nil, or_false] at hf
    rcases hf with rfl | rfl | rfl
    · rfl
    · exact hoff
    · trivial
  | stat c =>
    have htok : c.token = s.token := hr
    refine ⟨by simp [FileRequest.cmd, CMD.type, CMD.lossy], by rw [← htok] at ht; exact ht, trivial, fun f hf => ?_⟩
    simp only [FileRequest.cmd, CMD.fields, TokenCmd.fields, List.mem_cons, List.not_mem_nil, or_false] at hf
    subst hf
    rfl

theorem frameLength_request (ht : s.token.length = 16) (hr : RequestFits s.token r) : r.cmd.frameLength < 2 ^ 32 := by
  cases r with
  | read c =>
    obtain ⟨htok, -⟩ := hr
    rw [← htok] at ht
    simp only [FileRequest.cmd, CMD.frameLength, CMD.fields, WSNFileRead.fields, List.map_cons, List.map_nil,
      Field.size,
      List.sum_cons, List.sum_nil]
    omega
  | data c =>
    obtain ⟨htok, hlen, -⟩ := hr
    rw [← htok] at ht
    simp only [chunk_size] at hlen
    simp only [FileRequest.cmd, CMD.frameLength, CMD.fields, WSNFileData.fields, List.map_cons, List.map_nil,
      Field.size,
      List.sum_cons, List.sum_nil]
    omega
  | stat c =>
    have htok : c.token = s.token := hr
    rw [← htok] at ht
    simp only [FileRequest.cmd, CMD.frameLength, CMD.fields, TokenCmd.fields, List.map_cons, List.map_nil, Field.size,
      List.sum_cons, List.sum_nil]
    omega

/-- The reply that the agent makes of a request. -/
def reply (s : Remote) (r : FileRequest) : CMD := (s.agent.process_fileop s.full r).1

/-- The state behind a request that reaches the agent. -/
def replied (s : Remote) (r : FileRequest) : Remote :=
  { s with agent := (s.agent.process_fileop s.full r).2, replies := s.replies ++ [s.reply r] }

/-- The agent takes the request as it was meant. -/
theorem request_eq (ht : s.token.length = 16) (hr : RequestFits s.token r) : s.request r =
    match (s.reply r).toBytes with
    | .error _ => (.error timeoutError, s.replied r)
    | .ok raw => (CMD.fromBytes raw, s.replied r) := by
  obtain ⟨frame, hframe, hread, -⟩ := CMD.fromBytes_toBytes (supported_request ht hr) (frameLength_request ht hr)
  have hcmd : FileRequest.ofCmd r.cmd = some r := by cases r <;> rfl
  simp only [request, hframe, hread, Except.toOption, Option.bind, hcmd]
  rfl

/-- What every request leaves as it is. -/
structure Keeps (s s' : Remote) : Prop where
  token : s'.token = s.token
  mode : s'.mode = s.mode
  size : s'.size = s.size
  writing : s'.agent.writing = s.agent.writing
  content : s.agent.writing = false → s'.agent.content = s.agent.content
  replies : s.replies <+: s'.replies

theorem Keeps.refl (s : Remote) : Keeps s s := ⟨rfl, rfl, rfl, rfl, fun _ => rfl, List.prefix_refl _⟩

theorem Keeps.trans {s₁ : Remote} (h : Keeps s s₁) (h' : Keeps s₁ s') : Keeps s s' :=
  ⟨h'.token.trans h.token, h'.mode.trans h.mode, h'.size.trans h.size, h'.writing.trans h.writing,
    fun hw => (h'.content (h.writing.trans hw)).trans (h.content hw), h.replies.trans h'.replies⟩

theorem Keeps.noError (h : Keeps s s') (hs : NoError s') : NoError s := fun c hc => hs c (h.replies.subset hc)

theorem keeps_advance (s : Remote) (n : Nat) : Keeps s (s.advance n) :=
  ⟨rfl, rfl, rfl, rfl, fun _ => rfl, List.prefix_refl _⟩

theorem keeps_replied (s : Remote) (r : FileRequest) : Keeps s (s.replied r) :=
  ⟨rfl, rfl, rfl, AgentFile.writing_process_fileop _ _ _, AgentFile.content_process_fileop _ _,
    List.prefix_append _ _⟩

theorem keeps_request (s : Remote) (r : FileRequest) : Keeps s (s.request r).2 := by
  unfold request
  cases r.cmd.toBytes with
  | error e => exact .refl s
  | ok frame =>
    dsimp only
    cases (CMD.fromBytes frame).toOption.bind FileRequest.ofCmd with
    | none => exact .refl s
    | some r =>
      dsimp only
      cases hraw : (s.agent.process_fileop s.full r).1.toBytes <;> exact keeps_replied s r

theorem offset_request (s : Remote) (r : FileRequest) : (s.request r).2.offset = s.offset := by
  unfold request
  cases r.cmd.toBytes with
  | error e => rfl
  | ok frame =>
    dsimp only
    cases (CMD.fromBytes frame).toOption.bind FileRequest.ofCmd with
    | none => rfl
    | some r =>
      dsimp only
      cases (s.agent.process_fileop s.full r).1.toBytes <;> rfl

theorem snd_request (ht : s.token.length = 16) (hr : RequestFits s.token r) : (s.request r).2 = s.replied r := by
  rw [request_eq ht hr]
  cases (s.reply r).toBytes <;> rfl

/-- A request that is not answered with an error is one that the `try` block of the agent went through. -/
theorem tryProcess_of_noError (ht : s.token.length = 16) (hr : RequestFits s.token r) (hne : NoError (s.request r).2) :
    s.agent.called.tryProcess r = (.ok (s.reply r), (s.replied r).agent) ∧ ∃ raw, (s.reply r).toBytes = .ok raw := by
  rw [snd_request ht hr] at hne
  exact AgentFile.tryProcess_of_process_fileop (hne _ (List.mem_append_right _ (List.mem_singleton.2 rfl)))

/-- Its reply arrives as the agent meant it. -/
theorem request_ok (ht : s.token.length = 16) (hr : RequestFits s.token r) {raw : Bytes}
    (hraw : (s.reply r).toBytes = .ok raw)
    (hsup : (s.reply r).Supported) : s.request r = (.ok (s.reply r), s.replied r) := by
  rw [request_eq ht hr, hraw, ← CMD.fromBytes_of_toBytes hsup hraw]

theorem request_read (ht : s.token.length = 16) {n : Nat} (hn : n ≤ chunk_size) (h₀ : 0 ≤ s.offset)
    (h₁ : s.offset < 2 ^ 64)
    (hne : NoError (s.request (.read ⟨s.token, n, s.offset⟩)).2) :
    ∃ s₁, s.request (.read ⟨s.token, n, s.offset⟩) =
        (.ok (.FILEDATA ⟨s.token, (s.agent.content.drop s.offset.toNat).take n, s.offset.toNat⟩), s₁) ∧
      s₁.offset = s.offset ∧ s₁.agent.content = s.agent.content := by
  have hfits : RequestFits s.token (.read ⟨s.token, n, s.offset⟩) :=
    ⟨rfl, ⟨Int.natCast_nonneg n, by simp only [chunk_size] at hn ⊢; omega⟩, h₀, h₁⟩
  obtain ⟨htry, raw, hraw⟩ := tryProcess_of_noError ht hfits hne
  obtain ⟨-, ⟨p, hagent⟩, hreply⟩ := AgentFile.tryProcess_read htry
  have hsup : (s.reply (.read ⟨s.token, n, s.offset⟩)).Supported := by
    rw [hreply] at hraw ⊢
    refine CMD.supported_of_toBytes ?_ ht trivial ?_ hraw
    · simp [CMD.type, CMD.lossy]
    · simp [CMD.fields, WSNFileData.fields]
  have hcontent : (s.replied (.read ⟨s.token, n, s.offset⟩)).agent.content = s.agent.content := by rw [hagent]; rfl
  have hrequest := request_ok ht hfits hraw hsup
  rw [hreply] at hrequest
  exact ⟨_, hrequest, rfl, hcontent⟩

/-- The agent writes a chunk at the offset that the request names, wherever its handle is. -/
theorem request_data (ht : s.token.length = 16) {data : Bytes} (hd : data.length ≤ chunk_size) (h₀ : 0 ≤ s.offset)
    (h₁ : s.offset < 2 ^ 64) (hne : NoError (s.request (.data ⟨s.token, data, s.offset⟩)).2) :
    ∃ c s₁, s.request (.data ⟨s.token, data, s.offset⟩) = (.ok (.CONTINUE c), s₁) ∧ s₁.offset = s.offset ∧
      s.offset < 2 ^ 63 ∧ s₁.agent.content = overwrite 0 s.agent.content s.offset.toNat data := by
  have hfits : RequestFits s.token (.data ⟨s.token, data, s.offset⟩) := ⟨rfl, hd, h₀, h₁⟩
  obtain ⟨htry, raw, hraw⟩ := tryProcess_of_noError ht hfits hne
  obtain ⟨hoff, ⟨p, hagent⟩, hreply⟩ := AgentFile.tryProcess_data htry
  have hsup : (s.reply (.data ⟨s.token, data, s.offset⟩)).Supported := by
    rw [hreply] at hraw ⊢
    refine CMD.supported_of_toBytes ?_ ht (Option.some_ne_none _) ?_ hraw
    · simp [CMD.lossy]
    · simp [continueReply, CMD.fields, MsgCmd.fields]
  have hrequest := request_ok ht hfits hraw hsup
  rw [hreply] at hrequest
  exact ⟨_, _, hrequest, rfl, hoff, congrArg AgentFile.content hagent⟩

/-- What `os.fstat` says arrives. -/
theorem request_stat (ht : s.token.length = 16) (hne : NoError (s.request (.stat ⟨s.token⟩)).2) :
    ∃ c s₁, s.request (.stat ⟨s.token⟩) = (.ok (.FILEENTRY c), s₁) ∧ c.size = s.agent.st_size ∧ c.size < 2 ^ 64 := by
  have hfits : RequestFits s.token (.stat ⟨s.token⟩) := rfl
  obtain ⟨htry, raw, hraw⟩ := tryProcess_of_noError ht hfits hne
  obtain ⟨c, hc, hsize, htok⟩ : ∃ c : WSNFileEntry,
      s.reply (.stat ⟨s.token⟩) = .FILEENTRY c ∧ c.size = s.agent.st_size ∧ c.token = s.token :=
    ⟨_, (Except.ok.inj (Prod.mk.inj htry).1).symm, rfl, rfl⟩
  have hsup : (s.reply (.stat ⟨s.token⟩)).Supported := by
    rw [hc] at hraw ⊢
    refine CMD.supported_of_toBytes ?_ ((congrArg List.length htok).trans ht) trivial ?_ hraw
    · simp [CMD.type, CMD.lossy]
    · simp [CMD.fields, WSNFileEntry.fields]
  have hwidth : (Field.int c.size 8).InWidth := by
    rw [hc] at hsup
    exact hsup.width _ (by simp [CMD.fields, WSNFileEntry.fields])
  exact ⟨c, _, by rw [request_ok ht hfits hraw hsup, hc], hsize, hwidth.2⟩

/-! ### The loops -/

theorem Keeps.of_request {x : Except PyErr CMD} (h : s.request r = (x, s')) : Keeps s s' := by
  have := keeps_request s r
  rwa [h] at this

theorem keeps_write_loop (s : Remote) (chunks : List Bytes) : Keeps s (s.write_loop chunks).2 := by
  fun_induction write_loop s chunks with
  | case1 s => exact .refl s
  | case2 s tdata rest e s₁ h => exact .of_request h
  | case3 s tdata rest c s₁ h => exact .of_request h
  | case4 s tdata rest c s₁ h ih => exact (Keeps.of_request h).trans ((keeps_advance s₁ _).trans ih)
  | case5 s tdata rest c s₁ _ _ h => exact .of_request h

theorem keeps_read_loop (s : Remote) (size : Int) : Keeps s (s.read_loop size).2 := by
  fun_induction read_loop s size with
  | case1 s size hpos e s₁ h => exact .of_request h
  | case2 s size hpos c s₁ h => exact .of_request h
  | case3 s size hpos c s₁ h => exact .of_request h
  | case4 s size hpos c s₁ h hdata data s₂ hloop ih =>
    rw [hloop] at ih
    exact (Keeps.of_request h).trans ((keeps_advance s₁ _).trans ih)
  | case5 s size hpos c s₁ h hdata _ ih => exact (Keeps.of_request h).trans ((keeps_advance s₁ _).trans ih)
  | case6 s size hpos c s₁ _ _ h => exact .of_request h
  | case7 s size hpos => exact .refl s

theorem keeps_write_loop_cons (s : Remote) (tdata : Bytes) (rest : List Bytes) :
    Keeps (s.request (.data ⟨s.token, tdata, s.offset⟩)).2 (s.write_loop (tdata :: rest)).2 := by
  rw [write_loop]
  split <;> rename_i h <;> rw [h]
  · exact .refl _
  · exact .refl _
  · exact (keeps_advance _ _).trans (keeps_write_loop _ _)
  · exact .refl _

theorem keeps_read_loop_pos (s : Remote) {size : Int} (h : 0 < size) :
    Keeps (s.request (.read ⟨s.token, min size chunk_size, s.offset⟩)).2 (s.read_loop size).2 := by
  rw [read_loop, if_pos h]
  split <;> rename_i h <;> rw [h]
  · exact .refl _
  · exact .refl _
  · split
    · exact .refl _
    · rename_i c s₁ _
      have hkeeps := keeps_read_loop (s₁.advance c.data.length) (size - c.data.length)
      split
      · rename_i hloop
        rw [hloop] at hkeeps
        exact (keeps_advance _ _).trans hkeeps
      · exact (keeps_advance _ _).trans hkeeps
  · exact .refl _

/-- The chunks are written one behind the other. What an agent takes is below `2 ^ 63`, so that the offset of the
next chunk still has eight bytes. -/
theorem write_loop_eq (ht : s.token.length = 16) (h₀ : 0 ≤ s.offset) {data : Bytes} (h₁ : data = [] ∨ s.offset < 2 ^ 64)
    (hne : NoError (s.write_loop (readChunks chunk_size data)).2) :
    (s.write_loop (readChunks chunk_size data)).2.agent.content = overwrite 0 s.agent.content s.offset.toNat data ∧
      (s.write_loop (readChunks chunk_size data)).2.offset = s.offset + data.length := by
  have hchunk : 0 < chunk_size := by decide
  induction data using readChunks_induction hchunk generalizing s with
  | hnil => simp [write_loop]
  | hstep data hdata ih =>
    have h₁ := h₁.resolve_left hdata
    rw [readChunks_of_ne_nil hchunk hdata] at hne ⊢
    obtain ⟨c, s₁, hs₁, hoff, hlt, hcontent⟩ := request_data ht (List.length_take_le _ _) h₀ h₁
      ((keeps_write_loop_cons _ _ _).noError hne)
    have htok : s₁.token = s.token := (Keeps.of_request hs₁).token
    rw [write_loop, hs₁] at hne ⊢
    dsimp only at hne ⊢
    have hlen : (data.take chunk_size).length + (data.drop chunk_size).length = data.length := by
      rw [← List.length_append, List.take_append_drop]
    have hadv : (s₁.advance (data.take chunk_size).length).offset = s.offset + (data.take chunk_size).length := by
      rw [advance, hoff]
    have hle : (data.take chunk_size).length ≤ 1024 * 1024 := List.length_take_le _ _
    obtain ⟨hc, ho⟩ := ih (s := s₁.advance (data.take chunk_size).length) (by rw [advance, htok]; exact ht) (by omega)
      (.inr (by omega)) hne
    refine ⟨?_, by omega⟩
    rw [hc, hadv]
    show overwrite 0 s₁.agent.content _ _ = _
    have hnat : (s.offset + (data.take chunk_size).length).toNat =
        s.offset.toNat + (data.take chunk_size).length := by omega
    rw [hcontent, hnat, overwrite_append, List.take_append_drop]

/-- `__read` delivers what a local read would. -/
theorem read_loop_eq (ht : s.token.length = 16) (h₀ : 0 ≤ s.offset) {n : Nat}
    (hend : s.offset.toNat + n ≤ s.agent.content.length) (hlen : s.agent.content.length < 2 ^ 64)
    (hne : NoError (s.read_loop n).2) :
    (s.read_loop n).1 = .ok ((s.agent.content.drop s.offset.toNat).take n) ∧
      (s.read_loop n).2.offset = s.offset + n := by
  induction n using Nat.strongRecOn generalizing s with
  | ind n ih =>
    rcases Nat.eq_zero_or_pos n with rfl | hpos
    · rw [read_loop, if_neg (by omega)]
      simp
    have hreq := (keeps_read_loop_pos s (Int.natCast_pos.2 hpos)).noError hne
    have hmin : min (n : Int) chunk_size = (min n chunk_size : Nat) := by omega
    rw [hmin] at hreq
    obtain ⟨s₁, hs₁, hoff, hcontent⟩ := request_read ht (Nat.min_le_right _ _) h₀ (by omega) hreq
    have htok : s₁.token = s.token := (Keeps.of_request hs₁).token
    generalize hm : min n chunk_size = m at hs₁ hmin
    have hmpos : 0 < m := by simp only [chunk_size] at hm; omega
    generalize hd : (s.agent.content.drop s.offset.toNat).take m = data at hs₁
    have hdlen : data.length = m := by
      rw [← hd, List.length_take, List.length_drop]
      omega
    have hdata : data ≠ [] := List.ne_nil_of_length_pos (by omega)
    have hrest : (n : Int) - data.length = (n - m : Nat) := by omega
    rw [read_loop, if_pos (Int.natCast_pos.2 hpos), hmin, hs₁] at hne ⊢
    simp only [if_neg hdata, hrest] at hne ⊢
    have hadv : (s₁.advance data.length).offset = s.offset + m := by rw [advance, hoff, hdlen]
    have hnat : (s.offset + m).toNat = s.offset.toNat + m := by omega
    have hcont : (s₁.advance data.length).agent.content = s.agent.content := hcontent
    have ih := ih (n - m) (by omega) (s := s₁.advance data.length) (by rw [advance, htok]; exact ht) (by omega)
      (by rw [hadv, hnat, hcont]; omega) (by rw [hcont]; exact hlen)
    rw [hadv, hnat, hcont] at ih
    generalize (s₁.advance data.length).read_loop (n - m : Nat) = x at ih hne
    obtain ⟨res, s₂⟩ := x
    cases res with
    | error e => exact absurd (ih hne).1 (by simp)
    | ok data₂ =>
      obtain ⟨h₂, ho⟩ := ih hne
      simp only [Except.ok.injEq] at h₂
      refine ⟨?_, by dsimp only at ho ⊢; omega⟩
      dsimp only
      rw [h₂, ← hd, take_drop_append, Nat.add_sub_cancel' (by omega)]

/-! ### Where the agent's handle stands -/

/-- The remote file with the agent's handle elsewhere. -/
def moved (s : Remote) (position : Nat) : Remote := { s with agent := s.agent.moved position }

theorem request_moved (s : Remote) (p : Nat) (r : FileRequest) :
    ∃ p', (s.moved p).request r = ((s.request r).1, (s.request r).2.moved p') := by
  unfold request
  cases r.cmd.toBytes with
  | error e => exact ⟨p, rfl⟩
  | ok frame =>
    dsimp only
    cases (CMD.fromBytes frame).toOption.bind FileRequest.ofCmd with
    | none => exact ⟨p, rfl⟩
    | some r =>
      obtain ⟨p', h⟩ := AgentFile.process_fileop_moved s.agent s.full p r
      have h' : (s.moved p).agent.process_fileop (s.moved p).full r = _ := h
      refine ⟨p', ?_⟩
      dsimp only
      rw [h']
      dsimp only
      cases (s.agent.process_fileop s.full r).1.toBytes <;> rfl

theorem request_moved_of_eq {x : Except PyErr CMD} (h : s.request r = (x, s')) (p : Nat) :
    ∃ p', (s.moved p).request r = (x, s'.moved p') := by
  have := request_moved s p r
  rwa [h] at this

theorem token_moved (s : Remote) (p : Nat) : (s.moved p).token = s.token := rfl
theorem offset_moved (s : Remote) (p : Nat) : (s.moved p).offset = s.offset := rfl

/-- What is read does not depend on where the handle is. -/
theorem read_loop_moved (s : Remote) (size : Int) (p : Nat) :
    ∃ p', (s.moved p).read_loop size = ((s.read_loop size).1, (s.read_loop size).2.moved p') := by
  fun_induction read_loop s size generalizing p with
  | case1 s size hpos e s₁ h | case2 s size hpos c s₁ h =>
    obtain ⟨p', h'⟩ := request_moved_of_eq h p
    exact ⟨p', by rw [read_loop, if_pos hpos, token_moved, offset_moved, h']⟩
  | case3 s size hpos c s₁ h hdata =>
    obtain ⟨p', h'⟩ := request_moved_of_eq h p
    refine ⟨p', ?_⟩
    rw [read_loop, if_pos hpos, token_moved, offset_moved, h']
    exact if_pos hdata
  | case4 s size hpos c s₁ h hdata data s₂ hloop ih =>
    obtain ⟨p₁, h'⟩ := request_moved_of_eq h p
    obtain ⟨p₂, ih⟩ := ih p₁
    have hadv : (s₁.moved p₁).advance c.data.length = (s₁.advance c.data.length).moved p₁ := rfl
    refine ⟨p₂, ?_⟩
    rw [read_loop, if_pos hpos, token_moved, offset_moved, h']
    dsimp only
    rw [if_neg hdata, hadv, ih, hloop]
  | case5 s size hpos c s₁ h hdata herr ih =>
    obtain ⟨p₁, h'⟩ := request_moved_of_eq h p
    obtain ⟨p₂, ih⟩ := ih p₁
    have hadv : (s₁.moved p₁).advance c.data.length = (s₁.advance c.data.length).moved p₁ := rfl
    refine ⟨p₂, ?_⟩
    rw [read_loop, if_pos hpos, token_moved, offset_moved, h']
    dsimp only
    rw [if_neg hdata, hadv, ih]
    generalize hx : (s₁.advance c.data.length).read_loop (size - c.data.length) = x at herr
    obtain ⟨_ | data, s₂⟩ := x
    · rfl
    · exact absurd rfl (herr data s₂)
  | case6 s size hpos c s₁ herr hdata h =>
    obtain ⟨p', h'⟩ := request_moved_of_eq h p
    refine ⟨p', ?_⟩
    rw [read_loop, if_pos hpos, token_moved, offset_moved, h']
    split <;> rename_i heq <;> cases heq
    · exact absurd rfl (herr _)
    · exact absurd rfl (hdata _)
    · rfl
  | case7 s size hpos => exact ⟨p, by rw [read_loop, if_neg hpos]⟩

/-! ### The operations -/

theorem replies_fstatReply (x : Except PyErr CMD × Remote) : (fstatReply x).2.replies = x.2.replies := by
  unfold fstatReply
  split <;> rfl

theorem fstat_eq (ht : s.token.length = 16) (hne : NoError s.fstat.2) :
    ∃ c s₁, s.fstat = (.ok c, { s₁ with size := c.size }) ∧ Keeps s s₁ ∧ c.size = s.agent.st_size ∧
      c.size < 2 ^ 64 := by
  rw [fstat, NoError, replies_fstatReply] at hne
  obtain ⟨c, s₁, h, hsize, hlt⟩ := request_stat ht hne
  exact ⟨c, s₁, by rw [fstat, h, fstatReply], .of_request h, hsize, hlt⟩

theorem replies_prefix_fstat (s : Remote) : s.replies <+: s.fstat.2.replies := by
  rw [fstat, replies_fstatReply]
  exact (keeps_request s _).replies

/-- A write and a read leave everything but the offset and the content to the requests they make. -/
theorem keeps_write (s : Remote) (data : Bytes) : Keeps s (s.write data).2 := by
  have hkeeps := keeps_write_loop s (readChunks chunk_size data)
  unfold write
  split
  · exact .refl s
  · split <;> rename_i h <;> rw [h] at hkeeps <;> exact hkeeps

theorem keeps_read (s : Remote) (n : Int) : Keeps s (s.read n).2 := by
  unfold read
  split
  · exact .refl s
  · generalize (if n = -1 then s.size - s.offset else n) = n
    dsimp only
    split
    · exact .refl s
    · exact keeps_read_loop s _

theorem keeps_seek (s : Remote) (offset whence : Int) : Keeps s (s.seek offset whence).2 := by
  unfold seek
  repeat' split
  all_goals exact ⟨rfl, rfl, rfl, rfl, fun _ => rfl, List.prefix_refl _⟩

/-- What holds of an opened file. -/
structure Opened (s : Remote) : Prop where
  token : s.token.length = 16
  reading : 'r' ∈ s.mode.toList → s.agent.writing = false ∧ s.size = s.agent.content.length ∧ s.size < 2 ^ 64

theorem Keeps.opened (h : Keeps s s') (hs : Opened s) : Opened s' where
  token := h.token ▸ hs.token
  reading hr := by
    rw [h.mode] at hr
    obtain ⟨hw, hsize, hlt⟩ := hs.reading hr
    rw [h.writing, h.size, h.content hw]
    exact ⟨hw, hsize, hlt⟩

theorem opened_fstat (hs : Opened s) (hne : NoError s.fstat.2) : Opened s.fstat.2 := by
  obtain ⟨c, s₁, h, hkeeps, hsize, hlt⟩ := fstat_eq hs.token hne
  rw [h]
  exact {
    token := (hkeeps.opened hs).token
    reading := by
      intro hr
      obtain ⟨hw, -⟩ := (hkeeps.opened hs).reading hr
      have hw' := hkeeps.writing.symm.trans hw
      rw [AgentFile.st_size, if_neg (by rw [hw']; exact Bool.false_ne_true), ← hkeeps.content hw'] at hsize
      exact ⟨hw, hsize, hlt⟩ }

theorem replies_prefix_step {op : Op} {o : List OpResult} (h : step s op = some (s', o)) :
    s.replies <+: s'.replies := by
  cases op with
  | read n =>
    obtain ⟨rfl, -⟩ := Prod.mk.inj (Option.some.inj h)
    exact (keeps_read s n).replies
  | write data =>
    obtain ⟨rfl, -⟩ := Prod.mk.inj (Option.some.inj h)
    exact (keeps_write s data).replies
  | seek offset whence =>
    obtain ⟨rfl, -⟩ := Prod.mk.inj (Option.some.inj h)
    exact (keeps_seek s offset whence).replies
  | tell =>
    obtain ⟨rfl, -⟩ := Prod.mk.inj (Option.some.inj h)
    exact List.prefix_refl _
  | fstat =>
    obtain ⟨rfl, -⟩ := Prod.mk.inj (Option.some.inj h)
    exact replies_prefix_fstat s

theorem noError_of_step {op : Op} {o : List OpResult} (h : step s op = some (s', o)) (hne : NoError s') : NoError s :=
  fun c hc => hne c ((replies_prefix_step h).subset hc)

theorem opened_step {op : Op} {o : List OpResult} (hs : Opened s) (h : step s op = some (s', o)) (hne : NoError s') :
    Opened s' := by
  cases op with
  | read n =>
    obtain ⟨rfl, -⟩ := Prod.mk.inj (Option.some.inj h)
    exact (keeps_read s n).opened hs
  | write data =>
    obtain ⟨rfl, -⟩ := Prod.mk.inj (Option.some.inj h)
    exact (keeps_write s data).opened hs
  | seek offset whence =>
    obtain ⟨rfl, -⟩ := Prod.mk.inj (Option.some.inj h)
    exact (keeps_seek s offset whence).opened hs
  | tell =>
    obtain ⟨rfl, -⟩ := Prod.mk.inj (Option.some.inj h)
    exact hs
  | fstat =>
    obtain ⟨rfl, -⟩ := Prod.mk.inj (Option.some.inj h)
    exact opened_fstat hs hne

theorem writing_agentOpen {d : Disk} {c : WSNFileOpen} {f : AgentFile} (h : (agentOpen d c).1 = some f) :
    f.writing = decide ¬ 'r' ∈ c.mode.toList := by
  unfold agentOpen at h
  split at h
  · split at h
    · cases h
    · cases h
      rfl
  · cases h

theorem opened_openFile {token : Bytes} {path mode : String} {d : Disk} (ht : token.length = 16)
    (h : openFile token path mode d = .ok s) (hne : NoError s) : Opened s := by
  obtain ⟨frame, hframe, h⟩ := except_bind_eq_ok.1 h
  have hread : CMD.fromBytes frame = .ok (.FILEOPEN ⟨token, path, mode⟩) := by
    refine CMD.fromBytes_of_toBytes (CMD.supported_of_toBytes ?_ ht trivial ?_ hframe) hframe
    · simp [CMD.type, CMD.lossy]
    · simp [CMD.fields, WSNFileOpen.fields]
  rw [hread] at h
  dsimp only at h
  obtain ⟨raw, -, h⟩ := except_bind_eq_ok.1 h
  obtain ⟨reply, -, h⟩ := except_bind_eq_ok.1 h
  split at h
  · cases h
  · rename_i agent hagent
    by_cases hr : 'r' ∈ mode.toList
    · rw [if_pos hr] at h
      obtain ⟨entry, hentry, h⟩ := except_bind_eq_ok.1 h
      have hsnd := Except.ok.inj h
      rw [← hsnd] at hne ⊢
      obtain ⟨c, s₁, hfstat, hkeeps, hsize, hlt⟩ := fstat_eq (s := { token, mode, agent, full := d.full }) ht hne
      rw [hfstat]
      have hw : agent.writing = false := by rw [writing_agentOpen hagent]; simpa using hr
      rw [AgentFile.st_size, if_neg (by rw [hw]; exact Bool.false_ne_true), ← hkeeps.content hw] at hsize
      exact ⟨hkeeps.token ▸ ht, fun _ => ⟨hkeeps.writing.trans hw, hsize, hlt⟩⟩
    · rw [if_neg hr] at h
      cases h
      exact ⟨ht, fun hr' => absurd hr' hr⟩
  · cases h

/-- What an operation on a local file would do. -/
def Meets (s : Remote) : Op → OpResult → Remote → Prop
  | .write data, _, s' => 'w' ∈ s.mode.toList → (data = [] ∨ s.offset < 2 ^ 64) →
      s'.agent.content = overwrite 0 s.agent.content s.offset.toNat data ∧ s'.offset = s.offset + data.length
  | .read n, r, s' => 'r' ∈ s.mode.toList → (n = -1 ∨ 0 ≤ n) → s.size = s.agent.content.length ∧
      ∃ data, r = .read (.ok data) ∧ s'.offset = s.offset + data.length ∧ s'.agent.content = s.agent.content ∧
        data = slice s.agent.content s.offset.toNat (if n = -1 then s.size else min (s.offset + n) s.size).toNat ∧
        ∀ p, ((s.moved p).read n).1 = .ok data
  | _, _, _ => True

theorem read_moved (s : Remote) (n : Int) (p : Nat) : ((s.moved p).read n).1 = (s.read n).1 := by
  unfold read
  by_cases hr : 'r' ∈ s.mode.toList
  · have hr' : 'r' ∈ (s.moved p).mode.toList := hr
    have hsize : (s.moved p).size = s.size := rfl
    rw [if_neg (not_not.2 hr), if_neg (not_not.2 hr'), offset_moved, hsize]
    generalize (if n = -1 then s.size - s.offset else n) = n
    dsimp only
    by_cases hn : n = 0 ∨ s.size ≤ s.offset
    · rw [if_pos hn, if_pos hn]
    · obtain ⟨p', h⟩ := read_loop_moved s (if s.size < s.offset + n then s.size - s.offset else n) p
      rw [if_neg hn, if_neg hn, h]
  · have hr' : ¬ 'r' ∈ (s.moved p).mode.toList := hr
    rw [if_pos hr, if_pos hr']

theorem write_eq (hs : Opened s) (h₀ : 0 ≤ s.offset) {data : Bytes} (h₁ : data = [] ∨ s.offset < 2 ^ 64)
    (hw : 'w' ∈ s.mode.toList) (hne : NoError (s.write data).2) :
    (s.write data).2.agent.content = overwrite 0 s.agent.content s.offset.toNat data ∧
      (s.write data).2.offset = s.offset + data.length := by
  have hsnd : (s.write data).2 = (s.write_loop (readChunks chunk_size data)).2 := by
    rw [write, if_neg (not_not.2 hw)]
    obtain ⟨_ | _, s'⟩ := s.write_loop (readChunks chunk_size data) <;> rfl
  rw [hsnd] at hne ⊢
  exact write_loop_eq hs.token h₀ h₁ hne

theorem read_eq (hs : Opened s) (h₀ : 0 ≤ s.offset) {n : Int} (hn : n = -1 ∨ 0 ≤ n) (hr : 'r' ∈ s.mode.toList)
    (hne : NoError (s.read n).2) : ∃ data, (s.read n).1 = .ok data ∧ (s.read n).2.offset = s.offset + data.length ∧
      data = slice s.agent.content s.offset.toNat (if n = -1 then s.size else min (s.offset + n) s.size).toNat := by
  obtain ⟨-, hsize, hlt⟩ := hs.reading hr
  rw [read, if_neg (not_not.2 hr)] at hne ⊢
  have hto : (if n = -1 then s.size else min (s.offset + n) s.size) =
      min (s.offset + (if n = -1 then s.size - s.offset else n)) s.size := by split <;> omega
  have hn : 0 ≤ (if n = -1 then s.size - s.offset else n) ∨ s.size ≤ s.offset := by split <;> omega
  rw [hto]
  generalize (if n = -1 then s.size - s.offset else n) = n at hn hne ⊢
  dsimp only at hne ⊢
  by_cases hzero : n = 0 ∨ s.size ≤ s.offset
  · have hempty : slice s.agent.content s.offset.toNat (min (s.offset + n) s.size).toNat = [] := by
      rw [slice, Nat.sub_eq_zero_of_le (by omega), List.take_zero]
    rw [if_pos hzero] at hne ⊢
    exact ⟨[], rfl, by simp, hempty.symm⟩
  · obtain ⟨m, hm⟩ : ∃ m : Nat, (if s.size < s.offset + n then s.size - s.offset else n) = m :=
      Int.eq_ofNat_of_zero_le (by split <;> omega)
    rw [if_neg hzero, hm] at hne ⊢
    have hend : s.offset.toNat + m ≤ s.agent.content.length := by split at hm <;> omega
    obtain ⟨hdata, hoff⟩ := read_loop_eq hs.token h₀ hend (by omega) hne
    refine ⟨_, hdata, ?_, ?_⟩
    · rw [hoff, List.length_take, List.length_drop]
      omega
    · rw [slice]
      congr 1
      split at hm <;> omega

/-- Every operation of a run without an error of the agent does what it would do to a local file. -/
theorem meets_of_run {token : Bytes} {path mode : String} {d : Disk} {s₀ : Remote} {ops : List Op} {os : List OpResult}
    {op : Op} {r : OpResult} (ht : token.length = 16) (hopen : openFile token path mode d = .ok s₀)
    (hrun : Run step s₀ ops s os) (hs : step s op = some (s', [r])) (hne : NoError s') (h₀ : 0 ≤ s.offset) :
    Meets s op r s' := by
  have hopened : NoError s → Opened s :=
    hrun.state_invariant (fun hp h hne => opened_step (hp (noError_of_step h hne)) h hne) (opened_openFile ht hopen)
  have hopened := hopened (noError_of_step hs hne)
  cases op with
  | write data =>
    obtain ⟨rfl, -⟩ := Prod.mk.inj (Option.some.inj hs)
    exact fun hw h₁ => write_eq hopened h₀ h₁ hw hne
  | read n =>
    obtain ⟨rfl, hr⟩ := Prod.mk.inj (Option.some.inj hs)
    intro hmode hn
    obtain ⟨data, hdata, hoff, hslice⟩ := read_eq hopened h₀ hn hmode hne
    obtain ⟨hwriting, hsize, -⟩ := hopened.reading hmode
    refine ⟨hsize, data, ?_, hoff, (keeps_read s n).content hwriting, hslice, fun p => by rw [read_moved, hdata]⟩
    rw [← List.cons.inj hr |>.1, hdata]
  | seek offset whence => trivial
  | tell => trivial
  | fstat => trivial

/-- A new file, opened for writing and positioned at `n`. -/
def newFile (n : Int) : Remote :=
  { token := List.replicate 16 7, mode := "w", offset := n, agent := { content := [], writing := true } }

theorem openFile_newFile : openFile (List.replicate 16 7) "f" "w" {} = .ok (newFile 0) := by decide +kernel

theorem seek_newFile (n : Int) : Run step (newFile 0) [.seek n 0] (newFile n) ([.seeked (.ok ())] ++ []) :=
  .cons rfl (.nil _)

theorem readChunks_single : readChunks chunk_size ([1] : Bytes) = [[1]] := by
  rw [readChunks_of_ne_nil (by decide) (by simp)]
  simp [chunk_size]

theorem meets_of_run_newFile :
    Meets (newFile 2) (.write [1]) (.wrote ((newFile 2).write [1]).1) ((newFile 2).write [1]).2 := by
  have hne : NoError ((newFile 2).write [1]).2 := by
    have hrequest : (newFile 2).request (.data ⟨(newFile 2).token, [1], (newFile 2).offset⟩) =
        (.ok (continueReply (List.replicate 16 7)), { newFile 2 with
          agent := { content := [0, 0, 1], position := 3, writing := true },
          replies := [continueReply (List.replicate 16 7)] }) := by decide +kernel
    rw [write, if_neg (by decide), readChunks_single, write_loop, hrequest]
    simp only [continueReply, write_loop]
    exact fun c hc => by rw [List.mem_singleton.1 hc]; decide
  exact meets_of_run rfl openFile_newFile (seek_newFile 2) rfl hne (by decide)

/-- Without the bound: an offset of `2 ^ 64` has no eight bytes, and `write` returns without having sent anything. -/
theorem not_meets_newFile : ¬ ∀ (token : Bytes) (path mode : String) (d : Disk) (s₀ s s' : Remote) (ops : List Op)
    (os : List OpResult) (data : Bytes) (r : OpResult), token.length = 16 → openFile token path mode d = .ok s₀ →
    Run step s₀ ops s os → step s (.write data) = some (s', [r]) → NoError s' → 0 ≤ s.offset → 'w' ∈ s.mode.toList →
    s'.agent.content = overwrite 0 s.agent.content s.offset.toNat data ∧ s'.offset = s.offset + data.length := by
  intro h
  have hwrite : (newFile (2 ^ 64)).write [1] = (none, newFile (2 ^ 64)) := by
    have hrequest : (newFile (2 ^ 64)).request (.data ⟨(newFile (2 ^ 64)).token, [1], (newFile (2 ^ 64)).offset⟩) =
        (.error .overflowError, newFile (2 ^ 64)) := by decide +kernel
    rw [write, if_neg (by decide), readChunks_single, write_loop, hrequest]
  have := (h _ _ _ _ _ (newFile (2 ^ 64)) (newFile (2 ^ 64)) _ _ [1] _ rfl openFile_newFile (seek_newFile (2 ^ 64))
    (by rw [step, hwrite]) (fun c hc => absurd hc (by simp [newFile])) (by decide) (by decide)).2
  exact absurd this (by decide)

end Remote

end Wsnet.Pyodide
