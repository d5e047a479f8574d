import Wsnet.Lib.Exec
import Wsnet.Lib.Dict
import Wsnet.Agent.Agent

/-!
# File operations

`process_fileop` over whatever the operating system does: `FileSystem` gives every call a result and an effect on the
world, and `FileState.log` keeps which calls were made and which of them raised. Every request is answered
once (`answered`), and only a file that was opened gets into the table. What `os.stat` raises for an entry of
a directory is no failure: the entry is sent with zeros.
-/

namespace Wsnet

/-! ### Python texts -/

/-- A code point of a `str`; one that `os` made of bytes that are no text is a surrogate. -/
inductive CodePoint
  | scalar (c : Char)
  | surrogate (n : Fin 2048)
  deriving DecidableEq, Repr

/-- A `str` that need not be a text. -/
abbrev PyText := List CodePoint

namespace PyText

def ofString (s : String) : PyText := s.toList.map .scalar

/-- The characters, if all code points are. -/
def chars? : PyText → Option (List Char)
  | [] => some []
  | .scalar c :: t => (chars? t).map (c :: ·)
  | .surrogate _ :: _ => none

/-- The text, if it can be encoded. -/
def text? (t : PyText) : Option String := (chars? t).map String.ofList

end PyText

/-! ### The operating system -/

/-- The calls that `process_fileop` makes of the operating system and of files. -/
inductive FileCall
  | rmtree | makedirs | copytree | move | walk | stat | copy | remove | open_ | seek | read | tell | write | fileno
  | fstat
  deriving DecidableEq, Repr

/-- What `os.stat` and `os.fstat` return, as far as it is used. -/
structure Stat where
  st_size : Int
  st_atime_ns : Int
  st_mtime_ns : Int
  st_ctime_ns : Int
  deriving DecidableEq, Repr

/-- What `os.walk` yields. -/
structure WalkEntry where
  root : PyText
  dirs : List PyText
  files : List PyText
  deriving DecidableEq, Repr

/-- The calls, on a world `σ` and with handles `φ`; an exception is given by its traceback. -/
structure FileSystem (σ φ : Type) where
  rmtree : String → Exec σ String Unit
  makedirs : String → Exec σ String Unit
  copytree : String → String → Exec σ String Unit
  move : String → String → Exec σ String Unit
  /-- what the iteration yields, and what it raises in the end, if it raises -/
  walk : String → Exec σ String (List WalkEntry × Option String)
  join : PyText → PyText → PyText
  stat : PyText → Exec σ String Stat
  copy : String → String → Exec σ String Unit
  remove : String → Exec σ String Unit
  open_ : String → String → Exec σ String φ
  seek : φ → Int → Exec σ String Unit
  read : φ → Int → Exec σ String Bytes
  tell : φ → Exec σ String Int
  write : φ → Bytes → Exec σ String Unit
  fileno : φ → Exec σ String Int
  fstat : Int → Exec σ String Stat
  /-- `self.transport.send(data)` -/
  send : Bytes → Exec σ String Unit
  /-- the traceback of an exception that the code raises itself -/
  format_exc : PyErr → String

/-- The world and the agent's table, and what has happened so far. -/
structure FileState (σ φ : Type) where
  world : σ
  file_queues : Dict Bytes φ
  sent : List CMD := []
  /-- a message could not be encoded or sent -/
  failed : Bool := false
  /-- the calls so far, and whether they raised -/
  log : List (FileCall × Bool) := []

section Calls
variable {σ φ α : Type}

/-- Run `x` on the world and note whether it raises. -/
def call (k : FileCall) (x : Exec σ String α) : Exec (FileState σ φ) String α := .ofFun fun s =>
  match x.exec s.world with
  | (.ok a, world) => (.ok a, { s with world, log := s.log ++ [(k, false)] })
  | (.error exc, world) => (.error exc, { s with world, log := s.log ++ [(k, true)] })

namespace FileSystem
variable (os : FileSystem σ φ)

/-- `await self.send_data(reply.to_bytes())` -/
def send_data (reply : Except PyErr CMD) : Exec (FileState σ φ) String Unit := .ofFun fun s =>
  match reply.bind fun c => c.toBytes.map (c, ·) with
  | .error e => (.error (os.format_exc e), { s with failed := true })
  | .ok (c, raw) =>
    match (os.send raw).exec s.world with
    | (.ok _, world) => (.ok (), { s with world, sent := s.sent ++ [c] })
    | (.error exc, world) => (.error exc, { s with world, failed := true })

def send_ok (cmd : CMD) : Exec (FileState σ φ) String Unit := os.send_data (.ok (okReply cmd.token))

def send_continue (cmd : CMD) : Exec (FileState σ φ) String Unit := os.send_data (.ok (continueReply cmd.token))

def send_err (full : Bool) (cmd : CMD) (reason exc : String) : Exec (FileState σ φ) String Unit :=
  os.send_data (.ok (errReply full cmd.token reason exc))

/-- `self.file_queues[token]` -/
def file (token : Bytes) : Exec (FileState σ φ) String φ := .ofFun fun s =>
  match s.file_queues.get? token with
  | some f => (.ok f, s)
  | none => (.error (os.format_exc .keyError), s)

/-! ### DIRLS -/

/-- The numbers of an entry: zeros if `os.stat` raises. -/
def statEntry (fullepath : PyText) : Exec (FileState σ φ) String Stat :=
  tryCatch (call .stat (os.stat fullepath)) fun _ => pure ⟨0, 0, 0, 0⟩

/-- `WSNFileEntry(cmd.token, root, name, is_dir, size, atime, mtime, ctime)` -/
def entry (token : Bytes) (root name : String) (is_dir : Bool) (stat : Stat) : WSNFileEntry where
  token := token
  root := root
  name := name
  is_dir := is_dir
  size := if is_dir then 0 else stat.st_size
  atime := stat.st_atime_ns
  mtime := stat.st_mtime_ns
  ctime := stat.st_ctime_ns

/-- What is encoded for an entry; a root or a name that is no text cannot be. -/
def fileEntry (token : Bytes) (root name : PyText) (is_dir : Bool) (stat : Stat) : Except PyErr CMD :=
  match root.text?, name.text? with
  | some root, some name => .ok (.FILEENTRY (entry token root name is_dir stat))
  | _, _ => .error .valueError

/-- One turn of the loops over the files and the directories. -/
def sendEntry (token : Bytes) (root : PyText) (is_dir : Bool) (name : PyText) : Exec (FileState σ φ) String Unit := do
  let stat ← os.statEntry (os.join root name)
  os.send_data (fileEntry token root name is_dir stat)

/-- `for root, dirs, files in os.walk(cmd.path)`; `raised` is what ends the iteration, if it raises. -/
def walkLoop (token : Bytes) (path : String) (raised : Option String) :
    List WalkEntry → Exec (FileState σ φ) String Unit
  | [] =>
    match raised with
    | some exc => call .walk (throw exc)
    | none => pure ()
  | e :: rest =>
    if e.root ≠ .ofString path then pure ()
    else do
      Exec.forEach (os.sendEntry token e.root false) e.files
      Exec.forEach (os.sendEntry token e.root true) e.dirs
      walkLoop token path raised rest

/-! ### The operations -/

/-- The branch for DIRLS. -/
def dirLs (c : WSNDirLS) : Exec (FileState σ φ) String Unit := do
  let (entries, raised) ← call .walk (os.walk c.path)
  os.walkLoop c.token c.path raised entries
  os.send_ok (.DIRLS c)

/-- The branch for FILEOPEN. -/
def fileOpen (full : Bool) (c : WSNFileOpen) : Exec (FileState σ φ) String Unit :=
  if c.mode ∈ ["rb", "r", "wb", "w"] then do
    let f ← call .open_ (os.open_ c.path (if 'r' ∈ c.mode.toList then "rb" else "wb"))
    Exec.update fun s => { s with file_queues := s.file_queues.set c.token f }
    os.send_continue (.FILEOPEN c)
  else os.send_err full (.FILEOPEN c) "Mode not supported" ""

/-- The `try` block of `process_fileop`. -/
def tryProcess (full : Bool) (cmd : CMD) : Exec (FileState σ φ) String Unit :=
  match cmd with
  | .DIRRM c => do
    call .rmtree (os.rmtree c.path)
    os.send_ok cmd
  | .DIRMK c => do
    call .makedirs (os.makedirs c.path)
    os.send_ok cmd
  | .DIRCOPY c => do
    call .copytree (os.copytree c.srcpath c.dstpath)
    os.send_ok cmd
  | .DIRMOVE c => do
    call .move (os.move c.srcpath c.dstpath)
    os.send_ok cmd
  | .DIRLS c => os.dirLs c
  | .FILECOPY c => do
    call .copy (os.copy c.srcpath c.dstpath)
    os.send_ok cmd
  | .FILEMOVE c => do
    call .move (os.move c.srcpath c.dstpath)
    os.send_ok cmd
  | .FILERM c => do
    call .remove (os.remove c.path)
    os.send_ok cmd
  | .FILEOPEN c => os.fileOpen full c
  | .FILEREAD c => do
    let f ← os.file c.token
    call .seek (os.seek f c.offset)
    let data ← call .read (os.read f c.size)
    let position ← call .tell (os.tell f)
    os.send_data (.ok (.FILEDATA { token := c.token, data, offset := position - data.length }))
  | .FILEDATA c => do
    let f ← os.file c.token
    call .seek (os.seek f c.offset)
    call .write (os.write f c.data)
    os.send_continue cmd
  | .FILESTAT c => do
    let f ← os.file c.token
    let fd ← call .fileno (os.fileno f)
    let stat ← call .fstat (os.fstat fd)
    os.send_data (.ok (.FILEENTRY {
      token := c.token, root := "", name := "", is_dir := false, size := stat.st_size, atime := stat.st_atime_ns,
      mtime := stat.st_mtime_ns, ctime := stat.st_ctime_ns }))
  | cmd => os.send_err full cmd ("File operation " ++ toString cmd.type.value ++ " not implemented") ""

def process_fileop (full : Bool) (cmd : CMD) : Exec (FileState σ φ) String Unit :=
  tryCatch (os.tryProcess full cmd) fun exc => os.send_err full cmd (fileOpFailed cmd.type) exc

end FileSystem

end Calls

/-! ### What a request is answered with -/

/-- The type of the last message for a request that does not fail. -/
def goodReply : CMDType → CMDType
  | .FILEOPEN | .FILEDATA => .CONTINUE
  | .FILEREAD => .FILEDATA
  | .FILESTAT => .FILEENTRY
  | _ => .OK

namespace FileState
variable {σ φ : Type}

/-- Before a request. -/
def start (world : σ) (file_queues : Dict Bytes φ) : FileState σ φ where
  world := world
  file_queues := file_queues

/-- The request fails without a call that raises: there is no file of its token, the mode is not supported, or
it is no request. -/
def Refused (cmd : CMD) (fq : Dict Bytes φ) : Prop :=
  (cmd.type = .FILEREAD ∨ cmd.type = .FILEDATA ∨ cmd.type = .FILESTAT) ∧ fq.get? cmd.token = none ∨
    (∃ c, cmd = .FILEOPEN c ∧ c.mode ∉ ["rb", "r", "wb", "w"]) ∨ cmd.type = .FILEENTRY

/-- A call other than `os.stat` has raised. -/
def Raised (s : FileState σ φ) : Prop := ∃ k, k ≠ .stat ∧ (k, true) ∈ s.log

/-- Entries of a directory. -/
def Entries (cmd : CMD) (es : List CMD) : Prop :=
  (es ≠ [] → cmd.type = .DIRLS) ∧ ∀ m ∈ es, m.type = .FILEENTRY ∧ m.token = cmd.token

/-- One last message behind the entries, with the token of the request: an `ERR` if it failed, otherwise what
the request asks for. Only opening changes the table, at its token. -/
structure Answered (cmd : CMD) (fq : Dict Bytes φ) (s : FileState σ φ) : Prop where
  replies : ∃ es last, s.sent = es ++ [last] ∧ Entries cmd es ∧ last.token = cmd.token ∧
    (s.Raised ∨ Refused cmd fq → last.type = .ERR) ∧ (¬ (s.Raised ∨ Refused cmd fq) → last.type = goodReply cmd.type)
  table : ∀ t, s.file_queues.get? t ≠ fq.get? t → cmd.type = .FILEOPEN ∧ t = cmd.token ∧ ¬ (s.Raised ∨ Refused cmd fq)

/-- Nothing has failed so far, and no last message is sent. -/
def Going (cmd : CMD) (fq : Dict Bytes φ) (s : FileState σ φ) : Prop :=
  s.failed = false ∧ s.file_queues = fq ∧ ¬ s.Raised ∧ Entries cmd s.sent

/-- The request has failed, and no last message is sent. -/
def Lost (cmd : CMD) (fq : Dict Bytes φ) (s : FileState σ φ) : Prop :=
  s.failed = true ∨ s.file_queues = fq ∧ (s.Raised ∨ Refused cmd fq) ∧ Entries cmd s.sent

/-- The request is answered, or a message could not be sent. -/
def Done (cmd : CMD) (fq : Dict Bytes φ) (s : FileState σ φ) : Prop := s.failed = true ∨ s.Answered cmd fq

theorem going_start (cmd : CMD) (world : σ) (fq : Dict Bytes φ) : Going cmd fq (start world fq) :=
  ⟨rfl, rfl, fun ⟨_, _, h⟩ => List.not_mem_nil h, fun h => absurd rfl h, fun _ h => absurd h List.not_mem_nil⟩

end FileState

namespace FileSystem
open FileState
variable {σ φ α : Type} {os : FileSystem σ φ} {full : Bool} {cmd : CMD} {fq : Dict Bytes φ}

theorem raised_append {log : List (FileCall × Bool)} {k : FileCall} {b : Bool} :
    (∃ j, j ≠ FileCall.stat ∧ (j, true) ∈ log ++ [(k, b)]) ↔ (∃ j, j ≠ FileCall.stat ∧ (j, true) ∈ log) ∨
    k ≠ .stat ∧ b = true := by
  constructor
  · rintro ⟨j, hj, hmem⟩
    rcases List.mem_append.1 hmem with h | h
    · exact .inl ⟨j, hj, h⟩
    · cases List.mem_singleton.1 h
      exact .inr ⟨hj, rfl⟩
  · rintro (⟨j, hj, h⟩ | ⟨hk, rfl⟩)
    · exact ⟨j, hj, List.mem_append_left _ h⟩
    · exact ⟨k, hk, by simp⟩

/-- A call goes on or fails the request. -/
theorem call_spec {k : FileCall} (hk : k ≠ .stat) (x : Exec σ String α) :
    Triple (Going cmd fq) (call k x : Exec (FileState σ φ) String α) (fun _ => Going cmd fq)
      (fun _ => Lost cmd fq) := by
  refine .of_exec fun s ⟨hfailed, hfq, hlog, hes⟩ => ?_
  simp only [call, Exec.ofFun_exec]
  cases hx : x.exec s.world with
  | mk r world =>
    cases r with
    | ok a =>
      refine .inl ⟨a, _, rfl, hfailed, hfq, fun h => ?_, hes⟩
      exact absurd ((raised_append.1 h).resolve_left hlog).2 (by decide)
    | error exc => exact .inr ⟨exc, _, rfl, .inr ⟨hfq, .inl (raised_append.2 (.inr ⟨hk, rfl⟩)), hes⟩⟩

/-- A message is sent, or the state says that it could not be. -/
theorem send_data_exec (os : FileSystem σ φ) (reply : Except PyErr CMD) (s : FileState σ φ) :
    (∃ c world, reply = .ok c ∧ (os.send_data reply).exec s = (.ok (), { s with world, sent := s.sent ++ [c] })) ∨
      ∃ exc s', (os.send_data reply).exec s = (.error exc, s') ∧ s'.failed = true := by
  simp only [send_data, Exec.ofFun_exec]
  cases hreply : reply.bind fun c => c.toBytes.map (c, ·) with
  | error e => exact .inr ⟨os.format_exc e, _, rfl, by rfl⟩
  | ok r =>
    obtain ⟨c, raw⟩ := r
    cases hsend : (os.send raw).exec s.world with
    | mk res world =>
      simp only [hsend]
      cases res with
      | error exc => exact .inr ⟨exc, _, rfl, by rfl⟩
      | ok u =>
        cases reply with
        | error e => cases hreply
        | ok c' =>
          obtain ⟨_, -, heq⟩ := except_map_eq_ok.1 hreply
          obtain ⟨rfl, -⟩ := Prod.mk.inj heq
          exact .inl ⟨_, world, rfl, rfl⟩

/-- What may be sent last. -/
def Fits (cmd : CMD) (fq : Dict Bytes φ) (c : CMD) (s : FileState σ φ) : Prop :=
  c.token = cmd.token ∧ (s.Raised ∨ Refused cmd fq → c.type = .ERR) ∧
    (¬ (s.Raised ∨ Refused cmd fq) → c.type = goodReply cmd.type)

theorem last_spec {c : CMD} {P : FileState σ φ → Prop} {E : String → FileState σ φ → Prop}
    (hP : ∀ s, P s → s.failed = true ∨ s.file_queues = fq ∧ Entries cmd s.sent ∧ Fits cmd fq c s)
    (hE : ∀ exc s, s.failed = true → E exc s) : Triple P (os.send_data (.ok c)) (fun _ => Done cmd fq) E := by
  refine .of_exec fun s hs => ?_
  rcases send_data_exec os (.ok c) s with ⟨_, world, ⟨⟩, h⟩ | ⟨exc, s', h, hfailed⟩
  · refine .inl ⟨_, _, h, (hP s hs).imp_right fun ⟨hfq, hes, htoken, herr, hgood⟩ => ?_⟩
    exact ⟨⟨s.sent, c, rfl, hes, htoken, herr, hgood⟩, fun t ht => absurd (by rw [hfq]) ht⟩
  · exact .inr ⟨exc, s', h, hE exc s' hfailed⟩

/-- The answer to a request that has not failed. -/
theorem reply_spec {c : CMD} (href : ¬ Refused cmd fq) (htoken : c.token = cmd.token)
    (htype : c.type = goodReply cmd.type) :
    Triple (Going cmd fq) (os.send_data (.ok c)) (fun _ => Done cmd fq) (fun _ => Lost cmd fq) := by
  refine last_spec (fun s ⟨_, hfq, hlog, hes⟩ => .inr ⟨hfq, hes, htoken, fun h => ?_, fun _ => htype⟩)
    fun _ s h => .inl h
  exact absurd h (not_or.2 ⟨hlog, href⟩)

theorem refused_spec (href : Refused cmd fq) (reason exc : String) :
    Triple (Going cmd fq) (os.send_err full cmd reason exc) (fun _ => Done cmd fq) (fun _ => Lost cmd fq) := by
  refine last_spec (fun s ⟨_, hfq, _, hes⟩ => .inr ⟨hfq, hes, rfl, fun _ => rfl, fun h => ?_⟩) fun _ _ h => .inl h
  exact absurd (.inr href) h

/-- The `except` block. -/
theorem lost_spec (reason exc : String) :
    Triple (Lost cmd fq) (os.send_err full cmd reason exc) (fun _ => Done cmd fq) (fun _ s => s.failed = true) := by
  refine last_spec (fun s hs => hs.imp_right fun ⟨hfq, hlost, hes⟩ => ?_) fun _ _ h => h
  exact ⟨hfq, hes, rfl, fun _ => rfl, fun h => absurd hlost h⟩

theorem file_spec (hneeds : cmd.type = .FILEREAD ∨ cmd.type = .FILEDATA ∨ cmd.type = .FILESTAT) :
    Triple (Going cmd fq) (os.file cmd.token) (fun _ s => Going cmd fq s ∧ fq.get? cmd.token ≠ none)
      (fun _ => Lost cmd fq) := by
  refine .of_exec fun s ⟨hfailed, hfq, hlog, hes⟩ => ?_
  subst hfq
  simp only [file, Exec.ofFun_exec]
  cases hf : s.file_queues.get? cmd.token with
  | some f => exact .inl ⟨f, s, rfl, ⟨hfailed, rfl, hlog, hes⟩, by simp⟩
  | none => exact .inr ⟨_, s, rfl, .inr ⟨rfl, .inr (.inl ⟨hneeds, hf⟩), hes⟩⟩

/-! ### The branches -/

/-- `os.stat` never ends the loop. -/
theorem statEntry_spec (fullepath : PyText) (E : String → FileState σ φ → Prop) :
    Triple (Going cmd fq) (os.statEntry fullepath) (fun _ => Going cmd fq) E := by
  have hcall : Triple (Going cmd fq) (call .stat (os.stat fullepath)) (fun _ => Going cmd fq)
      (fun _ => Going cmd fq) := by
    refine .of_exec fun s ⟨hfailed, hfq, hlog, hes⟩ => ?_
    have hkept : ∀ b, ¬ ∃ k, k ≠ FileCall.stat ∧ (k, true) ∈ s.log ++ [(.stat, b)] :=
      fun b h => absurd rfl ((raised_append.1 h).resolve_left hlog).1
    simp only [call, Exec.ofFun_exec]
    cases hx : (os.stat fullepath).exec s.world with
    | mk r world =>
      cases r with
      | ok stat => exact .inl ⟨stat, _, rfl, hfailed, hfq, hkept false, hes⟩
      | error exc => exact .inr ⟨exc, _, rfl, hfailed, hfq, hkept true, hes⟩
  exact .tryCatch hcall fun exc => .pure fun s hs => hs

theorem fileEntry_eq_ok {token : Bytes} {root name : PyText} {is_dir : Bool} {stat : Stat} {c : CMD}
    (h : fileEntry token root name is_dir stat = .ok c) : c.type = .FILEENTRY ∧ c.token = token := by
  unfold fileEntry at h
  split at h
  · cases h
    exact ⟨rfl, rfl⟩
  · cases h

theorem sendEntry_spec (hcmd : cmd.type = .DIRLS) (root name : PyText) (is_dir : Bool) :
    Triple (Going cmd fq) (os.sendEntry cmd.token root is_dir name) (fun _ => Going cmd fq) (fun _ => Lost cmd fq) := by
  refine .bind (statEntry_spec _ _) fun stat => .of_exec fun s ⟨hfailed, hfq, hlog, hes⟩ => ?_
  rcases send_data_exec os (fileEntry cmd.token root name is_dir stat) s with ⟨c, world, hc, h⟩ | ⟨exc, s', h, hf⟩
  · refine .inl ⟨_, _, h, hfailed, hfq, hlog, fun _ => hcmd, fun m hm => ?_⟩
    rcases List.mem_append.1 hm with hm | hm
    · exact hes.2 m hm
    · cases List.mem_singleton.1 hm
      exact fileEntry_eq_ok hc
  · exact .inr ⟨exc, s', h, .inl hf⟩

theorem walkLoop_spec (hcmd : cmd.type = .DIRLS) (path : String) (raised : Option String) (entries : List WalkEntry) :
    Triple (Going cmd fq) (os.walkLoop cmd.token path raised entries) (fun _ => Going cmd fq)
      (fun _ => Lost cmd fq) := by
  induction entries with
  | nil =>
    cases raised with
    | none => exact .pure fun s hs => hs
    | some exc =>
      rw [walkLoop]
      exact call_spec (by decide) _
  | cons e rest ih =>
    rw [walkLoop]
    split
    · exact .pure fun s hs => hs
    · refine .bind (.forEach fun name _ => sendEntry_spec hcmd _ name _) fun _ => ?_
      exact .bind (.forEach fun name _ => sendEntry_spec hcmd _ name _) fun _ => ih

/-- One call, and `OK`. -/
theorem callOk_spec {k : FileCall} (hk : k ≠ .stat) (x : Exec σ String Unit) (href : ¬ Refused cmd fq)
    (hgood : goodReply cmd.type = .OK) :
    Triple (Going cmd fq) (do call k x; os.send_ok cmd : Exec (FileState σ φ) String Unit) (fun _ => Done cmd fq)
      (fun _ => Lost cmd fq) :=
  .bind (call_spec hk x) fun _ => reply_spec href rfl hgood.symm

theorem not_refused (h : cmd.type ∉ [.FILEREAD, .FILEDATA, .FILESTAT, .FILEOPEN, .FILEENTRY]) : ¬ Refused cmd fq := by
  rintro (⟨h' | h' | h', -⟩ | ⟨c, rfl, -⟩ | h')
  · exact h (by rw [h']; decide)
  · exact h (by rw [h']; decide)
  · exact h (by rw [h']; decide)
  · exact h (by simp [CMD.type])
  · exact h (by rw [h']; decide)

theorem not_refused_open {c : WSNFileOpen} (hmode : c.mode ∈ ["rb", "r", "wb", "w"]) :
    ¬ Refused (.FILEOPEN c) fq := by
  rintro (⟨h | h | h, -⟩ | ⟨_, ⟨⟩, h⟩ | h)
  · cases h
  · cases h
  · cases h
  · exact h hmode
  · cases h

/-- Making the entry of an opened file, and `CONTINUE`. -/
theorem opened_spec {c : WSNFileOpen} (hcmd : cmd = .FILEOPEN c) (hmode : c.mode ∈ ["rb", "r", "wb", "w"]) (f : φ) :
    Triple (Going cmd fq) (do
      Exec.update fun s => { s with file_queues := s.file_queues.set c.token f }
      os.send_continue cmd : Exec (FileState σ φ) String Unit) (fun _ => Done cmd fq) (fun _ => Lost cmd fq) := by
  have href : ¬ Refused cmd fq := by
    rw [hcmd]
    exact not_refused_open hmode
  refine .of_exec fun s ⟨hfailed, hfq, hlog, hes⟩ => ?_
  rw [Exec.bind_exec]
  rcases send_data_exec os (.ok (continueReply cmd.token)) { s with file_queues := s.file_queues.set c.token f } with
    ⟨_, world, ⟨⟩, h⟩ | ⟨exc, s', h, hf⟩
  · refine .inl ⟨_, _, h, .inr ⟨⟨s.sent, _, rfl, hes, rfl, ?_, ?_⟩, ?_⟩⟩
    · exact fun h => absurd h (not_or.2 ⟨hlog, href⟩)
    · exact fun _ => by rw [hcmd]; rfl
    · intro t ht
      have htoken : t = cmd.token := by
        by_contra hne
        exact ht (by rw [hfq, Dict.get?_set_ne _ _ (by rwa [hcmd] at hne)])
      exact ⟨by rw [hcmd]; rfl, htoken, not_or.2 ⟨hlog, href⟩⟩
  · exact .inr ⟨exc, s', h, .inl hf⟩

theorem fileOpen_spec (c : WSNFileOpen) :
    Triple (Going (.FILEOPEN c) fq) (os.fileOpen full c) (fun _ => Done (.FILEOPEN c) fq)
      (fun _ => Lost (.FILEOPEN c) fq) := by
  rw [fileOpen]
  split
  · exact .bind (call_spec (by decide) _) fun f => opened_spec rfl ‹_› f
  · exact refused_spec (.inr (.inl ⟨c, rfl, ‹_›⟩)) _ _

/-- With the file of the token at hand a request on it is not refused. -/
theorem onFile_spec {p : φ → Exec (FileState σ φ) String Unit}
    (hneeds : cmd.type = .FILEREAD ∨ cmd.type = .FILEDATA ∨ cmd.type = .FILESTAT)
    (hp : ∀ f, ¬ Refused cmd fq → Triple (Going cmd fq) (p f) (fun _ => Done cmd fq) (fun _ => Lost cmd fq)) :
    Triple (Going cmd fq) (os.file cmd.token >>= p) (fun _ => Done cmd fq) (fun _ => Lost cmd fq) := by
  refine .bind (file_spec hneeds) fun f => .of_pure fun hf => hp f ?_
  rintro (⟨-, h⟩ | ⟨c, rfl, -⟩ | h)
  · exact hf h
  · rcases hneeds with h | h | h <;> cases h
  · rw [h] at hneeds
    rcases hneeds with h | h | h <;> cases h

theorem tryProcess_spec (htype : 300 ≤ cmd.type.value ∧ cmd.type.value ≤ 312) :
    Triple (Going cmd fq) (os.tryProcess full cmd) (fun _ => Done cmd fq) (fun _ => Lost cmd fq) := by
  cases cmd with
  | DIRRM c => exact callOk_spec (by decide) _ (not_refused (by simp [CMD.type])) rfl
  | DIRMK c => exact callOk_spec (by decide) _ (not_refused (by simp [CMD.type])) rfl
  | DIRCOPY c => exact callOk_spec (by decide) _ (not_refused (by simp [CMD.type])) rfl
  | DIRMOVE c => exact callOk_spec (by decide) _ (not_refused (by simp [CMD.type])) rfl
  | FILECOPY c => exact callOk_spec (by decide) _ (not_refused (by simp [CMD.type])) rfl
  | FILEMOVE c => exact callOk_spec (by decide) _ (not_refused (by simp [CMD.type])) rfl
  | FILERM c => exact callOk_spec (by decide) _ (not_refused (by simp [CMD.type])) rfl
  | DIRLS c =>
    refine .bind (call_spec (by decide) _) fun r => .bind (walkLoop_spec rfl c.path r.2 r.1) fun _ => ?_
    exact reply_spec (not_refused (by simp [CMD.type])) rfl rfl
  | FILEOPEN c => exact fileOpen_spec c
  | FILEREAD c =>
    refine onFile_spec (.inl rfl) fun f href => .bind (call_spec (by decide) _) fun _ => ?_
    exact .bind (call_spec (by decide) _) fun data => .bind (call_spec (by decide) _) fun _ => reply_spec href rfl rfl
  | FILEDATA c =>
    refine onFile_spec (.inr (.inl rfl)) fun f href => .bind (call_spec (by decide) _) fun _ => ?_
    exact .bind (call_spec (by decide) _) fun _ => reply_spec href rfl rfl
  | FILESTAT c =>
    refine onFile_spec (.inr (.inr rfl)) fun f href => .bind (call_spec (by decide) _) fun _ => ?_
    exact .bind (call_spec (by decide) _) fun _ => reply_spec href rfl rfl
  | FILEENTRY c => exact refused_spec (.inr (.inr rfl)) _ _
  | _ => exact absurd htype (by simp [CMD.type, CMDType.value])

theorem process_fileop_spec (htype : 300 ≤ cmd.type.value ∧ cmd.type.value ≤ 312) :
    Triple (Going cmd fq) (os.process_fileop full cmd) (fun _ => Done cmd fq) (fun _ s => s.failed = true) :=
  .tryCatch (tryProcess_spec htype) fun exc => lost_spec _ exc

/-- Every file request is answered once, whatever the operating system does, as long as the messages can be sent. -/
theorem answered (os : FileSystem σ φ) (full : Bool) {cmd : CMD} (htype : 300 ≤ cmd.type.value ∧ cmd.type.value ≤ 312)
    (world : σ) (fq : Dict Bytes φ) (hsent : ((os.process_fileop full cmd).exec (start world fq)).2.failed = false) :
    ((os.process_fileop full cmd).exec (start world fq)).2.Answered cmd fq := by
  have hspec := (@process_fileop_spec σ φ os full cmd fq htype).run _ (going_start cmd world fq)
  cases hexec : (os.process_fileop full cmd).exec (start world fq) with
  | mk r s =>
    rw [hexec] at hsent hspec
    cases r with
    | ok u => exact hspec.resolve_left (by rw [hsent]; decide)
    | error exc => exact absurd (hspec.symm.trans hsent) (by decide)

/-- A file system on which every call returns, but for `os.stat` if `statRaises`; every directory has one file. -/
def idle (statRaises : Bool) : FileSystem Unit Unit where
  rmtree _ := pure ()
  makedirs _ := pure ()
  copytree _ _ := pure ()
  move _ _ := pure ()
  walk path := pure ([⟨.ofString path, [], [.ofString "a"]⟩], none)
  join root name := root ++ .ofString "/" ++ name
  stat _ := if statRaises then throw "PermissionError" else pure ⟨1, 2, 3, 4⟩
  copy _ _ := pure ()
  remove _ := pure ()
  open_ _ _ := pure ()
  seek _ _ := pure ()
  read _ _ := pure []
  tell _ := pure 0
  write _ _ := pure ()
  fileno _ := pure 3
  fstat _ := pure ⟨1, 2, 3, 4⟩
  send _ := pure ()
  format_exc _ := ""

/-- A file system on which every call raises. -/
def broken : FileSystem Unit Unit where
  rmtree _ := throw "OSError"
  makedirs _ := throw "OSError"
  copytree _ _ := throw "OSError"
  move _ _ := throw "OSError"
  walk _ := throw "OSError"
  join root name := root ++ .ofString "/" ++ name
  stat _ := throw "OSError"
  copy _ _ := throw "OSError"
  remove _ := throw "OSError"
  open_ _ _ := throw "OSError"
  seek _ _ := throw "OSError"
  read _ _ := throw "OSError"
  tell _ := throw "OSError"
  write _ _ := throw "OSError"
  fileno _ := throw "OSError"
  fstat _ := throw "OSError"
  send _ := pure ()
  format_exc _ := ""

/-- A request of each kind. -/
def requests (token : Bytes) : List CMD :=
  [.DIRLS ⟨token, "/tmp"⟩, .DIRMK ⟨token, "/tmp/a"⟩, .DIRRM ⟨token, "/tmp/a"⟩, .DIRCOPY ⟨token, "/tmp/a", "/tmp/b"⟩,
    .DIRMOVE ⟨token, "/tmp/a", "/tmp/b"⟩, .FILEOPEN ⟨token, "/tmp/f", "rb"⟩, .FILEREAD ⟨token, 5, 2⟩,
    .FILEDATA ⟨token, [1, 2], 7⟩, .FILEENTRY { token, root := "", name := "", is_dir := false },
    .FILECOPY ⟨token, "/tmp/f", "/tmp/g"⟩, .FILEMOVE ⟨token, "/tmp/f", "/tmp/g"⟩, .FILERM ⟨token, "/tmp/f"⟩,
    .FILESTAT ⟨token⟩]

/-- With an open file, where all goes well but `os.stat` and where nothing does. -/
theorem answered_requests :
    (∀ cmd ∈ requests (List.replicate 16 1),
      (((idle true).process_fileop true cmd).exec (start () (Dict.empty.set (List.replicate 16 1) ()))).2.Answered cmd
        (Dict.empty.set (List.replicate 16 1) ())) ∧
    ∀ cmd ∈ requests (List.replicate 16 1),
      ((broken.process_fileop true cmd).exec (start () (Dict.empty.set (List.replicate 16 1) ()))).2.Answered cmd
        (Dict.empty.set (List.replicate 16 1) ()) := by
  have htype : ∀ cmd ∈ requests (List.replicate 16 1), 300 ≤ cmd.type.value ∧ cmd.type.value ≤ 312 := by decide
  constructor
  · intro cmd hcmd
    refine answered (idle true) true (htype cmd hcmd) () _ ?_
    revert cmd
    decide +kernel
  · intro cmd hcmd
    refine answered broken true (htype cmd hcmd) () _ ?_
    revert cmd
    decide +kernel

/-- `os.stat` raises for the only file of a directory, and the request is answered with `OK`. -/
theorem not_err_of_raised : ¬ ∀ (os : FileSystem Unit Unit) (full : Bool) (cmd : CMD),
    (300 ≤ cmd.type.value ∧ cmd.type.value ≤ 312) →
    ((os.process_fileop full cmd).exec (start () Dict.empty)).2.failed = false →
    (∃ k, (k, true) ∈ ((os.process_fileop full cmd).exec (start () Dict.empty)).2.log) →
    ∃ es last, ((os.process_fileop full cmd).exec (start () Dict.empty)).2.sent = es ++ [last] ∧ last.type = .ERR := by
  intro h
  obtain ⟨es, last, hsent, hlast⟩ := h (idle true) true (.DIRLS ⟨List.replicate 16 1, "/tmp"⟩) (by decide)
    (by decide +kernel) ⟨.stat, by decide +kernel⟩
  have hok : (((idle true).process_fileop true (.DIRLS ⟨List.replicate 16 1, "/tmp"⟩)).exec
      (start () Dict.empty)).2.sent.getLast?.map CMD.type = some .OK := by decide +kernel
  rw [hsent, List.getLast?_concat, Option.map_some, hlast] at hok
  cases hok

end FileSystem

end Wsnet
