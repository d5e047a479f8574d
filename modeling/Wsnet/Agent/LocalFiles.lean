import Wsnet.Agent.Link
import Wsnet.Agent.Listing

/-!
# The file operations as calls on the agent's machine

What the operations without an open file are to somebody who sits at the agent's machine: a call, and for DIRLS the
entries of the directory. An entry counts as unreadable if its numbers or texts have no place in a frame.
`process_fileop` makes the same calls in the same order and sends what they return (`Op.answers`).
-/

namespace Wsnet

/-- `os.path.join` -/
def joinPath (root name : String) : String :=
  if name.toList.head? = some '/' then name
  else if root = "" ∨ root.toList.getLast? = some '/' then root ++ name
  else root ++ "/" ++ name

/-- What `to_dict` makes of an entry. -/
structure FileDict where
  root : String
  name : String
  is_dir : Bool
  fullpath : String
  size : Int
  atime : Int
  mtime : Int
  ctime : Int
  deriving DecidableEq, Repr

def WSNFileEntry.to_dict (e : WSNFileEntry) : FileDict where
  root := e.root
  name := e.name
  is_dir := e.is_dir
  fullpath := joinPath e.root e.name
  size := e.size
  atime := e.atime
  mtime := e.mtime
  ctime := e.ctime

/-- The operations on paths. -/
inductive Op
  | ls (path : String)
  | rmdir (path : String)
  | mkdir (path : String)
  | copydir (srcpath dstpath : String)
  | movedir (srcpath dstpath : String)
  | copyfile (srcpath dstpath : String)
  | movefile (srcpath dstpath : String)
  | removefile (path : String)
  deriving DecidableEq, Repr

/-- The request. -/
def Op.cmd (token : Bytes) : Op → CMD
  | ls path => .DIRLS ⟨token, path⟩
  | rmdir path => .DIRRM ⟨token, path⟩
  | mkdir path => .DIRMK ⟨token, path⟩
  | copydir srcpath dstpath => .DIRCOPY ⟨token, srcpath, dstpath⟩
  | movedir srcpath dstpath => .DIRMOVE ⟨token, srcpath, dstpath⟩
  | copyfile srcpath dstpath => .FILECOPY ⟨token, srcpath, dstpath⟩
  | movefile srcpath dstpath => .FILEMOVE ⟨token, srcpath, dstpath⟩
  | removefile path => .FILERM ⟨token, path⟩

namespace FileSystem
variable {σ φ : Type}

section Local
variable (os : FileSystem σ φ)

/-- An unsigned number of eight bytes. -/
def EightBytes (n : Int) : Prop := 0 ≤ n ∧ n < 2 ^ 64

instance (n : Int) : Decidable (EightBytes n) := inferInstanceAs (Decidable (_ ∧ _))

/-- The entry of a name, unless a text is none or a number is too large. -/
def dictOf (root name : PyText) (is_dir : Bool) (stat : Stat) : Option FileDict :=
  match root.text?, name.text? with
  | some root, some name =>
    let e := entry [] root name is_dir stat
    if 63 + (utf8Encode root).length + (utf8Encode name).length < 2 ^ 32 ∧ EightBytes e.size ∧ EightBytes e.atime ∧
        EightBytes e.mtime ∧ EightBytes e.ctime then some e.to_dict
    else none
  | _, _ => none

def readEntry (root : PyText) (is_dir : Bool) (name : PyText) : Exec σ String (List FileDict) := do
  let stat ← tryCatch (os.stat (os.join root name)) fun _ => pure ⟨0, 0, 0, 0⟩
  match dictOf root name is_dir stat with
  | some d => pure [d]
  | none => throw ""

def readEntries (root : PyText) (is_dir : Bool) : List PyText → Exec σ String (List FileDict)
  | [] => pure []
  | name :: names => do
    let d ← os.readEntry root is_dir name
    let ds ← readEntries root is_dir names
    pure (d ++ ds)

/-- The files and then the directories of each part of the walk that is about the path itself. -/
def readWalk (path : String) (raised : Option String) : List WalkEntry → Exec σ String (List FileDict)
  | [] =>
    match raised with
    | some exc => throw exc
    | none => pure []
  | e :: rest =>
    if e.root ≠ .ofString path then pure []
    else do
      let files ← os.readEntries e.root false e.files
      let dirs ← os.readEntries e.root true e.dirs
      let more ← readWalk path raised rest
      pure (files ++ (dirs ++ more))

def readDir (path : String) : Exec σ String (List FileDict) := do
  let (entries, raised) ← os.walk path
  os.readWalk path raised entries

/-- The operation on the machine itself. -/
def perform : Op → Exec σ String (List FileDict)
  | .ls path => os.readDir path
  | .rmdir path => do os.rmtree path; pure []
  | .mkdir path => do os.makedirs path; pure []
  | .copydir srcpath dstpath => do os.copytree srcpath dstpath; pure []
  | .movedir srcpath dstpath => do os.move srcpath dstpath; pure []
  | .copyfile srcpath dstpath => do os.copy srcpath dstpath; pure []
  | .movefile srcpath dstpath => do os.move srcpath dstpath; pure []
  | .removefile path => do os.remove path; pure []

end Local

/-! ### What the agent sends -/

/-- Messages that tell the entries, as they arrive. -/
inductive Tell : List FileDict → List CMD → Prop
  | nil : Tell [] []
  | cons {e : WSNFileEntry} {b : Bytes} {ds : List FileDict} {cs : List CMD} (hb : (CMD.FILEENTRY e).toBytes = .ok b)
    (hread : CMD.fromBytes b = .ok (.FILEENTRY e)) (h : Tell ds cs) : Tell (e.to_dict :: ds) (.FILEENTRY e :: cs)

theorem Tell.append {ds ds' : List FileDict} {cs cs' : List CMD} (h : Tell ds cs) (h' : Tell ds' cs') :
    Tell (ds ++ ds') (cs ++ cs') := by
  induction h with
  | nil => exact h'
  | cons hb hread _ ih => exact .cons hb hread ih

theorem frames_entry {token : Bytes} (ht : token.length = 16) {root name : String} {is_dir : Bool} {stat : Stat}
    (hlen : 63 + (utf8Encode root).length + (utf8Encode name).length < 2 ^ 32)
    (hsize : EightBytes (entry token root name is_dir stat).size) (hatime : EightBytes stat.st_atime_ns)
    (hmtime : EightBytes stat.st_mtime_ns) (hctime : EightBytes stat.st_ctime_ns) :
    ∃ b, (CMD.FILEENTRY (entry token root name is_dir stat)).toBytes = .ok b ∧
      CMD.fromBytes b = .ok (.FILEENTRY (entry token root name is_dir stat)) := by
  have hw : ∀ f ∈ (CMD.FILEENTRY (entry token root name is_dir stat)).fields, f.InWidth := by
    simp only [CMD.fields, WSNFileEntry.fields, List.forall_mem_cons]
    exact ⟨rfl, trivial, trivial, rfl, hsize, hatime, hmtime, hctime, fun _ h => absurd h List.not_mem_nil⟩
  have hsup : (CMD.FILEENTRY (entry token root name is_dir stat)).Supported :=
    ⟨by simp [CMD.type, CMD.lossy], ht, trivial, hw⟩
  obtain ⟨b, hb, hread, -⟩ := CMD.fromBytes_toBytes hsup (by rw [frameLength_entry ht]; exact hlen)
  exact ⟨b, hb, hread⟩

/-- An entry that can be read is sent, and no other can be. -/
theorem fileEntry_dictOf {token : Bytes} (ht : token.length = 16) (root name : PyText) (is_dir : Bool) (stat : Stat) :
    match dictOf root name is_dir stat with
    | some d => ∃ e b, fileEntry token root name is_dir stat = .ok (.FILEENTRY e) ∧ e.to_dict = d ∧
        (CMD.FILEENTRY e).toBytes = .ok b ∧ CMD.fromBytes b = .ok (.FILEENTRY e)
    | none => ¬ ∃ c b, fileEntry token root name is_dir stat = .ok c ∧ c.toBytes = .ok b := by
  unfold dictOf fileEntry
  cases root.text? with
  | none => rintro ⟨c, b, hc, -⟩; cases hc
  | some r =>
    cases name.text? with
    | none => rintro ⟨c, b, hc, -⟩; cases hc
    | some n =>
      by_cases hfit : 63 + (utf8Encode r).length + (utf8Encode n).length < 2 ^ 32 ∧
          EightBytes (entry [] r n is_dir stat).size ∧ EightBytes (entry [] r n is_dir stat).atime ∧
            EightBytes (entry [] r n is_dir stat).mtime ∧ EightBytes (entry [] r n is_dir stat).ctime
      · simp only [if_pos hfit]
        obtain ⟨hlen, hsize, hatime, hmtime, hctime⟩ := hfit
        obtain ⟨b, hb, hread⟩ := frames_entry ht hlen hsize hatime hmtime hctime
        exact ⟨_, b, rfl, rfl, hb, hread⟩
      · simp only [if_neg hfit]
        rintro ⟨c, b, hc, hb⟩
        cases hc
        have hlen := CMD.frameLength_lt hb
        rw [frameLength_entry ht] at hlen
        obtain ⟨hatime, hmtime, hctime⟩ := times_of_toBytes hb
        obtain ⟨body, hw, -, -⟩ := CMD.toBytes_eq_ok.1 hb
        obtain ⟨x, hx⟩ := write_of_writeFields hw
          (show Field.int (entry token r n is_dir stat).size 8 ∈ (CMD.FILEENTRY (entry token r n is_dir stat)).fields by
            simp [CMD.fields, WSNFileEntry.fields])
        exact hfit ⟨hlen, (intToBytes_eq_ok.1 hx).1, hatime, hmtime, hctime⟩

/-- From the world `w` the part `p` of the agent does to the world what `q` does, and sends what `q` returns; where
`q` raises, `p` does so too and has sent some entries. -/
def Tells (p : Exec (FileState σ φ) String Unit) (q : Exec σ String (List FileDict)) : Prop :=
  ∀ s, match q.exec s.world with
    | (.ok ds, w) => ∃ s' cs, p.exec s = (.ok (), s') ∧ s'.world = w ∧ s'.file_queues = s.file_queues ∧
        s'.sent = s.sent ++ cs ∧ Tell ds cs
    | (.error _, w) => ∃ exc s' ds cs, p.exec s = (.error exc, s') ∧ s'.world = w ∧
        s'.file_queues = s.file_queues ∧ s'.sent = s.sent ++ cs ∧ Tell ds cs

section Tells
variable {os : FileSystem σ φ} {p p' : Exec (FileState σ φ) String Unit} {q q' : Exec σ String (List FileDict)}
  {token : Bytes}

theorem Tells.pure : Tells (pure () : Exec (FileState σ φ) String Unit) (pure []) :=
  fun s => ⟨s, [], rfl, rfl, rfl, (List.append_nil _).symm, .nil⟩

/-- A call that returns or raises, on both sides. -/
theorem Tells.call {α : Type} {x : Exec σ String α} (k : FileCall) {f : α → Exec (FileState σ φ) String Unit}
    {g : α → Exec σ String (List FileDict)} (h : ∀ a, Tells (f a) (g a)) : Tells (call k x >>= f) (x >>= g) := by
  intro s
  rw [Exec.bind_exec]
  cases hx : x.exec s.world with
  | mk r w =>
    cases r with
    | error exc =>
      have hcall : (Wsnet.call k x).exec s = (.error exc, { s with world := w, log := s.log ++ [(k, true)] }) := by
        simp only [Wsnet.call, Exec.ofFun_exec, hx]
      exact ⟨exc, _, [], [], Exec.bind_of_error hcall f, rfl, rfl, (List.append_nil _).symm, .nil⟩
    | ok a =>
      have hcall : (Wsnet.call k x).exec s = (.ok a, { s with world := w, log := s.log ++ [(k, false)] }) := by
        simp only [Wsnet.call, Exec.ofFun_exec, hx]
      have ha := h a { s with world := w, log := s.log ++ [(k, false)] }
      rw [Exec.bind_of_ok hcall]
      exact ha

theorem Tells.append (h : Tells p q) (h' : Tells p' q') :
    Tells (do p; p') (do let ds ← q; let ds' ← q'; Pure.pure (ds ++ ds')) := by
  intro s
  have hs := h s
  rw [Exec.bind_exec]
  cases hq : q.exec s.world with
  | mk r w =>
    rw [hq] at hs
    cases r with
    | error exc =>
      obtain ⟨exc', s', ds, cs, hp, hw, hfq, hsent, htell⟩ := hs
      exact ⟨exc', s', ds, cs, Exec.bind_of_error hp _, hw, hfq, hsent, htell⟩
    | ok ds =>
      obtain ⟨s₁, cs, hp, hw, hfq, hsent, htell⟩ := hs
      have hs₁ := h' s₁
      rw [hw] at hs₁
      simp only [Exec.bind_exec, hp]
      cases hq' : q'.exec w with
      | mk r' w' =>
        rw [hq'] at hs₁
        cases r' with
        | error exc =>
          obtain ⟨exc', s₂, ds', cs', hp', hw', hfq', hsent', htell'⟩ := hs₁
          refine ⟨exc', s₂, ds ++ ds', cs ++ cs', hp', hw', hfq'.trans hfq, ?_,
            htell.append htell'⟩
          rw [hsent', hsent, List.append_assoc]
        | ok ds' =>
          obtain ⟨s₂, cs', hp', hw', hfq', hsent', htell'⟩ := hs₁
          refine ⟨s₂, cs ++ cs', hp', hw', hfq'.trans hfq, ?_, htell.append htell'⟩
          rw [hsent', hsent, List.append_assoc]

variable (hsend : ∀ b w, (os.send b).exec w = (.ok (), w)) (ht : token.length = 16)
include hsend

/-- A message that has a frame is sent, and changes nothing. -/
theorem send_data_pure {c : CMD} {b : Bytes} (hb : c.toBytes = .ok b) (s : FileState σ φ) :
    (os.send_data (.ok c)).exec s = (.ok (), { s with sent := s.sent ++ [c] }) := by
  have hr : ((.ok c : Except PyErr CMD).bind fun c => c.toBytes.map (c, ·)) = .ok (c, b) := by
    simp only [Except.bind, hb, Except.map]
  simp only [send_data, Exec.ofFun_exec, hr, hsend]

include ht

theorem tells_sendEntry (root : PyText) (is_dir : Bool) (name : PyText) :
    Tells (os.sendEntry token root is_dir name) (os.readEntry root is_dir name) := by
  intro s
  -- the numbers, and the state behind `os.stat`, are the same on both sides
  obtain ⟨stat, w, log, hq, hp⟩ : ∃ stat w log,
      (tryCatch (os.stat (os.join root name)) fun _ => Pure.pure ⟨0, 0, 0, 0⟩).exec s.world = (.ok stat, w) ∧
        (os.statEntry (os.join root name)).exec s = (.ok stat, { s with world := w, log }) := by
    rw [Exec.tryCatch_exec, statEntry, Exec.tryCatch_exec]
    simp only [Wsnet.call, Exec.ofFun_exec]
    cases (os.stat (os.join root name)).exec s.world with
    | mk r w => cases r <;> exact ⟨_, w, _, rfl, rfl⟩
  have hentry := fileEntry_dictOf ht root name is_dir stat
  simp only [readEntry, sendEntry]
  rw [Exec.bind_of_ok hq, Exec.bind_of_ok hp]
  cases hd : dictOf root name is_dir stat with
  | some d =>
    rw [hd] at hentry
    obtain ⟨e, b, he, rfl, hb, hread⟩ := hentry
    rw [he, send_data_pure hsend hb]
    exact ⟨_, [.FILEENTRY e], rfl, rfl, rfl, rfl, .cons hb hread .nil⟩
  | none =>
    rw [hd] at hentry
    obtain ⟨exc, hx⟩ := send_data_error os hentry { s with world := w, log }
    rw [hx]
    exact ⟨exc, _, [], [], rfl, rfl, rfl, (List.append_nil _).symm, .nil⟩

theorem tells_forEach (root : PyText) (is_dir : Bool) (names : List PyText) :
    Tells (Exec.forEach (os.sendEntry token root is_dir) names) (os.readEntries root is_dir names) := by
  induction names with
  | nil => exact .pure
  | cons name names ih => exact .append (tells_sendEntry hsend ht root is_dir name) ih

theorem tells_walkLoop (path : String) (raised : Option String) (entries : List WalkEntry) :
    Tells (os.walkLoop token path raised entries) (os.readWalk path raised entries) := by
  induction entries with
  | nil =>
    cases raised with
    | none => exact .pure
    | some exc =>
      intro s
      exact ⟨exc, _, [], [], rfl, rfl, rfl, (List.append_nil _).symm, .nil⟩
  | cons e rest ih =>
    rw [walkLoop, readWalk]
    split
    · exact .pure
    · have hdirs := Tells.append (tells_forEach hsend ht e.root true e.dirs) ih
      have hall := Tells.append (tells_forEach hsend ht e.root false e.files) hdirs
      simpa only [bind_assoc, pure_bind] using hall

/-- What is sent for a request whose operation ends with the result `r`. -/
inductive Answers (full : Bool) (token : Bytes) : Except String (List FileDict) → List CMD → Prop
  | ok {ds : List FileDict} {es : List CMD} (h : Tell ds es) : Answers full token (.ok ds) (es ++ [okReply token])
  | failed {exc : String} {ds : List FileDict} {es : List CMD} (h : Tell ds es) (reason extra : String) :
    Answers full token (.error exc) (es ++ [errReply full token reason extra])
  /-- the `ERR` cannot be encoded -/
  | silent {exc : String} {ds : List FileDict} {es : List CMD} (h : Tell ds es) : Answers full token (.error exc) es

omit ht in
/-- The branch of an operation, with the `except` block. -/
theorem answers_of_tells (full : Bool) {cmd : CMD} (ht : cmd.token.length = 16) (h : Tells p q)
    (hcmd : os.tryProcess full cmd = do p; os.send_ok cmd) (w : σ) (fq : Dict Bytes φ) :
    ((os.process_fileop full cmd).exec (.start w fq)).2.world = (q.exec w).2 ∧
      ((os.process_fileop full cmd).exec (.start w fq)).2.file_queues = fq ∧
        Answers full cmd.token (q.exec w).1 ((os.process_fileop full cmd).exec (.start w fq)).2.sent := by
  have hs := h (.start w fq)
  rw [process_fileop, hcmd]
  cases hq : q.exec w with
  | mk r w' =>
    rw [show (FileState.start w fq).world = w from rfl, hq] at hs
    cases r with
    | ok ds =>
      obtain ⟨s', cs, hp, hw, hfq, hsent, htell⟩ := hs
      obtain ⟨b, hb⟩ := toBytes_okReply ht
      have hok : (os.send_ok cmd).exec s' = (.ok (), { s' with sent := s'.sent ++ [okReply cmd.token] }) :=
        send_data_pure hsend hb s'
      rw [Exec.tryCatch_of_ok ((Exec.bind_of_ok hp fun _ => os.send_ok cmd).trans hok)]
      refine ⟨hw, hfq, ?_⟩
      show Answers full cmd.token (.ok ds) (s'.sent ++ [okReply cmd.token])
      rw [hsent]
      exact .ok htell
    | error exc =>
      obtain ⟨exc', s', ds, cs, hp, hw, hfq, hsent, htell⟩ := hs
      rw [Exec.tryCatch_of_error (Exec.bind_of_error hp fun _ => os.send_ok cmd), send_err]
      have hsent' : s'.sent = cs := hsent
      cases hb : (errReply full cmd.token (fileOpFailed cmd.type) exc').toBytes with
      | ok b =>
        rw [send_data_pure hsend hb]
        refine ⟨hw, hfq, ?_⟩
        show Answers full cmd.token (.error exc) (s'.sent ++ [_])
        rw [hsent']
        exact .failed htell _ _
      | error e =>
        have hnone : ¬ ∃ c b, (.ok (errReply full cmd.token (fileOpFailed cmd.type) exc') : Except PyErr CMD) = .ok c ∧
            c.toBytes = .ok b := by
          rintro ⟨c, b, hc, hb'⟩
          rw [← Except.ok.inj hc, hb] at hb'
          cases hb'
        obtain ⟨exc'', hx⟩ := send_data_error os hnone s'
        rw [hx]
        refine ⟨hw, hfq, ?_⟩
        show Answers full cmd.token (.error exc) s'.sent
        rw [hsent']
        exact .silent htell

/-- `process_fileop` does to the world what the operation does, and sends what it returns. -/
theorem answers (full : Bool) (op : Op) (w : σ) (fq : Dict Bytes φ) :
    ((os.process_fileop full (op.cmd token)).exec (.start w fq)).2.world = ((os.perform op).exec w).2 ∧
      ((os.process_fileop full (op.cmd token)).exec (.start w fq)).2.file_queues = fq ∧
        Answers full token ((os.perform op).exec w).1
          ((os.process_fileop full (op.cmd token)).exec (.start w fq)).2.sent := by
  have hcall : ∀ {k : FileCall} {x : Exec σ String Unit} {cmd : CMD}, cmd.token = token →
      (os.tryProcess full cmd = do call k x; os.send_ok cmd) →
      ((os.process_fileop full cmd).exec (.start w fq)).2.world =
          ((do x; Pure.pure [] : Exec σ String (List FileDict)).exec w).2 ∧
        ((os.process_fileop full cmd).exec (.start w fq)).2.file_queues = fq ∧
          Answers full token ((do x; Pure.pure [] : Exec σ String (List FileDict)).exec w).1
            ((os.process_fileop full cmd).exec (.start w fq)).2.sent := by
    rintro k x cmd rfl hcmd
    refine answers_of_tells hsend full ht (.call k fun _ => .pure) ?_ w fq
    rw [hcmd]
    simp only [bind_assoc, pure_bind]
  cases op with
  | ls path =>
    have htells : Tells (call .walk (os.walk path) >>= fun r => os.walkLoop token path r.2 r.1)
        (os.perform (.ls path)) := .call .walk fun r => tells_walkLoop hsend ht path r.2 r.1
    have hcmd : os.tryProcess full (.DIRLS ⟨token, path⟩) =
        (call .walk (os.walk path) >>= fun r => os.walkLoop token path r.2 r.1) >>= fun _ =>
          os.send_ok (.DIRLS ⟨token, path⟩) := by
      rw [bind_assoc]
      rfl
    exact answers_of_tells hsend full (show (CMD.DIRLS ⟨token, path⟩).token.length = 16 from ht) htells hcmd w fq
  | rmdir path => exact hcall rfl rfl
  | mkdir path => exact hcall rfl rfl
  | copydir srcpath dstpath => exact hcall rfl rfl
  | movedir srcpath dstpath => exact hcall rfl rfl
  | copyfile srcpath dstpath => exact hcall rfl rfl
  | movefile srcpath dstpath => exact hcall rfl rfl
  | removefile path => exact hcall rfl rfl

end Tells

end FileSystem

end Wsnet
