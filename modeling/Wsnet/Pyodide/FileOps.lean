import Wsnet.Agent.LocalFiles
import Wsnet.Pyodide.File

/-!
# File operations from the other side

Each method of `WSNETFileOps` opens a session with a token of its own, sends one request, and reads replies up to the
last. A `Call` is such a session; `inTime` says how many of the replies come before `recv` gives up. The tables of the
agent know none of the tokens.
-/

namespace Wsnet.Pyodide.WSNETFileOps

structure Call where
  token : Bytes
  op : Op
  inTime : Option Nat := none
  deriving DecidableEq, Repr

/-- The token is one, and the request has a frame. -/
structure Call.Fits (c : Call) : Prop where
  token : c.token.length = 16
  frame : (c.op.cmd c.token).frameLength < 2 ^ 32

/-- `while True`, until the `OK` -/
def awaitOk : List Bytes → Except PyErr Unit
  | [] => .error timeoutError
  | b :: bs =>
    match CMD.fromBytes b with
    | .error e => .error e
    | .ok (.ERR c) => .error (.exception c.reason)
    | .ok (.OK _) => .ok ()
    | .ok _ => awaitOk bs

/-- The loop of `ls` -/
def awaitEntries (entries : List FileDict) : List Bytes → Except PyErr (List FileDict)
  | [] => .error timeoutError
  | b :: bs =>
    match CMD.fromBytes b with
    | .error e => .error e
    | .ok (.ERR c) => .error (.exception c.reason)
    | .ok (.OK _) => .ok entries
    | .ok (.FILEENTRY c) => awaitEntries (entries ++ [c.to_dict]) bs
    | .ok _ => awaitEntries entries bs

/-- What `walk` yields, and the exception it yields in the end. -/
def yielded : List Bytes → List WSNFileEntry × Option PyErr
  | [] => ([], some timeoutError)
  | b :: bs =>
    match CMD.fromBytes b with
    | .error e => ([], some e)
    | .ok (.ERR c) => ([], some (.exception c.reason))
    | .ok (.OK _) => ([], none)
    | .ok (.FILEENTRY c) => (c :: (yielded bs).1, (yielded bs).2)
    | .ok _ => yielded bs

section Calls
variable {σ φ : Type} (os : FileSystem σ φ) (full : Bool) (file_queues : Dict Bytes φ)

/-- `session.send(cmd)`, with what the agent makes of it and the replies that come in time. -/
def exchange (inTime : Option Nat) (cmd : CMD) : Exec σ PyErr (List Bytes) := .ofFun fun w =>
  match cmd.toBytes with
  | .error e => (.error e, w)
  | .ok b =>
    match CMD.fromBytes b with
    | .ok c =>
      if 300 ≤ c.type.value ∧ c.type.value < 320 then
        let s := ((os.process_fileop full c).exec (.start w file_queues)).2
        (.ok (match inTime with | none => frames s.sent | some n => (frames s.sent).take n), s.world)
      else (.ok [], w)
    | .error _ => (.ok [], w)

/-- The operations that return `True, None`, or `None` and an exception. -/
def request (cmd : Bytes → CMD) (c : Call) : Exec σ PyErr Unit := do
  let bs ← exchange os full file_queues c.inTime (cmd c.token)
  liftM (awaitOk bs)

def rmdir (path : String) := request os full file_queues fun token => .DIRRM ⟨token, path⟩
def mkdir (path : String) := request os full file_queues fun token => .DIRMK ⟨token, path⟩
def copydir (srcpath dstpath : String) := request os full file_queues fun token => .DIRCOPY ⟨token, srcpath, dstpath⟩
def movedir (srcpath dstpath : String) := request os full file_queues fun token => .DIRMOVE ⟨token, srcpath, dstpath⟩
def copyfile (srcpath dstpath : String) := request os full file_queues fun token => .FILECOPY ⟨token, srcpath, dstpath⟩
def movefile (srcpath dstpath : String) := request os full file_queues fun token => .FILEMOVE ⟨token, srcpath, dstpath⟩
def removefile (path : String) := request os full file_queues fun token => .FILERM ⟨token, path⟩

/-- `ls`, before `json.dumps` -/
def ls (path : String) (c : Call) : Exec σ PyErr (List FileDict) := do
  let bs ← exchange os full file_queues c.inTime (.DIRLS ⟨c.token, path⟩)
  liftM (awaitEntries [] bs)

def walk (path : String) (c : Call) (w : σ) : (List WSNFileEntry × Option PyErr) × σ :=
  (match ((exchange os full file_queues c.inTime (.DIRLS ⟨c.token, path⟩)).exec w).1 with
    | .ok bs => yielded bs
    | .error e => ([], some e),
  ((exchange os full file_queues c.inTime (.DIRLS ⟨c.token, path⟩)).exec w).2)

end Calls

section Loops
variable {entries : List FileDict} {bs : List Bytes}

/-- `walk` yields what `ls` returns. -/
theorem awaitEntries_eq : awaitEntries entries bs =
    match yielded bs with
    | (es, none) => .ok (entries ++ es.map WSNFileEntry.to_dict)
    | (_, some e) => .error e := by
  induction bs generalizing entries with
  | nil => rfl
  | cons b bs ih =>
    rw [awaitEntries, yielded]
    split <;> try rfl
    · exact congrArg Except.ok (List.append_nil entries).symm
    · rw [ih]
      cases h : yielded bs with
      | mk es err => cases err <;> simp
    · exact ih

end Loops

/-! ### The replies -/

section Replies
variable {full : Bool} {token : Bytes} {ds : List FileDict} {cs : List CMD} {r : Except String (List FileDict)}

end Replies

/-! ### The calls -/

section Calls
variable {σ φ : Type} {os : FileSystem σ φ} {full : Bool} {file_queues : Dict Bytes φ}

theorem liftM_exec {α : Type} (x : Except PyErr α) (w : σ) : (liftM x : Exec σ PyErr α).exec w = (x, w) := by
  cases x <;> rfl

theorem exchange_bind {α : Type} (f : List Bytes → Except PyErr α) (inTime : Option Nat) (cmd : CMD) (w : σ) :
    (exchange os full file_queues inTime cmd >>= fun bs => liftM (f bs) : Exec σ PyErr α).exec w =
      (((exchange os full file_queues inTime cmd).exec w).1.bind f,
        ((exchange os full file_queues inTime cmd).exec w).2) := by
  rw [Exec.bind_exec]
  generalize (exchange os full file_queues inTime cmd).exec w = x
  obtain ⟨_ | bs, w'⟩ := x
  · rfl
  · exact liftM_exec _ _

theorem ls_exec (path : String) (c : Call) (w : σ) : (ls os full file_queues path c).exec w =
    (((exchange os full file_queues c.inTime (.DIRLS ⟨c.token, path⟩)).exec w).1.bind (awaitEntries []),
      ((exchange os full file_queues c.inTime (.DIRLS ⟨c.token, path⟩)).exec w).2) :=
  exchange_bind _ _ _ _

/-- `walk` yields the entries that `ls` returns. -/
theorem ls_walk (path : String) (c : Call) (w : σ) :
    (ls os full file_queues path c).exec w =
      (match (walk os full file_queues path c w).1 with
        | (es, none) => .ok (es.map WSNFileEntry.to_dict)
        | (_, some e) => .error e,
      (walk os full file_queues path c w).2) := by
  rw [ls_exec, walk]
  generalize (exchange os full file_queues c.inTime (.DIRLS ⟨c.token, path⟩)).exec w = x
  obtain ⟨_ | bs, w'⟩ := x
  · rfl
  · exact congrArg (·, w') (@awaitEntries_eq [] bs)

variable (hsend : ∀ b w, (os.send b).exec w = (.ok (), w))
include hsend

/-- What is reported is what has happened on the agent's machine. -/
structure Agrees (c : Call) (r : Except PyErr (List FileDict)) (l : Except String (List FileDict)) : Prop where
  sound : ∀ ds, r = .ok ds → l = .ok ds
  complete : c.inTime = none → ∀ ds, l = .ok ds → r = .ok ds

omit hsend in
theorem Agrees.nil {c : Call} {r : Except PyErr (List FileDict)} {l : Except String (List FileDict)} (h : Agrees c r l)
    (hnil : ∀ ds, l = .ok ds → ds = []) : Agrees c (r.map fun _ => []) l := by
  refine ⟨fun ds hds => ?_, fun hall ds hds => ?_⟩
  · obtain ⟨ds', hr, rfl⟩ := except_map_eq_ok.1 hds
    have hl := h.sound ds' hr
    rwa [hnil ds' hl] at hl
  · rw [h.complete hall ds hds, hnil ds hds]
    rfl

end Calls

end Wsnet.Pyodide.WSNETFileOps
