import Wsnet.Protocol.Kept

/-!
# Frames over an SMB pipe

Both `WSNETSMBPipe.recv` read four bytes and then as many as these say. The length of a frame counts
its own four bytes, so this takes the frame and the first four bytes of what follows it
(`readFrame_toBytes_append`). With one frame in the pipe the second read is short and nothing is
noticed; from two frames on the reader is out of step (`recovers_iff`).
-/

namespace Wsnet

/-- `pipe.read(k)`: the next `k` bytes, or what is there. -/
def pipeRead (k : Nat) (pipe : Bytes) : Bytes × Bytes := (pipe.take k, pipe.drop k)

/-- The two reads of a `recv`, and what they leave in the pipe. -/
def readFrame (pipe : Bytes) : Bytes × Bytes :=
  let (lenRaw, pipe) := pipeRead 4 pipe
  let (data, pipe) := pipeRead (beNat lenRaw) pipe
  (lenRaw ++ data, pipe)

/-- `wsserversmbpipe.WSNETSMBPipe.recv` -/
def WsServerSmbPipe.recv (pipe : Bytes) : Bytes × Bytes := readFrame pipe

namespace PipeSocks

/-- The loop of `pipesocks.WSNETSMBPipe.recv`: a `NOP` is skipped, an exception ends it with `None`. -/
def recvLoop : Nat → Bytes → Option (Option CMD × Bytes)
  | 0, _ => none
  | fuel + 1, pipe =>
    let (data, pipe) := readFrame pipe
    match CMD.fromBytes data with
    | .error _ => some (none, pipe)
    | .ok cmd => if cmd.type = .NOP then recvLoop fuel pipe else some (some cmd, pipe)

theorem readFrame_nil : readFrame [] = ([], []) := rfl

theorem length_readFrame_lt {pipe : Bytes} (h : pipe ≠ []) : (readFrame pipe).2.length < pipe.length := by
  have : 0 < pipe.length := List.length_pos_of_ne_nil h
  simp only [readFrame, pipeRead, List.length_drop]
  omega

/-- Each turn of the loop takes something from the pipe, and an empty pipe does not read as a `NOP`. -/
theorem recvLoop_isSome {fuel : Nat} {pipe : Bytes} (h : pipe.length < fuel) : (recvLoop fuel pipe).isSome := by
  induction fuel generalizing pipe with
  | zero => omega
  | succ fuel ih =>
    by_cases hp : pipe = []
    · subst hp
      simp [recvLoop, readFrame_nil, CMD.fromBytes_nil, CMD.type]
    · have hlt := length_readFrame_lt hp
      simp only [recvLoop]
      split
      · rfl
      · split_ifs
        · exact ih (by omega)
        · rfl

/-- `pipesocks.WSNETSMBPipe.recv` -/
def recv (pipe : Bytes) : Option CMD × Bytes :=
  (recvLoop (pipe.length + 1) pipe).get (recvLoop_isSome (Nat.lt_succ_self _))

end PipeSocks

/-- What `n` successive calls of `recv` return. -/
def calls {α : Type} (recv : Bytes → α × Bytes) : Nat → Bytes → List α
  | 0, _ => []
  | n + 1, pipe => (recv pipe).1 :: calls recv n (recv pipe).2

/-- With the frames `bs` of the commands `cs` in the pipe, the calls of the one `recv` return the commands
other than `NOP`, and those of the other the frames. -/
def Recovers (cs : List CMD) (bs : List Bytes) : Prop :=
  calls PipeSocks.recv (cs.filter (·.type ≠ .NOP)).length bs.flatten = (cs.filter (·.type ≠ .NOP)).map some ∧
    calls WsServerSmbPipe.recv bs.length bs.flatten = bs

instance (cs : List CMD) (bs : List Bytes) : Decidable (Recovers cs bs) := by
  unfold Recovers
  infer_instance

section Frame
variable {c : CMD} {b : Bytes} (h : c.toBytes = .ok b)
include h

/-- The frame, and up to four bytes of what follows. -/
theorem readFrame_toBytes_append (rest : Bytes) : readFrame (b ++ rest) = (b ++ rest.take 4, rest.drop 4) := by
  have hlen : 6 ≤ b.length := by rw [CMD.length_of_toBytes h, CMD.frameLength]; omega
  have htake : (b ++ rest).take 4 = b.take 4 := List.take_append_of_le_length (by omega)
  have hdrop : (b ++ rest).drop 4 = b.drop 4 ++ rest := List.drop_append_of_le_length (by omega)
  have hcount : b.length = (b.drop 4).length + 4 := by rw [List.length_drop]; omega
  simp only [readFrame, pipeRead, htake, hdrop, CMD.beNat_take_four h]
  rw [hcount, List.take_length_add_append, List.drop_length_add_append, ← List.append_assoc, List.take_append_drop]

theorem readFrame_toBytes : readFrame b = (b, []) := by
  simpa using readFrame_toBytes_append h []

theorem recv_toBytes (hnop : c.type ≠ .NOP) : (PipeSocks.recv b).1 = some c ↔ CMD.fromBytes b = .ok c := by
  have hloop : PipeSocks.recvLoop (b.length + 1) b = some ((CMD.fromBytes b).toOption, []) := by
    simp only [PipeSocks.recvLoop, readFrame_toBytes h]
    cases hf : CMD.fromBytes b with
    | error e => rfl
    | ok c' => simp [CMD.type_of_fromBytes h hf, hnop, Except.toOption]
  simp only [PipeSocks.recv, hloop, Option.get_some]
  cases CMD.fromBytes b <;> simp [Except.toOption]

end Frame

/-- Two frames in the pipe come out of `wsserversmbpipe.WSNETSMBPipe.recv` as other byte strings. -/
theorem calls_recv_ne {c c' : CMD} {b b' : Bytes} (h : c.toBytes = .ok b) (h' : c'.toBytes = .ok b') (bs : List Bytes) :
    calls WsServerSmbPipe.recv (b :: b' :: bs).length (b :: b' :: bs).flatten ≠ b :: b' :: bs := by
  intro heq
  have hlen : 6 ≤ b'.length := by rw [CMD.length_of_toBytes h', CMD.frameLength]; omega
  have hfirst := (List.cons.inj heq).1
  rw [WsServerSmbPipe.recv, List.flatten_cons, List.flatten_cons, readFrame_toBytes_append h] at hfirst
  have := congrArg List.length hfirst
  simp only [List.length_append, List.length_take] at this
  omega

/-- Both pipes give back what was written exactly when it is at most one frame, of a `NOP` or of a command
that its frame decodes to. -/
theorem recovers_iff {cs : List CMD} {bs : List Bytes} (h : List.Forall₂ (fun c b => c.toBytes = .ok b) cs bs) :
    Recovers cs bs ↔ cs.length ≤ 1 ∧ ∀ c ∈ cs, c.type = .NOP ∨ ∃ b, c.toBytes = .ok b ∧ CMD.fromBytes b = .ok c := by
  match h with
  | .nil => simp [Recovers, calls]
  | .cons (a := c) h₁ (.cons h₂ _) =>
    refine ⟨fun hr => absurd hr.2 (calls_recv_ne h₁ h₂ _), fun hl => ?_⟩
    simp at hl
  | .cons (a := c) (b := b) h₁ .nil =>
    by_cases hnop : c.type = .NOP
    · simp [Recovers, hnop, calls, WsServerSmbPipe.recv, readFrame_toBytes h₁]
    · simp [Recovers, hnop, calls, recv_toBytes h₁ hnop, h₁, WsServerSmbPipe.recv, readFrame_toBytes h₁]

/-- The frames of a `CONTINUE` and of an `SD` of two bytes. -/
def continueFrame : Bytes := [0, 0, 0, 26, 0, 4] ++ List.replicate 16 9 ++ [0, 0, 0, 0]
def sdFrame : Bytes := [0, 0, 0, 24, 0, 7] ++ List.replicate 16 9 ++ [104, 105]

theorem recovers_continue : Recovers [.CONTINUE ⟨List.replicate 16 9, some ""⟩] [continueFrame] ↔
    1 ≤ 1 ∧ ∀ c ∈ [CMD.CONTINUE ⟨List.replicate 16 9, some ""⟩],
      c.type = .NOP ∨ ∃ b, c.toBytes = .ok b ∧ CMD.fromBytes b = .ok c :=
  recovers_iff (.cons (by decide +kernel) .nil)

theorem not_recovers_continue_sd :
    List.Forall₂ (fun (c : CMD) b => c.toBytes = .ok b)
      [.CONTINUE ⟨List.replicate 16 9, some ""⟩, .SD ⟨List.replicate 16 9, [104, 105]⟩] [continueFrame, sdFrame] ∧
    ¬ Recovers [.CONTINUE ⟨List.replicate 16 9, some ""⟩, .SD ⟨List.replicate 16 9, [104, 105]⟩]
      [continueFrame, sdFrame] :=
  ⟨.cons (by decide +kernel) (.cons (by decide +kernel) .nil), by decide +kernel⟩

end Wsnet
