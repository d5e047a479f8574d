import Wsnet.Pyodide.File
import Wsnet.Protocol.Kept

/-!
# The offset of a remote file

`seek` takes any number, and only a whence of 2 is checked at all, so a seek can leave an offset that the eight
bytes of a FILEREAD or a FILEDATA do not hold; reads and writes cannot (`offset_iff`), because the agent refuses
to go to `2 ^ 63` or beyond.
-/

namespace Wsnet.Pyodide

/-- The number fits in the eight bytes of an offset. -/
def OffsetFits (n : Int) : Prop := 0 ≤ n ∧ n < 2 ^ 64

theorem offsetFits_zero : OffsetFits 0 := by norm_num [OffsetFits]

namespace Remote
variable {s s' s₁ : Remote} {r : FileRequest} {op : Op} {o : List OpResult}

/-- The call raised. -/
def OpResult.Raised : OpResult → Prop
  | .read (.error _) => True
  | .seeked (.error _) => True
  | .stat (.error _) => True
  | _ => False

/-- Where a seek that does not raise goes. -/
def seekTarget (s : Remote) (offset whence : Int) : Option Int :=
  if whence = 0 then some offset
  else if whence = 1 then some (s.offset + offset)
  else if whence = 2 ∧ offset ≤ 0 ∧ s.size ≠ 0 then some (s.size + offset)
  else none

/-- A seek goes to an offset that fits. -/
def SeekFits (s : Remote) : Op → Prop
  | .seek offset whence => ∀ n, s.seekTarget offset whence = some n → OffsetFits n
  | _ => True

/-- The call leaves an offset that fits, or raises and leaves the offset as it was. -/
def OffsetKept (s : Remote) (op : Op) : Prop :=
  ∀ s' r, step s op = some (s', [r]) → OffsetFits s'.offset ∨ OpResult.Raised r ∧ s'.offset = s.offset

/-- Every FILEREAD and every FILEDATA that the next call can build has an encoding. -/
def Encodes (s : Remote) : Prop :=
  (∀ n : Int, 0 ≤ n → n ≤ chunk_size → ∃ b, (CMD.FILEREAD ⟨s.token, n, s.offset⟩).toBytes = .ok b) ∧
    ∀ data : Bytes, data.length ≤ chunk_size → ∃ b, (CMD.FILEDATA ⟨s.token, data, s.offset⟩).toBytes = .ok b

structure InRange (s : Remote) : Prop where
  token : s.token.length = 16
  offset : OffsetFits s.offset
  size : OffsetFits s.size

theorem InRange.encodes (h : InRange s) : s.Encodes := by
  constructor
  · intro n h₀ hn
    have hlt : n < 2 ^ 32 := by
      simp only [chunk_size] at hn
      omega
    have hfits : RequestFits s.token (.read ⟨s.token, n, s.offset⟩) := ⟨rfl, ⟨h₀, hlt⟩, h.offset⟩
    obtain ⟨b, hb, -⟩ := CMD.fromBytes_toBytes (supported_request h.token hfits) (frameLength_request h.token hfits)
    exact ⟨b, hb⟩
  · intro data hd
    have hfits : RequestFits s.token (.data ⟨s.token, data, s.offset⟩) := ⟨rfl, hd, h.offset⟩
    obtain ⟨b, hb, -⟩ := CMD.fromBytes_toBytes (supported_request h.token hfits) (frameLength_request h.token hfits)
    exact ⟨b, hb⟩

theorem InRange.advance (h : InRange s) {n : Nat} (hoff : s.offset < 2 ^ 63) (hn : n ≤ chunk_size) :
    InRange (s.advance n) where
  token := h.token
  offset := by
    obtain ⟨h₀, -⟩ := h.offset
    simp only [chunk_size] at hn
    simp only [OffsetFits, Remote.advance]
    omega
  size := h.size

/-- A reply that is not an error is what the `try` block of the agent made. -/
theorem reply_of_request (ht : s.token.length = 16) (hr : RequestFits s.token r) {c : CMD}
    (h : s.request r = (.ok c, s₁))
    (hc : c.type ≠ .ERR) : s₁ = s.replied r ∧ (∃ f, s.agent.called.tryProcess r = (.ok (s.reply r), f)) ∧
      ∃ raw, (s.reply r).toBytes = .ok raw ∧ CMD.fromBytes raw = .ok c := by
  rw [request_eq ht hr] at h
  cases hraw : (s.reply r).toBytes with
  | error e =>
    rw [hraw] at h
    cases h
  | ok raw =>
    rw [hraw] at h
    obtain ⟨hread, rfl⟩ := Prod.mk.inj h
    have htype : (s.reply r).type ≠ .ERR := by rwa [← CMD.type_of_fromBytes hraw hread]
    exact ⟨rfl, ⟨_, (AgentFile.tryProcess_of_process_fileop htype).1⟩, raw, rfl, hread⟩

theorem InRange.of_request (h : InRange s) {x : Except PyErr CMD} (hs : s.request r = (x, s₁)) : InRange s₁ := by
  have hkeeps := Keeps.of_request hs
  have hoff := offset_request s r
  rw [hs] at hoff
  exact ⟨hkeeps.token ▸ h.token, hoff ▸ h.offset, hkeeps.size ▸ h.size⟩

/-- A chunk is read only where the agent's file goes. -/
theorem read_of_request (h : InRange s) {n : Int} (h₀ : 0 < n) (hn : n ≤ chunk_size) {c : WSNFileData}
    (hs : s.request (.read ⟨s.token, n, s.offset⟩) = (.ok (.FILEDATA c), s₁)) :
    s₁.offset < 2 ^ 63 ∧ c.data.length ≤ chunk_size := by
  have hlt : n < 2 ^ 32 := by
    simp only [chunk_size] at hn
    omega
  have hfits : RequestFits s.token (.read ⟨s.token, n, s.offset⟩) := ⟨rfl, ⟨h₀.le, hlt⟩, h.offset⟩
  obtain ⟨rfl, ⟨f, htry⟩, raw, hraw, hread⟩ := reply_of_request h.token hfits hs (by simp [CMD.type])
  obtain ⟨hoff, -, hreply⟩ := AgentFile.tryProcess_read htry
  rw [hreply] at hraw
  have hsup : (CMD.FILEDATA ⟨s.token, (s.agent.called.content.drop s.offset.toNat).take n.toNat,
      s.offset.toNat⟩).Supported := by
    refine CMD.supported_of_toBytes ?_ h.token trivial ?_ hraw
    · simp [CMD.type, CMD.lossy]
    · simp [CMD.fields, WSNFileData.fields]
  cases hread.symm.trans (CMD.fromBytes_of_toBytes hsup hraw)
  refine ⟨hoff, ?_⟩
  simp only [List.length_take]
  omega

/-- A chunk is acknowledged only where the agent's file goes. -/
theorem data_of_request (h : InRange s) {data : Bytes} (hd : data.length ≤ chunk_size) {c : WSNContinue}
    (hs : s.request (.data ⟨s.token, data, s.offset⟩) = (.ok (.CONTINUE c), s₁)) : s₁.offset < 2 ^ 63 := by
  have hfits : RequestFits s.token (.data ⟨s.token, data, s.offset⟩) := ⟨rfl, hd, h.offset⟩
  obtain ⟨rfl, ⟨f, htry⟩, -⟩ := reply_of_request h.token hfits hs (by simp [CMD.type])
  exact (AgentFile.tryProcess_data htry).1

/-- The size in a FILEENTRY fits in the eight bytes it comes in. -/
theorem stat_of_request (ht : s.token.length = 16) {c : WSNFileEntry}
    (hs : s.request (.stat ⟨s.token⟩) = (.ok (.FILEENTRY c), s₁)) : OffsetFits c.size := by
  obtain ⟨-, ⟨f, htry⟩, raw, hraw, hread⟩ := reply_of_request (r := .stat ⟨s.token⟩) ht rfl hs (by simp [CMD.type])
  rw [← Except.ok.inj (Prod.mk.inj htry).1] at hraw
  have hsup : (CMD.FILEENTRY ⟨s.token, "", "", false, s.agent.called.st_size, s.agent.called.atime,
      s.agent.called.mtime,
      s.agent.called.ctime⟩).Supported := by
    refine CMD.supported_of_toBytes ?_ ht trivial ?_ hraw
    · simp [CMD.type, CMD.lossy]
    · simp [CMD.fields, WSNFileEntry.fields]
  cases hread.symm.trans (CMD.fromBytes_of_toBytes hsup hraw)
  exact hsup.width (.int _ 8) (by simp [CMD.fields, WSNFileEntry.fields])

theorem InRange.fstat (h : InRange s) : InRange s.fstat.2 := by
  unfold Remote.fstat
  rcases hs : s.request (.stat ⟨s.token⟩) with ⟨x, s₁⟩
  have h₁ := h.of_request hs
  unfold fstatReply
  split <;> rename_i heq <;> cases heq
  · exact h₁
  · exact h₁
  · exact ⟨h₁.token, h₁.offset, stat_of_request h.token hs⟩
  · exact h₁

theorem InRange.read_loop (h : InRange s) (size : Int) : InRange (s.read_loop size).2 := by
  fun_induction Remote.read_loop s size with
  | case1 s size hpos e s₁ hs => exact h.of_request hs
  | case2 s size hpos c s₁ hs => exact h.of_request hs
  | case3 s size hpos c s₁ hs hdata => exact h.of_request hs
  | case4 s size hpos c s₁ hs hdata data s₂ hloop ih =>
    obtain ⟨hoff, hlen⟩ := read_of_request h (by simp only [chunk_size]; omega) (Int.min_le_right _ _) hs
    have := ih ((h.of_request hs).advance hoff hlen)
    rwa [hloop] at this
  | case5 s size hpos c s₁ hs hdata _ ih =>
    obtain ⟨hoff, hlen⟩ := read_of_request h (by simp only [chunk_size]; omega) (Int.min_le_right _ _) hs
    exact ih ((h.of_request hs).advance hoff hlen)
  | case6 s size hpos c s₁ _ _ hs => exact h.of_request hs
  | case7 s size hpos => exact h

theorem InRange.read (h : InRange s) (n : Int) : InRange (s.read n).2 := by
  unfold Remote.read
  split
  · exact h
  · generalize (if n = -1 then s.size - s.offset else n) = n
    dsimp only
    split
    · exact h
    · exact h.read_loop _

theorem InRange.write_loop (h : InRange s) {chunks : List Bytes} (hlen : ∀ c ∈ chunks, c.length ≤ chunk_size) :
    InRange (s.write_loop chunks).2 := by
  fun_induction Remote.write_loop s chunks with
  | case1 s => exact h
  | case2 s tdata rest e s₁ hs => exact h.of_request hs
  | case3 s tdata rest c s₁ hs => exact h.of_request hs
  | case4 s tdata rest c s₁ hs ih =>
    have hd := hlen _ List.mem_cons_self
    exact ih ((h.of_request hs).advance (data_of_request h hd hs) hd) fun c hc => hlen c (List.mem_cons_of_mem _ hc)
  | case5 s tdata rest c s₁ _ _ hs => exact h.of_request hs

theorem InRange.write (h : InRange s) (data : Bytes) : InRange (s.write data).2 := by
  have hloop : InRange (s.write_loop (readChunks chunk_size data)).2 :=
    h.write_loop fun c hc => length_le_of_mem_readChunks (by decide) hc
  unfold Remote.write
  split
  · exact h
  · split <;> rename_i heq <;> rw [heq] at hloop <;> exact hloop

/-- A seek goes to its target without raising, or raises and goes nowhere. -/
theorem seek_eq (s : Remote) (offset whence : Int) :
    (∃ n, s.seekTarget offset whence = some n ∧ s.seek offset whence = (.ok (), { s with offset := n })) ∨
      s.seekTarget offset whence = none ∧ (s.seek offset whence).2 = s := by
  unfold seekTarget seek
  by_cases h0 : whence = 0
  · exact .inl ⟨offset, by simp [h0]⟩
  by_cases h1 : whence = 1
  · exact .inl ⟨s.offset + offset, by simp [h1]⟩
  by_cases h2 : whence = 2
  · by_cases hpos : 0 < offset
    · exact .inr (by simp [h2, hpos, not_le.2 hpos])
    · by_cases hsize : s.size = 0
      · exact .inr (by simp [h2, hpos, hsize])
      · exact .inl ⟨s.size + offset, by simp [h2, hpos, hsize, not_lt.1 hpos]⟩
  · exact .inr (by simp [h0, h1, h2])

theorem InRange.step (h : InRange s) (hfit : s.SeekFits op) (hs : step s op = some (s', o)) : InRange s' := by
  cases op with
  | read n =>
    obtain ⟨rfl, -⟩ := Prod.mk.inj (Option.some.inj hs)
    exact h.read n
  | write data =>
    obtain ⟨rfl, -⟩ := Prod.mk.inj (Option.some.inj hs)
    exact h.write data
  | seek offset whence =>
    obtain ⟨rfl, -⟩ := Prod.mk.inj (Option.some.inj hs)
    rcases seek_eq s offset whence with ⟨n, hn, hseek⟩ | ⟨-, hseek⟩
    · rw [hseek]
      exact ⟨h.token, hfit n hn, h.size⟩
    · rwa [hseek]
  | tell =>
    obtain ⟨rfl, -⟩ := Prod.mk.inj (Option.some.inj hs)
    exact h
  | fstat =>
    obtain ⟨rfl, -⟩ := Prod.mk.inj (Option.some.inj hs)
    exact h.fstat

/-- A seek that leaves the offset where it may be goes to an offset that fits. -/
theorem seekFits_of_kept (h : s.OffsetKept op) : s.SeekFits op := by
  cases op with
  | seek offset whence =>
    intro n hn
    rcases seek_eq s offset whence with ⟨m, hm, hseek⟩ | ⟨hnone, -⟩
    · obtain rfl : m = n := Option.some.inj (hm.symm.trans hn)
      rcases h { s with offset := m } (.seeked (.ok ())) (by rw [step, hseek]) with hfit | ⟨hraised, -⟩
      · exact hfit
      · exact hraised.elim
    · rw [hnone] at hn
      cases hn
  | _ => trivial

theorem inRange_openFile {token : Bytes} {path mode : String} {d : Disk} (ht : token.length = 16)
    (h : openFile token path mode d = .ok s) : InRange s := by
  obtain ⟨frame, -, h⟩ := except_bind_eq_ok.1 h
  split at h
  · obtain ⟨raw, -, h⟩ := except_bind_eq_ok.1 h
    obtain ⟨reply, -, h⟩ := except_bind_eq_ok.1 h
    split at h
    · cases h
    · rename_i agent _
      have hnew : InRange { token, mode, agent, full := d.full } := ⟨ht, offsetFits_zero, offsetFits_zero⟩
      split at h
      · obtain ⟨entry, -, h⟩ := except_bind_eq_ok.1 h
        rw [← Except.ok.inj h]
        exact hnew.fstat
      · cases h
        exact hnew
    · cases h
  · cases h

/-- In every run of a file, each call leaves an offset that fits or raises and leaves it as it was, exactly when
each seek goes to an offset that fits; and then the next request can be encoded. -/
theorem offset_iff {token : Bytes} {path mode : String} {d : Disk} {s₀ : Remote} {ops : List Op} {os : List OpResult}
    (ht : token.length = 16) (hopen : openFile token path mode d = .ok s₀) (hrun : Run step s₀ ops s os) :
    (StepsMeet step OffsetKept s₀ ops ↔ StepsMeet step SeekFits s₀ ops) ∧
      (StepsMeet step SeekFits s₀ ops → OffsetFits s.offset ∧ s.Encodes) := by
  have hinRange {ops s os} (hrun : Run step s₀ ops s os) (hfit : StepsMeet step SeekFits s₀ ops) : InRange s :=
    hrun.invariant_where (P := fun s _ => InRange s) hfit (fun hA hp hs => InRange.step hp hA hs)
      (inRange_openFile ht hopen)
  refine ⟨⟨fun h ops₁ op ops₂ s₁ os₁ hops hrun₁ => seekFits_of_kept (h ops₁ op ops₂ s₁ os₁ hops hrun₁), ?_⟩,
    fun hfit => ⟨(hinRange hrun hfit).offset, (hinRange hrun hfit).encodes⟩⟩
  intro h ops₁ op ops₂ s₁ os₁ hops hrun₁ s' r hs
  have hprefix : StepsMeet step SeekFits s₀ ops₁ := fun ops' op' rest s' os' hops' hrun' =>
    h ops' op' (rest ++ op :: ops₂) s' os' (by rw [hops, hops', List.append_assoc]; rfl) hrun'
  exact .inl ((hinRange hrun₁ hprefix).step (h ops₁ op ops₂ s₁ os₁ hops hrun₁) hs).offset

/-- A file of ten bytes, opened for reading and positioned at `n`. -/
def tenBytes (n : Int) : Remote :=
  { token := List.replicate 16 7, mode := "rb", offset := n, size := 10,
    agent := { content := [0, 1, 2, 3, 4, 5, 6, 7, 8, 9], writing := false },
    replies := [.FILEENTRY { token := List.replicate 16 7, root := "", name := "", is_dir := false, size := 10 }] }

theorem openFile_tenBytes : openFile (List.replicate 16 7) "f" "rb" { content := [0, 1, 2, 3, 4, 5, 6, 7, 8, 9] } =
    .ok (tenBytes 0) := by decide +kernel

/-- A seek from the start, one from where the file is then, one that raises, and one from the end. -/
theorem offset_iff_tenBytes : ∃ os,
    Run step (tenBytes 0) [.seek 3 0, .seek 4 1, .seek 1 2, .tell, .seek (-2) 2] (tenBytes 8) os ∧
      (StepsMeet step OffsetKept (tenBytes 0) [.seek 3 0, .seek 4 1, .seek 1 2, .tell, .seek (-2) 2] ↔
        StepsMeet step SeekFits (tenBytes 0) [.seek 3 0, .seek 4 1, .seek 1 2, .tell, .seek (-2) 2]) ∧
      OffsetFits (tenBytes 8).offset ∧ (tenBytes 8).Encodes := by
  have hrun : Run step (tenBytes 0) [.seek 3 0, .seek 4 1, .seek 1 2, .tell, .seek (-2) 2] (tenBytes 8) _ :=
    .of_exec rfl
  have hseek : ∀ {s : Remote} {offset whence : Int}, (∀ n ∈ s.seekTarget offset whence, 0 ≤ n ∧ n < 2 ^ 64) →
      SeekFits s (.seek offset whence) := fun h n hn => h n hn
  have hfits : StepsMeet step SeekFits (tenBytes 0) [.seek 3 0, .seek 4 1, .seek 1 2, .tell, .seek (-2) 2] :=
    .cons (hseek (by decide)) rfl (.cons (hseek (by decide)) rfl (.cons (hseek (by decide)) rfl (.cons trivial rfl
      (.cons (hseek (by decide)) rfl .nil))))
  obtain ⟨hiff, henc⟩ := offset_iff rfl openFile_tenBytes hrun
  exact ⟨_, hrun, hiff, henc hfits⟩

/-- A seek to -1 does not raise, and the FILEDATA of the next write has no encoding. -/
theorem not_encodes_newFile : ∃ s, openFile (List.replicate 16 7) "f" "w" {} = .ok (newFile 0) ∧
    Run step (newFile 0) [.seek (-1) 0] s ([.seeked (.ok ())] ++ []) ∧ s.offset = -1 ∧
    (CMD.FILEDATA ⟨s.token, [1], s.offset⟩).toBytes = .error .overflowError :=
  ⟨newFile (-1), openFile_newFile, seek_newFile (-1), rfl, by decide +kernel⟩

end Remote

end Wsnet.Pyodide
