import Wsnet.Protocol.Cmd

/-!
# Decoding undoes encoding

The readers of `ERR`, `LOG`, `CONNECT`, `SDSRV` and `PROCINFO` do not invert their writers: the first
three write the number of characters of a text where its reader takes a number of bytes, addresses
are normalised, and times come back as numbers. Every other class is inverted (`codes`), and all but
`SD`, which ends in its data, stop exactly behind what was written. `fromBytes_toBytes` puts the
classes together. What it asks beyond the widths of the fields is that the frame as a whole fits its
length field; a longer one is not written at all (`toBytes_of_frameLength_ge`).
-/

namespace Wsnet

namespace CMD

/-- The types whose reader does not invert their writer. -/
def lossy : List CMDType := [.ERR, .LOG, .CONNECT, .SDSRV, .PROCINFO]

/-- The message text of an `OK` or a `CONTINUE` is a text and not `None`. -/
def HasText : CMD → Prop
  | OK c => c.msg ≠ none
  | CONTINUE c => c.msg ≠ none
  | _ => True

/-- The commands that the length-prefixed and fixed-width part of the protocol is for. -/
structure Supported (c : CMD) : Prop where
  type : c.type ∉ lossy
  token : c.token.length = 16
  text : c.HasText
  width : ∀ f ∈ c.fields, f.InWidth

/-- The byte strings a command carries are shorter than `2 ^ 32 - 100`. -/
def ShortBytes (c : CMD) : Prop :=
  (∀ data, .bytes data ∈ c.fields → data.length < 2 ^ 32 - 100) ∧
    ∀ sd, c = SD sd → sd.data.length < 2 ^ 32 - 100

variable {c : CMD} {b : Bytes}

/-- The reader of every supported class other than `SD` inverts its writer. -/
theorem codes (h : c.Supported) (hsd : c.type ≠ .SD) : Codes (writeFields c.fields) (type2cmd c.type) c := by
  obtain ⟨hlossy, ht, htext, -⟩ := h
  cases c with
  | OK c => exact (MsgCmd.codes ht htext).map OK
  | CONTINUE c => exact (MsgCmd.codes ht htext).map CONTINUE
  | SD c => exact absurd rfl hsd
  | ERR c | LOG c | CONNECT c | SDSRV c | PROCINFO c => exact absurd (by simp [lossy, type]) hlossy
  | NOP c | STOP c | GETINFO c | LISTAGENTS c | SESSIONKEY c | SEQUENCE c | WRAPSSL c | FILESTAT c | PROCLIST c =>
    exact (TokenCmd.codes ht).map _
  | NTLMAUTHREPLY c | NTLMCHALLREPLY c | KERBEROSREPLY c => exact (AuthReplyCmd.codes ht).map _
  | DIRLS c | DIRMK c | DIRRM c | FILERM c => exact (PathCmd.codes ht).map _
  | DIRCOPY c | DIRMOVE c | FILECOPY c | FILEMOVE c => exact (PathPairCmd.codes ht).map _
  | GETINFOREPLY c => exact (WSNGetInfoReply.codes ht).map _
  | AGENTINFO c => exact (WSNListAgentsReply.codes ht).map _
  | AUTHERR c => exact (WSNAuthError.codes ht).map _
  | NTLMAUTH c => exact (WSNNTLMAuth.codes ht).map _
  | NTLMCHALL c => exact (WSNNTLMChallenge.codes ht).map _
  | KERBEROS c => exact (WSNKerberosAuth.codes ht).map _
  | SESSIONKEYREPLY c => exact (WSNSessionKeyReply.codes ht).map _
  | SEQUENCEREPLY c => exact (WSNGetSequenceNoReply.codes ht).map _
  | RESOLV c => exact (WSNResolv.codes ht).map _
  | FILEOPEN c => exact (WSNFileOpen.codes ht).map _
  | FILEREAD c => exact (WSNFileRead.codes ht).map _
  | FILEDATA c => exact (WSNFileData.codes ht).map _
  | FILEENTRY c => exact (WSNFileEntry.codes ht).map _
  | PROCKILL c => exact (WSNProcessKill.codes ht).map _
  | PROCSTART c => exact (WSNProcessStart.codes ht).map _
  | PROCSTD c => exact (WSNProcessSTD.codes ht).map _

/-- The frame of a supported command other than `SD`, with anything behind it. -/
theorem fromBuffer_toBytes_append (h : c.Supported) (hsd : c.type ≠ .SD) (hb : c.toBytes = .ok b) (rest : Bytes) :
    fromBuffer (b ++ rest) = .ok (c, rest) := by
  obtain ⟨body, hw, -, rfl⟩ := toBytes_eq_ok.1 hb
  rw [List.append_assoc, List.append_assoc, fromBuffer_run (length_beBytes ..)]
  exact codes h hsd body hw rest

/-- The frame of an `SD`: its data are all that is left. -/
theorem fromBuffer_toBytes_SD {sd : WSNSocketData} (ht : sd.token.length = 16) (hb : (SD sd).toBytes = .ok b) :
    fromBuffer b = .ok (SD sd, []) := by
  obtain ⟨body, hw, -, rfl⟩ := toBytes_eq_ok.1 hb
  obtain ⟨_, rest, ⟨⟩, hrest, rfl⟩ := concat_cons_eq_ok.1 hw
  obtain ⟨_, _, ⟨⟩, ⟨⟩, rfl⟩ := concat_cons_eq_ok.1 hrest
  rw [fromBuffer_run (length_beBytes ..), List.append_nil, type, type2cmd, Buf.map_run,
    WSNSocketData.fromBuffer_append _ ht]
  rfl

/-- A frame too long for its length field is not written. -/
theorem toBytes_of_frameLength_ge (h : 2 ^ 32 ≤ c.frameLength) (b : Bytes) : c.toBytes ≠ .ok b := fun hb => by
  have := frameLength_lt hb
  omega

theorem fromBytes_of_toBytes (h : c.Supported) (hb : c.toBytes = .ok b) : fromBytes b = .ok c := by
  by_cases hsd : c.type = .SD
  · cases c with
    | SD sd => rw [fromBytes, fromBuffer_toBytes_SD h.token hb]; rfl
    | _ => cases hsd
  · have := fromBuffer_toBytes_append h hsd hb []
    rw [List.append_nil] at this
    rw [fromBytes, this]
    rfl

/-- A command that is written has its integers in width. -/
theorem supported_of_toBytes (hlossy : c.type ∉ lossy) (ht : c.token.length = 16) (htext : c.HasText)
    (hn : ∀ n, .strInt n ∉ c.fields) (hb : c.toBytes = .ok b) : c.Supported where
  type := hlossy
  token := ht
  text := htext
  width f hf := by
    obtain ⟨body, hw, -⟩ := toBytes_eq_ok.1 hb
    obtain ⟨x, hx⟩ := write_of_writeFields hw hf
    exact Field.inWidth_of_write hx fun n h => hn n (h ▸ hf)

/-- Every supported command whose frame is shorter than `2 ^ 32` bytes comes back from its frame. -/
theorem fromBytes_toBytes (h : c.Supported) (hfit : c.frameLength < 2 ^ 32) :
    ∃ b, c.toBytes = .ok b ∧ fromBytes b = .ok c ∧ (c.type ≠ .SD → ∀ rest, fromBuffer (b ++ rest) = .ok (c, rest)) := by
  obtain ⟨b, hb⟩ := toBytes_of_fits h.width hfit
  exact ⟨b, hb, fromBytes_of_toBytes h hb, fun hsd rest => fromBuffer_toBytes_append h hsd hb rest⟩

theorem fromBytes_toBytes_kerberos : ∃ b,
    (KERBEROS ⟨List.replicate 16 7, "cifs/host", "ádám", 3, -1, [0, 255]⟩).toBytes = .ok b ∧
      fromBytes b = .ok (KERBEROS ⟨List.replicate 16 7, "cifs/host", "ádám", 3, -1, [0, 255]⟩) ∧
        (CMDType.KERBEROS ≠ .SD → ∀ rest, fromBuffer (b ++ rest) =
          .ok (KERBEROS ⟨List.replicate 16 7, "cifs/host", "ádám", 3, -1, [0, 255]⟩, rest)) :=
  fromBytes_toBytes
    ⟨by decide, rfl, trivial, by simp [fields, WSNKerberosAuth.fields, Field.InWidth, Except.isOk, Except.toBool]⟩
    (by decide +kernel)

/-! ### The bound on the frame -/

theorem utf8ByteSize_replicate (n : Nat) : (String.ofList (List.replicate n 'a')).utf8ByteSize = n := by
  induction n with
  | zero => rfl
  | succ n ih =>
    rw [List.replicate_succ', String.ofList_append, String.utf8ByteSize_append, ih]
    rfl

/-- `WSNDirLS` of a path of `n` letters. -/
def longDirLS (n : Nat) : CMD := DIRLS ⟨List.replicate 16 0, String.ofList (List.replicate n 'a')⟩

theorem frameLength_longDirLS (n : Nat) : (longDirLS n).frameLength = 26 + n := by
  simp [longDirLS, frameLength, fields, PathCmd.fields, Field.size, encode, length_utf8Encode, utf8ByteSize_replicate]
  omega

theorem supported_longDirLS (n : Nat) : (longDirLS n).Supported where
  type := by simp [longDirLS, type, lossy]
  token := rfl
  text := trivial
  width := by simp [longDirLS, fields, PathCmd.fields, Field.InWidth, Except.isOk, Except.toBool]

theorem shortBytes_longDirLS (n : Nat) : (longDirLS n).ShortBytes :=
  ⟨by simp [longDirLS, fields, PathCmd.fields], by rintro sd ⟨⟩⟩

/-- A bound on the byte fields alone does not do: a path of `2 ^ 32` letters is not written. -/
theorem not_fromBytes_toBytes_of_shortBytes : ¬ ∀ c : CMD, c.Supported → c.ShortBytes →
    ∃ b, c.toBytes = .ok b ∧ fromBytes b = .ok c ∧ (c.type ≠ .SD → ∀ rest, fromBuffer (b ++ rest) = .ok (c, rest)) := by
  intro H
  obtain ⟨b, hb, -⟩ := H (longDirLS (2 ^ 32)) (supported_longDirLS _) (shortBytes_longDirLS _)
  refine toBytes_of_frameLength_ge ?_ b hb
  rw [frameLength_longDirLS]
  omega

end CMD

end Wsnet
