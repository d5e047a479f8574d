import Wsnet.Protocol.Common
import Wsnet.Protocol.Authentication
import Wsnet.Protocol.Connection
import Wsnet.Protocol.FileOp
import Wsnet.Protocol.ProcessOp

/-!
# Commands and their frames

`CMD` is the union of the message classes, with one constructor for each key of `type2cmd` under the
name of the key. A frame is the total length in four bytes, the type number in two and the fields of
the class; the length counts itself. `CMD.fromBuffer` reads the length and does nothing with it.
-/

namespace Wsnet

/-- A message object, by the key of its class in `type2cmd`. -/
inductive CMD
  | OK (c : WSNOK) | NOP (c : WSNNOP) | ERR (c : WSNErr) | LOG (c : WSNLog) | STOP (c : WSNStop)
  | CONTINUE (c : WSNContinue) | CONNECT (c : WSNConnect) | SD (c : WSNSocketData) | GETINFO (c : WSNGetInfo)
  | GETINFOREPLY (c : WSNGetInfoReply) | AUTHERR (c : WSNAuthError) | NTLMAUTH (c : WSNNTLMAuth)
  | NTLMAUTHREPLY (c : WSNNTLMAuthReply) | NTLMCHALL (c : WSNNTLMChallenge)
  | NTLMCHALLREPLY (c : WSNNTLMChallengeReply) | KERBEROS (c : WSNKerberosAuth)
  | KERBEROSREPLY (c : WSNKerberosAuthReply) | SESSIONKEY (c : WSNGetSessionKey)
  | SESSIONKEYREPLY (c : WSNSessionKeyReply) | SEQUENCE (c : WSNGetSequenceNo)
  | SEQUENCEREPLY (c : WSNGetSequenceNoReply) | LISTAGENTS (c : WSNListAgents)
  | AGENTINFO (c : WSNListAgentsReply) | SDSRV (c : WSNServerSocketData) | WRAPSSL (c : WSNSocketWrapSSL)
  | RESOLV (c : WSNResolv) | DIRLS (c : WSNDirLS) | DIRMK (c : WSNDirMK) | DIRRM (c : WSNDirRM)
  | DIRCOPY (c : WSNDirCopy) | DIRMOVE (c : WSNDirMove) | FILEOPEN (c : WSNFileOpen)
  | FILEREAD (c : WSNFileRead) | FILEDATA (c : WSNFileData) | FILEENTRY (c : WSNFileEntry)
  | FILECOPY (c : WSNFileCopy) | FILEMOVE (c : WSNFileMove) | FILERM (c : WSNFileRM)
  | FILESTAT (c : WSNFileStat) | PROCLIST (c : WSNProcessList) | PROCSTART (c : WSNProcessStart)
  | PROCKILL (c : WSNProcessKill) | PROCINFO (c : WSNProcessInfo) | PROCSTD (c : WSNProcessSTD)
  deriving DecidableEq, Repr

/-- What `cmd.data` holds. -/
inductive CMD.Data
  | bytes (b : Bytes)
  | text (t : String)
  deriving DecidableEq, Repr

namespace CMD

/-- `cmd.data`, of the commands that have it. -/
def data : CMD → Option CMD.Data
  | SD c => some (.bytes c.data)
  | SDSRV c => some (.bytes c.data)
  | FILEDATA c => some (.bytes c.data)
  | PROCSTD c => some (.text c.data)
  | _ => none

/-- `cmd.type` -/
def type : CMD → CMDType
  | OK _ => .OK | NOP _ => .NOP | ERR _ => .ERR | LOG _ => .LOG | STOP _ => .STOP | CONTINUE _ => .CONTINUE
  | CONNECT _ => .CONNECT | SD _ => .SD | GETINFO _ => .GETINFO | GETINFOREPLY _ => .GETINFOREPLY
  | AUTHERR _ => .AUTHERR | NTLMAUTH _ => .NTLMAUTH | NTLMAUTHREPLY _ => .NTLMAUTHREPLY
  | NTLMCHALL _ => .NTLMCHALL | NTLMCHALLREPLY _ => .NTLMCHALLREPLY | KERBEROS _ => .KERBEROS
  | KERBEROSREPLY _ => .KERBEROSREPLY | SESSIONKEY _ => .SESSIONKEY | SESSIONKEYREPLY _ => .SESSIONKEYREPLY
  | SEQUENCE _ => .SEQUENCE | SEQUENCEREPLY _ => .SEQUENCEREPLY | LISTAGENTS _ => .LISTAGENTS
  | AGENTINFO _ => .AGENTINFO | SDSRV _ => .SDSRV | WRAPSSL _ => .WRAPSSL | RESOLV _ => .RESOLV
  | DIRLS _ => .DIRLS | DIRMK _ => .DIRMK | DIRRM _ => .DIRRM | DIRCOPY _ => .DIRCOPY | DIRMOVE _ => .DIRMOVE
  | FILEOPEN _ => .FILEOPEN | FILEREAD _ => .FILEREAD | FILEDATA _ => .FILEDATA | FILEENTRY _ => .FILEENTRY
  | FILECOPY _ => .FILECOPY | FILEMOVE _ => .FILEMOVE | FILERM _ => .FILERM | FILESTAT _ => .FILESTAT
  | PROCLIST _ => .PROCLIST | PROCSTART _ => .PROCSTART | PROCKILL _ => .PROCKILL | PROCINFO _ => .PROCINFO
  | PROCSTD _ => .PROCSTD

/-- `cmd.token` -/
def token : CMD → Bytes
  | OK c => c.token | NOP c => c.token | ERR c => c.token | LOG c => c.token | STOP c => c.token
  | CONTINUE c => c.token | CONNECT c => c.token | SD c => c.token | GETINFO c => c.token
  | GETINFOREPLY c => c.token | AUTHERR c => c.token | NTLMAUTH c => c.token | NTLMAUTHREPLY c => c.token
  | NTLMCHALL c => c.token | NTLMCHALLREPLY c => c.token | KERBEROS c => c.token | KERBEROSREPLY c => c.token
  | SESSIONKEY c => c.token | SESSIONKEYREPLY c => c.token | SEQUENCE c => c.token | SEQUENCEREPLY c => c.token
  | LISTAGENTS c => c.token | AGENTINFO c => c.token | SDSRV c => c.token | WRAPSSL c => c.token
  | RESOLV c => c.token | DIRLS c => c.token | DIRMK c => c.token | DIRRM c => c.token | DIRCOPY c => c.token
  | DIRMOVE c => c.token | FILEOPEN c => c.token | FILEREAD c => c.token | FILEDATA c => c.token
  | FILEENTRY c => c.token | FILECOPY c => c.token | FILEMOVE c => c.token | FILERM c => c.token
  | FILESTAT c => c.token | PROCLIST c => c.token | PROCSTART c => c.token | PROCKILL c => c.token
  | PROCINFO c => c.token | PROCSTD c => c.token

/-- What `cmd.to_data()` writes after the type number. -/
def fields : CMD → List Field
  | OK c => c.fields | NOP c => c.fields | ERR c => c.fields | LOG c => c.fields | STOP c => c.fields
  | CONTINUE c => c.fields | CONNECT c => c.fields | SD c => c.fields | GETINFO c => c.fields
  | GETINFOREPLY c => c.fields | AUTHERR c => c.fields | NTLMAUTH c => c.fields | NTLMAUTHREPLY c => c.fields
  | NTLMCHALL c => c.fields | NTLMCHALLREPLY c => c.fields | KERBEROS c => c.fields
  | KERBEROSREPLY c => c.fields | SESSIONKEY c => c.fields | SESSIONKEYREPLY c => c.fields
  | SEQUENCE c => c.fields | SEQUENCEREPLY c => c.fields | LISTAGENTS c => c.fields | AGENTINFO c => c.fields
  | SDSRV c => c.fields | WRAPSSL c => c.fields | RESOLV c => c.fields | DIRLS c => c.fields
  | DIRMK c => c.fields | DIRRM c => c.fields | DIRCOPY c => c.fields | DIRMOVE c => c.fields
  | FILEOPEN c => c.fields | FILEREAD c => c.fields | FILEDATA c => c.fields | FILEENTRY c => c.fields
  | FILECOPY c => c.fields | FILEMOVE c => c.fields | FILERM c => c.fields | FILESTAT c => c.fields
  | PROCLIST c => c.fields | PROCSTART c => c.fields | PROCKILL c => c.fields | PROCINFO c => c.fields
  | PROCSTD c => c.fields

/-- `cmd.to_data()` -/
def toData (c : CMD) : Except PyErr Bytes := (writeFields c.fields).map (c.type.toBytes ++ ·)

/-- `cmd.to_bytes()` -/
def toBytes (c : CMD) : Except PyErr Bytes := do
  let data ← c.toData
  let length ← lenToBytes (data.length + 4)
  return length ++ data

/-- `type2cmd[t].from_buffer`; `DISCONNECT` is not a key. -/
def type2cmd : CMDType → Buf CMD
  | .OK => OK <$> MsgCmd.fromBuffer
  | .NOP => NOP <$> TokenCmd.fromBuffer
  | .ERR => ERR <$> WSNErr.fromBuffer
  | .LOG => LOG <$> WSNLog.fromBuffer
  | .STOP => STOP <$> TokenCmd.fromBuffer
  | .CONTINUE => CONTINUE <$> MsgCmd.fromBuffer
  | .CONNECT => CONNECT <$> WSNConnect.fromBuffer
  | .SD => SD <$> WSNSocketData.fromBuffer
  | .GETINFO => GETINFO <$> TokenCmd.fromBuffer
  | .GETINFOREPLY => GETINFOREPLY <$> WSNGetInfoReply.fromBuffer
  | .AUTHERR => AUTHERR <$> WSNAuthError.fromBuffer
  | .NTLMAUTH => NTLMAUTH <$> WSNNTLMAuth.fromBuffer
  | .NTLMAUTHREPLY => NTLMAUTHREPLY <$> AuthReplyCmd.fromBuffer
  | .NTLMCHALL => NTLMCHALL <$> WSNNTLMChallenge.fromBuffer
  | .NTLMCHALLREPLY => NTLMCHALLREPLY <$> AuthReplyCmd.fromBuffer
  | .KERBEROS => KERBEROS <$> WSNKerberosAuth.fromBuffer
  | .KERBEROSREPLY => KERBEROSREPLY <$> AuthReplyCmd.fromBuffer
  | .SESSIONKEY => SESSIONKEY <$> TokenCmd.fromBuffer
  | .SESSIONKEYREPLY => SESSIONKEYREPLY <$> WSNSessionKeyReply.fromBuffer
  | .SEQUENCE => SEQUENCE <$> TokenCmd.fromBuffer
  | .SEQUENCEREPLY => SEQUENCEREPLY <$> WSNGetSequenceNoReply.fromBuffer
  | .LISTAGENTS => LISTAGENTS <$> TokenCmd.fromBuffer
  | .AGENTINFO => AGENTINFO <$> WSNListAgentsReply.fromBuffer
  | .SDSRV => SDSRV <$> WSNServerSocketData.fromBuffer
  | .WRAPSSL => WRAPSSL <$> TokenCmd.fromBuffer
  | .RESOLV => RESOLV <$> WSNResolv.fromBuffer
  | .DIRLS => DIRLS <$> PathCmd.fromBuffer
  | .DIRMK => DIRMK <$> PathCmd.fromBuffer
  | .DIRRM => DIRRM <$> PathCmd.fromBuffer
  | .DIRCOPY => DIRCOPY <$> PathPairCmd.fromBuffer
  | .DIRMOVE => DIRMOVE <$> PathPairCmd.fromBuffer
  | .FILEOPEN => FILEOPEN <$> WSNFileOpen.fromBuffer
  | .FILEREAD => FILEREAD <$> WSNFileRead.fromBuffer
  | .FILEDATA => FILEDATA <$> WSNFileData.fromBuffer
  | .FILEENTRY => FILEENTRY <$> WSNFileEntry.fromBuffer
  | .FILECOPY => FILECOPY <$> PathPairCmd.fromBuffer
  | .FILEMOVE => FILEMOVE <$> PathPairCmd.fromBuffer
  | .FILERM => FILERM <$> PathCmd.fromBuffer
  | .FILESTAT => FILESTAT <$> TokenCmd.fromBuffer
  | .PROCLIST => PROCLIST <$> TokenCmd.fromBuffer
  | .PROCSTART => PROCSTART <$> WSNProcessStart.fromBuffer
  | .PROCKILL => PROCKILL <$> WSNProcessKill.fromBuffer
  | .PROCINFO => PROCINFO <$> WSNProcessInfo.fromBuffer
  | .PROCSTD => PROCSTD <$> WSNProcessSTD.fromBuffer
  | .DISCONNECT => Buf.ofExcept (.error .keyError)

/-- `CMD.from_buffer` -/
def fromBuffer : Buf CMD := do
  let _length ← readInt 4
  let dt ← readInt 2
  let t ← Buf.ofExcept (CMDType.ofValue dt.toNat)
  type2cmd t

/-- `CMD.from_bytes` -/
def fromBytes (data : Bytes) : Except PyErr CMD := (fromBuffer data).map Prod.fst

/-- The length of the frame of `c`. -/
def frameLength (c : CMD) : Nat := 6 + (c.fields.map Field.size).sum

/-- Every class writes its token first. -/
theorem fields_eq (c : CMD) : ∃ fs, c.fields = .raw c.token :: fs := by
  cases c <;> exact ⟨_, rfl⟩

theorem toBytes_eq_ok {c : CMD} {b : Bytes} : c.toBytes = .ok b ↔ ∃ body, writeFields c.fields = .ok body ∧
    body.length + 6 < 256 ^ 4 ∧ b = beBytes 4 (body.length + 6) ++ (c.type.toBytes ++ body) := by
  have hlen : ∀ body : Bytes, (c.type.toBytes ++ body).length + 4 = body.length + 6 := by intro body; simp; omega
  rw [toBytes, except_bind_eq_ok]
  constructor
  · rintro ⟨data, hd, h⟩
    obtain ⟨body, hw, rfl⟩ := except_map_eq_ok.1 hd
    obtain ⟨length, hl, h⟩ := except_bind_eq_ok.1 h
    obtain ⟨hlt, rfl⟩ := lenToBytes_eq_ok.1 hl
    cases h
    rw [hlen] at hlt ⊢
    exact ⟨body, hw, hlt, rfl⟩
  · rintro ⟨body, hw, hlt, rfl⟩
    refine ⟨_, except_map_eq_ok.2 ⟨body, hw, rfl⟩, except_bind_eq_ok.2 ⟨_, lenToBytes_eq_ok.2 ⟨?_, rfl⟩, ?_⟩⟩
    · rwa [hlen]
    · rw [hlen]; rfl

/-- A command whose fields are written fails for its length only. -/
theorem overflowError_of_toBytes {c : CMD} {data : Bytes} {e : PyErr} (hdata : c.toData = .ok data)
    (h : c.toBytes = .error e) : e = .overflowError := by
  rw [CMD.toBytes, except_bind_eq_error, hdata] at h
  rcases h with h | ⟨data, -, h⟩
  · cases h
  · rw [except_bind_eq_error] at h
    rcases h with h | ⟨length, -, h⟩
    · exact overflowError_of_intToBytes h
    · cases h

section Frame
variable {c : CMD} {b : Bytes} (h : c.toBytes = .ok b)
include h

theorem length_of_toBytes : b.length = c.frameLength := by
  obtain ⟨body, hw, -, rfl⟩ := toBytes_eq_ok.1 h
  simp only [List.length_append, length_beBytes, CMDType.length_toBytes, frameLength, length_of_writeFields hw]
  omega

theorem frameLength_lt : c.frameLength < 256 ^ 4 := by
  obtain ⟨body, hw, hlt, -⟩ := toBytes_eq_ok.1 h
  rw [length_of_writeFields hw] at hlt
  rw [frameLength]
  omega

/-- The length field counts the whole frame. -/
theorem beNat_take_four : beNat (b.take 4) = b.length := by
  obtain ⟨body, -, hlt, rfl⟩ := toBytes_eq_ok.1 h
  rw [List.take_left' (length_beBytes ..), beNat_beBytes hlt]
  simp only [List.length_append, length_beBytes, CMDType.length_toBytes]
  omega

/-- The token is behind the length and the type. -/
theorem token_slice (ht : c.token.length = 16) : (b.drop 6).take 16 = c.token := by
  obtain ⟨body, hw, -, rfl⟩ := toBytes_eq_ok.1 h
  obtain ⟨fs, hfs⟩ := c.fields_eq
  rw [hfs] at hw
  obtain ⟨_, rest, ⟨⟩, -, rfl⟩ := concat_cons_eq_ok.1 hw
  rw [← List.append_assoc, List.drop_left' (by simp), List.take_left' ht]

theorem type_slice : (b.drop 4).take 2 = c.type.toBytes := by
  obtain ⟨body, -, -, rfl⟩ := toBytes_eq_ok.1 h
  rw [List.drop_left' (length_beBytes ..), List.take_left' (CMDType.length_toBytes _)]

theorem type_eq_of_toBytes {c' : CMD} (h' : c'.toBytes = .ok b) : c.type = c'.type := by
  refine CMDType.toBytes_inj ?_
  rw [← type_slice h, type_slice h']

end Frame

theorem fromBuffer_eq (d : Bytes) : fromBuffer d =
    (CMDType.ofValue (beNat ((d.drop 4).take 2))).bind fun t => type2cmd t (d.drop 6) := by
  rw [fromBuffer, Buf.bind_run, readInt_run, Except.bind, Buf.bind_run, readInt_run, Except.bind, Buf.bind_run,
    Buf.ofExcept_run, Int.toNat_natCast, List.drop_drop]
  cases CMDType.ofValue (beNat ((d.drop 4).take 2)) <;> rfl

/-- The empty byte string is a message. -/
theorem fromBytes_nil : fromBytes [] = .ok (OK ⟨[], some ""⟩) := by
  rw [fromBytes, fromBuffer_eq]
  rfl

theorem eq_OK_of_type {c : CMD} (h : c.type = .OK) : ∃ c', c = OK c' := by
  cases c <;> first | exact ⟨_, rfl⟩ | cases h

theorem type_of_type2cmd {t : CMDType} {c : CMD} {b rest : Bytes} (h : type2cmd t b = .ok (c, rest)) : c.type = t := by
  cases t with
  | DISCONNECT => cases h
  | _ =>
    simp only [type2cmd, Buf.map_run, except_map_eq_ok] at h
    obtain ⟨r, -, hr⟩ := h
    cases hr
    rfl

/-- A frame of the type `t` is read by the reader of `t`, whatever its length field says. -/
theorem fromBuffer_run {l : Bytes} (hl : l.length = 4) (t : CMDType) (body : Bytes) :
    fromBuffer (l ++ (t.toBytes ++ body)) = type2cmd t body := by
  have hlen : Reads (readInt 4) l (beNat l) := (reads_read hl).bind_left (.pure _)
  have htype : Reads (readInt 2) t.toBytes t.value := by
    rw [← CMDType.beNat_toBytes t]
    exact (reads_read t.length_toBytes).bind_left (.pure _)
  rw [fromBuffer, Buf.bind_run, hlen, Except.bind, Buf.bind_run, htype, Except.bind, Buf.bind_run, Int.toNat_natCast,
    CMDType.ofValue_value]
  rfl

theorem toBytes_of_fits {c : CMD} (hw : ∀ f ∈ c.fields, f.InWidth) (hfit : c.frameLength < 2 ^ 32) :
    ∃ b, c.toBytes = .ok b := by
  rw [frameLength] at hfit
  obtain ⟨body, hbody⟩ := writeFields_of_inWidth hw (by omega)
  refine ⟨_, toBytes_eq_ok.2 ⟨body, hbody, ?_, rfl⟩⟩
  rw [length_of_writeFields hbody]
  omega

end CMD

/-- What an operator sends: a command for the agent `agentid`. -/
structure OPCMD where
  agentid : Bytes
  cmd : CMD
  deriving DecidableEq, Repr

/-- `OPCMD.to_bytes`: the length in front does not count itself. -/
def OPCMD.toBytes (c : OPCMD) : Except PyErr Bytes := do
  let cmd ← c.cmd.toBytes
  let t := c.agentid ++ cmd
  let cmdlen ← lenToBytes t.length
  return cmdlen ++ t

theorem OPCMD.toBytes_eq_ok {c : OPCMD} {f : Bytes} : c.toBytes = .ok f ↔ ∃ cmd, c.cmd.toBytes = .ok cmd ∧
    (c.agentid ++ cmd).length < 256 ^ 4 ∧ f = beBytes 4 (c.agentid ++ cmd).length ++ (c.agentid ++ cmd) := by
  constructor
  · intro h
    obtain ⟨cmd, hcmd, h⟩ := except_bind_eq_ok.1 h
    obtain ⟨len, hlen, h⟩ := except_bind_eq_ok.1 h
    obtain ⟨hlt, rfl⟩ := lenToBytes_eq_ok.1 hlen
    cases h
    exact ⟨cmd, hcmd, hlt, rfl⟩
  · rintro ⟨cmd, hcmd, hlt, rfl⟩
    exact except_bind_eq_ok.2 ⟨cmd, hcmd, except_bind_eq_ok.2 ⟨_, lenToBytes_eq_ok.2 ⟨hlt, rfl⟩, rfl⟩⟩

end Wsnet
