import Wsnet.Protocol.Utils

/-!
# The messages of `protocol/common`

Every class is its fields, `fields` (what `to_data` writes after the type number, part by part) and
`fromBuffer` (its static `from_buffer`). Classes that differ in their number only are one structure
indexed by the number. The lemma `codes` of a class says that its reader inverts its writer and
stops exactly behind what was written, under the conditions it names.
-/

namespace Wsnet

/-- The classes with a token and nothing else. -/
structure TokenCmd (t : CMDType) where
  token : Bytes
  deriving DecidableEq, Repr

abbrev WSNNOP := TokenCmd .NOP
abbrev WSNStop := TokenCmd .STOP
abbrev WSNGetInfo := TokenCmd .GETINFO
abbrev WSNListAgents := TokenCmd .LISTAGENTS
abbrev WSNGetSessionKey := TokenCmd .SESSIONKEY
abbrev WSNGetSequenceNo := TokenCmd .SEQUENCE
abbrev WSNSocketWrapSSL := TokenCmd .WRAPSSL
abbrev WSNFileStat := TokenCmd .FILESTAT
abbrev WSNProcessList := TokenCmd .PROCLIST

namespace TokenCmd
variable {t : CMDType}

def fields (c : TokenCmd t) : List Field := [.raw c.token]

def fromBuffer : Buf (TokenCmd t) := do
  let token ← Buf.read 16
  return { token }

theorem codes {c : TokenCmd t} (h : c.token.length = 16) : Codes (writeFields c.fields) fromBuffer c :=
  .cons (codes_read h) (.nil _)

end TokenCmd

/-- `WSNOK` and `WSNContinue`: `msg` is written unless it is `None`, and always read. -/
structure MsgCmd (t : CMDType) where
  token : Bytes
  msg : Option String := some ""
  deriving DecidableEq, Repr

abbrev WSNOK := MsgCmd .OK
abbrev WSNContinue := MsgCmd .CONTINUE

namespace MsgCmd
variable {t : CMDType}

def fields (c : MsgCmd t) : List Field :=
  .raw c.token ::
    match c.msg with
    | some msg => [.str msg .utf8]
    | none => []

def fromBuffer : Buf (MsgCmd t) := do
  let token ← Buf.read 16
  let msg ← readStr
  return { token, msg := some msg }

theorem codes {c : MsgCmd t} (h : c.token.length = 16) (hm : c.msg ≠ none) :
    Codes (writeFields c.fields) fromBuffer c := by
  obtain ⟨token, _ | msg⟩ := c
  · exact absurd rfl hm
  · exact .cons (codes_read h) (.cons (codes_str msg .utf8) (.nil _))

end MsgCmd

structure WSNErr where
  token : Bytes
  reason : String
  extra : String := ""
  deriving DecidableEq, Repr

namespace WSNErr

/-- The length written before a text is its number of characters, not of bytes. -/
def fields (c : WSNErr) : List Field :=
  [.raw c.token, .int c.reason.length 4, .raw (utf8Encode c.reason), .int c.extra.length 4,
    .raw (utf8Encode c.extra)]

def fromBuffer : Buf WSNErr := do
  let token ← Buf.read 16
  let reason ← readStr
  let extra ← readStr
  return { token, reason, extra }

end WSNErr

structure WSNLog where
  token : Bytes
  level : Int
  msg : String
  deriving DecidableEq, Repr

namespace WSNLog

/-- As in `WSNErr`, the length written is the number of characters. -/
def fields (c : WSNLog) : List Field :=
  [.raw c.token, .int c.level 2, .int c.msg.length 4, .raw (utf8Encode c.msg)]

def fromBuffer : Buf WSNLog := do
  let token ← Buf.read 16
  let level ← readInt 2
  let msg ← readStr
  return { token, level, msg }

end WSNLog

structure WSNGetInfoReply where
  token : Bytes
  pid : Int
  username : String
  domain : String
  logonserver : String
  cpuarch : String
  hostname : String
  usersid : String
  os : String
  logonserverip : String
  deriving DecidableEq, Repr

namespace WSNGetInfoReply

def fields (c : WSNGetInfoReply) : List Field :=
  [.raw c.token, .strInt c.pid, .str c.username .utf16le, .str c.domain .utf16le,
    .str c.logonserver .utf16le, .str c.cpuarch .utf8, .str c.hostname .utf16le, .str c.usersid .utf8,
    .str c.os .utf8, .str c.logonserverip .utf8]

def fromBuffer : Buf WSNGetInfoReply := do
  let token ← Buf.read 16
  let pid ← readStrInt
  let username ← readStr .utf16le
  let domain ← readStr .utf16le
  let logonserver ← readStr .utf16le
  let cpuarch ← readStr
  let hostname ← readStr .utf16le
  let usersid ← readStr
  let os ← readStr
  let logonserverip ← readStr
  return { token, pid, username, domain, logonserver, cpuarch, hostname, usersid, os, logonserverip }

theorem codes {c : WSNGetInfoReply} (h : c.token.length = 16) : Codes (writeFields c.fields) fromBuffer c :=
  .cons (codes_read h) <| .cons (codes_strInt _) <| .cons (codes_str _ _) <| .cons (codes_str _ _) <|
    .cons (codes_str _ _) <| .cons (codes_str _ _) <| .cons (codes_str _ _) <| .cons (codes_str _ _) <|
    .cons (codes_str _ _) <| .cons (codes_str _ _) <| .nil _

end WSNGetInfoReply

structure WSNListAgentsReply where
  token : Bytes
  agentid : Bytes
  pid : Int
  username : String
  domain : String
  logonserver : String
  cpuarch : String
  hostname : String
  usersid : String
  deriving DecidableEq, Repr

namespace WSNListAgentsReply

def fields (c : WSNListAgentsReply) : List Field :=
  [.raw c.token, .bytes c.agentid, .strInt c.pid, .str c.username .utf16le, .str c.domain .utf16le,
    .str c.logonserver .utf16le, .str c.cpuarch .utf8, .str c.hostname .utf16le, .str c.usersid .utf8]

def fromBuffer : Buf WSNListAgentsReply := do
  let token ← Buf.read 16
  let agentid ← readBytes
  let pid ← readStrInt
  let username ← readStr .utf16le
  let domain ← readStr .utf16le
  let logonserver ← readStr .utf16le
  let cpuarch ← readStr
  let hostname ← readStr .utf16le
  let usersid ← readStr
  return { token, agentid, pid, username, domain, logonserver, cpuarch, hostname, usersid }

theorem codes {c : WSNListAgentsReply} (h : c.token.length = 16) : Codes (writeFields c.fields) fromBuffer c :=
  .cons (codes_read h) <| .cons (codes_bytes _) <| .cons (codes_strInt _) <| .cons (codes_str _ _) <|
    .cons (codes_str _ _) <| .cons (codes_str _ _) <| .cons (codes_str _ _) <| .cons (codes_str _ _) <|
    .cons (codes_str _ _) <| .nil _

end WSNListAgentsReply

end Wsnet
