import Wsnet.Protocol.Utils

/-!
# The messages of `protocol/authentication`

`WSNGetSessionKey` and `WSNGetSequenceNo` carry a token only and are in `Protocol.Common`.
-/

namespace Wsnet

structure WSNNTLMAuth where
  token : Bytes
  username : String := ""
  credusage : Int := 3
  ctxattr : Int := 0
  targetname : String := ""
  deriving DecidableEq, Repr

namespace WSNNTLMAuth

def fields (c : WSNNTLMAuth) : List Field :=
  [.raw c.token, .str c.username .utf8, .strInt c.credusage, .strInt c.ctxattr, .str c.targetname .utf8]

def fromBuffer : Buf WSNNTLMAuth := do
  let token ← Buf.read 16
  let username ← readStr
  let credusage ← readStrInt
  let ctxattr ← readStrInt
  let targetname ← readStr
  return { token, username, credusage, ctxattr, targetname }

theorem codes {c : WSNNTLMAuth} (h : c.token.length = 16) : Codes (writeFields c.fields) fromBuffer c :=
  .cons (codes_read h) <| .cons (codes_str _ _) <| .cons (codes_strInt _) <| .cons (codes_strInt _) <|
    .cons (codes_str _ _) <| .nil _

end WSNNTLMAuth

structure WSNKerberosAuth where
  token : Bytes
  targetname : String
  username : String := ""
  credusage : Int := 3
  ctxattr : Int := 0
  authdata : Bytes := []
  deriving DecidableEq, Repr

namespace WSNKerberosAuth

def fields (c : WSNKerberosAuth) : List Field :=
  [.raw c.token, .str c.username .utf8, .strInt c.credusage, .strInt c.ctxattr, .str c.targetname .utf8,
    .bytes c.authdata]

def fromBuffer : Buf WSNKerberosAuth := do
  let token ← Buf.read 16
  let username ← readStr
  let credusage ← readStrInt
  let ctxattr ← readStrInt
  let targetname ← readStr
  let authdata ← readBytes
  return { token, targetname, username, credusage, ctxattr, authdata }

theorem codes {c : WSNKerberosAuth} (h : c.token.length = 16) : Codes (writeFields c.fields) fromBuffer c :=
  .cons (codes_read h) <| .cons (codes_str _ _) <| .cons (codes_strInt _) <| .cons (codes_strInt _) <|
    .cons (codes_str _ _) <| .cons (codes_bytes _) <| .nil _

end WSNKerberosAuth

/-- `WSNNTLMAuthReply`, `WSNNTLMChallengeReply` and `WSNKerberosAuthReply`. -/
structure AuthReplyCmd (t : CMDType) where
  token : Bytes
  status : String
  ctxattr : Int
  authdata : Bytes
  deriving DecidableEq, Repr

abbrev WSNNTLMAuthReply := AuthReplyCmd .NTLMAUTHREPLY
abbrev WSNNTLMChallengeReply := AuthReplyCmd .NTLMCHALLREPLY
abbrev WSNKerberosAuthReply := AuthReplyCmd .KERBEROSREPLY

namespace AuthReplyCmd
variable {t : CMDType}

def fields (c : AuthReplyCmd t) : List Field :=
  [.raw c.token, .str c.status .utf8, .strInt c.ctxattr, .bytes c.authdata]

def fromBuffer : Buf (AuthReplyCmd t) := do
  let token ← Buf.read 16
  let status ← readStr
  let ctxattr ← readStrInt
  let authdata ← readBytes
  return { token, status, ctxattr, authdata }

theorem codes {c : AuthReplyCmd t} (h : c.token.length = 16) : Codes (writeFields c.fields) fromBuffer c :=
  .cons (codes_read h) <| .cons (codes_str _ _) <| .cons (codes_strInt _) <| .cons (codes_bytes _) <| .nil _

end AuthReplyCmd

structure WSNNTLMChallenge where
  token : Bytes
  authdata : Bytes
  ctxattr : Int := 0
  targetname : String := ""
  deriving DecidableEq, Repr

namespace WSNNTLMChallenge

def fields (c : WSNNTLMChallenge) : List Field :=
  [.raw c.token, .bytes c.authdata, .strInt c.ctxattr, .str c.targetname .utf8]

def fromBuffer : Buf WSNNTLMChallenge := do
  let token ← Buf.read 16
  let authdata ← readBytes
  let ctxattr ← readStrInt
  let targetname ← readStr
  return { token, authdata, ctxattr, targetname }

theorem codes {c : WSNNTLMChallenge} (h : c.token.length = 16) : Codes (writeFields c.fields) fromBuffer c :=
  .cons (codes_read h) <| .cons (codes_bytes _) <| .cons (codes_strInt _) <| .cons (codes_str _ _) <| .nil _

end WSNNTLMChallenge

structure WSNSessionKeyReply where
  token : Bytes
  status : String
  sessionkey : Bytes
  deriving DecidableEq, Repr

namespace WSNSessionKeyReply

def fields (c : WSNSessionKeyReply) : List Field :=
  [.raw c.token, .str c.status .utf8, .bytes c.sessionkey]

def fromBuffer : Buf WSNSessionKeyReply := do
  let token ← Buf.read 16
  let status ← readStr
  let sessionkey ← readBytes
  return { token, status, sessionkey }

theorem codes {c : WSNSessionKeyReply} (h : c.token.length = 16) : Codes (writeFields c.fields) fromBuffer c :=
  .cons (codes_read h) <| .cons (codes_str _ _) <| .cons (codes_bytes _) <| .nil _

end WSNSessionKeyReply

structure WSNGetSequenceNoReply where
  token : Bytes
  status : String
  encdata : Bytes
  deriving DecidableEq, Repr

namespace WSNGetSequenceNoReply

def fields (c : WSNGetSequenceNoReply) : List Field :=
  [.raw c.token, .str c.status .utf8, .bytes c.encdata]

def fromBuffer : Buf WSNGetSequenceNoReply := do
  let token ← Buf.read 16
  let status ← readStr
  let encdata ← readBytes
  return { token, status, encdata }

theorem codes {c : WSNGetSequenceNoReply} (h : c.token.length = 16) : Codes (writeFields c.fields) fromBuffer c :=
  .cons (codes_read h) <| .cons (codes_str _ _) <| .cons (codes_bytes _) <| .nil _

end WSNGetSequenceNoReply

structure WSNAuthError where
  token : Bytes
  status : String
  msg : String
  deriving DecidableEq, Repr

namespace WSNAuthError

def fields (c : WSNAuthError) : List Field := [.raw c.token, .str c.status .utf8, .str c.msg .utf8]

def fromBuffer : Buf WSNAuthError := do
  let token ← Buf.read 16
  let status ← readStr
  let msg ← readStr
  return { token, status, msg }

theorem codes {c : WSNAuthError} (h : c.token.length = 16) : Codes (writeFields c.fields) fromBuffer c :=
  .cons (codes_read h) <| .cons (codes_str _ _) <| .cons (codes_str _ _) <| .nil _

end WSNAuthError

end Wsnet
