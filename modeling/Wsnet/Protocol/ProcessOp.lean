import Wsnet.Protocol.FileOp

/-!
# The messages of `protocol/processop`

`WSNProcessList` carries a token only and is in `Protocol.Common`.
-/

namespace Wsnet

structure WSNProcessKill where
  token : Bytes
  pid : Int
  deriving DecidableEq, Repr

namespace WSNProcessKill

def fields (c : WSNProcessKill) : List Field := [.raw c.token, .int c.pid 8]

def fromBuffer : Buf WSNProcessKill := do
  let token ← Buf.read 16
  let pid ← readInt 8
  return { token, pid }

theorem codes {c : WSNProcessKill} (h : c.token.length = 16) : Codes (writeFields c.fields) fromBuffer c :=
  .cons (codes_read h) <| .cons (codes_int _ 8) <| .nil _

end WSNProcessKill

/-- What `start_time` and `cpu_time` hold: `None`, a `datetime` or a `timedelta` of so many whole
seconds (since the epoch, for a `datetime`), or the number the decoder puts there. -/
inductive ProcTime
  | none
  | datetime (timestamp : Int)
  | timedelta (totalSeconds : Int)
  | int (n : Int)
  deriving DecidableEq, Repr

namespace ProcTime

/-- `int(t.timestamp()).to_bytes(8, …) if t else b'\x00' * 8`; a `datetime` is always true. -/
def startBytes : ProcTime → Except PyErr Bytes
  | .none => .ok (beBytes 8 0)
  | .datetime n => intToBytes n 8
  | .timedelta n => if n = 0 then .ok (beBytes 8 0) else .error .attributeError
  | .int n => if n = 0 then .ok (beBytes 8 0) else .error .attributeError

/-- `int(t.total_seconds()).to_bytes(8, …) if t else b'\x00' * 8`. -/
def cpuBytes : ProcTime → Except PyErr Bytes
  | .none => .ok (beBytes 8 0)
  | .datetime _ => .error .attributeError
  | .timedelta n => intToBytes n 8
  | .int n => if n = 0 then .ok (beBytes 8 0) else .error .attributeError

end ProcTime

structure WSNProcessInfo where
  token : Bytes
  pid : Int
  name : String
  window_title : String
  binpath : String
  memory_usage : Int
  thread_count : Int
  start_time : ProcTime
  cpu_time : ProcTime
  is_responding : Bool
  main_window_title : String
  deriving DecidableEq, Repr

namespace WSNProcessInfo

def fields (c : WSNProcessInfo) : List Field :=
  [.raw c.token, .int c.pid 8, .str c.name .utf8, .str c.window_title .utf8, .str c.binpath .utf8,
    .int c.memory_usage 8, .int c.thread_count 8, .part c.start_time.startBytes, .part c.cpu_time.cpuBytes,
    .raw (flagByte c.is_responding), .str c.main_window_title .utf8]

def fromBuffer : Buf WSNProcessInfo := do
  let token ← Buf.read 16
  let pid ← readInt 8
  let name ← readStr
  let window_title ← readStr
  let binpath ← readStr
  let memory_usage ← readInt 8
  let thread_count ← readInt 8
  let start_time ← readInt 8
  let cpu_time ← readInt 8
  let is_responding ← readFlag
  let main_window_title ← readStr
  return { token, pid, name, window_title, binpath, memory_usage, thread_count, start_time := .int start_time,
           cpu_time := .int cpu_time, is_responding, main_window_title }

end WSNProcessInfo

structure WSNProcessStart where
  token : Bytes
  command : String
  arguments : String
  deriving DecidableEq, Repr

namespace WSNProcessStart

def fields (c : WSNProcessStart) : List Field := [.raw c.token, .str c.command .utf8, .str c.arguments .utf8]

def fromBuffer : Buf WSNProcessStart := do
  let token ← Buf.read 16
  let command ← readStr
  let arguments ← readStr
  return { token, command, arguments }

theorem codes {c : WSNProcessStart} (h : c.token.length = 16) : Codes (writeFields c.fields) fromBuffer c :=
  .cons (codes_read h) <| .cons (codes_str _ _) <| .cons (codes_str _ _) <| .nil _

end WSNProcessStart

structure WSNProcessSTD where
  token : Bytes
  outtype : Int
  data : String
  deriving DecidableEq, Repr

namespace WSNProcessSTD

def fields (c : WSNProcessSTD) : List Field := [.raw c.token, .int c.outtype 4, .str c.data .utf8]

def fromBuffer : Buf WSNProcessSTD := do
  let token ← Buf.read 16
  let outtype ← readInt 4
  let data ← readStr
  return { token, outtype, data }

theorem codes {c : WSNProcessSTD} (h : c.token.length = 16) : Codes (writeFields c.fields) fromBuffer c :=
  .cons (codes_read h) <| .cons (codes_int _ 4) <| .cons (codes_str _ _) <| .nil _

end WSNProcessSTD

end Wsnet
