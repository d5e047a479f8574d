import Wsnet.Protocol.Utils

/-!
# The messages of `protocol/fileop`

`WSNFileStat` carries a token only and is in `Protocol.Common`.
-/

namespace Wsnet

/-- The flag byte `b'\x01'` or `b'\x00'`. -/
def flagByte (b : Bool) : Bytes := [if b then 0x01 else 0x00]

/-- `bool(buff.read(1)[0])`. -/
def readFlag : Buf Bool := do
  let b ← Buf.read 1
  match b with
  | [] => Buf.ofExcept (.error .indexError)
  | x :: _ => return decide (x ≠ 0)

theorem codes_flag (b : Bool) : Codes (.ok (flagByte b)) readFlag b := by
  rintro _ ⟨⟩ rest
  cases b <;> rfl

/-- The classes with a path: `WSNDirLS`, `WSNDirMK`, `WSNDirRM` and `WSNFileRM`. -/
structure PathCmd (t : CMDType) where
  token : Bytes
  path : String
  deriving DecidableEq, Repr

abbrev WSNDirLS := PathCmd .DIRLS
abbrev WSNDirMK := PathCmd .DIRMK
abbrev WSNDirRM := PathCmd .DIRRM
abbrev WSNFileRM := PathCmd .FILERM

namespace PathCmd
variable {t : CMDType}

def fields (c : PathCmd t) : List Field := [.raw c.token, .str c.path .utf8]

def fromBuffer : Buf (PathCmd t) := do
  let token ← Buf.read 16
  let path ← readStr
  return { token, path }

theorem codes {c : PathCmd t} (h : c.token.length = 16) : Codes (writeFields c.fields) fromBuffer c :=
  .cons (codes_read h) <| .cons (codes_str _ _) <| .nil _

end PathCmd

/-- The classes with a source and a destination. -/
structure PathPairCmd (t : CMDType) where
  token : Bytes
  srcpath : String
  dstpath : String
  deriving DecidableEq, Repr

abbrev WSNDirCopy := PathPairCmd .DIRCOPY
abbrev WSNDirMove := PathPairCmd .DIRMOVE
abbrev WSNFileCopy := PathPairCmd .FILECOPY
abbrev WSNFileMove := PathPairCmd .FILEMOVE

namespace PathPairCmd
variable {t : CMDType}

def fields (c : PathPairCmd t) : List Field :=
  [.raw c.token, .str c.srcpath .utf8, .str c.dstpath .utf8]

def fromBuffer : Buf (PathPairCmd t) := do
  let token ← Buf.read 16
  let srcpath ← readStr
  let dstpath ← readStr
  return { token, srcpath, dstpath }

theorem codes {c : PathPairCmd t} (h : c.token.length = 16) : Codes (writeFields c.fields) fromBuffer c :=
  .cons (codes_read h) <| .cons (codes_str _ _) <| .cons (codes_str _ _) <| .nil _

end PathPairCmd

structure WSNFileOpen where
  token : Bytes
  path : String
  mode : String := "r"
  deriving DecidableEq, Repr

namespace WSNFileOpen

def fields (c : WSNFileOpen) : List Field := [.raw c.token, .str c.path .utf8, .str c.mode .utf8]

def fromBuffer : Buf WSNFileOpen := do
  let token ← Buf.read 16
  let path ← readStr
  let mode ← readStr
  return { token, path, mode }

theorem codes {c : WSNFileOpen} (h : c.token.length = 16) : Codes (writeFields c.fields) fromBuffer c :=
  .cons (codes_read h) <| .cons (codes_str _ _) <| .cons (codes_str _ _) <| .nil _

end WSNFileOpen

structure WSNFileRead where
  token : Bytes
  size : Int
  offset : Int := 0
  deriving DecidableEq, Repr

namespace WSNFileRead

def fields (c : WSNFileRead) : List Field := [.raw c.token, .int c.size 4, .int c.offset 8]

def fromBuffer : Buf WSNFileRead := do
  let token ← Buf.read 16
  let size ← readInt 4
  let offset ← readInt 8
  return { token, size, offset }

theorem codes {c : WSNFileRead} (h : c.token.length = 16) : Codes (writeFields c.fields) fromBuffer c :=
  .cons (codes_read h) <| .cons (codes_int _ 4) <| .cons (codes_int _ 8) <| .nil _

end WSNFileRead

structure WSNFileData where
  token : Bytes
  data : Bytes
  offset : Int := 0
  deriving DecidableEq, Repr

namespace WSNFileData

def fields (c : WSNFileData) : List Field := [.raw c.token, .int c.offset 8, .bytes c.data]

def fromBuffer : Buf WSNFileData := do
  let token ← Buf.read 16
  let offset ← readInt 8
  let data ← readBytes
  return { token, data, offset }

theorem codes {c : WSNFileData} (h : c.token.length = 16) : Codes (writeFields c.fields) fromBuffer c :=
  .cons (codes_read h) <| .cons (codes_int _ 8) <| .cons (codes_bytes _) <| .nil _

end WSNFileData

structure WSNFileEntry where
  token : Bytes
  root : String
  name : String
  is_dir : Bool
  size : Int := 0
  atime : Int := 0
  mtime : Int := 0
  ctime : Int := 0
  deriving DecidableEq, Repr

namespace WSNFileEntry

def fields (c : WSNFileEntry) : List Field :=
  [.raw c.token, .str c.root .utf8, .str c.name .utf8, .raw (flagByte c.is_dir), .int c.size 8, .int c.atime 8,
    .int c.mtime 8, .int c.ctime 8]

def fromBuffer : Buf WSNFileEntry := do
  let token ← Buf.read 16
  let root ← readStr
  let name ← readStr
  let is_dir ← readFlag
  let size ← readInt 8
  let atime ← readInt 8
  let mtime ← readInt 8
  let ctime ← readInt 8
  return { token, root, name, is_dir, size, atime, mtime, ctime }

theorem codes {c : WSNFileEntry} (h : c.token.length = 16) : Codes (writeFields c.fields) fromBuffer c :=
  .cons (codes_read h) <| .cons (codes_str _ _) <| .cons (codes_str _ _) <| .cons (codes_flag _) <|
    .cons (codes_int _ 8) <| .cons (codes_int _ 8) <| .cons (codes_int _ 8) <| .cons (codes_int _ 8) <| .nil _

end WSNFileEntry

end Wsnet
