import Wsnet.Lib.IpText
import Wsnet.Lib.Text
import Wsnet.Lib.TwoWay

/-!
# Dummy addresses

`getaddrinfo` answers with four random bytes, printed as an IPv4 address, and remembers in two global
tables which host they stand for; `create_connection` puts the host back. The address is drawn without
looking whether it stands for another host already.
-/

namespace Wsnet.Pyodide

/-- What a caller passes as the host. -/
inductive Host
  | none
  | text (s : String)
  | bytes (b : Bytes)
  deriving DecidableEq, Repr

/-- `try: host = host.decode()`, `except: pass` -/
def Host.decode : Host → Host
  | .bytes b =>
    match utf8Decode b with
    | .ok s => .text s
    | .error _ => .bytes b
  | host => host

/-- The four bytes of `os.urandom(4)`. -/
abbrev AddrMark := UInt8 × UInt8 × UInt8 × UInt8

/-- `socket.inet_ntoa` -/
def inet_ntoa (addr_mark : AddrMark) : String :=
  (IPAddress.v4 addr_mark.1 addr_mark.2.1 addr_mark.2.2.1 addr_mark.2.2.2).str

inductive AddressFamily
  | AF_INET
  deriving DecidableEq, Repr

inductive SocketKind
  | SOCK_STREAM
  deriving DecidableEq, Repr

/-- One entry of what `getaddrinfo` returns. -/
structure AddrInfo where
  family : AddressFamily := .AF_INET
  kind : SocketKind := .SOCK_STREAM
  proto : Int := 6
  canonname : String := ""
  sockaddr : String × Int
  deriving DecidableEq, Repr

structure LookupTables where
  /-- `WSNET_PROXY_ADDR_LOOKUP_TABLE` -/
  table : Dict String Host := Dict.empty
  /-- `WSNET_PROXY_ADDR_LOOKUP_TABLE_INV` -/
  inv : Dict Host String := Dict.empty

/-- A call of `getaddrinfo`, with what `os.urandom(4)` returns in it if it is asked. -/
structure LookupCall where
  host : Host
  port : Int
  addr_mark : AddrMark

namespace LookupTables

/-- `getaddrinfo` up to its last lookup -/
def mark (s : LookupTables) (host : Host) (addr_mark : AddrMark) : LookupTables :=
  if s.inv.contains host then s
  else { table := s.table.set (inet_ntoa addr_mark) host, inv := s.inv.set host (inet_ntoa addr_mark) }

/-- The tables afterwards and the answer; no answer is the `KeyError` of the last lookup. -/
def getaddrinfo (s : LookupTables) (c : LookupCall) : LookupTables × Option (List AddrInfo) :=
  let s := s.mark c.host.decode c.addr_mark
  (s, (s.inv.get? c.host.decode).map fun addr => [{ sockaddr := (addr, c.port) }])

/-- The host for which `create_connection` makes its connection object. -/
def create_connection (s : LookupTables) (host : Host) : Host :=
  match host with
  | .text addr => (s.table.get? addr).getD host
  | host => host

/-- The tables after the calls. -/
def after (s : LookupTables) (cs : List LookupCall) : LookupTables := cs.foldl (fun s c => (s.getaddrinfo c).1) s

end LookupTables

/-- The draws for hosts that are not in `seen`, each with its host. -/
def assigned (seen : List Host) : List LookupCall → List (Host × AddrMark)
  | [] => []
  | c :: cs =>
    if c.host.decode ∈ seen then assigned seen cs
    else (c.host.decode, c.addr_mark) :: assigned (seen ++ [c.host.decode]) cs

/-- What `os.urandom(4)` returned in the calls. -/
def draws (cs : List LookupCall) : List AddrMark := (assigned [] cs).map Prod.snd

/-- Each host asked for has the address it was given, which stands for it, so that a connection to the address
goes to the host. -/
def LeadsBack (cs : List LookupCall) : Prop :=
  ∀ cs₁ c cs₂, cs = cs₁ ++ c :: cs₂ → ∃ addr,
    ((LookupTables.after {} cs₁).getaddrinfo c).2 = some [{ sockaddr := (addr, c.port) }] ∧
    (LookupTables.after {} cs).inv.get? c.host.decode = some addr ∧
    (LookupTables.after {} cs).table.get? addr = some c.host.decode ∧
    (LookupTables.after {} cs).create_connection (.text addr) = c.host.decode

theorem inet_ntoa_injective : Function.Injective inet_ntoa := by
  intro m m' h
  have hm := ipAddress_str (a := .v4 m.1 m.2.1 m.2.2.1 m.2.2.2) nofun
  have hm' := ipAddress_str (a := .v4 m'.1 m'.2.1 m'.2.2.1 m'.2.2.2) nofun
  rw [show (IPAddress.v4 m.1 m.2.1 m.2.2.1 m.2.2.2).str = (IPAddress.v4 m'.1 m'.2.1 m'.2.2.1 m'.2.2.2).str from h,
    hm'] at hm
  obtain ⟨h1, h2, h3, h4⟩ := IPAddress.v4.inj (Except.ok.inj hm)
  exact (Prod.ext h1 (Prod.ext h2 (Prod.ext h3 h4))).symm

theorem exists_call_of_mem_assigned {cs : List LookupCall} {host : Host} {addr_mark : AddrMark} {seen : List Host}
    (h : (host, addr_mark) ∈ assigned seen cs) : ∃ c ∈ cs, c.host.decode = host := by
  induction cs generalizing seen with
  | nil => cases h
  | cons c cs ih =>
    unfold assigned at h
    split at h
    · obtain ⟨c', hc', heq⟩ := ih h
      exact ⟨c', List.mem_cons_of_mem _ hc', heq⟩
    · rcases List.mem_cons.1 h with h | h
      · exact ⟨c, List.mem_cons_self, (Prod.mk.inj h).1.symm⟩
      · obtain ⟨c', hc', heq⟩ := ih h
        exact ⟨c', List.mem_cons_of_mem _ hc', heq⟩

namespace LookupTables
variable {s : LookupTables} {c : LookupCall} {cs cs₁ cs₂ : List LookupCall} {host : Host} {addr : String}

theorem after_append : s.after (cs₁ ++ cs₂) = (s.after cs₁).after cs₂ := List.foldl_append ..

theorem get?_inv_mark (s : LookupTables) (host : Host) (addr_mark : AddrMark) :
    ∃ addr, (s.mark host addr_mark).inv.get? host = some addr := by
  unfold mark
  split
  · exact Dict.contains_iff.1 ‹_›
  · exact ⟨_, Dict.get?_set_self ..⟩

/-- An address once given stays. -/
theorem get?_inv_after (h : s.inv.get? host = some addr) : (s.after cs).inv.get? host = some addr := by
  induction cs generalizing s with
  | nil => exact h
  | cons c cs ih =>
    refine ih ?_
    show (s.mark c.host.decode c.addr_mark).inv.get? host = some addr
    unfold mark
    split
    · exact h
    · rename_i hnot
      rwa [Dict.get?_set_ne]
      rintro rfl
      exact hnot (Dict.contains_iff.2 ⟨addr, h⟩)

/-- What `getaddrinfo` enters is what it draws. -/
theorem filled_after {ps : List (Host × String)} (h : Filled ps s.inv s.table) :
    Filled (ps ++ (assigned (ps.map Prod.fst) cs).map (Prod.map id inet_ntoa)) (s.after cs).inv (s.after cs).table := by
  induction cs generalizing s ps with
  | nil => simpa [assigned, after] using h
  | cons c cs ih =>
    show Filled _ ((s.mark c.host.decode c.addr_mark).after cs).inv ((s.mark c.host.decode c.addr_mark).after cs).table
    unfold mark
    split
    · rename_i hc
      rw [assigned, if_pos (h.contains_iff.1 hc)]
      exact ih h
    · rename_i hc
      rw [assigned, if_neg (mt h.contains_iff.2 hc), List.map_cons, List.append_cons]
      have hsnoc := ih (s := ⟨_, _⟩) (h.snoc (Bool.not_eq_true _ ▸ hc) (inet_ntoa c.addr_mark))
      rwa [List.map_append] at hsnoc

theorem filled (cs : List LookupCall) :
    Filled ((assigned [] cs).map (Prod.map id inet_ntoa)) (after {} cs).inv (after {} cs).table := by
  have hnil : Filled ([] : List (Host × String)) ({} : LookupTables).inv ({} : LookupTables).table := .nil
  exact filled_after hnil

end LookupTables

open LookupTables

/-- The tables are inverse to each other. -/
theorem leadsBack_iff_inverse {cs : List LookupCall} : LeadsBack cs ↔ ∀ host addr,
    (after {} cs).inv.get? host = some addr → (after {} cs).table.get? addr = some host := by
  constructor
  · intro h host addr hinv
    obtain ⟨p, hp, heq⟩ := List.mem_map.1 ((filled cs).mem_there.1 hinv)
    have hassigned : (host, p.2) ∈ assigned [] cs := by
      rw [← (Prod.mk.inj heq).1]
      exact hp
    obtain ⟨c, hc, rfl⟩ := exists_call_of_mem_assigned hassigned
    obtain ⟨cs₁, cs₂, hcs⟩ := List.append_of_mem hc
    obtain ⟨addr', -, hinv', htable, -⟩ := h cs₁ c cs₂ hcs
    rw [hinv] at hinv'
    cases hinv'
    exact htable
  · intro h cs₁ c cs₂ hcs
    obtain ⟨addr, haddr⟩ := get?_inv_mark (after {} cs₁) c.host.decode c.addr_mark
    have hinv : (after {} cs).inv.get? c.host.decode = some addr := by
      rw [hcs, after_append]
      exact get?_inv_after (s := ((after {} cs₁).getaddrinfo c).1) haddr
    have htable := h _ _ hinv
    refine ⟨addr, ?_, hinv, htable, ?_⟩
    · rw [getaddrinfo, haddr]
      rfl
    · rw [create_connection, htable]
      rfl

/-- Addresses lead back to their hosts as long as no two hosts draw the same one. -/
theorem leadsBack_iff (cs : List LookupCall) : LeadsBack cs ↔ (draws cs).Nodup := by
  rw [leadsBack_iff_inverse, (filled cs).inverse_iff, List.map_map, draws, ← List.nodup_map_iff inet_ntoa_injective,
    List.map_map]
  rfl

/-- `os.urandom(4)` returns the same four bytes for two hosts. -/
theorem not_leadsBack_sameDraw :
    ¬ LeadsBack [⟨.text "a.example", 80, (10, 0, 0, 1)⟩, ⟨.text "b.example", 80, (10, 0, 0, 1)⟩] := by
  rw [leadsBack_iff_inverse]
  intro h
  have := h (.text "a.example") "10.0.0.1" (by decide +kernel)
  revert this
  decide +kernel

end Wsnet.Pyodide
