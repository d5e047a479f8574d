import Wsnet.Lib.Chunk
import Wsnet.Protocol.Kept

/-!
# The chunking senders

Four places of the browser side hand a byte string to the websocket: in one frame below 286295 bytes, and
in chunks of 286200 bytes from there on. `frames` is what one of them sends, and the exception that ended
it, if one did. The limit is on the frame, the test on the data: the two disagree on the data that are
shorter than the limit by less than a header (`size_and_payload_iff`).
-/

namespace Wsnet.Pyodide

/-- The maximum size of one websocket message, as the comments of the senders state it. -/
def maxMessage : Nat := 286295

def chunkSize : Nat := 286200

/-- The pieces of `data`, one for each frame. -/
def pieces (data : Bytes) : List Bytes :=
  if data.length < maxMessage then [data] else readChunks chunkSize data

/-- A frame for each piece, until one cannot be built. -/
def frames (mk : Bytes → CMD) : List Bytes → List Bytes × Option PyErr
  | [] => ([], none)
  | piece :: rest =>
    match (mk piece).toBytes with
    | .ok frame => (frame :: (frames mk rest).1, (frames mk rest).2)
    | .error e => ([], some e)

/-- Send a command, and drop the exception if its frame cannot be built. -/
def trySend (c : CMD) : List Bytes :=
  match c.toBytes with
  | .ok frame => [frame]
  | .error _ => []

/-- `WSNETConnection.connection_handler_out`, for one item of its queue; `None` and `b''` end it. -/
def WSNETConnection.handlerOut (token data : Bytes) : List Bytes × Option PyErr :=
  if data = [] then ([], none) else frames (fun chunk => .SD ⟨token, chunk⟩) (pieces data)

/-- `WSNETWSInterface.sendSocketData`, once the connection is established. -/
def WSNETWSInterface.sendSocketData (token data : Bytes) : List Bytes × Option PyErr :=
  if data = [] then ([], none) else frames (fun chunk => .SD ⟨token, chunk⟩) (pieces data)

/-- `WSNetworkServerTCPWriter.write`; an empty write is sent, it closes the connection. -/
def WSNetworkServerTCPWriter.write (token connectiontoken data : Bytes) : List Bytes × Option PyErr :=
  frames (fun chunk => .SDSRV { token, connectiontoken, data := chunk }) (pieces data)

/-- `WSNetworkUDP.__handle_out`, for one item of its queue; empty data end it. -/
def WSNetworkUDP.handleOut (token data : Bytes) (addr : String × Int) : List Bytes × Option PyErr :=
  if data = [] then ([], none) else
    frames (fun chunk =>
      .SDSRV { token, connectiontoken := List.replicate 16 0, data := chunk, clientip := addr.1, clientport := addr.2 })
      (pieces data)

/-- What a frame carries. -/
def payload (frame : Bytes) : Bytes :=
  match CMD.fromBytes frame with
  | .ok (.SD c) => c.data
  | .ok (.SDSRV c) => c.data
  | _ => []

def payloads (fs : List Bytes) : Bytes := (fs.map payload).flatten

theorem trySend_eq {c : CMD} {b : Bytes} (h : c.toBytes = .ok b) : trySend c = [b] := by
  rw [trySend, h]

theorem mem_trySend {c : CMD} {f : Bytes} : f ∈ trySend c ↔ c.toBytes = .ok f := by
  unfold trySend
  split
  · rename_i frame hframe
    rw [List.mem_singleton, hframe, Except.ok.injEq, eq_comm]
  · rename_i err herr
    simp [herr]

theorem exists_of_mem_frames {mk : Bytes → CMD} {ps : List Bytes} {f : Bytes} (hf : f ∈ (frames mk ps).1) :
    ∃ p ∈ ps, (mk p).toBytes = .ok f := by
  induction ps with
  | nil => simp [frames] at hf
  | cons p ps ih =>
    unfold frames at hf
    split at hf
    · rename_i frame hframe
      rcases List.mem_cons.1 hf with rfl | hf
      · exact ⟨p, List.mem_cons_self, hframe⟩
      · obtain ⟨q, hq, hqf⟩ := ih hf
        exact ⟨q, List.mem_cons_of_mem p hq, hqf⟩
    · simp at hf

theorem flatten_pieces (data : Bytes) : (pieces data).flatten = data := by
  unfold pieces
  split
  · simp
  · exact flatten_readChunks (by decide) data

theorem length_of_mem_pieces {data p : Bytes} (hp : p ∈ pieces data) :
    p = data ∧ data.length < maxMessage ∨ p.length ≤ chunkSize ∧ maxMessage ≤ data.length := by
  unfold pieces at hp
  split at hp
  · rename_i h
    exact .inl ⟨List.mem_singleton.1 hp, h⟩
  · rename_i h
    exact .inr ⟨length_le_of_mem_readChunks (by decide) hp, not_lt.1 h⟩

/-- The frames of `mk` are written for all data that fit, with `header` bytes more than the data they carry. -/
structure Carries (mk : Bytes → CMD) (header : Nat) : Prop where
  written : ∀ d : Bytes, header + d.length < 256 ^ 4 → ∃ b, (mk d).toBytes = .ok b
  length : ∀ {d b : Bytes}, (mk d).toBytes = .ok b → b.length = header + d.length
  payload : ∀ {d b : Bytes}, (mk d).toBytes = .ok b → payload b = d

namespace Carries
variable {mk : Bytes → CMD} {header : Nat}

theorem frames_spec (h : Carries mk header) {ps : List Bytes} (hfit : ∀ p ∈ ps, header + p.length < 256 ^ 4) :
    (frames mk ps).2 = none ∧ payloads (frames mk ps).1 = ps.flatten ∧
      (frames mk ps).1.map List.length = ps.map fun p => header + p.length := by
  induction ps with
  | nil => exact ⟨rfl, rfl, rfl⟩
  | cons p ps ih =>
    obtain ⟨b, hb⟩ := h.written p (hfit p List.mem_cons_self)
    obtain ⟨hnone, hpay, hlen⟩ := ih fun q hq => hfit q (List.mem_cons_of_mem _ hq)
    simp only [frames, hb, payloads, List.map_cons, List.flatten_cons, h.payload hb, h.length hb]
    exact ⟨hnone, by rw [← hpay]; rfl, by rw [hlen]⟩

/-- Only data that stay below the limit by less than a header make a frame too large. -/
theorem pieces_iff (h : Carries mk header) (hheader : chunkSize + header ≤ maxMessage) (data : Bytes) :
    ((∀ f ∈ (frames mk (pieces data)).1, f.length ≤ maxMessage) ∧ payloads (frames mk (pieces data)).1 = data) ↔
      data.length + header ≤ maxMessage ∨ maxMessage ≤ data.length := by
  have hmax : maxMessage + maxMessage < 256 ^ 4 := by decide
  have hfit : ∀ p ∈ pieces data, header + p.length < 256 ^ 4 := by
    intro p hp
    rcases length_of_mem_pieces hp with ⟨rfl, hlt⟩ | ⟨hle, -⟩ <;> omega
  obtain ⟨-, hpay, hlen⟩ := h.frames_spec hfit
  rw [hpay, flatten_pieces]
  have hall : (∀ f ∈ (frames mk (pieces data)).1, f.length ≤ maxMessage) ↔
      ∀ p ∈ pieces data, header + p.length ≤ maxMessage := by
    calc (∀ f ∈ (frames mk (pieces data)).1, f.length ≤ maxMessage)
        ↔ ∀ n ∈ (frames mk (pieces data)).1.map List.length, n ≤ maxMessage := by simp
      _ ↔ ∀ p ∈ pieces data, header + p.length ≤ maxMessage := by rw [hlen]; simp
  rw [hall, and_iff_left rfl]
  constructor
  · intro hp
    by_cases hlt : data.length < maxMessage
    · have := hp data (by simp [pieces, hlt])
      omega
    · exact .inr (not_lt.1 hlt)
  · intro hd p hp
    rcases length_of_mem_pieces hp with ⟨rfl, hlt⟩ | ⟨hle, -⟩ <;> omega

end Carries

theorem carries_SD {token : Bytes} (ht : token.length = 16) : Carries (fun chunk => .SD ⟨token, chunk⟩) 22 where
  written d hd := by
    refine CMD.toBytes_of_fits (fun f hf => ?_) ?_
    · simp only [CMD.fields, WSNSocketData.fields, List.mem_cons, List.not_mem_nil, or_false] at hf
      rcases hf with rfl | rfl <;> rfl
    · simp only [CMD.frameLength, CMD.fields, WSNSocketData.fields, List.map_cons, List.map_nil, Field.size,
        List.sum_cons,
        List.sum_nil]
      omega
  length hb := by
    rw [CMD.length_of_toBytes hb]
    simp only [CMD.frameLength, CMD.fields, WSNSocketData.fields, List.map_cons, List.map_nil, Field.size,
      List.sum_cons,
      List.sum_nil]
    omega
  payload hb := by
    rw [payload, CMD.fromBytes, CMD.fromBuffer_toBytes_SD ht hb]
    rfl

theorem carries_SDSRV {token connectiontoken : Bytes} {clientip : String} {clientport : Int} (ht : token.length = 16)
    (hct : connectiontoken.length = 16) (hport : 0 ≤ clientport ∧ clientport < 65536) :
    Carries (fun chunk => .SDSRV { token, connectiontoken, data := chunk, clientip, clientport })
      (40 + addressSize clientip) where
  written d hd := by
    refine CMD.toBytes_of_fits (fun f hf => ?_) ?_
    · simp only [CMD.fields, WSNServerSocketData.fields, List.mem_append, List.mem_cons, List.not_mem_nil,
        or_false] at hf
      rcases hf with ((rfl | rfl) | hf) | rfl | rfl
      · rfl
      · rfl
      · exact inWidth_of_mem_addressParts (by omega) le_rfl hf
      · exact hport
      · rfl
    · simp only [CMD.frameLength, CMD.fields, WSNServerSocketData.fields, List.map_append, List.sum_append,
        size_addressParts, List.map_cons, List.map_nil, Field.size, List.sum_cons, List.sum_nil]
      omega
  length hb := by
    rw [CMD.length_of_toBytes hb]
    simp only [CMD.frameLength, CMD.fields, WSNServerSocketData.fields, List.map_append, List.sum_append,
      size_addressParts, List.map_cons, List.map_nil, Field.size, List.sum_cons, List.sum_nil]
    omega
  payload hb := by
    obtain ⟨ip, hip⟩ := CMD.fromBytes_of_toBytes_SDSRV hb ht hct
    rw [payload, hip]

/-- A port that does not fit in two bytes stops the first frame. -/
theorem frames_of_port (token connectiontoken : Bytes) (clientip : String) {clientport : Int}
    (hport : ¬ (0 ≤ clientport ∧ clientport < 65536)) (p : Bytes) (ps : List Bytes) :
    ∃ e, frames (fun chunk => .SDSRV { token, connectiontoken, data := chunk, clientip, clientport }) (p :: ps) =
      ([], some e) := by
  rw [frames]
  cases h : (CMD.SDSRV { token, connectiontoken, data := p, clientip, clientport }).toBytes with
  | error e => exact ⟨e, rfl⟩
  | ok b =>
    obtain ⟨body, hw, -, -⟩ := CMD.toBytes_eq_ok.1 h
    obtain ⟨_, tail, -, htail, -⟩ := CMD.writeFields_append.1 hw
    obtain ⟨port, _, hp, -, -⟩ := concat_cons_eq_ok.1 htail
    exact absurd (intToBytes_eq_ok.1 hp).1 hport

/-- One of the four senders, with what it puts in front of the data. -/
inductive Sender
  | connectionHandlerOut (token : Bytes)
  | sendSocketData (token : Bytes)
  | serverWriter (token connectiontoken : Bytes)
  | udp (token : Bytes) (addr : String × Int)

namespace Sender

def send : Sender → Bytes → List Bytes × Option PyErr
  | connectionHandlerOut token, data => WSNETConnection.handlerOut token data
  | sendSocketData token, data => WSNETWSInterface.sendSocketData token data
  | serverWriter token connectiontoken, data => WSNetworkServerTCPWriter.write token connectiontoken data
  | udp token addr, data => WSNetworkUDP.handleOut token data addr

/-- How much longer a frame is than the data it carries. -/
def header : Sender → Nat
  | connectionHandlerOut _ => 22
  | sendSocketData _ => 22
  | serverWriter _ _ => 45
  | udp _ addr =>
    match ipAddress addr.1 with
    | .ok (.v6 _ _ _) => 57
    | _ => 45

/-- Tokens are 16 bytes long, and the address of a datagram is an IP literal. -/
def WellFormed : Sender → Prop
  | connectionHandlerOut token => token.length = 16
  | sendSocketData token => token.length = 16
  | serverWriter token connectiontoken => token.length = 16 ∧ connectiontoken.length = 16
  | udp token addr => token.length = 16 ∧ ∃ ip, ipAddress addr.1 = .ok ip

/-- The port of a datagram's address fits in two bytes. -/
def PortFits : Sender → Prop
  | udp _ addr => 0 ≤ addr.2 ∧ addr.2 < 65536
  | _ => True

theorem header_udp {token : Bytes} {addr : String × Int} (h : ∃ ip, ipAddress addr.1 = .ok ip) :
    (udp token addr).header = 40 + addressSize addr.1 ∧ (udp token addr).header ≤ 57 := by
  obtain ⟨ip, hip⟩ := h
  cases ip <;> simp [header, addressSize, hip]

/-- Every sender writes the frames of one kind of message; three of the four send nothing for no data. -/
theorem carries {s : Sender} (hs : s.WellFormed) (hport : s.PortFits) : ∃ mk, Carries mk s.header ∧
    ∀ data, s.send data = frames mk (pieces data) ∨ data = [] ∧ s.send data = ([], none) := by
  have hguard : ∀ (data : Bytes) (r : List Bytes × Option PyErr),
      (if data = [] then ([], none) else r) = r ∨ data = [] ∧ (if data = [] then ([], none) else r) = ([], none) := by
    intro data r
    by_cases h : data = [] <;> simp [h]
  cases s with
  | connectionHandlerOut token => exact ⟨_, carries_SD hs, fun data => hguard data _⟩
  | sendSocketData token => exact ⟨_, carries_SD hs, fun data => hguard data _⟩
  | serverWriter token connectiontoken =>
    exact ⟨_, carries_SDSRV hs.1 hs.2 ⟨le_refl 0, by omega⟩, fun data => .inl rfl⟩
  | udp token addr =>
    rw [(header_udp hs.2).1]
    exact ⟨_, carries_SDSRV hs.1 (List.length_replicate ..) hport, fun data => hguard data _⟩

theorem header_le {s : Sender} (hs : s.WellFormed) : s.header ≤ 57 := by
  cases s with
  | connectionHandlerOut token => simp [header]
  | sendSocketData token => simp [header]
  | serverWriter token connectiontoken => simp [header]
  | udp token addr => exact (header_udp hs.2).2

theorem send_of_not_portFits {s : Sender} (hport : ¬ s.PortFits) (data : Bytes) : (s.send data).1 = [] := by
  cases s with
  | udp token addr =>
    by_cases hd : data = []
    · simp [send, WSNetworkUDP.handleOut, hd]
    · have hp : pieces data ≠ [] := by
        intro h
        have := flatten_pieces data
        rw [h] at this
        exact hd this.symm
      obtain ⟨p, ps, hps⟩ := List.exists_cons_of_ne_nil hp
      obtain ⟨e, he⟩ := frames_of_port token (List.replicate 16 0) addr.1 hport p ps
      simp only [send, WSNetworkUDP.handleOut, hd, if_false, hps, he]
  | _ => exact absurd trivial hport

/-- No frame is too large and nothing is lost, exactly outside the band of data that are below the limit but
not by a whole header. -/
theorem size_and_payload_iff (s : Sender) (hs : s.WellFormed) (data : Bytes) :
    ((∀ f ∈ (s.send data).1, f.length ≤ maxMessage) ∧ payloads (s.send data).1 = data) ↔
      (s.PortFits ∨ data = []) ∧ (data.length + s.header ≤ maxMessage ∨ maxMessage ≤ data.length) := by
  have hheader : s.header ≤ 57 := header_le hs
  by_cases hport : s.PortFits
  · obtain ⟨mk, hmk, hsend⟩ := carries hs hport
    rcases hsend data with h | ⟨rfl, h⟩
    · rw [h, hmk.pieces_iff (by simp only [chunkSize, maxMessage]; omega), and_iff_right (.inl hport)]
    · have hsmall : s.header ≤ maxMessage := by simp only [maxMessage]; omega
      simp [h, payloads, hsmall]
  · rw [send_of_not_portFits hport]
    simp only [payloads, List.map_nil, List.flatten_nil, List.not_mem_nil, false_imp_iff, implies_true, true_and, hport,
      false_or]
    constructor
    · rintro rfl
      exact ⟨rfl, .inl (by simp only [List.length_nil, maxMessage]; omega)⟩
    · exact fun h => h.1.symm

theorem size_and_payload_iff_udp :
    (∀ f ∈ ((udp (List.replicate 16 7) ("10.0.0.1", 53)).send [1, 2, 3]).1, f.length ≤ maxMessage) ∧
      payloads ((udp (List.replicate 16 7) ("10.0.0.1", 53)).send [1, 2, 3]).1 = [1, 2, 3] :=
  (size_and_payload_iff (udp (List.replicate 16 7) ("10.0.0.1", 53)) ⟨rfl, _, rfl⟩ [1, 2, 3]).2
    ⟨.inl ⟨by decide, by decide⟩, .inl (by decide)⟩

/-- 286280 bytes are below the threshold; their frame is 286302 bytes long. -/
theorem not_size_le : ¬ ∀ s : Sender, s.WellFormed → ∀ data,
    (∀ f ∈ (s.send data).1, f.length ≤ maxMessage) ∧ payloads (s.send data).1 = data := by
  intro h
  have hs : (sendSocketData (List.replicate 16 0)).WellFormed := rfl
  obtain ⟨mk, hmk, hsend⟩ := carries hs trivial
  have hlen : (List.replicate 286280 (0 : UInt8)).length = 286280 := List.length_replicate ..
  have hne : List.replicate 286280 (0 : UInt8) ≠ [] := by
    rw [← List.length_pos_iff, hlen]
    decide
  rcases hsend (List.replicate 286280 0) with heq | ⟨hnil, -⟩
  · have hband := (hmk.pieces_iff (by decide) (List.replicate 286280 0)).1 (by rw [← heq]; exact h _ hs _)
    rw [hlen] at hband
    revert hband
    decide
  · exact hne hnil

end Sender

end Wsnet.Pyodide
