import Wsnet.Lib.Cut
import Wsnet.Lib.Run
import Wsnet.Protocol.Connection

/-!
# The reader of an accepted connection

`WSNetworkServerTCPReader` keeps what it has taken from `in_queue` and not yet returned in `buffer`. A call runs
until it waits in `__read_one` for the next item of the queue; each item takes it on, to the next wait or to
its end. `readexactly` and `readuntil` are cuts of the byte stream, so what they return does not depend on how
the stream was cut into messages (`chunk_blind`). An empty message is no item that ends a call, which is how a
close of the peer goes unnoticed (`recognised_iff`).
-/

namespace Wsnet.Pyodide

/-- An item of `in_queue`. -/
structure QueueItem where
  datacmd : Option WSNServerSocketData
  err : Option String := none
  deriving DecidableEq, Repr

namespace WSNetworkServerTCPReader

/-- `readline()` is `readuntil(b'\n')`. -/
inductive Call
  | read (n : Int)
  | readexactly (n : Int)
  | readuntil (separator : Bytes)
  deriving DecidableEq, Repr

def Call.readline : Call := .readuntil [10]

/-- `l[:n]` and `l[n:]` cut a list here. -/
def sliceAt (length : Nat) (n : Int) : Nat :=
  if n < 0 then length - n.natAbs else n.toNat

def sliceTo (b : Bytes) (n : Int) : Bytes := b.take (sliceAt b.length n)

def sliceFrom (b : Bytes) (n : Int) : Bytes := b.drop (sliceAt b.length n)

end WSNetworkServerTCPReader

open WSNetworkServerTCPReader

/-- The reader between two turns. `bufferlock` is held exactly while a call waits. -/
structure WSNetworkServerTCPReader where
  buffer : Bytes := []
  closed_event : Bool := false
  /-- the call that is at its `await self.in_queue.get()` -/
  waiting : Option Call := none
  deriving DecidableEq, Repr

namespace WSNetworkServerTCPReader

/-- A call that is over, with what it returned or raised. -/
abbrev Output := Call × Except String Bytes

inductive Event
  | call (c : Call)
  /-- the call that waits gets the next item of `in_queue` -/
  | item (i : QueueItem)
  /-- the writer of the connection, or whoever else has the event, sets `closed_event` -/
  | close
  /-- the task in which the call waits is cancelled -/
  | cancel
  deriving DecidableEq, Repr

def at_eof (s : WSNetworkServerTCPReader) : Bool := s.closed_event && s.buffer.isEmpty

/-- `__read_one` behind its `await`. -/
def read_one (s : WSNetworkServerTCPReader) (i : QueueItem) :
    WSNetworkServerTCPReader × Except String (Nat × Option String) :=
  let s := match i.datacmd with
    | some datacmd => if datacmd.data ≠ [] then { s with buffer := s.buffer ++ datacmd.data } else s
    | none => s
  let s := if i.err.isSome then { s with closed_event := true } else s
  match i.datacmd with
  | some datacmd => (s, .ok (datacmd.data.length, i.err))
  | none => (s, .error "AttributeError")

/-- The `return temp` of a call. -/
def finish (s : WSNetworkServerTCPReader) (c : Call) (temp rest : Bytes) : WSNetworkServerTCPReader × List Output :=
  ({ s with buffer := rest, waiting := none }, [(c, .ok temp)])

/-- The `except` block of a call. -/
def raised (s : WSNetworkServerTCPReader) (c : Call) (e : String) : WSNetworkServerTCPReader × List Output :=
  ({ s with closed_event := true, waiting := none }, [(c, .error e)])

/-- `read` behind the `if len(self.buffer) == 0` -/
def readRest (s : WSNetworkServerTCPReader) (n : Int) : WSNetworkServerTCPReader × List Output :=
  if n = -1 then s.finish (.read n) s.buffer []
  else s.finish (.read n) (sliceTo s.buffer n) (sliceFrom s.buffer n)

/-- `readexactly` from its `while` on. -/
def readexactlyLoop (s : WSNetworkServerTCPReader) (n : Int) : WSNetworkServerTCPReader × List Output :=
  if s.buffer.length < n then ({ s with waiting := some (.readexactly n) }, [])
  else s.finish (.readexactly n) (sliceTo s.buffer n) (sliceFrom s.buffer n)

/-- `readuntil` from its `while` on. -/
def readuntilLoop (s : WSNetworkServerTCPReader) (separator : Bytes) : WSNetworkServerTCPReader × List Output :=
  match find separator s.buffer with
  | none => ({ s with waiting := some (.readuntil separator) }, [])
  | some i => s.finish (.readuntil separator) (s.buffer.take (i + separator.length))
      (s.buffer.drop (i + separator.length))

def start (s : WSNetworkServerTCPReader) : Call → WSNetworkServerTCPReader × List Output
  | .read n =>
    if s.closed_event then (s, [(.read n, .ok [])])
    else if s.buffer.length = 0 then ({ s with waiting := some (.read n) }, [])
    else s.readRest n
  | .readexactly n =>
    if s.closed_event then s.raised (.readexactly n) "Pipe broken!"
    else if n < 1 then s.raised (.readexactly n) "Readexactly must be a positive integer!"
    else s.readexactlyLoop n
  | .readuntil separator =>
    if s.closed_event then s.raised (.readuntil separator) "Pipe broken!"
    else s.readuntilLoop separator

/-- A call goes on from the `await` with the item that it has got. -/
def resume (s : WSNetworkServerTCPReader) (c : Call) (i : QueueItem) : WSNetworkServerTCPReader × List Output :=
  match s.read_one i with
  | (s, .error e) => s.raised c e
  | (s, .ok (_, some err)) => s.raised c err
  | (s, .ok (_, none)) =>
    match c with
    | .read n => s.readRest n
    | .readexactly n => s.readexactlyLoop n
    | .readuntil separator => s.readuntilLoop separator

def step (s : WSNetworkServerTCPReader) : Event → Option (WSNetworkServerTCPReader × List Output)
  | .call c => if s.waiting = none then some (s.start c) else none
  | .item i => s.waiting.map fun c => s.resume c i
  | .close => some ({ s with closed_event := true }, [])
  -- `except Exception` does not catch a `CancelledError`
  | .cancel => s.waiting.map fun c => ({ s with waiting := none }, [(c, .error "CancelledError")])

/-! ### What a turn does -/

/-- The bytes that the calls which are over have returned, one by one. -/
def results (os : List Output) : List Bytes := os.filterMap fun o => o.2.toOption

/-- The payload of an item. -/
def QueueItem.data (i : QueueItem) : Bytes := (i.datacmd.map (·.data)).getD []

/-- What an event takes from the queue. -/
def Event.data : Event → Bytes
  | .item i => QueueItem.data i
  | .call _ | .close | .cancel => []

def Event.calls : Event → List Call
  | .call c => [c]
  | .item _ | .close | .cancel => []

/-- The messages dequeued so far, put together. -/
def dequeued (es : List Event) : Bytes := es.flatMap Event.data

/-- Where what a call returns ends; `read` takes what there is. -/
def Call.cut : Call → Option (Cut UInt8)
  | .read _ => none
  | .readexactly n => some (.exactly n.toNat)
  | .readuntil separator => some (.through separator)

/-- With this buffer the call waits. -/
def Call.Short : Call → Bytes → Prop
  | .read _, b => b = []
  | .readexactly n, b => b.length < n
  | .readuntil separator, b => find separator b = none

/-- How a turn of the call `c` ends when the buffer, with what has come, is `b`. -/
inductive Outcome (closed : Bool) (c : Call) (b : Bytes) : WSNetworkServerTCPReader → List Output → Prop
  | waits (h : c.Short b) : Outcome closed c b { buffer := b, closed_event := closed, waiting := some c } []
  | raises (closed_event : Bool) (e : String) : Outcome closed c b { buffer := b, closed_event } [(c, .error e)]
  | returns {temp rest : Bytes} (h : temp ++ rest = b)
      (hcut : ∀ cut, c.cut = some cut → cut.ends b = some temp.length) :
    Outcome closed c b { buffer := rest, closed_event := closed } [(c, .ok temp)]

/-- A call waits only while the buffer does not do for it. -/
def Waits (s : WSNetworkServerTCPReader) : Prop := ∀ c, s.waiting = some c → c.Short s.buffer

section Outcome
variable {s s' : WSNetworkServerTCPReader} {c : Call} {b : Bytes} {o : List Output}

theorem slice_append (b : Bytes) (n : Int) : sliceTo b n ++ sliceFrom b n = b := List.take_append_drop _ b

theorem readRest_outcome (s : WSNetworkServerTCPReader) (n : Int) :
    Outcome s.closed_event (.read n) s.buffer (s.readRest n).1 (s.readRest n).2 := by
  have hcut : ∀ (temp : Bytes) cut, (Call.read n).cut = some cut → cut.ends s.buffer = some temp.length :=
    fun _ _ h => by cases h
  rw [readRest]
  split
  · exact .returns (List.append_nil _) (hcut _)
  · exact .returns (slice_append _ _) (hcut _)

theorem readexactlyLoop_outcome (s : WSNetworkServerTCPReader) {n : Int} (hn : 1 ≤ n) :
    Outcome s.closed_event (.readexactly n) s.buffer (s.readexactlyLoop n).1 (s.readexactlyLoop n).2 := by
  rw [readexactlyLoop]
  split
  case isTrue hlt => exact .waits hlt
  case isFalse hle =>
    have hat : sliceAt s.buffer.length n = n.toNat := if_neg (by omega)
    have hlen : n.toNat ≤ s.buffer.length := by omega
    refine .returns (slice_append _ _) fun cut hcut => ?_
    cases hcut
    rw [sliceTo, hat, List.length_take, Nat.min_eq_left hlen]
    exact if_pos hlen

theorem readuntilLoop_outcome (s : WSNetworkServerTCPReader) (separator : Bytes) :
    Outcome s.closed_event (.readuntil separator) s.buffer (s.readuntilLoop separator).1
      (s.readuntilLoop separator).2 := by
  rw [readuntilLoop]
  split
  case h_1 hnone => exact .waits hnone
  case h_2 i hi =>
    refine .returns (List.take_append_drop _ _) fun cut hcut => ?_
    cases hcut
    have hends : (Cut.through separator).ends s.buffer = some (i + separator.length) := by
      show (find separator s.buffer).map _ = _
      rw [hi]
      rfl
    rw [hends, List.length_take, Nat.min_eq_left ((Cut.through separator).ends_le hends)]

theorem start_outcome (hs : s.waiting = none) (c : Call) :
    Outcome s.closed_event c s.buffer (s.start c).1 (s.start c).2 := by
  cases c with
  | read n =>
    rw [start]
    split
    · rcases s with ⟨buffer, closed, waiting⟩
      cases hs
      exact .returns rfl fun cut h => by cases h
    split
    case isTrue hlen => exact .waits (List.length_eq_zero_iff.1 hlen)
    case isFalse => exact s.readRest_outcome n
  | readexactly n =>
    rw [start]
    split
    · exact .raises _ _
    split
    case isTrue => exact .raises _ _
    case isFalse hn => exact s.readexactlyLoop_outcome (by omega)
  | readuntil separator =>
    rw [start]
    split
    · exact .raises _ _
    · exact s.readuntilLoop_outcome separator

theorem read_one_eq (s : WSNetworkServerTCPReader) (i : QueueItem) : s.read_one i =
    ({ s with buffer := s.buffer ++ QueueItem.data i, closed_event := s.closed_event || i.err.isSome },
      match i.datacmd with
      | some datacmd => .ok (datacmd.data.length, i.err)
      | none => .error "AttributeError") := by
  rcases i with ⟨_ | datacmd, _ | err⟩
  · simp [read_one, QueueItem.data]
  · simp [read_one, QueueItem.data]
  · by_cases hdata : datacmd.data = [] <;> simp [read_one, QueueItem.data, hdata]
  · by_cases hdata : datacmd.data = [] <;> simp [read_one, QueueItem.data, hdata]

theorem resume_outcome (hc : c.Short s.buffer) (i : QueueItem) :
    Outcome s.closed_event c (s.buffer ++ QueueItem.data i) (s.resume c i).1 (s.resume c i).2 := by
  rcases i with ⟨_ | datacmd, _ | err⟩ <;> rw [resume, read_one_eq]
  · exact .raises _ _
  · exact .raises _ _
  · simp only [Option.isSome_none, Bool.or_false]
    cases c with
    | read n => exact readRest_outcome { s with buffer := s.buffer ++ datacmd.data } n
    | readexactly n =>
      have hn : (s.buffer.length : Int) < n := hc
      exact readexactlyLoop_outcome { s with buffer := s.buffer ++ datacmd.data } (by omega)
    | readuntil separator => exact readuntilLoop_outcome { s with buffer := s.buffer ++ datacmd.data } separator
  · exact .raises _ _

theorem Outcome.waits_short {closed : Bool} (h : Outcome closed c b s' o) : s'.Waits := by
  intro c' hc'
  cases h with
  | waits h =>
    cases hc'
    exact h
  | raises => cases hc'
  | returns => cases hc'

/-- A step sets the event, or is a turn of the one call that the event brings or that waits. -/
theorem step_cases {e : Event} (hs : s.Waits) (h : step s e = some (s', o)) :
    (e = .close ∧ s' = { s with closed_event := true } ∧ o = []) ∨
      ∃ c, s.waiting.toList ++ e.calls = [c] ∧ Outcome s.closed_event c (s.buffer ++ e.data) s' o := by
  cases e with
  | call c =>
    rw [step] at h
    split at h
    case isTrue hnone =>
      have hturn := start_outcome hnone c
      rw [Option.some.inj h] at hturn
      exact .inr ⟨c, by rw [hnone]; rfl, by rwa [Event.data, List.append_nil]⟩
    case isFalse => cases h
  | item i =>
    obtain ⟨c, hc, hr⟩ := Option.map_eq_some_iff.1 h
    have hturn := resume_outcome (hs c hc) i
    rw [hr] at hturn
    exact .inr ⟨c, by rw [hc]; rfl, hturn⟩
  | close =>
    cases h
    exact .inl ⟨rfl, rfl, rfl⟩
  | cancel =>
    obtain ⟨c, hc, hr⟩ := Option.map_eq_some_iff.1 h
    cases hr
    refine .inr ⟨c, by rw [hc]; rfl, ?_⟩
    rw [Event.data, List.append_nil]
    exact .raises _ _

theorem waits_step {e : Event} (hs : s.Waits) (h : step s e = some (s', o)) : s'.Waits := by
  rcases step_cases hs h with ⟨-, rfl, -⟩ | ⟨c, -, hturn⟩
  · exact hs
  · exact hturn.waits_short

theorem waits_run {es : List Event} (h : Run step {} es s o) : s.Waits :=
  h.state_invariant waits_step (fun _ hc => by cases hc)

end Outcome

/-! ### The stream -/

@[simp] theorem results_append (os os' : List Output) : results (os ++ os') = results os ++ results os' :=
  List.filterMap_append

@[simp] theorem results_ok (c : Call) (b : Bytes) : results [(c, .ok b)] = [b] := rfl

@[simp] theorem dequeued_append (es es' : List Event) : dequeued (es ++ es') = dequeued es ++ dequeued es' :=
  List.flatMap_append

@[simp] theorem dequeued_singleton (e : Event) : dequeued [e] = e.data := List.append_nil _

/-- What a call that returned `b` from the stream `rest` promises. -/
def Call.Returned : Call → Bytes → Bytes → Prop
  | .read _, _, _ => True
  | .readexactly n, rest, b => b <+: rest ∧ b.length = n.toNat
  | .readuntil separator, rest, b => ShortestEnding separator rest b

theorem Call.returned_of_cut {c : Call} {rest b : Bytes} (hb : b <+: rest)
    (hcut : ∀ cut, c.cut = some cut → cut.ends rest = some b.length) : c.Returned rest b := by
  cases c with
  | read n => trivial
  | readexactly n =>
    have hends : (if n.toNat ≤ rest.length then some n.toNat else none) = some b.length := hcut _ rfl
    split at hends
    · exact ⟨hb, (Option.some.inj hends).symm⟩
    · cases hends
  | readuntil separator =>
    have hshort := Cut.shortestEnding_of_through (hcut _ rfl)
    rwa [← List.prefix_iff_eq_take.1 hb] at hshort

/-- What holds of the stream behind the events `es`. -/
structure Intact (es : List Event) (s : WSNetworkServerTCPReader) (os : List Output) : Prop where
  calls : es.flatMap Event.calls = os.map Prod.fst ++ s.waiting.toList
  lossless : (results os).flatten ++ s.buffer = dequeued es
  returned : ∀ os₁ c b os₂, os = os₁ ++ (c, .ok b) :: os₂ → ∃ rest, (results os₁).flatten ++ rest = dequeued es ∧
    b <+: rest ∧ ∀ cut, c.cut = some cut → cut.ends rest = some b.length
  pieces : (∀ o ∈ os, (∃ b, o.2 = .ok b) ∧ ∀ n, o.1 ≠ .read n) →
    Wsnet.pieces ((os.map Prod.fst).filterMap Call.cut) (dequeued es) = some (results os)

section Intact
variable {es : List Event} {s s' : WSNetworkServerTCPReader} {e : Event} {os : List Output} {c : Call}
  {b temp rest : Bytes} {closed : Bool}

/-- More of the stream has come, and no call is over. -/
theorem Intact.more (h : Intact es s os) (hcalls : s.waiting.toList ++ e.calls = s'.waiting.toList)
    (hbuffer : s'.buffer = s.buffer ++ e.data) : Intact (es ++ [e]) s' os where
  calls := by
    rw [List.flatMap_append, h.calls, List.flatMap_singleton, List.append_assoc, hcalls]
  lossless := by
    rw [hbuffer, ← List.append_assoc, h.lossless, dequeued_append, dequeued_singleton]
  returned os₁ c b os₂ hos := by
    obtain ⟨rest, hrest, hb, hcut⟩ := h.returned os₁ c b os₂ hos
    refine ⟨rest ++ e.data, ?_, hb.trans (List.prefix_append _ _), fun cut hc => ?_⟩
    · rw [← List.append_assoc, hrest, dequeued_append, dequeued_singleton]
    · exact cut.ends_append _ (hcut cut hc)
  pieces hos := by
    rw [dequeued_append]
    exact pieces_append (h.pieces hos) _

/-- The call that waits raises. -/
theorem Intact.raise (h : Intact es { buffer := b, closed_event := closed, waiting := some c } os) (closed' : Bool)
    (x : String) : Intact es { buffer := b, closed_event := closed' } (os ++ [(c, .error x)]) where
  calls := by
    rw [h.calls, List.map_append, List.append_assoc]
    rfl
  lossless := by
    rw [results_append, List.flatten_append, List.append_assoc]
    exact h.lossless
  returned os₁ c' b' os₂ hos := by
    rcases split_concat hos with ⟨-, hlast⟩ | ⟨os₂', hos⟩
    · cases hlast
    · exact h.returned os₁ c' b' os₂' hos
  pieces hos := by
    obtain ⟨⟨b', hb'⟩, -⟩ := hos (c, .error x) (by simp)
    cases hb'

/-- The call that waits, or would have, returns. -/
theorem Intact.return (h : Intact es { buffer := b, closed_event := closed, waiting := some c } os)
    (htemp : temp ++ rest = b) (hcut : ∀ cut, c.cut = some cut → cut.ends b = some temp.length) :
    Intact es { buffer := rest, closed_event := closed } (os ++ [(c, .ok temp)]) where
  calls := by
    rw [h.calls, List.map_append, List.append_assoc]
    rfl
  lossless := by
    rw [results_append, results_ok, List.flatten_append, List.flatten_singleton, List.append_assoc,
      ← h.lossless, ← htemp]
  returned os₁ c' b' os₂ hos := by
    rcases split_concat hos with ⟨rfl, hlast⟩ | ⟨os₂', hos⟩
    · cases hlast
      exact ⟨b, h.lossless, ⟨rest, htemp⟩, hcut⟩
    · exact h.returned os₁ c' b' os₂' hos
  pieces hos := by
    have hpieces := h.pieces fun o ho => hos o (List.mem_append_left _ ho)
    obtain ⟨-, hread⟩ := hos (c, .ok temp) (by simp)
    cases hc : c.cut with
    | none =>
      cases c with
      | read n => exact absurd rfl (hread n)
      | readexactly n => cases hc
      | readuntil separator => cases hc
    | some cut =>
      have hends := hcut cut hc
      have htake : b.take temp.length = temp := by rw [← htemp, List.take_left]
      have hnext := pieces_concat hpieces h.lossless.symm hends
      rw [htake] at hnext
      rw [List.map_append, List.filterMap_append, results_append, results_ok]
      simpa [hc] using hnext

theorem Intact.step {o : List Output} (hw : s.Waits) (h : Intact es s os)
    (hs : WSNetworkServerTCPReader.step s e = some (s', o)) : Intact (es ++ [e]) s' (os ++ o) := by
  rcases step_cases hw hs with ⟨rfl, rfl, rfl⟩ | ⟨c, hcalls, hturn⟩
  · rw [List.append_nil]
    exact h.more (List.append_nil _) (List.append_nil _).symm
  have hmore : Intact (es ++ [e])
      { buffer := s.buffer ++ e.data, closed_event := s.closed_event, waiting := some c } os :=
    h.more hcalls rfl
  cases hturn with
  | waits =>
    rw [List.append_nil]
    exact hmore
  | raises closed x => exact hmore.raise closed x
  | returns htemp hcut => exact hmore.return htemp hcut

theorem intact_run (h : Run WSNetworkServerTCPReader.step {} es s os) : Intact es s os := by
  refine (h.history_invariant_of (P := fun es s os => s.Waits ∧ Intact es s os) (A := fun _ => True)
    (fun _ hp hs => ⟨waits_step hp.1 hs, hp.2.step hp.1 hs⟩) (fun _ _ => trivial) ⟨fun c hc => (by cases hc), ?_⟩).2
  exact ⟨rfl, rfl, fun os₁ c b os₂ hos => by simp at hos, fun _ => rfl⟩

end Intact

/-- Every call of the run is over and has returned. -/
def Completed (s : WSNetworkServerTCPReader) (os : List Output) : Prop :=
  s.waiting = none ∧ ∀ o ∈ os, ∃ b, o.2 = .ok b

theorem chunk_blind {es : List Event} {s : WSNetworkServerTCPReader} {os : List Output} (h : Run step {} es s os) :
    (results os).flatten ++ s.buffer = dequeued es ∧
    (∀ stream, dequeued es <+: stream → ∀ os₁ c b os₂, os = os₁ ++ (c, .ok b) :: os₂ →
      ∃ rest, stream = (results os₁).flatten ++ rest ∧ c.Returned rest b) ∧
    ∀ stream es' s' os', dequeued es <+: stream → dequeued es' <+: stream → Run step {} es' s' os' →
      es.flatMap Event.calls = es'.flatMap Event.calls → (∀ c ∈ es.flatMap Event.calls, ∀ n, c ≠ .read n) →
      Completed s os → Completed s' os' → results os = results os' := by
  have hint := intact_run h
  refine ⟨hint.lossless, fun stream hstream os₁ c b os₂ hos => ?_, ?_⟩
  · obtain ⟨later, rfl⟩ := hstream
    obtain ⟨rest, hrest, hb, hcut⟩ := hint.returned os₁ c b os₂ hos
    refine ⟨rest ++ later, by rw [← hrest, List.append_assoc], ?_⟩
    exact Call.returned_of_cut (hb.trans (List.prefix_append _ _)) fun cut hc => cut.ends_append _ (hcut cut hc)
  · intro stream es' s' os' hstream hstream' h' hsame hread hdone hdone'
    have hint' := intact_run h'
    have hcalls : os.map Prod.fst = es.flatMap Event.calls := by rw [hint.calls, hdone.1]; simp
    have hcalls' : os'.map Prod.fst = es.flatMap Event.calls := by rw [hsame, hint'.calls, hdone'.1]; simp
    have hps := hint.pieces fun o ho => ⟨hdone.2 o ho, hread _ (hcalls ▸ List.mem_map_of_mem ho)⟩
    have hps' := hint'.pieces fun o ho => ⟨hdone'.2 o ho, hread _ (hcalls' ▸ List.mem_map_of_mem ho)⟩
    rw [hcalls] at hps
    rw [hcalls'] at hps'
    exact pieces_unique hps hps' hstream hstream'

/-- A line that comes in one message, and in two. -/
def lineWhole : List Event := [.call .readline, .item ⟨some ⟨[], [], [1, 10, 2], "", 0⟩, none⟩]

def lineCut : List Event :=
  [.call .readline, .item ⟨some ⟨[], [], [1], "", 0⟩, none⟩, .item ⟨some ⟨[], [], [10, 2], "", 0⟩, none⟩]

theorem chunk_blind_line : ∃ s os s' os', Run step {} lineWhole s os ∧ Run step {} lineCut s' os' ∧ os ≠ [] ∧
    results os = results os' := by
  have h : Run step {} lineWhole { buffer := [2] } [(.readline, .ok [1, 10])] := .of_exec rfl
  have h' : Run step {} lineCut { buffer := [2] } [(.readline, .ok [1, 10])] := .of_exec rfl
  refine ⟨_, _, _, _, h, h', by simp,
    (chunk_blind h).2.2 [1, 10, 2] _ _ _ (List.prefix_rfl) List.prefix_rfl h' rfl ?_ ?_ ?_⟩
  · rintro c hc n rfl
    simp [lineWhole, Event.calls, Call.readline] at hc
  · exact ⟨rfl, by simp⟩
  · exact ⟨rfl, by simp⟩

/-! ### Reading to the end -/

/-- `read(-1)`, or `read(n)` of at least one byte. -/
def Call.IsRead (c : Call) : Prop := ∃ n, c = .read n ∧ (n = -1 ∨ 1 ≤ n)

/-- The reader is only read from, and its queue holds messages. -/
def Event.OnlyReads : Event → Prop
  | .call c => c.IsRead
  | .item i => ∃ cmd, i = ⟨some cmd, none⟩
  | .close | .cancel => False

/-- The payloads of the items, one by one. -/
def items (es : List Event) : List Bytes :=
  es.filterMap fun
    | .item i => some (QueueItem.data i)
    | _ => none

/-- Behind an empty item come only empty ones. -/
def Ends (ds : List Bytes) : Prop := ds.Pairwise fun d d' => d = [] → d' = []

theorem ends_of_not_mem {ds : List Bytes} (h : [] ∉ ds) : Ends ds :=
  List.pairwise_of_forall_mem_list fun _ hd _ _ hnil => absurd (hnil ▸ hd) h

theorem ends_append {ds ds' : List Bytes} (h : [] ∉ ds) (h' : ∀ d ∈ ds', d = []) : Ends (ds ++ ds') :=
  List.pairwise_append.2 ⟨ends_of_not_mem h, List.pairwise_of_forall_mem_list fun _ _ d' hd' _ => h' d' hd',
    fun _ _ d' hd' _ => h' d' hd'⟩

theorem Ends.of_prefix {ds ds' : List Bytes} (h : Ends ds) (hp : ds' <+: ds) : Ends ds' := h.sublist hp.sublist

theorem Ends.flatten_eq {ds ds' : List Bytes} (h : Ends (ds ++ ds')) (hmem : [] ∈ ds) :
    (ds ++ ds').flatten = ds.flatten := by
  have hnil : ds'.flatten = [] :=
    List.flatten_eq_nil_iff.2 fun d hd => (List.pairwise_append.1 h).2.2 [] hmem d hd rfl
  rw [List.flatten_append, hnil, List.append_nil]

/-- What holds of a reader that is only read from. -/
structure Reading (es : List Event) (s : WSNetworkServerTCPReader) (os : List Output) : Prop where
  opened : s.closed_event = false
  waits : ∀ c, s.waiting = some c → s.buffer = [] ∧ c.IsRead
  returned : ∀ o ∈ os, ∃ b, o.2 = .ok b
  marker : [] ∈ results os ↔ [] ∈ items es
  ended : Ends (items es) → [] ∈ items es → s.buffer = []

section Reading
variable {es : List Event} {s s' : WSNetworkServerTCPReader} {e : Event} {os o : List Output} {n : Int} {b : Bytes}

@[simp] theorem items_append (es es' : List Event) : items (es ++ es') = items es ++ items es' :=
  List.filterMap_append

/-- A read of what is there takes all of it, or some of it if there is some. -/
theorem readRest_spec (s : WSNetworkServerTCPReader) (hn : n = -1 ∨ 1 ≤ n) : ∃ temp rest, s.readRest n =
    ({ s with buffer := rest, waiting := none }, [(.read n, .ok temp)]) ∧ temp ++ rest = s.buffer ∧
      (temp = [] ↔ s.buffer = []) := by
  rw [readRest]
  split
  · exact ⟨s.buffer, [], rfl, List.append_nil _, Iff.rfl⟩
  case isFalse hne =>
    refine ⟨_, _, rfl, slice_append s.buffer n, ?_⟩
    have hat : sliceAt s.buffer.length n = n.toNat := if_neg (by omega)
    rw [sliceTo, hat, List.take_eq_nil_iff]
    constructor
    · rintro (h | h)
      · omega
      · exact h
    · exact .inr

theorem Reading.step (h : Reading es s os) (he : e.OnlyReads) (hs : step s e = some (s', o)) :
    Reading (es ++ [e]) s' (os ++ o) := by
  cases e with
  | close | cancel => cases he
  | call c =>
    obtain ⟨n, rfl, hn⟩ := he
    have hitems : items (es ++ [.call (.read n)]) = items es := by simp [items]
    rw [step] at hs
    split at hs
    case isFalse => cases hs
    rw [start, h.opened, if_neg Bool.false_ne_true] at hs
    split at hs
    case isTrue hlen =>
      cases hs
      have hnil := List.length_eq_zero_iff.1 hlen
      refine ⟨rfl, fun c hc => ?_, ?_, ?_, fun _ _ => hnil⟩
      · cases hc
        exact ⟨hnil, n, rfl, hn⟩
      · rw [List.append_nil]
        exact h.returned
      · rw [List.append_nil, hitems]
        exact h.marker
    case isFalse hlen =>
      have hne : s.buffer ≠ [] := fun hnil => hlen (List.length_eq_zero_iff.2 hnil)
      obtain ⟨temp, rest, hrest, -, hnil⟩ := s.readRest_spec hn
      rw [hrest] at hs
      cases hs
      have htemp : temp ≠ [] := fun ht => hne (hnil.1 ht)
      refine ⟨h.opened, fun c hc => (by cases hc), ?_, ?_, fun hends hmem => ?_⟩
      · rintro o ho
        rcases List.mem_append.1 ho with ho | ho
        · exact h.returned o ho
        · rw [List.mem_singleton.1 ho]
          exact ⟨temp, rfl⟩
      · rw [hitems, results_append, results_ok, List.mem_append, List.mem_singleton, ← h.marker]
        exact or_iff_left htemp.symm
      · rw [hitems] at hends hmem
        exact absurd (h.ended hends hmem) hne
  | item i =>
    obtain ⟨cmd, rfl⟩ := he
    obtain ⟨c, hc, hr⟩ := Option.map_eq_some_iff.1 hs
    obtain ⟨hbuf, n, rfl, hn⟩ := h.waits c hc
    have hitems : items (es ++ [.item ⟨some cmd, none⟩]) = items es ++ [cmd.data] := by
      simp [items, QueueItem.data]
    rw [resume, read_one_eq] at hr
    simp only [QueueItem.data, Option.map_some, Option.getD_some, hbuf, List.nil_append, Option.isSome_none,
      Bool.or_false] at hr
    obtain ⟨temp, rest, hrest, htemp, hnil⟩ := readRest_spec { s with buffer := cmd.data } hn
    rw [hrest] at hr
    cases hr
    refine ⟨h.opened, fun c hc => (by cases hc), ?_, ?_, fun hends hmem => ?_⟩
    · rintro o ho
      rcases List.mem_append.1 ho with ho | ho
      · exact h.returned o ho
      · rw [List.mem_singleton.1 ho]
        exact ⟨temp, rfl⟩
    · have hiff : [] = temp ↔ [] = cmd.data := eq_comm.trans (hnil.trans eq_comm)
      rw [hitems, results_append, results_ok, List.mem_append, List.mem_append, List.mem_singleton,
        List.mem_singleton, h.marker, hiff]
    · rw [hitems] at hends hmem
      have hdata : cmd.data = [] := by
        rcases List.mem_append.1 hmem with hmem | hmem
        · exact (List.pairwise_append.1 hends).2.2 [] hmem cmd.data (List.mem_singleton_self _) rfl
        · exact (List.mem_singleton.1 hmem).symm
      exact (List.append_eq_nil_iff.1 (htemp.trans hdata)).2

theorem reading_run (h : Run WSNetworkServerTCPReader.step {} es s os) (hes : ∀ e ∈ es, e.OnlyReads) :
    Reading es s os :=
  h.history_invariant_of (P := Reading) (fun he hp hs => hp.step he hs) hes
    ⟨rfl, fun c hc => (by cases hc), fun o ho => absurd ho List.not_mem_nil, Iff.rfl, fun _ _ => rfl⟩

/-- What a reader has returned once it has returned nothing: all of the stream. -/
theorem results_of_ended (h : Run WSNetworkServerTCPReader.step {} es s os) (hes : ∀ e ∈ es, e.OnlyReads)
    (hends : Ends (items es)) (hmem : [] ∈ results os) : (results os).flatten = dequeued es := by
  have hr := reading_run h hes
  rw [← (intact_run h).lossless, hr.ended hends (hr.marker.1 hmem), List.append_nil]

theorem dequeued_eq (es : List Event) : dequeued es = (items es).flatten := by
  induction es with
  | nil => rfl
  | cons e es ih =>
    cases e with
    | item i => simpa [dequeued, items, Event.data] using ih
    | call | close | cancel => simpa [dequeued, items, Event.data] using ih

end Reading

/-! ### The close of the peer -/

/-- The reader knows that nothing more comes. -/
structure Recognised (s : WSNetworkServerTCPReader) : Prop where
  /-- no call waits for another message -/
  idle : s.waiting = none
  at_eof : s.buffer = [] → s.at_eof = true
  read : ∀ n, ∃ s', s.start (.read n) = (s', [(.read n, .ok (if n = -1 then s.buffer else sliceTo s.buffer n))])
  readexactly : ∀ n, 1 ≤ n → s.buffer.length < n → ∃ s' e, s.start (.readexactly n) = (s', [(.readexactly n, .error e)])
  readuntil : ∀ separator, separator ≠ [] → find separator s.buffer = none →
    ∃ s' e, s.start (.readuntil separator) = (s', [(.readuntil separator, .error e)])

/-- The handler has closed its side, and has read everything. -/
structure Ended (s : WSNetworkServerTCPReader) : Prop where
  closed_event : s.closed_event = true
  buffer : s.buffer = []
  waiting : s.waiting = none

section Recognised
variable {s s' : WSNetworkServerTCPReader} {e : Event} {es : List Event} {o os : List Output} {c : Call}

/-- A call on a closed reader is over at once. -/
theorem start_of_closed (h : s.closed_event = true) (hs : s.waiting = none) (c : Call) :
    (s.start c).1.closed_event = true ∧ (s.start c).1.waiting = none ∧ (s.start c).1.buffer = s.buffer := by
  cases c <;> simp [start, h, hs, raised]

theorem Ended.step (h : s.Ended) (hs : step s e = some (s', o)) : s'.Ended := by
  cases e with
  | call c =>
    rw [WSNetworkServerTCPReader.step, if_pos h.waiting, Option.some.injEq] at hs
    have hstart := start_of_closed h.closed_event h.waiting c
    rw [hs] at hstart
    exact ⟨hstart.1, hstart.2.2.trans h.buffer, hstart.2.1⟩
  | close =>
    cases hs
    exact ⟨rfl, h.buffer, h.waiting⟩
  | item i => simp [WSNetworkServerTCPReader.step, h.waiting] at hs
  | cancel => simp [WSNetworkServerTCPReader.step, h.waiting] at hs

theorem Ended.recognised (h : s.Ended) : s.Recognised where
  idle := h.waiting
  at_eof _ := by simp [WSNetworkServerTCPReader.at_eof, h.closed_event, h.buffer]
  read n := ⟨s, by simp [start, h.closed_event, h.buffer, sliceTo]⟩
  readexactly n _ _ := ⟨_, _, by rw [start, if_pos h.closed_event]; rfl⟩
  readuntil separator _ _ := ⟨_, _, by rw [start, if_pos h.closed_event]; rfl⟩

/-- The close marker of the peer is an item of the queue like another. -/
theorem resume_marker {datacmd : WSNServerSocketData} (hdata : datacmd.data = []) (hc : c.Short s.buffer) :
    s.resume c ⟨some datacmd, none⟩ =
      match c with
      | .read n => ({ s with buffer := [], waiting := none }, [(.read n, .ok [])])
      | c => ({ s with waiting := some c }, []) := by
  rw [resume, read_one_eq]
  simp only [QueueItem.data, Option.map_some, Option.getD_some, hdata, List.append_nil, Option.isSome_none,
    Bool.or_false]
  cases c with
  | read n =>
    have hnil : s.buffer = [] := hc
    simp only [readRest, finish, hnil, sliceTo, sliceFrom, List.take_nil, List.drop_nil, ite_self]
  | readexactly n => exact if_pos hc
  | readuntil separator =>
    have hnone : find separator s.buffer = none := hc
    simp only [readuntilLoop, hnone]

/-- In a run in which nobody else sets the event, it is not set while a call waits. -/
theorem not_closed_of_run (h : Run step {} es s os) (hes : Event.close ∉ es) (hc : s.waiting = some c) :
    s.closed_event = false := by
  have hinv : s.Waits ∧ (s.waiting ≠ none → s.closed_event = false) :=
    h.invariant_of (P := fun s _ => s.Waits ∧ (s.waiting ≠ none → s.closed_event = false)) (A := (· ≠ .close))
      (fun {s s' e o os} he hp hs => ⟨waits_step hp.1 hs, fun hwait => ?_⟩) (fun e he heq => hes (heq ▸ he))
      ⟨fun c hc => (by cases hc), fun _ => rfl⟩
  · exact hinv.2 (by rw [hc]; exact Option.some_ne_none c)
  rcases step_cases hp.1 hs with ⟨rfl, -, -⟩ | ⟨c, -, hturn⟩
  · exact absurd rfl he
  cases hclosed : s.closed_event with
  | false =>
    rw [hclosed] at hturn
    cases hturn with
    | waits => rfl
    | raises => exact absurd rfl hwait
    | returns => exact absurd rfl hwait
  | true =>
    have hnone : s.waiting = none := by
      by_contra hne
      exact Bool.false_ne_true ((hp.2 hne).symm.trans hclosed)
    cases e with
    | call c =>
      rw [step, if_pos hnone, Option.some.injEq] at hs
      have hstart := start_of_closed hclosed hnone c
      rw [hs] at hstart
      exact absurd hstart.2.1 hwait
    | item i => simp [step, hnone] at hs
    | close => exact absurd rfl he
    | cancel => simp [step, hnone] at hs

end Recognised

theorem recognised_iff {es : List Event} {s : WSNetworkServerTCPReader} {os : List Output} (h : Run step {} es s os)
    {c : Call} (hc : s.waiting = some c) {datacmd : WSNServerSocketData} (hdata : datacmd.data = []) :
    ((∀ es' s' os', Run step s (.item ⟨some datacmd, none⟩ :: es') s' os' → s'.Recognised) ↔
      s.closed_event = true ∧ ∃ n, c = .read n) ∧
    (Event.close ∉ es → ¬ ∀ es' s' os', Run step s (.item ⟨some datacmd, none⟩ :: es') s' os' → s'.Recognised) := by
  have hstep : step s (.item ⟨some datacmd, none⟩) = some (s.resume c ⟨some datacmd, none⟩) := by
    rw [step, hc]
    rfl
  rw [resume_marker hdata (waits_run h c hc)] at hstep
  have hiff : (∀ es' s' os', Run step s (.item ⟨some datacmd, none⟩ :: es') s' os' → s'.Recognised) ↔
      s.closed_event = true ∧ ∃ n, c = .read n := by
    constructor
    · intro hall
      have hrec := hall [] _ _ (.single hstep)
      cases c with
      | read n =>
        have heof : (s.closed_event && true) = true := hrec.at_eof rfl
        exact ⟨by simpa using heof, n, rfl⟩
      | readexactly n => cases hrec.idle
      | readuntil separator => cases hrec.idle
    · rintro ⟨hclosed, n, rfl⟩ es' s' os' hrun
      cases hrun with
      | cons hs hrun =>
        rw [hstep] at hs
        cases hs
        exact (hrun.state_invariant Ended.step ⟨hclosed, rfl, rfl⟩).recognised
  refine ⟨hiff, fun hes hall => ?_⟩
  have hopen := not_closed_of_run h hes hc
  rw [(hiff.1 hall).1] at hopen
  cases hopen

/-- The handler closes its writer while it reads, and then the peer closes. -/
theorem recognised_iff_closedHere :
    ((∀ es' s' os', Run step { closed_event := true, waiting := some (.read (-1)) }
        (.item ⟨some ⟨[], [], [], "", 0⟩, none⟩ :: es') s' os' → s'.Recognised) ↔
      true = true ∧ ∃ n, Call.read (-1) = .read n) ∧
    (Event.close ∉ [.call (.read (-1)), .close] →
      ¬ ∀ es' s' os', Run step { closed_event := true, waiting := some (.read (-1)) }
        (.item ⟨some ⟨[], [], [], "", 0⟩, none⟩ :: es') s' os' → s'.Recognised) :=
  have hrun : Run step {} [.call (.read (-1)), .close] { closed_event := true, waiting := some (.read (-1)) } [] :=
    .of_exec rfl
  recognised_iff hrun rfl rfl

/-- The peer sends one byte and closes while the handler is in `readexactly(2)`. -/
theorem not_recognised : ¬ ∀ es s os c datacmd, Run step {} es s os →
    (∀ e ∈ es, (∃ c, e = .call c) ∨ ∃ cmd : WSNServerSocketData, e = .item ⟨some cmd, none⟩ ∧ cmd.data ≠ []) →
    s.waiting = some c → datacmd.data = [] →
    ∀ es' s' os', Run step s (.item ⟨some datacmd, none⟩ :: es') s' os' → s'.Recognised := by
  intro h
  have hrun : Run step {} [.call (.readexactly 2), .item ⟨some ⟨[], [], [1], "", 0⟩, none⟩]
      { buffer := [1], waiting := some (.readexactly 2) } [] := .of_exec rfl
  have hrec := h _ _ _ _ ⟨[], [], [], "", 0⟩ hrun ?_ rfl rfl [] _ _ (.single rfl)
  · cases hrec.idle
  · intro e he
    rcases List.mem_pair.1 he with rfl | rfl
    · exact .inl ⟨_, rfl⟩
    · exact .inr ⟨_, rfl, by decide⟩

end WSNetworkServerTCPReader

end Wsnet.Pyodide
