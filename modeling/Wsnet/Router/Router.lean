import Wsnet.Lib.Dict
import Wsnet.Lib.File
import Wsnet.Lib.Run
import Wsnet.Protocol.Cmd

/-!
# The router

`WSNETRouter` serves the agents and `OPServer` the operators, in one event loop. Agents' frames go through `in_q`
to the operators and operators' commands through `out_q` to the agents; `signal_q` tells `OPServer` which agents
come and go. A step is what one task does from one `await` to the next. `put` on these queues never waits, and a
`send` is taken apart: it is called, and it returns or raises in a step of its own.

The websocket of an agent or an operator goes by the id that its handler has drawn. Messages are binary.
-/

namespace Wsnet

/-- What `WSNETRouter` puts into the signal queue. -/
inductive Signal
  | AGENTIN (agentid : Bytes) (reply : CMD)
  | AGENTOUT (agentid : Bytes)
  deriving DecidableEq, Repr

/-- Where `OPServer.__handle_signal_in_queue` is. -/
inductive SignalTask
  | idle
  /-- in the loop over the operators: the send to `opid` is awaited -/
  | announcing (agentnotify : CMD) (it : Dict.Iter) (opid : Bytes) (data : Bytes)
  deriving DecidableEq, Repr

/-- Where `OPServer.handle_client` is. -/
inductive OpPc
  | receiving
  /-- the send of an `ERR` is awaited -/
  | refusing (data : Bytes)
  /-- in the loop over the agents: the send of an entry is awaited -/
  | listing (token : Bytes) (it : Dict.Iter) (data : Bytes)
  /-- the send of the `OK` behind the entries is awaited -/
  | listed (data : Bytes)
  deriving DecidableEq, Repr

/-- A websocket. -/
inductive Peer
  | agent (agentid : Bytes)
  | operator (opid : Bytes)
  deriving DecidableEq, Repr

structure Router where
  /-- the ids that `os.urandom(16)` has given: no two are the same -/
  drawn : List Bytes := []
  /-- `WSNETRouter.clients` -/
  clients : Dict Bytes Unit := .empty
  /-- from `WSNETRouter.signal_q_out` to `OPServer.signal_q_in` -/
  signal_q : List Signal := []
  signalTask : SignalTask := .idle
  /-- `OPServer.agents` -/
  agents : Dict Bytes CMD := .empty
  /-- `OPServer.operators` -/
  operators : Dict Bytes Unit := .empty
  /-- the running `OPServer.handle_client` -/
  handlers : Dict Bytes OpPc := .empty
  /-- from `OPServer.out_q` to `WSNETRouter.in_q` -/
  out_q : List (Bytes × Bytes) := []
  /-- the agent and the data of the send that `WSNETRouter.__handle_in_queue` awaits -/
  forwarding : Option (Bytes × Bytes) := none
  /-- from `WSNETRouter.out_q` to `OPServer.in_q` -/
  in_q : List (Bytes × Bytes × Bytes) := []
  /-- `OPServer.data_lookop` -/
  data_lookop : Dict Bytes Bytes := .empty
  /-- the key, the operator and the data of the send that `OPServer.__handle_in_queue` awaits -/
  delivering : Option (Bytes × Bytes × Bytes) := none

namespace Router

inductive Event
  /-- `WSNETRouter.handle_client` starts; `pair` when `ws.remote_address` has two parts -/
  | agentConnect (agentid : Bytes) (pair : Bool)
  | agentFrame (agentid data : Bytes)
  /-- `recv` raises, or the handler is cancelled -/
  | agentLost (agentid : Bytes)
  /-- `WSNETRouter.__handle_in_queue` takes a command; its send returns; its send raises -/
  | forward
  | forwarded
  | forwardFailed
  /-- `OPServer.handle_client` starts -/
  | opConnect (opid : Bytes) (pair : Bool)
  | opFrame (opid data : Bytes)
  | opLost (opid : Bytes)
  /-- the send that the handler awaits returns or raises -/
  | opSent (opid : Bytes)
  | opSendFailed (opid : Bytes)
  /-- `OPServer.__handle_in_queue` -/
  | deliver
  | delivered
  | deliverFailed
  /-- `OPServer.__handle_signal_in_queue` -/
  | signal
  | signalSent
  | signalSendFailed
  deriving DecidableEq, Repr

inductive Output
  /-- `send` is called -/
  | send (peer : Peer) (data : Bytes)
  /-- a call of `send` has returned -/
  | sent (peer : Peer) (data : Bytes)
  /-- `'TID NOT FOUND!'` is printed -/
  | notFound (agentid token : Bytes)
  deriving DecidableEq, Repr

/-- `b'\x00'*16` -/
def zeroToken : Bytes := List.replicate 16 0

/-- The `WSNListAgentsReply` made of what an agent has sent; only two kinds of commands have the attributes. -/
def listAgentsReply (token agentid : Bytes) : CMD → Option CMD
  | .GETINFOREPLY c => some (.AGENTINFO
      ⟨token, agentid, c.pid, c.username, c.domain, c.logonserver, c.cpuarch, c.hostname, c.usersid⟩)
  | .AGENTINFO c => some (.AGENTINFO
      ⟨token, agentid, c.pid, c.username, c.domain, c.logonserver, c.cpuarch, c.hostname, c.usersid⟩)
  | _ => none

/-! ### `WSNETRouter` -/

/-- The `finally` of `WSNETRouter.handle_client`. -/
def endAgent (s : Router) (agentid : Bytes) : Router :=
  { s with clients := s.clients.del agentid, signal_q := s.signal_q ++ [.AGENTOUT agentid] }

def agentFrame (s : Router) (agentid data : Bytes) : Router :=
  let token := slice data 6 22
  if token = zeroToken then
    match CMD.fromBytes data with
    | .ok reply => { s with signal_q := s.signal_q ++ [.AGENTIN agentid reply] }
    | .error _ => s.endAgent agentid
  else { s with in_q := s.in_q ++ [(agentid, token, data)] }

/-- `WSNETRouter.__handle_in_queue`: where the agent is gone, `KeyError` is logged. -/
def forward (s : Router) (agentid data : Bytes) : Router × List Output :=
  if s.clients.contains agentid then ({ s with forwarding := some (agentid, data) }, [.send (.agent agentid) data])
  else (s, [])

/-! ### `OPServer.handle_client` -/

/-- The `finally` of `OPServer.handle_client`. -/
def endOperator (s : Router) (opid : Bytes) : Router :=
  { s with handlers := s.handlers.del opid, operators := s.operators.del opid }

/-- `await ws.send(c.to_bytes())` -/
def sendOp (s : Router) (opid : Bytes) (c : CMD) (pc : Bytes → OpPc) : Router × List Output :=
  match c.toBytes with
  | .ok data => ({ s with handlers := s.handlers.set opid (pc data) }, [.send (.operator opid) data])
  | .error _ => (s.endOperator opid, [])

/-- The loop over the agents goes on. -/
def listNext (s : Router) (opid token : Bytes) (it : Dict.Iter) : Router × List Output :=
  match s.agents.next it with
  | .changed => (s.endOperator opid, [])
  | .stop => s.sendOp opid (.OK { token := zeroToken }) .listed
  | .yield agentid it =>
    match (s.agents.get? agentid).bind (listAgentsReply token agentid) with
    | some reply => s.sendOp opid reply (.listing token it)
    | none => (s.endOperator opid, [])

def opFrame (s : Router) (opid data : Bytes) : Router × List Output :=
  let agentid := slice data 4 20
  let agentdata := data.drop 20
  let token := slice data 26 42
  if token = zeroToken ∧ agentid = zeroToken then
    match CMD.fromBytes agentdata with
    | .ok cmd => if cmd.type = .LISTAGENTS then s.listNext opid cmd.token s.agents.iter else (s, [])
    | .error _ => (s.endOperator opid, [])
  else if s.agents.contains agentid then
    ({ s with data_lookop := s.data_lookop.set (agentid ++ token) opid, out_q := s.out_q ++ [(agentid, agentdata)] }, [])
  else s.sendOp opid (.ERR { token, reason := "Agent not found", extra := "" }) .refusing

/-- The send that a handler awaits returns. -/
def opSent (s : Router) (opid : Bytes) : OpPc → Option (Router × List Output)
  | .receiving => none
  | .refusing data | .listed data =>
    some ({ s with handlers := s.handlers.set opid .receiving }, [.sent (.operator opid) data])
  | .listing token it data =>
    let (s, o) := s.listNext opid token it
    some (s, .sent (.operator opid) data :: o)

/-! ### The other tasks of `OPServer` -/

/-- `OPServer.__handle_in_queue` -/
def deliver (s : Router) (agentid token data : Bytes) : Router × List Output :=
  let tid := agentid ++ token
  match s.data_lookop.get? tid with
  | some opid => ({ s with delivering := some (tid, opid, data) }, [.send (.operator opid) data])
  | none => (s, [.notFound agentid token])

/-- The loop over the operators goes on. A notification that cannot be written raises like a failed send: the
operator is deleted, and the loop ends because the table has changed. -/
def announceNext (s : Router) (agentnotify : CMD) (it : Dict.Iter) : Router × List Output :=
  match s.operators.next it with
  | .changed | .stop => ({ s with signalTask := .idle }, [])
  | .yield opid it =>
    match agentnotify.toBytes with
    | .ok data => ({ s with signalTask := .announcing agentnotify it opid data }, [.send (.operator opid) data])
    | .error _ => ({ s with signalTask := .idle, operators := s.operators.del opid }, [])

/-- What `OPServer.__handle_signal_in_queue` does with a signal. What an agent has sent is entered before its
attributes are looked at. -/
def signal (s : Router) : Signal → Router × List Output
  | .AGENTIN agentid data =>
    let s := { s with agents := s.agents.set agentid data }
    match listAgentsReply zeroToken agentid data with
    | some agentnotify => s.announceNext agentnotify s.operators.iter
    | none => (s, [])
  | .AGENTOUT agentid => ({ s with agents := s.agents.del agentid }, [])

def step (s : Router) : Event → Option (Router × List Output)
  | .agentConnect agentid pair =>
    if agentid.length = 16 ∧ agentid ∉ s.drawn then
      let s := { s with drawn := agentid :: s.drawn, clients := s.clients.set agentid () }
      some (if pair then s else s.endAgent agentid, [])
    else none
  | .agentFrame agentid data => if s.clients.contains agentid then some (s.agentFrame agentid data, []) else none
  | .agentLost agentid => if s.clients.contains agentid then some (s.endAgent agentid, []) else none
  | .forward =>
    match s.forwarding, s.out_q with
    | none, (agentid, data) :: rest => some ({ s with out_q := rest }.forward agentid data)
    | _, _ => none
  | .forwarded =>
    match s.forwarding with
    | some (agentid, data) => some ({ s with forwarding := none }, [.sent (.agent agentid) data])
    | none => none
  | .forwardFailed => if s.forwarding.isSome then some ({ s with forwarding := none }, []) else none
  | .opConnect opid pair =>
    if opid.length = 16 ∧ opid ∉ s.drawn then
      let s := { s with
        drawn := opid :: s.drawn, operators := s.operators.set opid (), handlers := s.handlers.set opid .receiving }
      some (if pair then s else s.endOperator opid, [])
    else none
  | .opFrame opid data => if s.handlers.get? opid = some .receiving then some (s.opFrame opid data) else none
  | .opLost opid => if s.handlers.get? opid = some .receiving then some (s.endOperator opid, []) else none
  | .opSent opid => (s.handlers.get? opid).bind (s.opSent opid)
  | .opSendFailed opid =>
    match s.handlers.get? opid with
    | none | some .receiving => none
    | some _ => some (s.endOperator opid, [])
  | .deliver =>
    match s.delivering, s.in_q with
    | none, (agentid, token, data) :: rest => some ({ s with in_q := rest }.deliver agentid token data)
    | _, _ => none
  | .delivered =>
    match s.delivering with
    | some (_, opid, data) => some ({ s with delivering := none }, [.sent (.operator opid) data])
    | none => none
  | .deliverFailed =>
    match s.delivering with
    | some (tid, _, _) => some ({ s with delivering := none, data_lookop := s.data_lookop.del tid }, [])
    | none => none
  | .signal =>
    match s.signalTask, s.signal_q with
    | .idle, data :: rest => some ({ s with signal_q := rest }.signal data)
    | _, _ => none
  | .signalSent =>
    match s.signalTask with
    | .announcing agentnotify it opid data =>
      let (s, o) := s.announceNext agentnotify it
      some (s, .sent (.operator opid) data :: o)
    | .idle => none
  | .signalSendFailed =>
    match s.signalTask with
    | .announcing agentnotify it opid _ =>
      -- `del self.operators[opid]` raises where the handler has been faster
      if s.operators.contains opid then some ({ s with operators := s.operators.del opid }.announceNext agentnotify it)
      else some ({ s with signalTask := .idle }, [])
    | .idle => none

/-! ### What a step does -/

variable {s s' : Router} {o : List Output}

/-- The steps. -/
inductive Step (s : Router) : Event → Router → List Output → Prop
  | agentConnect {agentid : Bytes} (pair : Bool) (hlen : agentid.length = 16) (hnew : agentid ∉ s.drawn) :
    Step s (.agentConnect agentid pair)
      (if pair then { s with drawn := agentid :: s.drawn, clients := s.clients.set agentid () }
        else { s with drawn := agentid :: s.drawn, clients := s.clients.set agentid () }.endAgent agentid) []
  | agentFrame {agentid : Bytes} (data : Bytes) (hc : s.clients.contains agentid = true) :
    Step s (.agentFrame agentid data) (s.agentFrame agentid data) []
  | agentLost {agentid : Bytes} (hc : s.clients.contains agentid = true) :
      Step s (.agentLost agentid) (s.endAgent agentid) []
  | forward {agentid data : Bytes} {rest : List (Bytes × Bytes)} (hf : s.forwarding = none)
    (hq : s.out_q = (agentid, data) :: rest) :
    Step s .forward ({ s with out_q := rest }.forward agentid data).1 ({ s with out_q := rest }.forward agentid data).2
  | forwarded {agentid data : Bytes} (hf : s.forwarding = some (agentid, data)) :
    Step s .forwarded { s with forwarding := none } [.sent (.agent agentid) data]
  | forwardFailed : Step s .forwardFailed { s with forwarding := none } []
  | opConnect {opid : Bytes} (pair : Bool) (hlen : opid.length = 16) (hnew : opid ∉ s.drawn) :
    Step s (.opConnect opid pair)
      (if pair then { s with
          drawn := opid :: s.drawn, operators := s.operators.set opid (), handlers := s.handlers.set opid .receiving }
        else { s with
          drawn := opid :: s.drawn, operators := s.operators.set opid (),
          handlers := s.handlers.set opid .receiving }.endOperator opid) []
  | opFrame {opid : Bytes} (data : Bytes) (hpc : s.handlers.get? opid = some .receiving) :
    Step s (.opFrame opid data) (s.opFrame opid data).1 (s.opFrame opid data).2
  | opLost {opid : Bytes} (hpc : s.handlers.get? opid = some .receiving) : Step s (.opLost opid) (s.endOperator opid) []
  | opReplied {opid data : Bytes}
      (hpc : s.handlers.get? opid = some (.refusing data) ∨ s.handlers.get? opid = some (.listed data)) :
    Step s (.opSent opid) { s with handlers := s.handlers.set opid .receiving } [.sent (.operator opid) data]
  | opListed {opid token data : Bytes} {it : Dict.Iter} (hpc : s.handlers.get? opid = some (.listing token it data)) :
    Step s (.opSent opid) (s.listNext opid token it).1 (.sent (.operator opid) data :: (s.listNext opid token it).2)
  | opSendFailed {opid : Bytes} {pc : OpPc} (hpc : s.handlers.get? opid = some pc) (hne : pc ≠ .receiving) :
    Step s (.opSendFailed opid) (s.endOperator opid) []
  | deliver {agentid token data : Bytes} {rest : List (Bytes × Bytes × Bytes)} (hd : s.delivering = none)
    (hq : s.in_q = (agentid, token, data) :: rest) :
    Step s .deliver ({ s with in_q := rest }.deliver agentid token data).1
      ({ s with in_q := rest }.deliver agentid token data).2
  | delivered {tid opid data : Bytes} (hd : s.delivering = some (tid, opid, data)) :
    Step s .delivered { s with delivering := none } [.sent (.operator opid) data]
  | deliverFailed {tid opid data : Bytes} (hd : s.delivering = some (tid, opid, data)) :
    Step s .deliverFailed { s with delivering := none, data_lookop := s.data_lookop.del tid } []
  | signal {x : Signal} {rest : List Signal} (ht : s.signalTask = .idle) (hq : s.signal_q = x :: rest) :
    Step s .signal ({ s with signal_q := rest }.signal x).1 ({ s with signal_q := rest }.signal x).2
  | signalSent {agentnotify : CMD} {it : Dict.Iter} {opid data : Bytes}
      (ht : s.signalTask = .announcing agentnotify it opid data) :
    Step s .signalSent (s.announceNext agentnotify it).1
      (.sent (.operator opid) data :: (s.announceNext agentnotify it).2)
  | signalSendFailed {agentnotify : CMD} {it : Dict.Iter} {opid data : Bytes}
    (ht : s.signalTask = .announcing agentnotify it opid data) :
    Step s .signalSendFailed ({ s with operators := s.operators.del opid }.announceNext agentnotify it).1
      ({ s with operators := s.operators.del opid }.announceNext agentnotify it).2
  | signalRaised {agentnotify : CMD} {it : Dict.Iter} {opid data : Bytes}
      (ht : s.signalTask = .announcing agentnotify it opid data) :
    Step s .signalSendFailed { s with signalTask := .idle } []

/-- The step inversion. -/
theorem step_cases {e : Event} (h : s.step e = some (s', o)) : Step s e s' o := by
  -- the results are pairs that are named only by what computes them
  have hpair : ∀ {e : Event} {r : Router × List Output}, some r = some (s', o) → Step s e r.1 r.2 → Step s e s' o := by
    intro e r hr hs
    obtain rfl := Option.some.inj hr
    exact hs
  cases e with
  | agentConnect agentid pair =>
    simp only [step] at h
    split at h
    · rename_i hnew
      exact hpair h (.agentConnect pair hnew.1 hnew.2)
    · cases h
  | agentFrame agentid data =>
    simp only [step] at h
    split at h <;> cases h
    exact .agentFrame data ‹_›
  | agentLost agentid =>
    simp only [step] at h
    split at h <;> cases h
    exact .agentLost ‹_›
  | forward =>
    simp only [step] at h
    split at h
    · exact hpair h (.forward ‹_› ‹_›)
    · cases h
  | forwarded =>
    simp only [step] at h
    split at h <;> cases h
    exact .forwarded ‹_›
  | forwardFailed =>
    simp only [step] at h
    split at h <;> cases h
    exact .forwardFailed
  | opConnect opid pair =>
    simp only [step] at h
    split at h
    · rename_i hnew
      exact hpair h (.opConnect pair hnew.1 hnew.2)
    · cases h
  | opFrame opid data =>
    simp only [step] at h
    split at h
    · exact hpair h (.opFrame data ‹_›)
    · cases h
  | opLost opid =>
    simp only [step] at h
    split at h <;> cases h
    exact .opLost ‹_›
  | opSent opid =>
    obtain ⟨pc, hpc, h⟩ := Option.bind_eq_some_iff.1 h
    cases pc with
    | receiving => cases h
    | refusing data => cases h; exact .opReplied (.inl hpc)
    | listed data => cases h; exact .opReplied (.inr hpc)
    | listing token it data => exact hpair h (.opListed hpc)
  | opSendFailed opid =>
    simp only [step] at h
    split at h
    · cases h
    · cases h
    · rename_i pc hne hpc
      cases h
      exact .opSendFailed hpc hne
  | deliver =>
    simp only [step] at h
    split at h
    · exact hpair h (.deliver ‹_› ‹_›)
    · cases h
  | delivered =>
    simp only [step] at h
    split at h <;> cases h
    exact .delivered ‹_›
  | deliverFailed =>
    simp only [step] at h
    split at h <;> cases h
    exact .deliverFailed ‹_›
  | signal =>
    simp only [step] at h
    split at h
    · exact hpair h (.signal ‹_› ‹_›)
    · cases h
  | signalSent =>
    simp only [step] at h
    split at h
    · exact hpair h (.signalSent ‹_›)
    · cases h
  | signalSendFailed =>
    simp only [step] at h
    split at h
    · split at h
      · exact hpair h (.signalSendFailed ‹_›)
      · cases h
        exact .signalRaised ‹_›
    · cases h

/-! ### What the tasks leave alone -/

/-- Nothing but the operators and what their handlers and the announcing task are doing has changed. -/
def OnlyOperators (s s' : Router) : Prop :=
  s' = { s with operators := s'.operators, handlers := s'.handlers, signalTask := s'.signalTask }

theorem onlyOperators_sendOp (s : Router) (opid : Bytes) (c : CMD) (pc : Bytes → OpPc) :
    OnlyOperators s (s.sendOp opid c pc).1 := by
  unfold sendOp
  split <;> rfl

theorem onlyOperators_listNext (s : Router) (opid token : Bytes) (it : Dict.Iter) :
    OnlyOperators s (s.listNext opid token it).1 := by
  unfold listNext
  split
  · rfl
  · exact onlyOperators_sendOp ..
  · split
    · exact onlyOperators_sendOp ..
    · rfl

theorem onlyOperators_announceNext (s : Router) (agentnotify : CMD) (it : Dict.Iter) :
    OnlyOperators s (s.announceNext agentnotify it).1 := by
  unfold announceNext
  split
  · rfl
  · rfl
  · split <;> rfl

/-! ### What an operator's handler does to the others -/

variable {opid opid' : Bytes}

theorem handlers_endOperator (s : Router) (h : opid' ≠ opid) :
    (s.endOperator opid).handlers.get? opid' = s.handlers.get? opid' := Dict.get?_del_ne _ h

theorem handlers_sendOp (s : Router) (c : CMD) (pc : Bytes → OpPc) (h : opid' ≠ opid) :
    (s.sendOp opid c pc).1.handlers.get? opid' = s.handlers.get? opid' := by
  unfold sendOp
  split
  · exact Dict.get?_set_ne _ _ h
  · exact handlers_endOperator s h

theorem handlers_listNext (s : Router) (token : Bytes) (it : Dict.Iter) (h : opid' ≠ opid) :
    (s.listNext opid token it).1.handlers.get? opid' = s.handlers.get? opid' := by
  unfold listNext
  split
  · exact handlers_endOperator s h
  · exact handlers_sendOp s _ _ h
  · split
    · exact handlers_sendOp s _ _ h
    · exact handlers_endOperator s h

theorem handlers_opFrame (s : Router) (data : Bytes) (h : opid' ≠ opid) :
    (s.opFrame opid data).1.handlers.get? opid' = s.handlers.get? opid' := by
  unfold opFrame
  dsimp only
  split
  · split
    · split
      · exact handlers_listNext s _ _ h
      · rfl
    · exact handlers_endOperator s h
  · split
    · rfl
    · exact handlers_sendOp s _ _ h

theorem handlers_announceNext (s : Router) (agentnotify : CMD) (it : Dict.Iter) :
    (s.announceNext agentnotify it).1.handlers = s.handlers := by
  unfold announceNext
  split
  · rfl
  · rfl
  · split <;> rfl

theorem handlers_signal (s : Router) (x : Signal) : (s.signal x).1.handlers = s.handlers := by
  cases x with
  | AGENTIN agentid data =>
    simp only [signal]
    split
    · exact handlers_announceNext ..
    · rfl
  | AGENTOUT agentid => rfl

/-- The operator whose handler takes the step. -/
def Event.operator : Event → Option Bytes
  | .opConnect opid _ | .opFrame opid _ | .opLost opid | .opSent opid | .opSendFailed opid => some opid
  | _ => none

theorem handlers_of_step {e : Event} (h : s.step e = some (s', o)) (hne : e.operator ≠ some opid) :
    s'.handlers.get? opid = s.handlers.get? opid := by
  have hop : ∀ opid', e.operator = some opid' → opid ≠ opid' := fun opid' he heq => hne (heq ▸ he)
  cases step_cases h with
  | agentConnect pair => split <;> rfl
  | agentFrame data =>
    unfold agentFrame
    dsimp only
    split
    · split <;> rfl
    · rfl
  | opConnect pair =>
    split
    · exact Dict.get?_set_ne _ _ (hop _ rfl)
    · rw [handlers_endOperator _ (hop _ rfl)]
      exact Dict.get?_set_ne _ _ (hop _ rfl)
  | opFrame data => exact handlers_opFrame s data (hop _ rfl)
  | opLost | opSendFailed => exact handlers_endOperator s (hop _ rfl)
  | opReplied => exact Dict.get?_set_ne _ _ (hop _ rfl)
  | opListed => exact handlers_listNext s _ _ (hop _ rfl)
  | forward =>
    unfold forward
    split <;> rfl
  | deliver =>
    unfold deliver
    dsimp only
    split <;> rfl
  | signal => exact congrArg (Dict.get? · opid) (handlers_signal ..)
  | signalSent | signalSendFailed => exact congrArg (Dict.get? · opid) (handlers_announceNext ..)
  | _ => rfl

end Router

end Wsnet
