import Wsnet.Lib.Dict
import Wsnet.Pyodide.Senders

/-!
# The shared interface and its TCP connections

`WSNETWSInterface` has one websocket for all connections of a page; a frame that comes in goes to the
connection that its token is registered for. `WSNetworkTCP` is such a connection: its `run`, its task
`__handle_out`, and the two queues it has in common with its user. What is put into `in_q` stays there: its
user takes it from there on its own.
-/

namespace Wsnet.Pyodide

/-- What is put into `in_q`: `(cmd.data, None)`, with bytes or with a text, or `(b'', Exception(exc))`. -/
inductive InItem
  | data (b : Bytes)
  | text (s : String)
  | ended (exc : String)
  deriving DecidableEq, Repr

/-- `(data, None)` -/
def InItem.ofData : CMD.Data → InItem
  | .bytes b => .data b
  | .text s => .text s

/-- `(cmd.data, None)`, for the classes that have the attribute. -/
def InItem.ofCmd? (c : CMD) : Option InItem := c.data.map InItem.ofData

/-- Where `run` is. -/
inductive WSNetworkTCP.RunPc
  | created
  /-- in the `sendCmd` of `registerConnection`, waiting for the websocket to open -/
  | registering (token : Bytes)
  /-- in `wait_for(self.connection_established_evt.wait(), ...)`; the flag says that the event was set meanwhile -/
  | waiting (woken : Bool)
  | returned (ok : Bool)
  deriving DecidableEq, Repr

/-- Where `__handle_out` is. -/
inductive WSNetworkTCP.OutPc
  | none
  | getting
  /-- in `sendSocketData`, waiting for the websocket to open -/
  | opening (data : Bytes)
  | done
  deriving DecidableEq, Repr

structure WSNetworkTCP where
  ip : String
  port : Int
  in_q : List InItem := []
  out_q : List (Option Bytes) := []
  token : Option Bytes := none
  /-- `connection_established_evt` is set -/
  connection_established : Bool := false
  last_error : Option String := none
  runPc : WSNetworkTCP.RunPc := .created
  outPc : WSNetworkTCP.OutPc := .none
  deriving DecidableEq, Repr

namespace WSNetworkTCP

/-- `self.connection_established_evt.set()` -/
def establish (t : WSNetworkTCP) : WSNetworkTCP :=
  { t with
    connection_established := true
    runPc := match t.runPc with | .waiting _ => .waiting true | pc => pc }

theorem runPc_establish (t : WSNetworkTCP) (pc : RunPc) (hpc : ∀ b, pc ≠ .waiting b) :
    t.establish.runPc = pc ↔ t.runPc = pc := by
  unfold establish
  cases ht : t.runPc with
  | waiting b => simp [(hpc _).symm]
  | _ => rfl

/-- `self.in_q.put_nowait((b'', self.last_error))` and what is around it. -/
def fail (t : WSNetworkTCP) (exc : String) : WSNetworkTCP :=
  { t with last_error := some exc, in_q := t.in_q ++ [InItem.ended exc] }.establish

def onDataReceived (t : WSNetworkTCP) : CMD → WSNetworkTCP
  | .OK _ => t.fail "Remote end terminated the socket"
  | .ERR c => t.fail ("Transmission error: " ++ c.reason)
  | .CONTINUE _ => t.establish
  | c =>
    match InItem.ofCmd? c with
    | some item => { t with in_q := t.in_q ++ [item] }
    -- the `AttributeError` is printed
    | none => t

/-- `terminate`, but for the entry in the dispatch table. A task that is cancelled runs no more of its code. -/
def terminated (t : WSNetworkTCP) : WSNetworkTCP :=
  { t with
    token := none
    connection_established := false
    last_error := none
    outPc := if t.outPc = .none then .none else .done }

/-- `run` behind `registerConnection`. -/
def registered (t : WSNetworkTCP) (token : Bytes) : WSNetworkTCP :=
  { t with token := some token, runPc := .waiting t.connection_established }

/-- `WSNConnect(self.token, 'TCP', self.ip, self.port)` with the token of `registerConnection`. -/
def connectCmd (t : WSNetworkTCP) (token : Bytes) : CMD :=
  .CONNECT { token, protocol := "TCP", ip := t.ip, port := t.port }

end WSNetworkTCP

structure WSNETWSInterface where
  /-- `websocketObject` is not `None` -/
  websocket : Bool := true
  /-- `connection_established_evt` is set -/
  established : Bool := false
  /-- the index of the connection whose `onDataReceived` it is -/
  dispatch_table : Dict Bytes Nat := Dict.empty
  tcps : List WSNetworkTCP := []
  /-- the tasks `sendCmd(WSNOK(token))` that have not sent -/
  oks : List Bytes := []

namespace WSNETWSInterface

/-- `self.websocketObject.send`, which raises when there is no websocket object; the callers drop the exception. -/
def emit (i : WSNETWSInterface) (fs : List Bytes) : List Bytes := if i.websocket then fs else []

def setTcp (i : WSNETWSInterface) (j : Nat) (t : WSNetworkTCP) : WSNETWSInterface := { i with tcps := i.tcps.set j t }

/-- `self.dispatch_table[cmd.token](cmd)`, when the token is registered for `j`. -/
def dispatch (i : WSNETWSInterface) (j : Nat) (c : CMD) : WSNETWSInterface :=
  match i.tcps[j]? with
  | some t => i.setTcp j (t.onDataReceived c)
  | none => i

def onData (i : WSNETWSInterface) (data : Bytes) : WSNETWSInterface :=
  match CMD.fromBytes data with
  | .error _ => i
  | .ok c =>
    match i.dispatch_table.get? c.token with
    | some j => i.dispatch j c
    | none => { i with oks := i.oks ++ [c.token] }

/-- `terminate`: every registered connection is told that it is over. -/
def terminate (i : WSNETWSInterface) : WSNETWSInterface :=
  i.dispatch_table.keys.foldl
    (fun i token => match i.dispatch_table.get? token with | some j => i.dispatch j (.OK { token }) | none => i)
    { i with websocket := false }

/-- `WSNetworkTCP.terminate`, with `deregisterConnection`. -/
def terminateTcp (i : WSNETWSInterface) (j : Nat) (t : WSNetworkTCP) : WSNETWSInterface :=
  let i := i.setTcp j t.terminated
  match t.token with
  | some token => { i with dispatch_table := i.dispatch_table.del token }
  | none => i

/-- What `sendSocketData` sends; without a token the message cannot be written. -/
def dataFrames (token : Option Bytes) (data : Bytes) : List Bytes :=
  match token with
  | some token => (sendSocketData token data).1
  | none => []

/-- The events of a connection. -/
inductive TcpEvent
  /-- its user puts something into `out_q` -/
  | put (data : Option Bytes)
  /-- `run` is called, and `os.urandom(16)` returns `token` -/
  | run (token : Bytes)
  /-- the wait for the websocket, in `run`, is over, or takes too long -/
  | opened
  | openTimeout
  /-- so is the wait for the answer -/
  | resume
  | timeout
  /-- a turn of `__handle_out` -/
  | out
  | outOpened
  | outTimeout
  | terminate
  deriving DecidableEq, Repr

inductive Event
  | onOpen
  | onClose
  | onError
  | onData (data : Bytes)
  | terminate
  /-- a `WSNetworkTCP` is made -/
  | create (ip : String) (port : Int)
  | tcp (j : Nat) (e : TcpEvent)
  /-- a task `sendCmd(WSNOK(token))` sends, or gives up waiting for the websocket to open -/
  | sendOk (k : Nat)
  | okTimeout (k : Nat)
  deriving DecidableEq, Repr

/-- The `except` of `run`. -/
def failRun (i : WSNETWSInterface) (j : Nat) (t : WSNetworkTCP) : WSNETWSInterface :=
  i.terminateTcp j { t with runPc := .returned false }

def stepTcp (i : WSNETWSInterface) (j : Nat) (t : WSNetworkTCP) : TcpEvent → Option (WSNETWSInterface × List Bytes)
  | .put data => some (i.setTcp j { t with out_q := t.out_q ++ [data] }, [])
  | .run token =>
    if t.runPc = .created then
      let i := { i with dispatch_table := i.dispatch_table.set token j }
      if i.established then some (i.setTcp j (t.registered token), i.emit (trySend (t.connectCmd token)))
      else some (i.setTcp j { t with runPc := .registering token }, [])
    else none
  | .opened =>
    match t.runPc with
    | .registering token =>
      if i.established then some (i.setTcp j (t.registered token), i.emit (trySend (t.connectCmd token))) else none
    | _ => none
  | .openTimeout =>
    match t.runPc with
    | .registering token => some (i.setTcp j (t.registered token), [])
    | _ => none
  | .resume =>
    if t.runPc = .waiting true then
      if t.last_error.isSome then some (i.failRun j t, [])
      else some (i.setTcp j { t with runPc := .returned true, outPc := .getting }, [])
    else none
  | .timeout =>
    match t.runPc with
    | .waiting _ => some (i.failRun j t, [])
    | _ => none
  | .out =>
    match t.outPc, t.out_q with
    | .getting, none :: out_q => some (i.setTcp j { t with out_q, outPc := .done }, [])
    | .getting, some data :: out_q =>
      if i.established then some (i.setTcp j { t with out_q }, i.emit (dataFrames t.token data))
      else some (i.setTcp j { t with out_q, outPc := .opening data }, [])
    | _, _ => none
  | .outOpened =>
    match t.outPc with
    | .opening data =>
      if i.established then some (i.setTcp j { t with outPc := .getting }, i.emit (dataFrames t.token data)) else none
    | _ => none
  | .outTimeout =>
    match t.outPc with
    | .opening _ => some (i.setTcp j { t with outPc := .getting }, [])
    | _ => none
  | .terminate => some (i.terminateTcp j t, [])

/-- A step, with the frames that are given to the websocket. -/
def step (i : WSNETWSInterface) : Event → Option (WSNETWSInterface × List Bytes)
  | .onOpen => some ({ i with established := true }, [])
  | .onClose | .onError => some ({ i with established := false }, [])
  | .onData data => some (i.onData data, [])
  | .terminate => some (i.terminate, [])
  | .create ip port => some ({ i with tcps := i.tcps ++ [{ ip, port }] }, [])
  | .tcp j e =>
    match i.tcps[j]? with
    | some t => i.stepTcp j t e
    | none => none
  | .sendOk k =>
    match i.oks[k]? with
    | some token => if i.established then some ({ i with oks := i.oks.eraseIdx k },
        i.emit (trySend (.OK { token }))) else none
    | none => none
  | .okTimeout k => if k < i.oks.length then some ({ i with oks := i.oks.eraseIdx k }, []) else none

/-! ### What a step does -/

/-- The steps of a connection. -/
inductive TcpStep (i : WSNETWSInterface) (j : Nat) (t : WSNetworkTCP) : TcpEvent → WSNETWSInterface → List Bytes → Prop
  | put (data : Option Bytes) : TcpStep i j t (.put data) (i.setTcp j { t with out_q := t.out_q ++ [data] }) []
  | run (token : Bytes) (h : t.runPc = .created) (ho : i.established = true) :
    TcpStep i j t (.run token) ({ i with dispatch_table := i.dispatch_table.set token j }.setTcp j (t.registered token))
      (i.emit (trySend (t.connectCmd token)))
  | runLater (token : Bytes) (h : t.runPc = .created) (ho : i.established = false) :
    TcpStep i j t (.run token)
      ({ i with dispatch_table := i.dispatch_table.set token j }.setTcp j { t with runPc := .registering token }) []
  | opened (token : Bytes) (h : t.runPc = .registering token) (ho : i.established = true) :
    TcpStep i j t .opened (i.setTcp j (t.registered token)) (i.emit (trySend (t.connectCmd token)))
  | openTimeout (token : Bytes) (h : t.runPc = .registering token) :
    TcpStep i j t .openTimeout (i.setTcp j (t.registered token)) []
  | resume (h : t.runPc = .waiting true) (he : t.last_error = none) :
    TcpStep i j t .resume (i.setTcp j { t with runPc := .returned true, outPc := .getting }) []
  | failRun {e : TcpEvent} (b : Bool) (he : e = .resume ∨ e = .timeout) (h : t.runPc = .waiting b) :
    TcpStep i j t e (i.failRun j t) []
  | outEnd (out_q : List (Option Bytes)) (h : t.outPc = .getting) (hq : t.out_q = none :: out_q) :
    TcpStep i j t .out (i.setTcp j { t with out_q, outPc := .done }) []
  | out (data : Bytes) (out_q : List (Option Bytes)) (h : t.outPc = .getting) (hq : t.out_q = some data :: out_q)
    (ho : i.established = true) :
    TcpStep i j t .out (i.setTcp j { t with out_q }) (i.emit (dataFrames t.token data))
  | outLater (data : Bytes) (out_q : List (Option Bytes)) (h : t.outPc = .getting) (hq : t.out_q = some data :: out_q)
    (ho : i.established = false) : TcpStep i j t .out (i.setTcp j { t with out_q, outPc := .opening data }) []
  | outOpened (data : Bytes) (h : t.outPc = .opening data) (ho : i.established = true) :
    TcpStep i j t .outOpened (i.setTcp j { t with outPc := .getting }) (i.emit (dataFrames t.token data))
  | outTimeout (data : Bytes) (h : t.outPc = .opening data) :
    TcpStep i j t .outTimeout (i.setTcp j { t with outPc := .getting }) []
  | terminate : TcpStep i j t .terminate (i.terminateTcp j t) []

variable {i i' : WSNETWSInterface} {j : Nat} {t : WSNetworkTCP} {fs : List Bytes}

theorem tcpStep_of_step {e : TcpEvent} (h : i.stepTcp j t e = some (i', fs)) : TcpStep i j t e i' fs := by
  revert h
  fun_cases stepTcp i j t e <;> rintro ⟨⟩
  case case1 data => exact .put data
  case case2 token hpc _ ho => exact .run token hpc ho
  case case3 token hpc _ ho => exact .runLater token hpc (by simpa using ho)
  case case5 token hpc ho => exact .opened token hpc ho
  case case8 token hpc => exact .openTimeout token hpc
  case case10 hpc he => exact .failRun true (.inl rfl) hpc
  case case11 hpc he => exact .resume hpc (by simpa using he)
  case case13 b hpc => exact .failRun b (.inr rfl) hpc
  case case15 out_q hq hpc => exact .outEnd out_q hpc hq
  case case16 data out_q hq hpc ho => exact .out data out_q hpc hq ho
  case case17 data out_q hq hpc ho => exact .outLater data out_q hpc hq (by simpa using ho)
  case case19 data hpc ho => exact .outOpened data hpc ho
  case case22 data hpc => exact .outTimeout data hpc
  case case24 => exact .terminate

end WSNETWSInterface

end Wsnet.Pyodide
