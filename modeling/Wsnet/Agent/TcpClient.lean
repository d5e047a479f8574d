import Wsnet.Lib.Run
import Wsnet.Agent.Effect

/-!
# A TCP client session

`socket_connect` in its branch for a TCP connection (`main`), and the task `__socket_data_in_handle`
it starts (`dataIn`). The two share nothing but the writer; the queue `inQ` is filled by
`process_incoming`. Cancelling a task makes its next step the raising of `CancelledError` where it
waits, which for a task that has not started means that none of its code runs, not even a `finally`.
A task that waits in `asyncio.sleep(0)` is resumed after every task that was scheduled before it, so
`main` does not come back from there before `dataIn` has started.
-/

namespace Wsnet

/-- Where `socket_connect` waits. -/
inductive TcpClient.Main
  | opening | sendingContinue | sleeping | reading | sendingData | sendingOk | sendingErr | done
  deriving DecidableEq, Repr

/-- Where `__socket_data_in_handle` waits; `sleeping` with the data it took from the queue. -/
inductive TcpClient.DataIn
  | none | created | getting | sleeping (data : Bytes) | draining | sendingErr | done
  deriving DecidableEq, Repr

structure TcpClient where
  token : Bytes
  /-- `send_full_exception` of the agent -/
  full : Bool
  main : TcpClient.Main := .opening
  dataIn : TcpClient.DataIn := .none
  /-- `out_task.cancel()` was called and its exception is not delivered yet -/
  cancelled : Bool := false
  inQ : List CMD := []
  /-- `writer.close()` was called -/
  closed : Bool := false
  deriving DecidableEq, Repr

namespace TcpClient

/-- The events of `socket_connect`: an await returns or raises (with the text of the exception). -/
inductive MainEvent
  | opened
  | openFailed (exc : String)
  | sent
  | sendFailed (exc : String)
  | wake
  | read (data : Bytes)
  | readFailed (exc : String)
  deriving DecidableEq, Repr

/-- The events of `__socket_data_in_handle`. -/
inductive DataInEvent
  | start
  | got
  | wake
  | drained
  | writeFailed (exc : String)
  | sent
  | sendFailed
  | cancel
  deriving DecidableEq, Repr

inductive Event
  | main (e : MainEvent)
  | dataIn (e : DataInEvent)
  /-- `process_incoming` puts a command into the queue -/
  | put (c : CMD)
  deriving DecidableEq, Repr

/-- `except Exception`: `await self.send_err(cmd, 'Socket connect failed: %s' % e, e)`. -/
def fail (s : TcpClient) (exc : String) : TcpClient × List Effect :=
  ({ s with main := .sendingErr }, [.sent (errReply s.full s.token ("Socket connect failed: " ++ exc) exc)])

/-- `finally`: `out_task.cancel()`, which does nothing to a task that is over. -/
def finish (s : TcpClient) : TcpClient × List Effect :=
  ({ s with main := .done, cancelled := s.cancelled || decide (s.dataIn ≠ .none ∧ s.dataIn ≠ .done) }, [])

def stepMain (s : TcpClient) : MainEvent → Option (TcpClient × List Effect)
  | .opened =>
    if s.main = .opening then
      some ({ s with main := .sendingContinue, dataIn := .created },
        [.opened, .setProcessQueue, .sent (continueReply s.token)])
    else none
  | .openFailed exc => if s.main = .opening then some (s.fail exc) else none
  | .sent =>
    match s.main with
    | .sendingContinue | .sendingData => some ({ s with main := .sleeping }, [])
    | .sendingOk | .sendingErr => some s.finish
    | _ => none
  | .sendFailed exc =>
    match s.main with
    | .sendingContinue | .sendingData | .sendingOk => some (s.fail exc)
    | .sendingErr => some s.finish
    | _ => none
  | .wake => if s.main = .sleeping ∧ s.dataIn ≠ .created then some ({ s with main := .reading }, []) else none
  | .read data =>
    if s.main = .reading then
      if data = [] then some ({ s with main := .sendingOk }, [.read data, .sent (okReply s.token)])
      else some ({ s with main := .sendingData }, [.read data, .sent (.SD ⟨s.token, data⟩)])
    else none
  | .readFailed exc => if s.main = .reading then some (s.fail exc) else none

/-- `finally`: `writer.close()` and `del self.__process_queues[token]`. -/
def finishDataIn (s : TcpClient) : TcpClient × List Effect :=
  ({ s with dataIn := .done, closed := true, cancelled := false }, [.delProcessQueue])

def stepDataIn (s : TcpClient) : DataInEvent → Option (TcpClient × List Effect)
  | .cancel =>
    if s.cancelled then
      match s.dataIn with
      | .created => some ({ s with dataIn := .done, cancelled := false }, [])
      | _ => some s.finishDataIn
    else none
  | e =>
    if s.cancelled then none
    else
      match e, s.dataIn with
      | .start, .created => some ({ s with dataIn := .getting }, [])
      | .got, .getting =>
        match s.inQ with
        | [] => none
        | .OK _ :: inQ => some { s with inQ }.finishDataIn
        | .SD c :: inQ => some ({ s with inQ, dataIn := .sleeping c.data }, [])
        | _ :: inQ => some ({ s with inQ }, [])
      | .wake, .sleeping data => some ({ s with dataIn := .draining }, [.wrote data])
      | .drained, .draining => some ({ s with dataIn := .getting }, [])
      | .writeFailed exc, .sleeping _ | .writeFailed exc, .draining =>
        some ({ s with dataIn := .sendingErr }, [.sent (errReply s.full s.token "socket_in failed" exc)])
      | .sent, .sendingErr | .sendFailed, .sendingErr => some s.finishDataIn
      | _, _ => none

def step (s : TcpClient) : Event → Option (TcpClient × List Effect)
  | .main e => s.stepMain e
  | .dataIn e => s.stepDataIn e
  | .put c => some ({ s with inQ := s.inQ ++ [c] }, [])

/-! ### What a step does -/

/-- The steps of `socket_connect`. -/
inductive MainStep (s : TcpClient) : MainEvent → TcpClient → List Effect → Prop
  | opened (h : s.main = .opening) :
    MainStep s .opened { s with main := .sendingContinue, dataIn := .created }
      [.opened, .setProcessQueue, .sent (continueReply s.token)]
  | openFailed (exc : String) (h : s.main = .opening) : MainStep s (.openFailed exc) (s.fail exc).1 (s.fail exc).2
  | sent (h : s.main = .sendingContinue ∨ s.main = .sendingData) : MainStep s .sent { s with main := .sleeping } []
  | sentLast (h : s.main = .sendingOk ∨ s.main = .sendingErr) : MainStep s .sent s.finish.1 s.finish.2
  | sendFailed (exc : String) (h : s.main = .sendingContinue ∨ s.main = .sendingData ∨ s.main = .sendingOk) :
    MainStep s (.sendFailed exc) (s.fail exc).1 (s.fail exc).2
  | sendFailedLast (exc : String) (h : s.main = .sendingErr) : MainStep s (.sendFailed exc) s.finish.1 s.finish.2
  | wake (h : s.main = .sleeping) (hd : s.dataIn ≠ .created) : MainStep s .wake { s with main := .reading } []
  | readEof (h : s.main = .reading) :
    MainStep s (.read []) { s with main := .sendingOk } [.read [], .sent (okReply s.token)]
  | read (data : Bytes) (h : s.main = .reading) (hd : data ≠ []) :
    MainStep s (.read data) { s with main := .sendingData } [.read data, .sent (.SD ⟨s.token, data⟩)]
  | readFailed (exc : String) (h : s.main = .reading) : MainStep s (.readFailed exc) (s.fail exc).1 (s.fail exc).2

theorem mainStep_of_step {s s' : TcpClient} {e : MainEvent} {o : List Effect} (h : s.stepMain e = some (s', o)) :
    MainStep s e s' o := by
  cases e with
  | opened =>
    simp only [stepMain] at h
    split at h <;> cases h
    exact .opened ‹_›
  | openFailed exc =>
    simp only [stepMain] at h
    split at h <;> cases h
    exact .openFailed exc ‹_›
  | sent =>
    simp only [stepMain] at h
    split at h <;> cases h
    exacts [.sent (.inl ‹_›), .sent (.inr ‹_›), .sentLast (.inl ‹_›), .sentLast (.inr ‹_›)]
  | sendFailed exc =>
    simp only [stepMain] at h
    split at h <;> cases h
    exacts [.sendFailed exc (.inl ‹_›), .sendFailed exc (.inr (.inl ‹_›)), .sendFailed exc (.inr (.inr ‹_›)),
      .sendFailedLast exc ‹_›]
  | wake =>
    simp only [stepMain] at h
    split at h <;> cases h
    rename_i hw
    exact .wake hw.1 hw.2
  | read data =>
    simp only [stepMain] at h
    split at h
    · split at h <;> cases h
      · subst data; exact .readEof ‹_›
      · exact .read data ‹_› ‹_›
    · cases h
  | readFailed exc =>
    simp only [stepMain] at h
    split at h <;> cases h
    exact .readFailed exc ‹_›

/-- The steps of `__socket_data_in_handle`. -/
inductive DataInStep (s : TcpClient) : DataInEvent → TcpClient → List Effect → Prop
  | cancelCreated (hc : s.cancelled = true) (h : s.dataIn = .created) :
    DataInStep s .cancel { s with dataIn := .done, cancelled := false } []
  | cancel (hc : s.cancelled = true) (h : s.dataIn ≠ .created) : DataInStep s .cancel s.finishDataIn.1 s.finishDataIn.2
  | start (hc : s.cancelled = false) (h : s.dataIn = .created) : DataInStep s .start { s with dataIn := .getting } []
  | gotOk (c : WSNOK) (inQ : List CMD) (hc : s.cancelled = false) (h : s.dataIn = .getting)
      (hq : s.inQ = .OK c :: inQ) :
    DataInStep s .got { s with inQ }.finishDataIn.1 { s with inQ }.finishDataIn.2
  | gotData (c : WSNSocketData) (inQ : List CMD) (hc : s.cancelled = false) (h : s.dataIn = .getting)
    (hq : s.inQ = .SD c :: inQ) : DataInStep s .got { s with inQ, dataIn := .sleeping c.data } []
  | gotOther (c : CMD) (inQ : List CMD) (hc : s.cancelled = false) (h : s.dataIn = .getting) (hq : s.inQ = c :: inQ)
    (hok : ∀ c', c ≠ .OK c') (hsd : ∀ c', c ≠ .SD c') : DataInStep s .got { s with inQ } []
  | wake (data : Bytes) (hc : s.cancelled = false) (h : s.dataIn = .sleeping data) :
    DataInStep s .wake { s with dataIn := .draining } [.wrote data]
  | drained (hc : s.cancelled = false) (h : s.dataIn = .draining) :
      DataInStep s .drained { s with dataIn := .getting } []
  | writeFailed (exc : String) (hc : s.cancelled = false)
      (h : (∃ data, s.dataIn = .sleeping data) ∨ s.dataIn = .draining) :
    DataInStep s (.writeFailed exc) { s with dataIn := .sendingErr }
      [.sent (errReply s.full s.token "socket_in failed" exc)]
  | sent (e : DataInEvent) (he : e = .sent ∨ e = .sendFailed) (hc : s.cancelled = false) (h : s.dataIn = .sendingErr) :
    DataInStep s e s.finishDataIn.1 s.finishDataIn.2

theorem dataInStep_of_step {s s' : TcpClient} {e : DataInEvent} {o : List Effect} (h : s.stepDataIn e = some (s', o)) :
    DataInStep s e s' o := by
  obtain ⟨token, full, main, dataIn, cancelled, inQ, closed⟩ := s
  cases cancelled
  · cases e <;> cases dataIn <;> simp [stepDataIn] at h
    case start.created => obtain ⟨rfl, rfl⟩ := h; exact .start rfl rfl
    case got.getting =>
      split at h <;> cases h
      exacts [.gotOk _ _ rfl rfl rfl, .gotData _ _ rfl rfl rfl, .gotOther _ _ rfl rfl rfl ‹_› ‹_›]
    case wake.sleeping => obtain ⟨rfl, rfl⟩ := h; exact .wake _ rfl rfl
    case drained.draining => obtain ⟨rfl, rfl⟩ := h; exact .drained rfl rfl
    case writeFailed.sleeping => obtain ⟨rfl, rfl⟩ := h; exact .writeFailed _ rfl (.inl ⟨_, rfl⟩)
    case writeFailed.draining => obtain ⟨rfl, rfl⟩ := h; exact .writeFailed _ rfl (.inr rfl)
    case sent.sendingErr => cases h; exact .sent _ (.inl rfl) rfl rfl
    case sendFailed.sendingErr => cases h; exact .sent _ (.inr rfl) rfl rfl
  · cases e <;> simp [stepDataIn] at h
    cases dataIn <;> cases h
    exacts [.cancel rfl nofun, .cancelCreated rfl rfl, .cancel rfl nofun, .cancel rfl nofun, .cancel rfl nofun,
      .cancel rfl nofun, .cancel rfl nofun]

theorem token_of_step {s s' : TcpClient} {e : Event} {o : List Effect} (h : s.step e = some (s', o)) :
    s'.token = s.token := by
  cases e with
  | put c => cases h; rfl
  | main e => cases mainStep_of_step h <;> rfl
  | dataIn e => cases dataInStep_of_step h <;> rfl

end TcpClient

end Wsnet
