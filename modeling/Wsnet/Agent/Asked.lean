import Wsnet.Agent.Connections
import Wsnet.Agent.FileOps

/-!
# An agent speaks when it is asked

Each command may be answered with messages of certain types (`CMD.answers`), of its own token. In every run of an
agent each message it sends is one of these for a command that it has received before. `Asked` says of an agent
between two steps that its sessions, its connections, its lookups and what it still has to send go back to
commands received, and `Speaks` that a step keeps this and sends nothing else.
-/

namespace Wsnet

/-- The types of the messages that a session sends. -/
def Branch.answers : Branch → List CMDType
  | .tcpClient => [.CONTINUE, .SD, .OK, .ERR]
  | .udpClient => [.CONTINUE, .SDSRV]
  | .tcpServer | .udpServer => [.CONTINUE, .SDSRV, .ERR]
  | .nothing => []

/-- The types of the messages that a command may be answered with. -/
def CMD.answers : CMD → List CMDType
  | .CONNECT c => c.kind.branch.answers
  | .SDSRV _ => [.SDSRV, .ERR]
  | .SD _ => [.ERR]
  | .GETINFO _ => [.GETINFOREPLY, .OK, .ERR]
  | .RESOLV _ => [.RESOLV, .ERR]
  | .DIRLS _ => [.FILEENTRY, .OK, .ERR]
  | .DIRRM _ | .DIRMK _ | .DIRCOPY _ | .DIRMOVE _ | .FILECOPY _ | .FILEMOVE _ | .FILERM _ => [.OK, .ERR]
  | .FILEOPEN _ | .FILEDATA _ => [.CONTINUE, .ERR]
  | .FILEREAD _ => [.FILEDATA, .ERR]
  | .FILESTAT _ => [.FILEENTRY, .ERR]
  | .FILEENTRY _ => [.ERR]
  | _ => []

/-- `m` is of the token of `c`, and of a type that `c` asks for. -/
def CMD.Answers (c m : CMD) : Prop := m.token = c.token ∧ m.type ∈ c.answers

instance (c m : CMD) : Decidable (c.Answers m) := by
  unfold CMD.Answers
  infer_instance

/-- One of the commands `rs` may be answered with `m`. -/
def Permits (rs : List CMD) (m : CMD) : Prop := ∃ c ∈ rs, c.Answers m

theorem Permits.mono {rs rs' : List CMD} {m : CMD} (h : Permits rs m) (hrs : rs ⊆ rs') : Permits rs' m :=
  h.imp fun _ hc => ⟨hrs hc.1, hc.2⟩

/-! ### File operations -/

namespace FileSystem
variable {σ φ α : Type} {os : FileSystem σ φ} {full : Bool} {cmd : CMD}

/-- Every message so far is an answer to the request. -/
def Answering (cmd : CMD) (s : FileState σ φ) : Prop := ∀ m ∈ s.sent, cmd.Answers m

/-- The computation sends answers to the request only, also when it raises. -/
abbrev OnlyAnswers (cmd : CMD) (p : Exec (FileState σ φ) String α) : Prop :=
  Triple (Answering cmd) p (fun _ => Answering cmd) fun _ => Answering cmd

theorem onlyAnswers_call (k : FileCall) (x : Exec σ String α) :
    OnlyAnswers cmd (call k x : Exec (FileState σ φ) String α) := by
  refine .of_exec fun s hs => ?_
  simp only [call, Exec.ofFun_exec]
  rcases x.exec s.world with ⟨r, world⟩
  rcases r with exc | a
  · exact .inr ⟨exc, _, rfl, hs⟩
  · exact .inl ⟨a, _, rfl, hs⟩

theorem onlyAnswers_update {f : FileState σ φ → FileState σ φ} (hf : ∀ s, (f s).sent = s.sent) :
    OnlyAnswers cmd (Exec.update f) :=
  .of_exec fun s hs => .inl ⟨_, _, rfl, fun m hm => hs m (hf s ▸ hm)⟩

theorem onlyAnswers_send {reply : Except PyErr CMD} (h : ∀ c, reply = .ok c → cmd.Answers c) :
    OnlyAnswers cmd (os.send_data reply) := by
  refine .of_exec fun s hs => ?_
  simp only [send_data, Exec.ofFun_exec]
  cases hreply : reply.bind fun c => c.toBytes.map (c, ·) with
  | error e => exact .inr ⟨os.format_exc e, _, rfl, hs⟩
  | ok r =>
    obtain ⟨c, raw⟩ := r
    cases hsend : (os.send raw).exec s.world with
    | mk res world =>
      simp only [hsend]
      cases res with
      | error exc => exact .inr ⟨exc, _, rfl, hs⟩
      | ok u =>
        refine .inl ⟨(), _, rfl, fun m hm => ?_⟩
        rcases List.mem_append.1 hm with hm | hm
        · exact hs m hm
        · obtain rfl := List.mem_singleton.1 hm
          cases reply with
          | error e => cases hreply
          | ok c' =>
            obtain ⟨_, -, heq⟩ := except_map_eq_ok.1 hreply
            obtain ⟨rfl, -⟩ := Prod.mk.inj heq
            exact h _ rfl

theorem onlyAnswers_err (reason exc : String) (h : .ERR ∈ cmd.answers) :
    OnlyAnswers cmd (os.send_err full cmd reason exc) :=
  onlyAnswers_send fun c hc => by
    cases hc
    exact ⟨rfl, h⟩

theorem onlyAnswers_file (token : Bytes) : OnlyAnswers cmd (os.file token) := by
  refine .of_exec fun s hs => ?_
  simp only [file, Exec.ofFun_exec]
  cases s.file_queues.get? token with
  | some f => exact .inl ⟨f, s, rfl, hs⟩
  | none => exact .inr ⟨_, s, rfl, hs⟩

theorem onlyAnswers_sendEntry {c : WSNDirLS} (root name : PyText) (is_dir : Bool) :
    OnlyAnswers (.DIRLS c) (os.sendEntry c.token root is_dir name) := by
  refine .bind (.tryCatch (onlyAnswers_call .stat _) fun exc => .pure fun s hs => hs) fun stat => ?_
  refine onlyAnswers_send fun m hm => ?_
  obtain ⟨htype, htoken⟩ := fileEntry_eq_ok hm
  exact ⟨htoken, by rw [htype]; exact List.mem_cons_self⟩

theorem onlyAnswers_walkLoop {c : WSNDirLS} (path : String) (raised : Option String) (entries : List WalkEntry) :
    OnlyAnswers (.DIRLS c) (os.walkLoop c.token path raised entries) := by
  induction entries with
  | nil =>
    rcases raised with _ | exc
    · exact .pure fun s hs => hs
    · rw [walkLoop]
      exact onlyAnswers_call .walk _
  | cons e rest ih =>
    rw [walkLoop]
    split
    · exact .pure fun s hs => hs
    · refine .bind (.forEach fun name _ => onlyAnswers_sendEntry _ name _) fun _ => ?_
      exact .bind (.forEach fun name _ => onlyAnswers_sendEntry _ name _) fun _ => ih

theorem onlyAnswers_fileOpen (c : WSNFileOpen) : OnlyAnswers (.FILEOPEN c) (os.fileOpen full c) := by
  rw [fileOpen]
  split
  · refine .bind (onlyAnswers_call .open_ _) fun f => .bind (onlyAnswers_update fun s => rfl) fun _ => ?_
    exact onlyAnswers_send fun m hm => by
      cases hm
      exact ⟨rfl, List.mem_cons_self⟩
  · exact onlyAnswers_err _ _ (by simp [CMD.answers])

/-- One call, and `OK`. -/
theorem onlyAnswers_callOk (k : FileCall) (x : Exec σ String Unit) (h : .OK ∈ cmd.answers) :
    OnlyAnswers cmd (do call k x; os.send_ok cmd : Exec (FileState σ φ) String Unit) :=
  .bind (onlyAnswers_call k x) fun _ => onlyAnswers_send fun m hm => by
    cases hm
    exact ⟨rfl, h⟩

theorem onlyAnswers_tryProcess (htype : 300 ≤ cmd.type.value ∧ cmd.type.value < 320) :
    OnlyAnswers cmd (os.tryProcess full cmd) := by
  cases cmd with
  | DIRRM c | DIRMK c | DIRCOPY c | DIRMOVE c | FILECOPY c | FILEMOVE c | FILERM c =>
    exact onlyAnswers_callOk _ _ (by simp [CMD.answers])
  | DIRLS c =>
    refine .bind (onlyAnswers_call .walk _) fun r => .bind (onlyAnswers_walkLoop c.path r.2 r.1) fun _ => ?_
    exact onlyAnswers_send fun m hm => by
      cases hm
      exact ⟨rfl, by simp [CMD.answers]⟩
  | FILEOPEN c => exact onlyAnswers_fileOpen c
  | FILEREAD c =>
    refine .bind (onlyAnswers_file _) fun f => .bind (onlyAnswers_call .seek _) fun _ => ?_
    refine .bind (onlyAnswers_call .read _) fun data => .bind (onlyAnswers_call .tell _) fun position => ?_
    exact onlyAnswers_send fun m hm => by
      cases hm
      exact ⟨rfl, List.mem_cons_self⟩
  | FILEDATA c =>
    refine .bind (onlyAnswers_file _) fun f => .bind (onlyAnswers_call .seek _) fun _ => ?_
    refine .bind (onlyAnswers_call .write _) fun _ => onlyAnswers_send fun m hm => ?_
    cases hm
    exact ⟨rfl, List.mem_cons_self⟩
  | FILESTAT c =>
    refine .bind (onlyAnswers_file _) fun f => .bind (onlyAnswers_call .fileno _) fun fd => ?_
    refine .bind (onlyAnswers_call .fstat _) fun stat => onlyAnswers_send fun m hm => ?_
    cases hm
    exact ⟨rfl, List.mem_cons_self⟩
  | FILEENTRY c => exact onlyAnswers_err _ _ List.mem_cons_self
  | _ => exact absurd htype (by simp [CMD.type, CMDType.value])

theorem err_mem_answers (htype : 300 ≤ cmd.type.value ∧ cmd.type.value < 320) : .ERR ∈ cmd.answers := by
  cases cmd <;> simp [CMD.type, CMDType.value, CMD.answers] at htype ⊢

/-- Whatever a file operation sends is an answer to it. -/
theorem answers_process_fileop (htype : 300 ≤ cmd.type.value ∧ cmd.type.value < 320) (world : σ) (fq : Dict Bytes φ) :
    ∀ m ∈ ((os.process_fileop full cmd).exec (.start world fq)).2.sent, cmd.Answers m := by
  have h : OnlyAnswers cmd (os.process_fileop full cmd) :=
    .tryCatch (onlyAnswers_tryProcess htype) fun exc => onlyAnswers_err _ _ (err_mem_answers htype)
  have hrun := h.run (.start world fq) fun m hm => absurd hm List.not_mem_nil
  rcases hexec : (os.process_fileop full cmd).exec (.start world fq) with ⟨r, s⟩
  rw [hexec] at hrun
  rcases r with exc | u
  · exact hrun
  · exact hrun

end FileSystem

/-! ### Sessions and connections -/

section Sessions
variable {o : List Effect}

theorem TcpClient.sent_of_step {s s' : TcpClient} {e : Event} (h : s.step e = some (s', o)) :
    ∀ m, .sent m ∈ o → m.token = s.token ∧ m.type ∈ Branch.tcpClient.answers := by
  intro m hm
  cases e with
  | put c =>
    cases h
    cases hm
  | main e => cases mainStep_of_step h <;> simp_all [fail, finish, Branch.answers, CMD.type, CMD.token, continueReply,
    okReply, errReply]
  | dataIn e => cases dataInStep_of_step h <;> simp_all [finishDataIn, Branch.answers]

theorem UdpClient.sent_of_step {s s' : UdpClient} {e : Event} (h : s.step e = some (s', o)) :
    ∀ m, .sent m ∈ o → m.token = s.token ∧ m.type ∈ Branch.udpClient.answers := by
  intro m hm
  revert h
  fun_cases step s e <;> rintro ⟨⟩ <;> simp_all [Branch.answers, CMD.type, CMD.token, continueReply]

theorem TcpServer.sent_of_step {s s' : TcpServer} {e : Event} (h : s.step e = some (s', o)) :
    ∀ m, .sent m ∈ o → m.token = s.token ∧ (m.type = .CONTINUE ∨ m.type = .ERR) := by
  intro m hm
  revert h
  fun_cases step s e <;> rintro ⟨⟩ <;> simp_all

theorem UdpServer.sent_of_step {s s' : UdpServer} {e : Event} (h : s.step e = some (s', o)) :
    ∀ m, .sent m ∈ o → m.token = s.token ∧ m.type ∈ Branch.udpServer.answers := by
  intro m hm
  revert h
  fun_cases step s e <;> rintro ⟨⟩ <;> simp_all [Branch.answers, CMD.type, CMD.token, continueReply, errReply]

/-- A session sends answers to its CONNECT only. -/
theorem Session.answers_of_step {s s' : Session} {e : Event} (hf : s.Fits) (h : s.step e = some (s', o)) :
    ∀ m, .sent m ∈ o → (CMD.CONNECT s.cmd).Answers m := by
  intro m hm
  obtain ⟨hbranch, htoken⟩ := hf
  have ht := (step_eq_some h).2
  show m.token = s.cmd.token ∧ m.type ∈ s.cmd.kind.branch.answers
  rw [← hbranch]
  generalize s.task = k at ht htoken; generalize s'.task = k' at ht; generalize s.taskEvent e = e' at ht
  cases ht with
  | tcpClient h => exact htoken _ rfl ▸ TcpClient.sent_of_step h m hm
  | udpClient h => exact htoken _ rfl ▸ UdpClient.sent_of_step h m hm
  | tcpServer h =>
    rw [← htoken _ rfl]
    refine (TcpServer.sent_of_step h m hm).imp_right fun htype => ?_
    rcases htype with h | h <;> simp [h, SessionTask.branch, Branch.answers]
  | udpServer h => exact htoken _ rfl ▸ UdpServer.sent_of_step h m hm
  | nothing => cases hm

end Sessions

namespace TCPServerConnection
variable {c c' : TCPServerConnection} {e : Event} {o : List Effect}

/-- The messages `o` of a connection that has become `c'` are of its two tokens. -/
def Named (c' : TCPServerConnection) (o : List Effect) : Prop :=
  ∀ m, .sent m ∈ o → m.token = c'.token ∧ m.connectiontoken = c'.connectiontoken

theorem named_beginStop : Named c.beginStop.1 c.beginStop.2 := by
  unfold beginStop
  split <;> simp [Named, emptyMessage]

theorem named_finish : c.finish.1.token = c.token ∧ Named c.finish.1 c.finish.2 := by
  unfold finish beginStop
  split <;> simp [Named, emptyMessage]

theorem named_loop : c.loop.1.token = c.token ∧ Named c.loop.1 c.loop.2 := by
  unfold loop
  split
  · exact named_finish
  · simp [Named]

theorem named_of_step (h : c.step e = some (c', o)) : c'.token = c.token ∧ Named c' o := by
  revert h
  fun_cases step c e <;> intro h <;> try (cases h; done)
  all_goals obtain ⟨rfl, rfl⟩ := Prod.ext_iff.1 (Option.some.inj h)
  all_goals first | exact named_finish | exact named_loop | simp [Named, endStop]

end TCPServerConnection

/-! ### The agent -/

namespace Agent

/-- The messages `cs`, and an `ERR` in place of one that cannot be sent, are answers to the commands `rs`. -/
structure Sendable (rs cs : List CMD) (onFail : Option OnFail) : Prop where
  messages : ∀ m ∈ cs, Permits rs m
  onFail : ∀ h, onFail = some h → ∃ c ∈ rs, c.token = h.token ∧ .ERR ∈ c.answers

/-- Whatever the agent may still send goes back to one of the commands `rs`. -/
structure Asked (rs : List CMD) (a : Agent) : Prop where
  sessions : ∀ s ∈ a.sessions, .CONNECT s.cmd ∈ rs ∧ s.Fits
  conns : ∀ c ∈ a.conns, ∃ cmd, .CONNECT cmd ∈ rs ∧ cmd.token = c.token ∧ cmd.kind.branch = .tcpServer
  resolving : ∀ p ∈ a.resolving, ∃ c, .RESOLV c ∈ rs ∧ c.token = p.1
  sending : ∀ rest onFail, a.incoming = .sending rest onFail → Sendable rs rest onFail

/-- The agent has become `r.1` and sent answers to the commands `rs` only. -/
structure Speaks (rs : List CMD) (r : Agent × List Output) : Prop where
  asked : Asked rs r.1
  sent : ∀ x ∈ r.2, ∀ m, x.message? = some m → Permits rs m

section Asked
variable {rs rs' cs rest : List CMD} {a a' : Agent} {onFail : Option OnFail} {o : List Output} {r : Agent × List Output}
  {c d : TCPServerConnection} {j : Nat}

theorem Sendable.mono (h : Sendable rs cs onFail) (hrs : rs ⊆ rs') : Sendable rs' cs onFail where
  messages m hm := (h.messages m hm).mono hrs
  onFail f hf := (h.onFail f hf).imp fun _ hc => ⟨hrs hc.1, hc.2⟩

theorem Sendable.err {f : OnFail} {full : Bool} {reason exc : String} (h : Sendable rs rest (some f)) :
    Permits rs (errReply full f.token reason exc) := by
  obtain ⟨c, hc, htoken, herr⟩ := h.onFail f rfl
  exact ⟨c, hc, htoken.symm, herr⟩

theorem Asked.mono (hp : Asked rs a) (hrs : rs ⊆ rs') : Asked rs' a where
  sessions s hs := (hp.sessions s hs).imp_left (hrs ·)
  conns c hc := (hp.conns c hc).imp fun _ h => h.imp_left (hrs ·)
  resolving p hm := (hp.resolving p hm).imp fun _ h => h.imp_left (hrs ·)
  sending rest onFail h := (hp.sending rest onFail h).mono hrs

/-- Where the tables are left alone, `process_incoming` has something to send or nothing. -/
theorem Asked.waits (hp : Asked rs a) (hs : a'.sessions = a.sessions) (hc : a'.conns = a.conns)
    (hr : a'.resolving = a.resolving)
    (hi : ∀ rest onFail, a'.incoming = .sending rest onFail → Sendable rs rest onFail) : Asked rs a' where
  sessions := hs ▸ hp.sessions
  conns := hc ▸ hp.conns
  resolving := hr ▸ hp.resolving
  sending := hi

theorem Speaks.andThen (ho : ∀ x ∈ o, ∀ m, x.message? = some m → Permits rs m) (hr : Speaks rs r) :
    Speaks rs (andThen o r) := by
  refine ⟨hr.asked, fun x hx m hm => ?_⟩
  rcases List.mem_append.1 hx with hx | hx
  · exact ho x hx m hm
  · exact hr.sent x hx m hm

theorem Asked.return_ {ok : Bool} (hp : Asked rs a) : Speaks rs (a.return_ ok) := by
  refine ⟨hp.waits rfl rfl rfl fun rest onFail h => (by cases h), fun x hx m hm => ?_⟩
  rw [List.mem_singleton.1 hx] at hm
  cases hm

theorem Asked.sendAll (hp : Asked rs a) (h : Sendable rs cs onFail) : Speaks rs (a.sendAll cs onFail) := by
  rcases cs with _ | ⟨c, cs⟩
  · exact hp.return_
  · refine ⟨hp.waits rfl rfl rfl fun rest f hi => ?_, fun x hx m hm => ?_⟩
    · cases hi
      exact ⟨fun m hm => h.messages m (List.mem_cons_of_mem c hm), h.onFail⟩
    · rw [List.mem_singleton.1 hx] at hm
      cases hm
      exact h.messages _ List.mem_cons_self

/-- One message in answer to the command `c`. -/
theorem Asked.reply {c m : CMD} (hp : Asked rs a) (hc : c ∈ rs) (hm : c.Answers m) : Speaks rs (a.sendAll [m] none) :=
  hp.sendAll ⟨fun m' hm' => List.mem_singleton.1 hm' ▸ ⟨c, hc, hm⟩, fun f hf => by cases hf⟩

/-- A connection speaks for the CONNECT of its server. -/
theorem Asked.permits (hp : Asked rs a) (hc : a.conns[j]? = some c) {m : WSNServerSocketData}
    (hm : m.token = c.token) : Permits rs (.SDSRV m) := by
  obtain ⟨cmd, hcmd, htoken, hkind⟩ := hp.conns c (List.mem_of_getElem? hc)
  refine ⟨_, hcmd, hm.trans htoken.symm, ?_⟩
  show CMDType.SDSRV ∈ cmd.kind.branch.answers
  rw [hkind]
  decide

theorem Asked.putConn {os : List TCPServerConnection.Effect} (hp : Asked rs a) (hc : a.conns[j]? = some c)
    (hd : d.token = c.token) (hos : TCPServerConnection.Named d os) : Speaks rs (a.putConn j d os) := by
  constructor
  · obtain ⟨table, heq, -⟩ := putConn_frame a j d os
    rw [heq]
    refine ⟨hp.sessions, fun c' hc' => ?_, hp.resolving, hp.sending⟩
    rcases List.mem_or_eq_of_mem_set hc' with hc' | rfl
    · exact hp.conns c' hc'
    · rw [hd]
      exact hp.conns c (List.mem_of_getElem? hc)
  · intro x hx m hm
    obtain ⟨e, he, rfl⟩ := List.mem_map.1 hx
    cases e with
    | sent m' =>
      cases hm
      exact hp.permits hc ((hos m' he).1.trans hd)
    | _ => cases hm

theorem Asked.closeServer (hp : Asked rs a) (token : Bytes) : Speaks rs (a.closeServer token) := by
  fun_cases Agent.closeServer a token
  · exact hp.return_
  · exact hp.return_
  · rename_i i hi s hs
    refine Asked.return_ ⟨fun s' hs' => ?_, hp.conns, hp.resolving, hp.sending⟩
    rcases List.mem_or_eq_of_mem_set hs' with hs' | rfl
    · exact hp.sessions s' hs'
    · obtain ⟨hcmd, hbranch, htoken⟩ := hp.sessions s (List.mem_of_getElem? hs)
      refine ⟨by rwa [cmd_cancelServer], ?_, ?_⟩
      · rwa [cmd_cancelServer, branch_cancelServer]
      · rwa [cmd_cancelServer, token?_cancelServer]

theorem Asked.beginStop (hp : Asked rs a) (hc : a.conns[j]? = some c) :
    Speaks rs (a.putConn j c.beginStop.1 c.beginStop.2) :=
  hp.putConn hc (TCPServerConnection.token_beginStop c) TCPServerConnection.named_beginStop

theorem Asked.closeLoop (hp : Asked rs a) (token : Bytes) (rest : List Bytes) :
    Speaks rs (a.closeLoop token rest) := by
  fun_induction Agent.closeLoop a token rest with
  | case1 => exact hp.closeServer token
  | case2 | case3 | case4 => exact hp.return_
  | case5 a ct rest t ht j hj c hc hd ih =>
    exact ih ((hp.beginStop hc).asked.waits rfl rfl rfl fun rest onFail h => by cases h)
  | case6 a ct rest t ht j hj c hc hd r =>
    have h := hp.beginStop hc
    exact ⟨h.asked.waits rfl rfl rfl fun rest onFail hi => (by cases hi), h.sent⟩

theorem Asked.stopConn (hp : Asked rs a) (hc : a.conns[j]? = some c) : Speaks rs (a.stopConn j c) := by
  have h := hp.beginStop hc
  unfold Agent.stopConn
  split
  · exact h.asked.return_
  · exact ⟨h.asked.waits rfl rfl rfl fun rest onFail hi => (by cases hi), h.sent⟩

end Asked

/-! ### What the agent does with a command -/

section Asked
variable {rs : List CMD} {a a' : Agent} {c : CMD} {f : FileOs} {e : Event} {o : List Output} {r : Agent × List Output}

theorem Asked.fileOpen {c : WSNFileOpen} (hp : Asked rs a) (hc : .FILEOPEN c ∈ rs) :
    Speaks rs (a.fileOpen c f) := by
  have hsend {m : CMD} {reason : String} (htoken : m.token = c.token) (htype : m.type = .CONTINUE ∨ m.type = .ERR) :
      Sendable rs [m] (some ⟨c.token, some reason⟩) := by
    refine ⟨fun m' hm' => ?_, fun h hh => ?_⟩
    · rw [List.mem_singleton.1 hm']
      exact ⟨_, hc, htoken, by simpa [CMD.answers] using htype⟩
    · cases hh
      exact ⟨_, hc, rfl, by simp [CMD.answers]⟩
  fun_cases Agent.fileOpen a c f
  · exact hp.reply hc ⟨rfl, by simp [CMD.answers]⟩
  · refine Asked.sendAll ⟨hp.sessions, hp.conns, hp.resolving, hp.sending⟩ (hsend rfl ?_)
    exact .inl rfl
  · exact hp.sendAll (hsend rfl (.inr rfl))

theorem Asked.serverData {c : WSNServerSocketData} (hp : Asked rs a) (hc : .SDSRV c ∈ rs) :
    Speaks rs (a.serverData c) := by
  fun_cases Agent.serverData a c
  · refine ⟨hp.waits rfl rfl rfl fun rest onFail h => (by cases h), fun x hx m hm => ?_⟩
    rw [List.mem_singleton.1 hx] at hm
    cases hm
  · exact hp.reply hc ⟨rfl, List.mem_cons_self⟩
  · exact hp.return_
  · exact hp.reply hc ⟨rfl, by simp [CMD.answers]⟩

theorem Asked.dispatch (hp : Asked rs a) (hc : c ∈ rs)
    (hf : 300 ≤ c.type.value ∧ c.type.value < 320 → ∀ m ∈ f.replies, c.Answers m) : Speaks rs (a.dispatch c f) := by
  fun_cases Agent.dispatch a c f with
  | case1 c => exact hp.serverData hc
  | case2 c =>
    refine Asked.return_ ⟨hp.sessions, hp.conns, fun p hm => ?_, hp.sending⟩
    rcases List.mem_append.1 hm with hm | hm
    · exact hp.resolving p hm
    · exact ⟨c, hc, by rw [List.mem_singleton.1 hm]⟩
  | case3 c =>
    refine Asked.return_ ⟨fun s hs => ?_, hp.conns, hp.resolving, hp.sending⟩
    rcases List.mem_append.1 hs with hs | hs
    · exact hp.sessions s hs
    · rw [List.mem_singleton.1 hs]
      exact ⟨hc, Session.fits_create a.full c⟩
  | case4 c => exact hp.reply hc ⟨rfl, List.mem_cons_self⟩
  | case5 c =>
    refine hp.sendAll ⟨fun m hm => ⟨_, hc, ?_⟩, fun h hh => ?_⟩
    · rcases List.mem_cons.1 hm with rfl | hm
      · exact ⟨rfl, List.mem_cons_self⟩
      · rw [List.mem_singleton.1 hm]
        exact ⟨rfl, by simp [CMD.answers]⟩
    · cases hh
      exact ⟨_, hc, rfl, by simp [CMD.answers]⟩
  | case6 c => exact hp.fileOpen hc
  | case7 c _ _ _ _ _ _ h =>
    refine hp.sendAll ⟨fun m hm => ⟨c, hc, hf h m hm⟩, fun g hg => ?_⟩
    cases hg
    exact ⟨c, hc, rfl, FileSystem.err_mem_answers h⟩
  | case8 => exact hp.return_

theorem Asked.processIncoming (hp : Asked rs a) (hc : c ∈ rs)
    (hf : 300 ≤ c.type.value ∧ c.type.value < 320 → ∀ m ∈ f.replies, c.Answers m) :
    Speaks rs (a.processIncoming c f) := by
  fun_cases Agent.processIncoming a c f with
  | case1 i hq cmd t hs =>
    refine Asked.return_ ⟨fun s hs' => ?_, hp.conns, hp.resolving, hp.sending⟩
    rcases List.mem_or_eq_of_mem_set hs' with hs' | rfl
    · exact hp.sessions s hs'
    · exact hp.sessions ⟨cmd, .tcpClient t⟩ (List.mem_of_getElem? hs)
  | case2 => exact hp.return_
  | case3 | case4 => exact Asked.return_ ⟨hp.sessions, hp.conns, hp.resolving, hp.sending⟩
  | case5 => exact hp.closeLoop _ _
  | case6 => exact hp.closeServer _
  | case7 => exact hp.dispatch hc hf

/-- The send in a `stop` is over, and what follows it keeps the invariant. -/
theorem Asked.stopDone {j : Nat} {sent : Bool} {k : Agent → Agent × List Output} (hp : Asked rs a)
    (hk : ∀ a : Agent, Asked rs a → Speaks rs (k a)) (h : a.stopDone j sent k = some r) : Speaks rs r := by
  unfold Agent.stopDone at h
  split at h
  · rename_i c hc
    cases h
    have hidle : Asked rs { a with incoming := .idle } := hp.waits rfl rfl rfl fun _ _ h => by cases h
    have hnamed : (c.endStop sent).1.Named (c.endStop sent).2 := by
      unfold TCPServerConnection.endStop
      split <;> simp [TCPServerConnection.Named]
    have hend : Speaks rs ({ a with incoming := .idle }.putConn j (c.endStop sent).1 (c.endStop sent).2) :=
      hidle.putConn hc rfl hnamed
    exact .andThen hend.sent (hk _ hend.asked)
  · cases h

theorem Asked.stepIncoming (hp : Asked rs a) (h : a.stepIncoming e = some r) : Speaks rs r := by
  revert h
  fun_cases Agent.stepIncoming a e <;> intro h
  all_goals try cases h
  all_goals have hi : a.incoming = _ := ‹_›
  · exact hp.sendAll (hp.sending _ _ hi)
  · exact hp.stopDone (fun a ha => ha.closeLoop _ _) h
  · exact hp.stopDone (fun a ha => ha.return_) h
  · exact hp.sendAll ⟨fun m hm => List.mem_singleton.1 hm ▸ (hp.sending _ _ hi).err, fun f hf => by cases hf⟩
  · exact hp.return_
  · exact hp.stopDone (fun a ha => ha.closeLoop _ _) h
  · exact hp.stopDone (fun a ha => ha.return_) h
  · exact hp.stopConn ‹_›
  · exact hp.return_
  · exact hp.stopConn ‹_›

end Asked

/-! ### Every run -/

/-- The commands that `process_incoming` has decoded. -/
def received (os : List Output) : List CMD :=
  os.filterMap fun
    | .received c => some c
    | _ => none

@[simp] theorem received_append (os os' : List Output) : received (os ++ os') = received os ++ received os' :=
  List.filterMap_append

theorem mem_received {c : CMD} {os : List Output} : c ∈ received os ↔ .received c ∈ os := by
  rw [received, List.mem_filterMap]
  constructor
  · rintro ⟨x, hx, hc⟩
    split at hc
    · cases hc
      exact hx
    · cases hc
  · exact fun h => ⟨_, h, rfl⟩

/-- What is replied to a file operation is what `process_fileop` sends, whatever the file system does. -/
def Event.OfFiles : Event → Prop
  | .recv data f => ∀ c, CMD.fromBytes data = .ok c → 300 ≤ c.type.value ∧ c.type.value < 320 →
    ∃ (σ φ : Type) (os : FileSystem σ φ) (full : Bool) (world : σ) (fq : Dict Bytes φ),
      f.replies = ((os.process_fileop full c).exec (.start world fq)).2.sent
  | _ => True

/-- Each message answers a command that was received before it. -/
def Heeds (os : List Output) : Prop :=
  ∀ os₁ x os₂ m, os = os₁ ++ x :: os₂ → x.message? = some m → Permits (received os₁) m

section Run
variable {rs : List CMD} {a a' : Agent} {e : Event} {o os : List Output}

theorem Heeds.append (h : Heeds os)
    (ho : ∀ o₁ x o₂ m, o = o₁ ++ x :: o₂ → x.message? = some m → Permits (received os ++ received o₁) m) :
    Heeds (os ++ o) := by
  intro os₁ x os₂ m heq hm
  rcases List.append_eq_append_iff.1 heq with ⟨o₁, rfl, hx⟩ | ⟨l, rfl, hx⟩
  · rw [received_append]
    exact ho o₁ x os₂ m hx hm
  · rcases l with _ | ⟨y, l⟩
    · rw [List.append_nil] at ho
      simpa [received] using ho [] x os₂ m hx.symm hm
    · obtain ⟨rfl, -⟩ := List.cons.inj hx
      exact h os₁ _ l m rfl hm

theorem Asked.putSession {i : Nat} {s s' : Session} {e : Session.Event} {o : List Effect} (hp : Asked rs a)
    (hs : a.sessions[i]? = some s) (h : s.step e = some (s', o)) : Speaks rs (a.putSession i s' o) := by
  obtain ⟨hcmd, hfits⟩ := hp.sessions s (List.mem_of_getElem? hs)
  constructor
  · refine ⟨fun s₀ hmem => ?_, ?_, ?_, ?_⟩
    · refine forall_sessions_putSession (Q := fun s => .CONNECT s.cmd ∈ rs ∧ s.Fits) ?_ hp.sessions s₀ hmem
      exact ⟨(Session.step_eq_some h).1 ▸ hcmd, hfits.step h⟩
    · rw [conns_putSession]
      exact hp.conns
    · rw [resolving_putSession]
      exact hp.resolving
    · rw [incoming_putSession]
      exact hp.sending
  · intro x hx m hm
    obtain ⟨e, he, rfl⟩ := List.mem_map.1 hx
    cases e with
    | sent m' =>
      cases hm
      exact ⟨_, hcmd, Session.answers_of_step hfits h _ he⟩
    | _ => cases hm

/-- A lookup goes on, and says `o`. -/
theorem Asked.resolve {k : Nat} {token : Bytes} {t t' : TaskState} (hp : Asked rs a)
    (hk : a.resolving[k]? = some (token, t)) (ho : ∀ x ∈ o, ∀ m, x.message? = some m → m.token = token ∧
      (m.type = .RESOLV ∨ m.type = .ERR)) :
    Speaks rs ({ a with resolving := a.resolving.set k (token, t') }, o) := by
  obtain ⟨c, hc, htoken⟩ := hp.resolving _ (List.mem_of_getElem? hk)
  refine ⟨⟨hp.sessions, hp.conns, fun p hm => ?_, hp.sending⟩, fun x hx m hm => ?_⟩
  · rcases List.mem_or_eq_of_mem_set hm with hm | rfl
    · exact hp.resolving p hm
    · exact ⟨c, hc, htoken⟩
  · obtain ⟨ht, htype⟩ := ho x hx m hm
    exact ⟨_, hc, ht.trans htoken.symm, by simpa [CMD.answers] using htype⟩

theorem Asked.step (hp : Asked rs a) (he : e.OfFiles) (h : a.step e = some (a', o)) :
    Speaks rs (a', o) ∨ ∃ c o', o = .received c :: o' ∧ Speaks (rs ++ [c]) (a', o') := by
  cases e with
  | recv data f =>
    simp only [Agent.step] at h
    split at h
    · split at h
      · rename_i c hc
        have hspeaks : Speaks (rs ++ [c]) (a.processIncoming c f) := by
          refine (hp.mono (List.subset_append_left rs [c])).processIncoming (by simp) fun htype m hm => ?_
          obtain ⟨σ, φ, os, full, world, fq, hf⟩ := he c hc htype
          exact FileSystem.answers_process_fileop htype world fq m (hf ▸ hm)
        cases h
        exact .inr ⟨c, _, rfl, hspeaks⟩
      · cases h
        refine .inl ⟨hp, fun x hx m hm => ?_⟩
        rw [List.mem_singleton.1 hx] at hm
        cases hm
    · cases h
  | session i e =>
    simp only [Agent.step] at h
    split at h
    · cases h
    · split at h
      · rename_i s hs
        obtain ⟨r, hr, heq⟩ := Option.map_eq_some_iff.1 h
        exact .inl (heq ▸ hp.putSession hs hr)
      · cases h
  | accept i peername =>
    simp only [Agent.step] at h
    split at h
    · rename_i cmd t hs
      split at h
      · cases h
        obtain ⟨hcmd, hbranch, htoken⟩ := hp.sessions _ (List.mem_of_getElem? hs)
        refine .inl ⟨⟨hp.sessions, fun c hc => ?_, hp.resolving, hp.sending⟩, fun x hx => by cases hx⟩
        rcases List.mem_append.1 hc with hc | hc
        · exact hp.conns c hc
        · rw [List.mem_singleton.1 hc]
          exact ⟨cmd, hcmd, (htoken _ rfl).symm, hbranch.symm⟩
      · cases h
    · cases h
  | conn j e =>
    cases e with
    | start ct =>
      simp only [Agent.step] at h
      split at h
      · rename_i c hc
        split at h
        · obtain ⟨r, hr, heq⟩ := Option.map_eq_some_iff.1 h
          obtain ⟨htoken, hnamed⟩ := TCPServerConnection.named_of_step hr
          have hnext : Asked rs { a with connId := a.connId + 1 } := ⟨hp.sessions, hp.conns, hp.resolving, hp.sending⟩
          exact .inl (heq ▸ hnext.putConn hc htoken hnamed)
        · cases h
      · cases h
    | _ =>
      simp only [Agent.step] at h
      split at h
      · rename_i c hc
        obtain ⟨r, hr, heq⟩ := Option.map_eq_some_iff.1 h
        obtain ⟨htoken, hnamed⟩ := TCPServerConnection.named_of_step hr
        exact .inl (heq ▸ hp.putConn hc htoken hnamed)
      · cases h
  | resolved k addresses =>
    simp only [Agent.step] at h
    split at h
    · cases h
      refine .inl (hp.resolve ‹_› fun x hx m hm => ?_)
      rw [List.mem_singleton.1 hx] at hm
      cases hm
      exact ⟨rfl, .inl rfl⟩
    · cases h
  | resolveSent k =>
    simp only [Agent.step] at h
    split at h
    · cases h
      exact .inl (hp.resolve ‹_› fun x hx => by cases hx)
    · cases h
  | resolveFailed k exc =>
    simp only [Agent.step] at h
    split at h
    · cases h
      refine .inl (hp.resolve ‹_› fun x hx m hm => ?_)
      rw [List.mem_singleton.1 hx] at hm
      cases hm
      exact ⟨rfl, .inr rfl⟩
    · cases h
  | sent | drained | sendFailed exc | drainFailed =>
    simp only [Agent.step] at h
    exact .inl (hp.stepIncoming h)

/-- What one step keeps. -/
theorem heeds_step (hp : Asked (received os) a ∧ Heeds os) (he : e.OfFiles) (h : a.step e = some (a', o)) :
    Asked (received (os ++ o)) a' ∧ Heeds (os ++ o) := by
  rcases hp.1.step he h with hspeaks | ⟨c, o', rfl, hspeaks⟩
  · rw [received_append]
    refine ⟨hspeaks.asked.mono (List.subset_append_left _ _), hp.2.append fun o₁ x o₂ m heq hm => ?_⟩
    exact (hspeaks.sent x (by rw [heq]; simp) m hm).mono (List.subset_append_left _ _)
  · have hreceived (l : List Output) : received os ++ received (.received c :: l) = received os ++ [c] ++ received l := by
      rw [List.append_assoc]
      rfl
    rw [received_append, hreceived]
    refine ⟨hspeaks.asked.mono (List.subset_append_left _ _), hp.2.append fun o₁ x o₂ m heq hm => ?_⟩
    rcases o₁ with _ | ⟨y, o₁⟩
    · obtain ⟨rfl, -⟩ := List.cons.inj heq
      cases hm
    · obtain ⟨rfl, rfl⟩ := List.cons.inj heq
      rw [hreceived]
      exact (hspeaks.sent x (by simp) m hm).mono (List.subset_append_left _ _)

theorem Asked.init (full : Bool) (info : WSNGetInfoReply) : Asked [] (init full info) where
  sessions s hs := absurd hs List.not_mem_nil
  conns c hc := absurd hc List.not_mem_nil
  resolving p hp := absurd hp List.not_mem_nil
  sending rest onFail hi := by cases hi

/-- An agent never speaks unasked: whatever it sends in a run is one of the answers to a command that it has
received before. -/
theorem speaks_when_asked {full : Bool} {info : WSNGetInfoReply} {es : List Event}
    (h : Run step (init full info) es a os) (he : ∀ e ∈ es, e.OfFiles) {os₁ os₂ : List Output} {x : Output} {m : CMD}
    (hos : os = os₁ ++ x :: os₂) (hm : x.message? = some m) : ∃ c, .received c ∈ os₁ ∧ c.Answers m := by
  have hrun := h.invariant_of (P := fun a os => Asked (received os) a ∧ Heeds os)
    (fun he hp hs => heeds_step hp he hs) he ⟨.init full info, fun os₁ x os₂ m heq => by simp at heq⟩
  obtain ⟨c, hc, hanswers⟩ := hrun.2 os₁ x os₂ m hos hm
  exact ⟨c, mem_received.1 hc, hanswers⟩

/-- A request to make `/tmp`. -/
def mkdirFrame : Bytes := [0, 0, 0, 30, 1, 45] ++ List.replicate 16 3 ++ [0, 0, 0, 4, 47, 116, 109, 112]

theorem speaks_when_asked_mkdir : ∃ a os₁ x m, Run step (init true ⟨[], 1, "", "", "", "", "", "", "", ""⟩)
    [.recv mkdirFrame { replies := [okReply (List.replicate 16 3)] }, .sent] a (os₁ ++ [x, .returned true]) ∧
      x.message? = some m ∧ ∃ c, .received c ∈ os₁ ∧ c.Answers m := by
  have hread : CMD.fromBytes mkdirFrame = .ok (.DIRMK ⟨List.replicate 16 3, "/tmp"⟩) := by rfl
  have hrun : Run step (init true ⟨[], 1, "", "", "", "", "", "", "", ""⟩)
      [.recv mkdirFrame { replies := [okReply (List.replicate 16 3)] }, .sent] _ _ := .of_exec rfl
  refine ⟨_, [.received (.DIRMK ⟨List.replicate 16 3, "/tmp"⟩)], .sent (okReply (List.replicate 16 3)), _, hrun, rfl, ?_⟩
  refine speaks_when_asked hrun (fun e he => ?_) (rfl : _ = [_] ++ _ :: [Output.returned true]) rfl
  rcases List.mem_cons.1 he with rfl | he
  · intro c hc htype
    obtain rfl := Except.ok.inj (hread.symm.trans hc)
    exact ⟨Unit, Unit, FileSystem.idle false, true, (), Dict.empty, by decide +kernel⟩
  · rw [List.mem_singleton.1 he]
    trivial

end Run

end Agent

end Wsnet
