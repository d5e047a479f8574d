import Wsnet.Router.Listing

/-!
# The notification of the operators

`OPServer.__handle_signal_in_queue` sends what a new agent says of itself to the operators, in a loop over
`OPServer.operators` that waits for every send. The handlers of the operators change that table, and so does the loop
itself where a send fails. `Announcing` says how far it has come; it is kept as long as the table stays the same while
an operator waits for its turn (`Quiet`).
-/

namespace Wsnet.Router
variable {s s' s₁ : Router} {e : Event} {o : List Output} {es es₁ : List Event} {os₁ : List Output} {tr : Trace}
  {opid id b : Bytes} {it : Dict.Iter} {done rest ids : List Bytes} {notify : CMD}

/-! ### Who comes and who goes -/

/-- The steps of the announcing task. -/
def Event.announces : Event → Bool
  | .signal | .signalSent | .signalSendFailed => true
  | _ => false

/-- The handler goes on, or it has ended. -/
inductive Serves (s s' : Router) (opid : Bytes) : Prop
  | goesOn (ho : s'.operators = s.operators) (hh : ∀ id, id ∈ s'.handlers.keys ↔ id ∈ s.handlers.keys)
  | ends (ho : s'.operators = s.operators.del opid)
      (hh : ∀ id, id ∈ s'.handlers.keys ↔ id ≠ opid ∧ id ∈ s.handlers.keys)

theorem serves_endOperator (s : Router) (opid : Bytes) : Serves s (s.endOperator opid) opid :=
  .ends rfl fun _ => Dict.mem_keys_del

theorem serves_set (hp : opid ∈ s.handlers.keys) (pc : OpPc) :
    Serves s { s with handlers := s.handlers.set opid pc } opid := by
  refine .goesOn rfl fun id => ?_
  rw [Dict.mem_keys_set, or_iff_right_of_imp]
  rintro rfl
  exact hp

theorem serves_sendOp (hp : opid ∈ s.handlers.keys) (c : CMD) (pc : Bytes → OpPc) :
    Serves s (s.sendOp opid c pc).1 opid := by
  unfold sendOp
  split
  · exact serves_set hp _
  · exact serves_endOperator s opid

theorem serves_listNext (hp : opid ∈ s.handlers.keys) (token : Bytes) (it : Dict.Iter) :
    Serves s (s.listNext opid token it).1 opid := by
  unfold listNext
  split
  · exact serves_endOperator s opid
  · exact serves_sendOp hp _ _
  · split
    · exact serves_sendOp hp _ _
    · exact serves_endOperator s opid

theorem serves_opFrame (hp : opid ∈ s.handlers.keys) (data : Bytes) : Serves s (s.opFrame opid data).1 opid := by
  have hsame : ∀ s' : Router, s'.operators = s.operators → s'.handlers = s.handlers → Serves s s' opid :=
    fun s' ho hh => .goesOn ho fun id => hh ▸ Iff.rfl
  unfold opFrame
  dsimp only
  split
  · split
    · split
      · exact serves_listNext hp _ _
      · exact hsame _ rfl rfl
    · exact serves_endOperator s opid
  · split
    · exact hsame _ rfl rfl
    · exact serves_sendOp hp _ _

/-- What a step does to the operators. -/
inductive Turnout (s : Router) (e : Event) (s' : Router) : Prop
  /-- an operator connects; a handler that fails at once has entered nothing that stays -/
  | joins {opid : Bytes} {pair : Bool} (he : e = .opConnect opid pair) (hnew : opid ∉ s.drawn)
    (ho : ∀ id, id ∈ s'.operators.keys ↔ (id = opid ∧ pair = true) ∨ id ≠ opid ∧ id ∈ s.operators.keys)
    (hh : ∀ id, id ∈ s'.handlers.keys ↔ (id = opid ∧ pair = true) ∨ id ≠ opid ∧ id ∈ s.handlers.keys)
  | serves {opid : Bytes} (he : e.operator = some opid) (hs : Serves s s' opid)
  | announces (he : e.announces = true) (ho : ∀ id ∈ s'.operators.keys, id ∈ s.operators.keys)
      (hh : s'.handlers = s.handlers)
  | other (he : e.announces = false) (hop : e.operator = none) (ho : s'.operators = s.operators)
      (hh : s'.handlers = s.handlers)

theorem operators_announceNext (s : Router) (notify : CMD) (it : Dict.Iter) :
    ∀ id ∈ (s.announceNext notify it).1.operators.keys, id ∈ s.operators.keys := by
  unfold announceNext
  split
  · exact fun _ h => h
  · exact fun _ h => h
  · split
    · exact fun _ h => h
    · exact fun _ h => (Dict.mem_keys_del.1 h).2

theorem operators_signal (s : Router) (x : Signal) : ∀ id ∈ (s.signal x).1.operators.keys, id ∈ s.operators.keys := by
  cases x with
  | AGENTIN agentid data =>
    simp only [signal]
    split
    · exact operators_announceNext _ _ _
    · exact fun _ h => h
  | AGENTOUT agentid => exact fun _ h => h

theorem turnout_of_step (h : s.step e = some (s', o)) : Turnout s e s' := by
  have hmem : ∀ {opid : Bytes} {pc : OpPc}, s.handlers.get? opid = some pc → opid ∈ s.handlers.keys :=
    fun hpc => Dict.mem_keys_iff.2 ⟨_, hpc⟩
  cases step_cases h with
  | agentConnect pair => split <;> exact .other rfl rfl rfl rfl
  | agentFrame data =>
    unfold agentFrame
    dsimp only
    split
    · split <;> exact .other rfl rfl rfl rfl
    · exact .other rfl rfl rfl rfl
  | agentLost | forwarded | forwardFailed | delivered | deliverFailed => exact .other rfl rfl rfl rfl
  | forward =>
    unfold forward
    split <;> exact .other rfl rfl rfl rfl
  | deliver =>
    unfold deliver
    dsimp only
    split <;> exact .other rfl rfl rfl rfl
  | opConnect pair hlen hnew =>
    refine .joins rfl hnew (fun id => ?_) fun id => ?_
    · cases pair <;> simp [endOperator, Dict.mem_keys_set, Dict.mem_keys_del] <;> tauto
    · cases pair <;> simp [endOperator, Dict.mem_keys_set, Dict.mem_keys_del] <;> tauto
  | opFrame data hpc => exact .serves rfl (serves_opFrame (hmem hpc) data)
  | opLost | opSendFailed => exact .serves rfl (serves_endOperator s _)
  | opReplied hpc => exact .serves rfl (serves_set (hpc.elim hmem hmem) _)
  | opListed hpc => exact .serves rfl (serves_listNext (hmem hpc) _ _)
  | signal ht hq => exact .announces rfl (operators_signal _ _) (handlers_signal ..)
  | signalSent => exact .announces rfl (operators_announceNext s _ _) (handlers_announceNext ..)
  | signalSendFailed =>
    exact .announces rfl (fun id hid => (Dict.mem_keys_del.1 (operators_announceNext _ _ _ id hid)).2)
      (handlers_announceNext ..)
  | signalRaised => exact .announces rfl (fun _ h => h) rfl

/-- Every operator in the table has a running handler. -/
theorem served_of_run (h : Run step {} es s os₁) (hid : id ∈ s.operators.keys) : id ∈ s.handlers.keys := by
  refine h.state_invariant (P := fun s => ∀ id ∈ s.operators.keys, id ∈ s.handlers.keys) ?_ ?_ id hid
  · intro s s' e o hp hs id hid
    cases turnout_of_step hs with
    | joins he hnew ho hh => exact (hh id).2 (((ho id).1 hid).imp_right fun h => ⟨h.1, hp id h.2⟩)
    | serves he hs =>
      cases hs with
      | goesOn ho hh => exact (hh id).2 (hp id (ho ▸ hid))
      | ends ho hh =>
        rw [ho] at hid
        exact (hh id).2 ((Dict.mem_keys_del.1 hid).imp_right (hp id))
    | announces he ho hh => exact hh ▸ hp id (ho id hid)
    | other he hop ho hh => exact hh ▸ hp id (ho ▸ hid)
  · rintro id ⟨⟩

/-! ### The loop -/

/-- Another operator waits for its turn. -/
def Remains (s : Router) : Prop :=
  ∃ notify it opid data opid' it', s.signalTask = .announcing notify it opid data ∧
    s.operators.next it = .yield opid' it'

/-- While another operator waits, no send of the notification fails, and no operator comes or goes. -/
def Quiet (s : Router) (e : Event) : Prop :=
  Remains s → e ≠ .signalSendFailed ∧ (∀ opid pair, e ≠ .opConnect opid pair) ∧
  ∀ opid ∈ s.operators.keys, e.operator = some opid → ∀ s' o, s.step e = some (s', o) → opid ∈ s'.handlers.keys

/-- A send to an operator. -/
def Output.call? : Output → Option (Bytes × Bytes)
  | .send (.operator opid) data => some (opid, data)
  | _ => none

/-- What the announcing task sends, and to whom. -/
def announcements (tr : Trace) : List (Bytes × Bytes) :=
  tr.flatMap fun x => if x.2.1.announces then x.2.2.filterMap Output.call? else []

/-- The operators for whom the send has failed. -/
def failed (tr : Trace) : List Bytes :=
  tr.filterMap fun x => match x.2.1, x.1.signalTask with
    | .signalSendFailed, .announcing _ _ opid _ => some opid
    | _, _ => none

theorem announcements_append (tr tr' : Trace) : announcements (tr ++ tr') = announcements tr ++ announcements tr' :=
  List.flatMap_append

theorem failed_append (tr tr' : Trace) : failed (tr ++ tr') = failed tr ++ failed tr' := List.filterMap_append

theorem announcements_other (h : e.announces = false) : announcements [(s, e, o)] = [] := by
  simp [announcements, h]

theorem failed_of_ne (h : e ≠ .signalSendFailed) : failed [(s, e, o)] = [] := by
  cases e <;> first | rfl | exact absurd rfl h

/-- How far the announcing task has come with the operators `ids`, when it has called `calls`, and `n` calls have
returned or raised. -/
inductive Announcing (notify : CMD) (b : Bytes) (ids : List Bytes) (s : Router) (calls : List (Bytes × Bytes))
    (n : Nat) : Prop
  /-- the send to `opid` is awaited, and those to `rest` are to come -/
  | waiting {it : Dict.Iter} {opid : Bytes} {done rest : List Bytes} (ht : s.signalTask = .announcing notify it opid b)
    (hleft : it.left = rest.length) (hat : rest ≠ [] → s.operators.At it (done ++ [opid]) rest)
    (hids : ids = done ++ opid :: rest) (hcalls : calls = (done ++ [opid]).map (·, b)) (hn : n = done.length)
  | finished (ht : s.signalTask = .idle) (hcalls : calls = ids.map (·, b)) (hn : n = ids.length)

theorem announceNext_nil (h : ∀ opid it', s.operators.next it ≠ .yield opid it') :
    s.announceNext notify it = ({ s with signalTask := .idle }, []) := by
  unfold announceNext
  split
  · rfl
  · rfl
  · exact absurd ‹_› (h _ _)

theorem announceNext_cons {opid : Bytes} (hat : s.operators.At it done (opid :: rest)) (hb : notify.toBytes = .ok b) :
    ∃ it', s.announceNext notify it =
      ({ s with signalTask := .announcing notify it' opid b }, [.send (.operator opid) b]) ∧
      s.operators.At it' (done ++ [opid]) rest := by
  obtain ⟨it', hyield, hat'⟩ := hat.next_cons
  refine ⟨it', ?_, hat'⟩
  rw [announceNext, hyield]
  simp only [hb]

/-- Only the announcing task gets on. -/
theorem signalTask_of_step (h : s.step e = some (s', o)) (he : e.announces = false) : s'.signalTask = s.signalTask := by
  cases step_cases h with
  | agentConnect pair | opConnect pair => split <;> rfl
  | agentFrame data =>
    unfold agentFrame
    dsimp only
    split
    · split <;> rfl
    · rfl
  | forward =>
    unfold forward
    split <;> rfl
  | deliver =>
    unfold deliver
    dsimp only
    split <;> rfl
  | opFrame => exact signalTask_opFrame
  | opListed => exact signalTask_listNext _
  | signal | signalSent | signalSendFailed | signalRaised => cases he
  | _ => rfl

theorem Quiet.operators (hq : Quiet s e) (hr : Remains s) (he : e.announces = false) (h : s.step e = some (s', o)) :
    s'.operators = s.operators := by
  obtain ⟨-, hconnect, hstays⟩ := hq hr
  cases turnout_of_step h with
  | joins he' => exact absurd he' (hconnect _ _)
  | @serves opid he' hs =>
    cases hs with
    | goesOn ho => exact ho
    | ends ho hh =>
      -- the operator whose handler has ended was not in the table any more
      by_cases hid : opid ∈ s.operators.keys
      · exact absurd rfl ((hh opid).1 (hstays opid hid he' s' o h)).1
      · rw [ho, Dict.del_of_notMem hid]
  | announces he' =>
    rw [he] at he'
    cases he'
  | other he hop ho => exact ho

theorem announcing_step {calls : List (Bytes × Bytes)} {n : Nat} (ha : Announcing notify b ids s calls n)
    (hb : ids ≠ [] → notify.toBytes = .ok b) (hq : Quiet s e) (hsignal : e ≠ .signal) (h : s.step e = some (s', o)) :
    Announcing notify b ids s' (calls ++ announcements [(s, e, o)]) (n + [e].countP Event.announces) := by
  cases ha with
  | finished ht hcalls hn =>
    by_cases he : e.announces = true
    · cases step_cases h with
      | signal => exact absurd rfl hsignal
      | signalSent ht' | signalSendFailed ht' | signalRaised ht' => cases ht.symm.trans ht'
      | _ => cases he
    · have he := Bool.eq_false_iff.2 he
      rw [announcements_other he, List.append_nil, List.countP_singleton, he]
      exact .finished ((signalTask_of_step h he).trans ht) hcalls hn
  | @waiting it opid done rest ht hleft hat hids hcalls hn =>
    have hremains : rest ≠ [] → Remains s := by
      intro hne
      cases rest with
      | nil => exact absurd rfl hne
      | cons opid' rest =>
        obtain ⟨it', hyield, -⟩ := (hat hne).next_cons
        exact ⟨_, _, _, _, _, _, ht, hyield⟩
    have hlength : rest = [] → n + 1 = ids.length := by
      rintro rfl
      rw [hids, hn, List.length_append]
      rfl
    by_cases he : e.announces = true
    · rw [List.countP_singleton, he, if_pos rfl]
      cases step_cases h with
      | signal => exact absurd rfl hsignal
      | signalSent ht' =>
        cases ht.symm.trans ht'
        cases rest with
        | nil =>
          rw [announceNext_nil fun _ _ => Dict.next_ne_yield hleft]
          refine .finished rfl ?_ (hlength rfl)
          rw [hids, hcalls]
          simp [announcements, Event.announces, Output.call?]
        | cons opid' rest =>
          obtain ⟨it', hnext, hat'⟩ := announceNext_cons (hat (by simp)) (hb (by simp [hids]))
          rw [hnext]
          refine .waiting rfl hat'.left (fun _ => hat') (by simp [hids]) ?_ (by simp [hn])
          have hcall : announcements
              [(s, .signalSent, [.sent (.operator opid) b, .send (.operator opid') b])] = [(opid', b)] := rfl
          rw [hcalls, hcall]
          simp
      | signalSendFailed ht' =>
        cases ht.symm.trans ht'
        cases rest with
        | nil =>
          rw [announceNext_nil fun _ _ => Dict.next_ne_yield hleft]
          exact .finished rfl (by simp [announcements, hids, hcalls]) (hlength rfl)
        | cons opid' rest => exact absurd rfl (hq (hremains (by simp))).1
      | signalRaised ht' =>
        cases rest with
        | nil => exact .finished rfl (by simp [announcements, hids, hcalls]) (hlength rfl)
        | cons opid' rest => exact absurd rfl (hq (hremains (by simp))).1
      | _ => cases he
    · have he := Bool.eq_false_iff.2 he
      rw [announcements_other he, List.append_nil, List.countP_singleton, he]
      refine .waiting ((signalTask_of_step h he).trans ht) hleft (fun hne => ?_) hids hcalls hn
      rw [hq.operators (hremains hne) he h]
      exact hat hne

/-! ### Who is removed -/

theorem operators_of_toBytes (hb : notify.toBytes = .ok b) : (s.announceNext notify it).1.operators = s.operators := by
  unfold announceNext
  split
  · rfl
  · rfl
  · rw [hb]

theorem operators_signalSendFailed {data : Bytes} (hb : notify.toBytes = .ok b)
    (ht : s.signalTask = .announcing notify it opid data)
    (h : s.step .signalSendFailed = some (s', o)) (id : Bytes) :
    id ∈ s'.operators.keys ↔ id ≠ opid ∧ id ∈ s.operators.keys := by
  simp only [step, ht] at h
  split at h
  · rw [show s' = _ from (congrArg Prod.fst (Option.some.inj h)).symm, operators_of_toBytes hb]
    exact Dict.mem_keys_del
  · cases h
    -- its handler has deleted it before
    have hgone : opid ∉ s.operators.keys := fun hid => absurd (Dict.contains_iff_mem_keys.2 hid) ‹_›
    rw [iff_and_self]
    rintro hid rfl
    exact hgone hid

/-- An operator of before is in the table as long as its handler runs and no send to it has failed. -/
theorem kept_step {lost : List Bytes} (hd : id ∈ s.drawn)
    (hk : id ∈ s.operators.keys ↔ id ∈ s.handlers.keys ∧ id ∉ lost)
    (hb : ∀ notify it opid data, s.signalTask = .announcing notify it opid data → ∃ b, notify.toBytes = .ok b)
    (hn : e ≠ .signal)
    (h : s.step e = some (s', o)) :
    id ∈ s'.operators.keys ↔ id ∈ s'.handlers.keys ∧ id ∉ lost ++ failed [(s, e, o)] := by
  cases turnout_of_step h with
  | @joins opid pair he hnew ho hh =>
    have hne : id ≠ opid := fun heq => hnew (heq ▸ hd)
    rw [ho, hh, failed_of_ne (he ▸ by rintro ⟨⟩), List.append_nil]
    tauto
  | @serves opid he hs =>
    rw [failed_of_ne (by rintro rfl; cases he), List.append_nil]
    cases hs with
    | goesOn ho hh => rw [ho, hh, hk]
    | ends ho hh =>
      rw [ho, hh, Dict.mem_keys_del, hk]
      tauto
  | announces he ho hh =>
    have hfailed : ∀ {notify : CMD} {it : Dict.Iter} {opid data : Bytes},
        s.signalTask = .announcing notify it opid data →
        e = .signalSendFailed → (id ∈ s'.operators.keys ↔ id ∈ s'.handlers.keys ∧ id ∉ lost ++ failed [(s, e, o)]) := by
      rintro notify it opid data ht rfl
      obtain ⟨b, hb⟩ := hb _ _ _ _ ht
      have hlost : failed [(s, .signalSendFailed, o)] = [opid] := by simp [failed, ht]
      rw [operators_signalSendFailed hb ht h, hh, hk, hlost, List.mem_append, List.mem_singleton]
      tauto
    cases step_cases h with
    | signal => exact absurd rfl hn
    | signalSent ht =>
      obtain ⟨b, hb⟩ := hb _ _ _ _ ht
      rw [hh, operators_of_toBytes hb, failed_of_ne (by rintro ⟨⟩), List.append_nil]
      exact hk
    | signalSendFailed ht => exact hfailed ht rfl
    | signalRaised ht => exact hfailed ht rfl
    | _ => cases he
  | other he hop ho hh =>
    rw [ho, hh, failed_of_ne (by rintro rfl; cases he), List.append_nil]
    exact hk

/-! ### The signal -/

/-- What the operators are sent. -/
def notification (agentid : Bytes) (c : WSNGetInfoReply) : CMD :=
  .AGENTINFO ⟨zeroToken, agentid, c.pid, c.username, c.domain, c.logonserver, c.cpuarch, c.hostname, c.usersid⟩

variable {agentid : Bytes} {c : WSNGetInfoReply} {waiting : List Signal}

theorem announcing_signal (hb : s.operators.keys ≠ [] → (notification agentid c).toBytes = .ok b) :
    Announcing (notification agentid c) b s.operators.keys (s.signal (.AGENTIN agentid (.GETINFOREPLY c))).1
      ((s.signal (.AGENTIN agentid (.GETINFOREPLY c))).2.filterMap Output.call?) 0 ∧
    (s.signal (.AGENTIN agentid (.GETINFOREPLY c))).1.operators = s.operators := by
  have hsignal : s.signal (.AGENTIN agentid (.GETINFOREPLY c)) =
      { s with agents := s.agents.set agentid (.GETINFOREPLY c) }.announceNext (notification agentid c)
        s.operators.iter := rfl
  have hat := Dict.At.iter s.operators
  rw [hsignal]
  generalize hids : s.operators.keys = ids at hat hb
  cases ids with
  | nil =>
    rw [announceNext_nil fun _ _ => by rw [hat.next_nil]; rintro ⟨⟩]
    exact ⟨.finished rfl rfl rfl, rfl⟩
  | cons opid rest =>
    have hat : ({ s with agents := s.agents.set agentid (.GETINFOREPLY c) } : Router).operators.At
        s.operators.iter [] (opid :: rest) := hat
    obtain ⟨it', hnext, hat'⟩ := announceNext_cons hat (hb (by simp))
    rw [hnext]
    exact ⟨.waiting rfl hat'.left (fun _ => hat') rfl rfl rfl, rfl⟩

theorem announcing_of_run (h₁ : Run step {} es₁ s₁ os₁)
    (hq : s₁.signal_q = .AGENTIN agentid (.GETINFOREPLY c) :: waiting)
    (hb : s₁.operators.keys ≠ [] → (notification agentid c).toBytes = .ok b)
    (h : Run (traced step) s₁ (.signal :: es) s tr)
    (hn : .signal ∉ es) (hu : StepsMeet (traced step) Quiet s₁ (.signal :: es)) :
    Announcing (notification agentid c) b s₁.operators.keys s (announcements tr) (es.countP Event.announces) ∧
      ∀ opid ∈ s₁.operators.keys, opid ∈ s.operators.keys ↔ opid ∈ s.handlers.keys ∧ opid ∉ failed tr := by
  cases h with
  | @cons _ s₂ _ _ _ _ tr' hs hrun =>
    obtain ⟨o, hstep, rfl⟩ := Run.of_traced hs
    have hdrawn : ∀ opid ∈ s₁.operators.keys, opid ∈ s₂.drawn := fun opid hopid => by
      obtain ⟨pc, hpc⟩ := Dict.mem_keys_iff.1 (served_of_run h₁ hopid)
      exact (clients_of_step hstep).1 (handlers_drawn_of_run h₁ hpc)
    have hfirst : Announcing (notification agentid c) b s₁.operators.keys s₂ (announcements [(s₁, .signal, o)]) 0 ∧
        s₂.operators = s₁.operators ∧ s₂.handlers = s₁.handlers := by
      cases step_cases hstep with
      | signal ht hq' =>
        cases hq.symm.trans hq'
        obtain ⟨ha, ho⟩ := announcing_signal (s := { s₁ with signal_q := waiting }) hb
        have hcalls : announcements
            [(s₁, .signal, ({ s₁ with signal_q := waiting }.signal (.AGENTIN agentid (.GETINFOREPLY c))).2)] =
              ({ s₁ with signal_q := waiting }.signal (.AGENTIN agentid (.GETINFOREPLY c))).2.filterMap
                Output.call? := List.append_nil _
        exact ⟨hcalls ▸ ha, ho, handlers_signal ..⟩
    have hmeet : StepsMeet (traced step) (fun s e => Quiet s e ∧ e ≠ .signal) s₂ es := fun es₁ e es₂ s os he hrun =>
      ⟨hu.tail hs es₁ e es₂ s os he hrun, fun heq => hn (he ▸ heq ▸ List.mem_append_right _ List.mem_cons_self)⟩
    have hinv := hrun.invariant_where (P := fun s tr => (∀ opid ∈ s₁.operators.keys, opid ∈ s.drawn) ∧
      Announcing (notification agentid c) b s₁.operators.keys s (announcements ((s₁, .signal, o) :: tr))
        ((tr.map fun x => x.2.1).countP Event.announces) ∧
      ∀ opid ∈ s₁.operators.keys, opid ∈ s.operators.keys ↔
        opid ∈ s.handlers.keys ∧ opid ∉ failed ((s₁, .signal, o) :: tr)) hmeet ?_ ?_
    · rw [hrun.traced_events] at hinv
      exact hinv.2
    · rintro s s' e x tr ⟨hu, hn⟩ ⟨hd, ha, hk⟩ hs
      obtain ⟨o', hstep, rfl⟩ := Run.of_traced hs
      refine ⟨fun opid hopid => (clients_of_step hstep).1 (hd opid hopid), ?_, fun opid hopid => ?_⟩
      · rw [← List.cons_append, announcements_append, List.map_append, List.countP_append]
        exact announcing_step ha hb hu hn hstep
      · rw [← List.cons_append, failed_append]
        refine kept_step (hd opid hopid) (hk opid hopid) ?_ hn hstep
        intro notify it opid' data ht
        cases ha with
        | finished ht' => cases ht'.symm.trans ht
        | waiting ht' =>
          cases ht'.symm.trans ht
          exact ⟨b, hb (List.ne_nil_of_mem hopid)⟩
    · obtain ⟨ha, ho, hh⟩ := hfirst
      refine ⟨hdrawn, ha, fun opid hopid => ?_⟩
      rw [ho, hh, failed_of_ne (by rintro ⟨⟩)]
      exact ⟨fun _ => ⟨served_of_run h₁ hopid, List.not_mem_nil⟩, fun _ => hopid⟩

/-- In every run in which the table stays the same while an operator waits for its turn, every operator of the table is
sent the notification once, and those are removed for whom the send has failed or whose handler has ended. -/
theorem agentIn_announced (h₁ : Run step {} es₁ s₁ os₁)
    (hq : s₁.signal_q = .AGENTIN agentid (.GETINFOREPLY c) :: waiting)
    (hb : s₁.operators.keys ≠ [] → (notification agentid c).toBytes = .ok b)
    (h : Run (traced step) s₁ (.signal :: es) s tr)
    (hn : .signal ∉ es) (hu : StepsMeet (traced step) Quiet s₁ (.signal :: es)) :
    Announcing (notification agentid c) b s₁.operators.keys s (announcements tr) (es.countP Event.announces) ∧
      (s₁.operators.keys.length ≤ es.countP Event.announces → s.signalTask = .idle) ∧
      ∀ opid ∈ s₁.operators.keys, opid ∉ s.operators.keys ↔ opid ∉ s.handlers.keys ∨ opid ∈ failed tr := by
  have hinv := announcing_of_run h₁ hq hb h hn hu
  refine ⟨hinv.1, fun hle => ?_, fun opid hopid => ?_⟩
  · cases hinv.1 with
    | waiting ht hleft hat hids hcalls hn =>
      rw [hn, hids, List.length_append] at hle
      simp at hle
    | finished ht => exact ht
  · rw [hinv.2 opid hopid, not_and_or, not_not]

def operatorP : Bytes := List.replicate 16 10

/-- Two operators, and an agent that has announced itself. -/
def twoOperators : List Event :=
  [.opConnect operatorO true, .opConnect operatorP true, .agentConnect agentA true, .agentFrame agentA infoFrame]

theorem toBytes_notification : (notification agentA infoA).toBytes = .ok entryA := by decide

theorem quiet_of_announces (h : e.announces = true) (hne : e ≠ .signalSendFailed) : Quiet s e := by
  refine fun _ => ⟨hne, ?_, ?_⟩
  · rintro opid pair rfl
    cases h
  · intro opid _ he
    cases e <;> cases he <;> cases h

/-- Both sends work. -/
theorem agentIn_announced_twoOperators : ∃ s tr,
    Run (traced step) (stateAfter {} twoOperators) [.signal, .signalSent, .signalSent] s tr ∧
      Announcing (notification agentA infoA) entryA [operatorO, operatorP] s (announcements tr) 2 ∧
        s.signalTask = .idle := by
  have h₁ : Run step {} twoOperators (stateAfter {} twoOperators) [] := .of_exec rfl
  have h : Run (traced step) (stateAfter {} twoOperators) [.signal, .signalSent, .signalSent] _ _ := .of_exec rfl
  have hu : StepsMeet (traced step) Quiet (stateAfter {} twoOperators) [.signal, .signalSent, .signalSent] := by
    rintro es₁ e es₂ s os he -
    have hmem : e ∈ [Event.signal, .signalSent, .signalSent] := he ▸ List.mem_append_right _ List.mem_cons_self
    simp only [List.mem_cons, List.not_mem_nil, or_false] at hmem
    rcases hmem with rfl | rfl | rfl <;> exact quiet_of_announces rfl (by rintro ⟨⟩)
  obtain ⟨ha, hidle, -⟩ := agentIn_announced h₁ rfl (fun _ => toBytes_notification) h (by simp) hu
  exact ⟨_, _, h, ha, hidle (by decide)⟩

/-- The send to the first operator fails, and the second one is not told. -/
theorem not_agentIn_announced :
    ¬ ∀ (es₁ es : List Event) (s₁ s : Router) (os₁ : List Output) (tr : Trace) (agentid b : Bytes)
    (c : WSNGetInfoReply) (waiting : List Signal), Run step {} es₁ s₁ os₁ →
    s₁.signal_q = .AGENTIN agentid (.GETINFOREPLY c) :: waiting → (notification agentid c).toBytes = .ok b →
    Run (traced step) s₁ (.signal :: es) s tr → .signal ∉ es → s.signalTask = .idle →
      ∀ opid ∈ s.operators.keys, opid ∈ s₁.operators.keys → (opid, b) ∈ announcements tr := by
  intro h
  have hP := h twoOperators [.signalSendFailed] (stateAfter {} twoOperators) _ [] _ agentA entryA infoA []
    (.of_exec rfl) rfl
    toBytes_notification (.of_exec rfl) (by simp) rfl operatorP (by decide) (by decide)
  exact absurd hP (by decide)

end Wsnet.Router
