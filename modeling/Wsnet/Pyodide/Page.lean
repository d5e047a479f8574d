import Wsnet.Pyodide.Tunnels

/-!
# The page of the tunnels

What holds of the interface and its connections (`Page`), and what a step of one of them is for the tunnels:
nothing for those of other tokens, and one of the steps of the client's end for its own (`Turn`, `Drawn`,
`Received`).
-/

namespace Wsnet.Pyodide

namespace Tunnels

/-- The token that a connection has in the dispatch table. -/
def holds? (c : WSNetworkTCP) : Option Bytes :=
  match c.runPc with
  | .registering token => some token
  | _ => c.token

/-- A connection whose CONNECT was not sent. -/
structure Early (c : WSNetworkTCP) : Prop where
  token : c.token = none
  in_q : c.in_q = []
  waits : c.connection_established = false
  outPc : c.outPc = .none

structure Page (es : List Event) (p : WSNETWSInterface) : Prop where
  websocket : p.websocket = true
  created : ∀ (j : Nat) (c : WSNetworkTCP), p.tcps[j]? = some c → c.runPc = .created →
    Early c ∧ unsent c = putData j es
  registering : ∀ (j : Nat) (c : WSNetworkTCP) (token : Bytes), p.tcps[j]? = some c → c.runPc = .registering token →
    c.token = none ∧ c.outPc = .none
  opening : ∀ (j : Nat) (c : WSNetworkTCP) (data : Bytes), p.tcps[j]? = some c → c.outPc ≠ .opening data
  holds : ∀ (j : Nat) (c : WSNetworkTCP) (token : Bytes), p.tcps[j]? = some c → holds? c = some token →
    p.dispatch_table.get? token = some j ∧ owner token es = some j ∧ token.length = 16
  dispatch : ∀ token j, p.dispatch_table.get? token = some j → ∃ c, p.tcps[j]? = some c ∧ holds? c = some token
  owned : ∀ token j, owner token es = some j → ∃ c, p.tcps[j]? = some c ∧ c.runPc ≠ .created
  once : ∀ token token' j, owner token es = some j → owner token' es = some j → token = token'
  put : ∀ j : Nat, p.tcps[j]? = none → putData j es = []

/-- What a connection may become, but for the call of its `run`. -/
structure Later (c c' : WSNetworkTCP) : Prop where
  created : c'.runPc = .created → c.runPc = .created ∧ (Early c → Early c')
  registering : ∀ token, c'.runPc = .registering token →
    c.runPc = .registering token ∧ (c.token = none → c'.token = none) ∧ (c.outPc = .none → c'.outPc = .none)
  opening : ∀ data, c'.outPc = .opening data → c.outPc = .opening data

section Page
variable {es es' : List Event} {p p' : WSNETWSInterface} {j : Nat} {c c' : WSNetworkTCP} {token : Bytes}
  {fs : List Bytes}

theorem getElem?_set_of_some {α : Type} {l : List α} {i : Nat} {x y : α} (h : l[j]? = some x) :
    (l.set j y)[i]? = if i = j then some y else l[i]? := by
  have hlt : j < l.length := (List.getElem?_eq_some_iff.1 h).1
  rw [List.getElem?_set]
  by_cases hij : i = j
  · simp [hij, hlt]
  · rw [if_neg hij, if_neg (fun h => hij h.symm)]

/-- The connection `j` has become `c'`; if it has given up its token, nobody has it any more. -/
theorem Page.set (h : Page es p) (hj : p.tcps[j]? = some c) (hl : Later c c') (hown : ∀ t, owner t es' = owner t es)
    (hput : ∀ k, k ≠ j → putData k es' = putData k es)
    (hc : c'.runPc = .created → unsent c = putData j es → unsent c' = putData j es') {d : Dict Bytes Nat}
    (hd : holds? c' = holds? c ∧ d = p.dispatch_table ∨
      holds? c' = none ∧ ∀ t, d.get? t = if holds? c = some t then none else p.dispatch_table.get? t) :
    Page es' { p with tcps := p.tcps.set j c', dispatch_table := d } := by
  have hget : ∀ i : Nat, (p.tcps.set j c')[i]? = if i = j then some c' else p.tcps[i]? :=
    fun i => getElem?_set_of_some hj
  refine ⟨h.websocket, ?_, ?_, ?_, ?_, ?_, ?_, ?_, ?_⟩
  · intro i x hx hpc
    rcases Agent.getElem?_set_cases hx with ⟨rfl, rfl⟩ | ⟨hij, hx⟩
    · obtain ⟨hpc', hearly⟩ := hl.created hpc
      obtain ⟨he, hun⟩ := h.created i c hj hpc'
      exact ⟨hearly he, hc hpc hun⟩
    · rw [hput i hij]
      exact h.created i x hx hpc
  · intro i x t hx hpc
    rcases Agent.getElem?_set_cases hx with ⟨rfl, rfl⟩ | ⟨hij, hx⟩
    · obtain ⟨hpc', ht, ho⟩ := hl.registering t hpc
      obtain ⟨hnone, hout⟩ := h.registering i c t hj hpc'
      exact ⟨ht hnone, ho hout⟩
    · exact h.registering i x t hx hpc
  · intro i x data hx hout
    rcases Agent.getElem?_set_cases hx with ⟨rfl, rfl⟩ | ⟨hij, hx⟩
    · exact h.opening i c data hj (hl.opening data hout)
    · exact h.opening i x data hx hout
  · intro i x t hx ht
    rw [hown]
    rcases Agent.getElem?_set_cases hx with ⟨rfl, rfl⟩ | ⟨hij, hx⟩
    · rcases hd with ⟨hsame, rfl⟩ | ⟨hnone, -⟩
      · exact h.holds i c t hj (hsame ▸ ht)
      · cases hnone.symm.trans ht
    · obtain ⟨hdis, hrest⟩ := h.holds i x t hx ht
      refine ⟨?_, hrest⟩
      rcases hd with ⟨-, rfl⟩ | ⟨-, hdel⟩
      · exact hdis
      · rw [hdel, if_neg, hdis]
        intro hct
        exact hij (Option.some.inj (hdis.symm.trans (h.holds j c t hj hct).1))
  · intro t i ht
    have hold : p.dispatch_table.get? t = some i ∧ (i = j → holds? c' = some t) := by
      rcases hd with ⟨hsame, rfl⟩ | ⟨-, hdel⟩
      · refine ⟨ht, fun hij => ?_⟩
        obtain ⟨x, hx, hxt⟩ := h.dispatch t i ht
        rw [hij, hj] at hx
        cases hx
        rw [hsame, hxt]
      · rw [hdel] at ht
        by_cases hct : holds? c = some t
        · rw [if_pos hct] at ht
          cases ht
        · rw [if_neg hct] at ht
          refine ⟨ht, fun hij => ?_⟩
          obtain ⟨x, hx, hxt⟩ := h.dispatch t i ht
          rw [hij, hj] at hx
          cases hx
          exact absurd hxt hct
    obtain ⟨x, hx, hxt⟩ := h.dispatch t i hold.1
    by_cases hij : i = j
    · exact ⟨c', by rw [hget, if_pos hij], hold.2 hij⟩
    · exact ⟨x, by rw [hget, if_neg hij, hx], hxt⟩
  · intro t i hi
    rw [hown] at hi
    obtain ⟨x, hx, hpc⟩ := h.owned t i hi
    by_cases hij : i = j
    · rw [hij, hj] at hx
      cases hx
      exact ⟨c', by rw [hget, if_pos hij], fun hpc' => hpc (hl.created hpc').1⟩
    · exact ⟨x, by rw [hget, if_neg hij, hx], hpc⟩
  · intro t t' i hi hi'
    rw [hown] at hi hi'
    exact h.once t t' i hi hi'
  · intro i hi
    rw [hget] at hi
    by_cases hij : i = j
    · rw [if_pos hij] at hi
      cases hi
    · rw [if_neg hij] at hi
      rw [hput i hij]
      exact h.put i hi

/-- What a step of the connection that has drawn the token is for its tunnel: `ms` are the messages sent. -/
inductive Moves (token : Bytes) (a : Tunnel.Client) : Tunnel.Client → List CMD → Prop
  | none : Moves token a a []
  | step {a' : Tunnel.Client} (h : a.Step a') : Moves token a a' []
  | connect (ha : a.asking = true) (hr : a.registered = true) {ms : List CMD}
    (hms : ms = [] ∨ ∃ m, ms = [m] ∧ m.IsConnect = true ∧ m.IsTcp ∧ m.token = token) :
    Moves token a { a with asking := false } ms
  | send (hr : a.registered = true) (hc : a.continued = true) {ms : List CMD} (hms : ∀ m ∈ ms, ∃ d, m = .SD ⟨token, d⟩)
    {left : Bytes} (hl : a.left = sdData ms ++ left) : Moves token a { a with left } ms

/-- A step of one connection leaves the others alone. -/
structure Turn (es es' : List Event) (p p' : WSNETWSInterface) (j : Nat) (fs : List Bytes) : Prop where
  page : Page es' p'
  oks : p'.oks = p.oks
  established : p'.established = p.established
  others : ∀ i ≠ j, p'.tcps[i]? = p.tcps[i]?
  table : ∀ token, owner token es ≠ some j → p'.dispatch_table.contains token = p.dispatch_table.contains token
  nobody : (∀ token, owner token es ≠ some j) → decoded fs = []
  moves : ∀ token, owner token es = some j → ∃ c c', p.tcps[j]? = some c ∧ p'.tcps[j]? = some c' ∧
    Moves token (clientOf (putData j es) (p.dispatch_table.contains token) token c)
      (clientOf (putData j es') (p'.dispatch_table.contains token) token c') (decoded fs)

theorem Page.turn (h : Page es p) (hj : p.tcps[j]? = some c) (hl : Later c c') (hsame : holds? c' = holds? c)
    {e : WSNETWSInterface.TcpEvent} (he : ∀ t, e ≠ .run t)
    (hc : c'.runPc = .created → unsent c = putData j es → unsent c' = putData j (es ++ [.page (.tcp j e)]))
    (hn : (∀ token, owner token es ≠ some j) → decoded fs = [])
    (hm : ∀ token, owner token es = some j →
    Moves token (clientOf (putData j es) (p.dispatch_table.contains token) token c)
      (clientOf (putData j (es ++ [.page (.tcp j e)])) (p.dispatch_table.contains token) token c') (decoded fs)) :
    Turn es (es ++ [.page (.tcp j e)]) p (p.setTcp j c') j fs where
  page := h.set hj hl (fun _ => owner_tcp he) (fun _ hk => putData_other hk e) hc (.inl ⟨hsame, rfl⟩)
  oks := rfl
  established := rfl
  others _ hi := (getElem?_set_of_some hj).trans (if_neg hi)
  table _ _ := rfl
  nobody := hn
  moves token ht := ⟨c, c', hj, (getElem?_set_of_some hj).trans (if_pos rfl), hm token ht⟩

theorem unsent_of_outPc (h : ∀ data, c.outPc ≠ .opening data) : unsent c = (c.out_q.filterMap id).flatten := by
  unfold unsent
  split
  case h_1 data hout => exact absurd hout (h data)
  case h_2 => rfl

theorem Page.contains_iff (h : Page es p) (hj : p.tcps[j]? = some c) (ht : owner token es = some j) :
    p.dispatch_table.contains token = true ↔ holds? c = some token := by
  rw [Dict.contains_iff]
  constructor
  · rintro ⟨i, hi⟩
    obtain ⟨c', hc', hholds⟩ := h.dispatch token i hi
    cases ht.symm.trans (h.holds i c' token hc' hholds).2.1
    cases hj.symm.trans hc'
    exact hholds
  · exact fun hholds => ⟨j, (h.holds j c token hj hholds).1⟩

theorem Page.length_of_contains (h : Page es p) (hc : p.dispatch_table.contains token = true) : token.length = 16 := by
  obtain ⟨j, hj⟩ := Dict.contains_iff.1 hc
  obtain ⟨c, hc, hholds⟩ := h.dispatch token j hj
  exact (h.holds j c token hc hholds).2.2

theorem holds?_of_ne (h : ∀ token, c.runPc ≠ .registering token) : holds? c = c.token := by
  unfold holds?
  split
  case h_1 token hpc => exact absurd hpc (h token)
  case h_2 => rfl

theorem answered_terminated (c : WSNetworkTCP) :
    answered c.terminated = decide (c.runPc = .waiting true ∨ c.outPc ≠ .none) := by
  cases hout : c.outPc <;> simp [answered, WSNetworkTCP.terminated, hout]

/-- A task that is cancelled, or was not there, sends nothing more. -/
theorem unsent_terminated (c : WSNetworkTCP) : unsent c.terminated = (c.out_q.filterMap id).flatten := by
  refine unsent_of_outPc fun data hout => ?_
  simp only [WSNetworkTCP.terminated] at hout
  split at hout <;> cases hout

theorem Page.terminated (h : Page es p) (hj : p.tcps[j]? = some c) {e : WSNETWSInterface.TcpEvent}
    (he : ∀ t, e ≠ .run t)
    (hput : ∀ data, e ≠ .put data) {pc : WSNetworkTCP.RunPc}
    (hpc : pc = c.runPc ∨ (∃ b, c.runPc = .waiting b) ∧ pc = .returned false) :
    Turn es (es ++ [.page (.tcp j e)]) p (p.terminateTcp j { c with runPc := pc }) j [] := by
  have hreg : ∀ t, pc = .registering t ↔ c.runPc = .registering t := by
    intro t
    rcases hpc with rfl | ⟨⟨b, hb⟩, rfl⟩
    · rfl
    · simp [hb]
  have hc' : p.terminateTcp j { c with runPc := pc } =
      { p with
        tcps := p.tcps.set j { c with runPc := pc }.terminated
        dispatch_table := c.token.elim p.dispatch_table p.dispatch_table.del } := by
    unfold WSNETWSInterface.terminateTcp WSNETWSInterface.setTcp
    cases c.token <;> rfl
  have hlater : Later c { c with runPc := pc }.terminated := by
    refine ⟨fun hcr => ?_, fun t hr =>
      ⟨(hreg t).1 hr, fun _ => rfl, fun hout => by simp [WSNetworkTCP.terminated, hout]⟩,
      fun data hout => ?_⟩
    · have hcr : pc = .created := hcr
      rcases hpc with rfl | ⟨-, rfl⟩
      · exact ⟨hcr, fun hearly => ⟨rfl, hearly.in_q, rfl, by simp [WSNetworkTCP.terminated, hearly.outPc]⟩⟩
      · cases hcr
    · simp only [WSNetworkTCP.terminated] at hout
      split at hout <;> cases hout
  have hunsent : unsent { c with runPc := pc }.terminated = unsent c :=
    (unsent_terminated _).trans (unsent_of_outPc (h.opening j c · hj)).symm
  have hholds : holds? { c with runPc := pc }.terminated = holds? c ∧ c.token = none ∨
      holds? { c with runPc := pc }.terminated = none ∧ holds? c = c.token := by
    by_cases hr : ∃ t, c.runPc = .registering t
    · obtain ⟨t, hr⟩ := hr
      refine .inl ⟨?_, (h.registering j c t hj hr).1⟩
      have hr' : { c with runPc := pc }.terminated.runPc = .registering t := (hreg t).2 hr
      simp only [holds?, hr, hr']
    · have hr : ∀ t, c.runPc ≠ .registering t := fun t ht => hr ⟨t, ht⟩
      exact .inr ⟨holds?_of_ne fun t ht => hr t ((hreg t).1 ht), holds?_of_ne hr⟩
  have hcontains : ∀ t, (p.terminateTcp j { c with runPc := pc }).dispatch_table.contains t =
      (p.dispatch_table.contains t && decide (c.token ≠ some t)) := by
    intro t
    rw [hc']
    cases htok : c.token with
    | none => simp
    | some t' =>
      by_cases htt : t = t'
      · simp [htt, Dict.contains]
      · have hne : t' ≠ t := fun heq => htt heq.symm
        simp [Dict.contains, Dict.get?_del_ne _ htt, hne]
  refine ⟨?_, by rw [hc'], by rw [hc'], fun i hi => ?_, fun t ht => ?_, fun _ => decoded_nil, fun t ht => ?_⟩
  · rw [hc']
    refine h.set hj hlater (fun _ => owner_tcp he) (fun _ hk => putData_other hk e) (fun _ hun => ?_) ?_
    · rw [hunsent, putData_tcp hput, hun]
    rcases hholds with ⟨hsame, hnone⟩ | ⟨hnone, hsame⟩
    · exact .inl ⟨hsame, by rw [hnone, Option.elim_none]⟩
    · refine .inr ⟨hnone, fun t => ?_⟩
      rw [hsame]
      cases htok : c.token with
      | none => simp
      | some t' =>
        rw [Option.elim_some, Dict.get?_del]
        by_cases htt : t = t'
        · simp [htt]
        · have hne : t' ≠ t := fun heq => htt heq.symm
          simp [htt, hne]
  · rw [hc']
    exact (getElem?_set_of_some hj).trans (if_neg hi)
  · have hne : c.token ≠ some t := by
      intro htok
      rcases hholds with ⟨-, hnone⟩ | ⟨-, hsame⟩
      · cases hnone.symm.trans htok
      · exact ht (h.holds j c t hj (hsame.trans htok)).2.1
    rw [hcontains, decide_eq_true hne, Bool.and_true]
  · refine ⟨c, { c with runPc := pc }.terminated, hj, ?_, ?_⟩
    · rw [hc']
      exact (getElem?_set_of_some hj).trans (if_pos rfl)
    have hasking : decide (pc = .registering t) = decide (c.runPc = .registering t) := decide_eq_decide.2 (hreg t)
    have hclient : ∀ put reg, clientOf put reg t { c with runPc := pc }.terminated =
        { clientOf put reg t c with continued := answered { c with runPc := pc }.terminated } := fun put reg => by
      simp only [clientOf, hunsent]
      exact congrArg (fun b => Tunnel.Client.mk _ _ _ _ b _) hasking
    rw [putData_tcp hput, hcontains, decoded_nil, hclient]
    have hiff := h.contains_iff hj ht
    by_cases htok : c.token = some t
    · have hout : holds? c = some t := by
        rcases hholds with ⟨-, hnone⟩ | ⟨-, hsame⟩
        · cases hnone.symm.trans htok
        · exact hsame.trans htok
      have hnot : decide (c.token ≠ some t) = false := decide_eq_false fun hne => hne htok
      rw [hnot, Bool.and_false]
      refine .step (.close _ (decide_eq_false fun hr => ?_))
      cases htok.symm.trans (h.registering j c t hj hr).1
    have hyes : decide (c.token ≠ some t) = true := decide_eq_true htok
    rw [hyes, Bool.and_true]
    cases hregd : p.dispatch_table.contains t with
    | false => exact .step (.stale rfl _ _)
    | true =>
      -- it is still in the table because `run` has not got further than its registration
      have hr : c.runPc = .registering t := by
        have hsome := hiff.1 hregd
        unfold holds? at hsome
        split at hsome
        case h_1 t' hr => rw [hr, Option.some.inj hsome]
        case h_2 => exact absurd hsome htok
      have hfalse : answered { c with runPc := pc }.terminated = false := by
        rw [answered_terminated]
        simp [(hreg t).2 hr, (h.registering j c t hj hr).2]
      rw [hfalse]
      exact .step (.calm false fun heq => by cases heq)

theorem putData_put (data : Option Bytes) :
    putData j (es ++ [.page (.tcp j (.put data))]) = putData j es ++ data.getD [] := by
  rw [putData_append]
  cases data <;> simp [putData]

theorem holds?_waiting (hw : ∀ t, c.runPc ≠ .registering t) (hw' : ∀ t, c'.runPc ≠ .registering t)
    (ht : c'.token = c.token) :
    holds? c' = holds? c := by
  rw [holds?_of_ne hw, holds?_of_ne hw', ht]

/-- `run` goes on behind its registration, and may have sent the CONNECT. -/
theorem Page.registered (h : Page es p) (hj : p.tcps[j]? = some c) (hr : c.runPc = .registering token)
    {e : WSNETWSInterface.TcpEvent} (he : ∀ t, e ≠ .run t) (hput : ∀ data, e ≠ .put data)
    (hfs : decoded fs = [] ∨ decoded fs = decoded (trySend (c.connectCmd token))) :
    Turn es (es ++ [.page (.tcp j e)]) p (p.setTcp j (c.registered token)) j fs := by
  have hholds : holds? c = some token := by simp only [holds?, hr]
  obtain ⟨hdis, hown, hlen⟩ := h.holds j c token hj hholds
  have hlater : Later c (c.registered token) :=
    ⟨fun hcr => (by cases hcr), fun _ hreg => (by cases hreg), fun _ hout => hout⟩
  refine h.turn hj hlater (hholds.symm ▸ rfl) he (fun hcr => by cases hcr) (fun hno => absurd hown (hno token))
    fun t ht => ?_
  cases h.once token t j hown ht
  have hanswered : answered (c.registered token) = answered c := by
    simp [answered, WSNetworkTCP.registered, hr]
  have hclient : clientOf (putData j es) (p.dispatch_table.contains token) token (c.registered token) =
      { clientOf (putData j es) (p.dispatch_table.contains token) token c with asking := false } := by
    simp only [clientOf, hanswered]
    rfl
  rw [putData_tcp hput, hclient]
  refine .connect (by simp [clientOf, hr]) (Dict.contains_iff.2 ⟨j, hdis⟩) ?_
  rcases hfs with hnil | hfs
  · exact .inl hnil
  · rw [hfs]
    exact decoded_connect hlen c

theorem Page.later_out (h : Page es p) (hj : p.tcps[j]? = some c) (hout : c.outPc ≠ .none) (hpc : c'.runPc = c.runPc)
    (hopen : ∀ data, c'.outPc = .opening data → c.outPc = .opening data) : Later c c' where
  created hcr := absurd (h.created j c hj (hpc ▸ hcr)).1.outPc hout
  registering t hr := absurd (h.registering j c t hj (hpc ▸ hr)).2 hout
  opening := hopen

/-- A step of a connection, but for the call of its `run`. -/
theorem Page.tcpStep (h : Page es p) (hq : p.established = false → c.outPc = .none) (hj : p.tcps[j]? = some c)
    {e : WSNETWSInterface.TcpEvent} (he : ∀ t, e ≠ .run t) (hs : WSNETWSInterface.TcpStep p j c e p' fs) :
    Turn es (es ++ [.page (.tcp j e)]) p p' j fs := by
  have hemit : ∀ fs, p.emit fs = fs := fun fs => by rw [WSNETWSInterface.emit, h.websocket, if_pos rfl]
  cases hs with
  | put data =>
    have hunsent : unsent { c with out_q := c.out_q ++ [data] } = unsent c ++ data.getD [] := by
      cases data <;> simp [unsent]
    have hlater : Later c { c with out_q := c.out_q ++ [data] } :=
      ⟨fun hpc => ⟨hpc, fun hearly => ⟨hearly.token, hearly.in_q, hearly.waits, hearly.outPc⟩⟩,
        fun _ hpc => ⟨hpc, id, id⟩, fun _ => id⟩
    refine h.turn hj hlater rfl he ?_ (fun _ => decoded_nil) fun t ht => ?_
    · intro _ hun
      rw [hunsent, putData_put, hun]
    · have hclient : clientOf (putData j es ++ data.getD []) (p.dispatch_table.contains t) t
          { c with out_q := c.out_q ++ [data] } =
          { clientOf (putData j es) (p.dispatch_table.contains t) t c with
            put := putData j es ++ data.getD [], left := unsent c ++ data.getD [] } := by
        simp only [clientOf, hunsent]
        rfl
      rw [putData_put, hclient]
      exact .step (.put _)
  | run token hpc ho => exact absurd rfl (he token)
  | runLater token hpc ho => exact absurd rfl (he token)
  | opened token hpc ho =>
    rw [hemit]
    exact h.registered hj hpc he (fun _ heq => by cases heq) (.inr rfl)
  | openTimeout token hpc => exact h.registered hj hpc he (fun _ heq => by cases heq) (.inl decoded_nil)
  | resume hpc hnone =>
    have hr : ∀ t, c.runPc ≠ .registering t := fun t ht => by cases hpc.symm.trans ht
    have hlater : Later c { c with runPc := .returned true, outPc := .getting } :=
      ⟨fun hcr => (by cases hcr), fun _ hreg => (by cases hreg), fun _ hopen => (by cases hopen)⟩
    refine h.turn hj hlater (holds?_waiting hr (fun _ hreg => by cases hreg) rfl) he (fun hcr => by cases hcr)
      (fun _ => decoded_nil) fun t ht => ?_
    have hbefore : answered c = true := by simp [answered, hnone, hpc]
    have hafter : answered { c with runPc := .returned true, outPc := .getting } = true := by simp [answered]
    have hleft : unsent { c with runPc := .returned true, outPc := .getting } = unsent c :=
      (unsent_of_outPc fun data hout => by cases hout).trans (unsent_of_outPc (h.opening j c · hj)).symm
    have hclient : ∀ put reg, clientOf put reg t { c with runPc := .returned true, outPc := .getting } =
        clientOf put reg t c := by
      intro put reg
      simp [clientOf, hbefore, hafter, hleft, hpc, inData]
    have hput : ∀ data, WSNETWSInterface.TcpEvent.resume ≠ .put data := fun _ heq => by cases heq
    rw [putData_tcp hput, hclient]
    exact .none
  | failRun b hor hpc =>
    refine h.terminated hj he (fun data heq => ?_) (.inr ⟨⟨b, hpc⟩, rfl⟩)
    rcases hor with rfl | rfl <;> cases heq
  | outEnd out_q hpc hout =>
    have hput : ∀ d, WSNETWSInterface.TcpEvent.out ≠ .put d := fun _ heq => by cases heq
    have hlater : Later c { c with out_q, outPc := .done } :=
      h.later_out hj (by simp [hpc]) rfl (fun data hopen => by cases hopen)
    have hleft : unsent { c with out_q, outPc := .done } = unsent c := by
      rw [unsent_of_outPc (h.opening j c · hj), hout]
      exact unsent_of_outPc fun _ hopen => by cases hopen
    refine h.turn hj hlater rfl he (fun _ hun => ?_) (fun _ => decoded_nil) fun t ht => ?_
    · rw [putData_tcp hput, hleft, hun]
    · have hclient : ∀ put reg, clientOf put reg t { c with out_q, outPc := .done } = clientOf put reg t c := by
        intro put reg
        simp [clientOf, hleft, answered, hpc, inData]
      rw [putData_tcp hput, hclient]
      exact .none
  | out data out_q hpc hout ho =>
    rw [hemit]
    have hput : ∀ d, WSNETWSInterface.TcpEvent.out ≠ .put d := fun _ heq => by cases heq
    have hlater : Later c { c with out_q } := h.later_out hj (by simp [hpc]) rfl (fun _ hopen => hopen)
    have hleft : unsent c = data ++ unsent { c with out_q } := by
      have hopen : ∀ data, c.outPc ≠ .opening data := fun d => h.opening j c d hj
      have hafter : unsent { c with out_q } = (out_q.filterMap id).flatten := unsent_of_outPc hopen
      rw [unsent_of_outPc hopen, hout, hafter]
      rfl
    have hcr : c.runPc ≠ .created := fun hcr => by cases hpc.symm.trans (h.created j c hj hcr).1.outPc
    have hr : ∀ t, c.runPc ≠ .registering t := fun t ht => by cases hpc.symm.trans (h.registering j c t hj ht).2
    have hclient : ∀ put reg t, clientOf put reg t { c with out_q } =
        { clientOf put reg t c with left := unsent { c with out_q } } := fun _ _ _ => rfl
    by_cases htok : c.token = none
    · have hfs : WSNETWSInterface.dataFrames c.token data = [] := by rw [htok]; rfl
      rw [hfs]
      refine h.turn hj hlater rfl he (fun hcr' => absurd hcr' hcr) (fun _ => decoded_nil) fun t ht => ?_
      have hnot : p.dispatch_table.contains t = false := by
        rw [Bool.eq_false_iff]
        intro hc
        have hholds := (h.contains_iff hj ht).1 hc
        rw [holds?_of_ne hr, htok] at hholds
        cases hholds
      rw [putData_tcp hput, hclient, hnot]
      exact .step (.stale rfl _ _)
    · obtain ⟨t₀, htok⟩ := Option.ne_none_iff_exists'.1 htok
      have hfs : WSNETWSInterface.dataFrames c.token data =
          (WSNETWSInterface.sendSocketData t₀ data).1 := by rw [htok]; rfl
      obtain ⟨hdis, hown, hlen⟩ := h.holds j c t₀ hj ((holds?_of_ne hr).trans htok)
      rw [hfs]
      refine h.turn hj hlater rfl he (fun hcr' => absurd hcr' hcr) (fun hno => absurd hown (hno t₀)) fun t ht => ?_
      cases h.once t₀ t j hown ht
      obtain ⟨hms, hdata⟩ := decoded_sendSocketData hlen data
      rw [putData_tcp hput, hclient]
      refine .send (Dict.contains_iff.2 ⟨j, hdis⟩) (by simp [clientOf, answered, hpc]) hms ?_
      change unsent c = sdData (decoded (WSNETWSInterface.sendSocketData t₀ data).1) ++ _
      rw [hdata, hleft]
  | outLater data out_q hpc hout ho => cases hpc.symm.trans (hq ho)
  | outOpened data hpc ho => exact absurd hpc (h.opening j c data hj)
  | outTimeout data hpc => exact absurd hpc (h.opening j c data hj)
  | terminate => exact h.terminated hj he (fun _ heq => by cases heq) (.inl rfl)

end Page

section Draw
variable {es : List Event} {p p' : WSNETWSInterface} {j : Nat} {c c' : WSNetworkTCP} {token : Bytes} {fs : List Bytes}

theorem owner_draw (hfresh : owner token es = none) (t : Bytes) :
    owner t (es ++ [.page (.tcp j (.run token))]) = if t = token then some j else owner t es := by
  rw [owner_run]
  by_cases ht : t = token
  · rw [ht, hfresh, if_pos rfl, Option.none_or]
  · rw [if_neg ht, if_neg ht, Option.or_none]

/-- A connection that has just been made has no token. -/
theorem Page.not_owner (h : Page es p) (hj : p.tcps[j]? = some c) (hc : c.runPc = .created) (t : Bytes) :
    owner t es ≠ some j := by
  intro ht
  obtain ⟨x, hx, hpc⟩ := h.owned t j ht
  cases hj.symm.trans hx
  exact hpc hc

theorem Page.holds_created (h : Page es p) (hj : p.tcps[j]? = some c) (hc : c.runPc = .created) : holds? c = none := by
  rw [holds?_of_ne (fun t ht => by cases hc.symm.trans ht), (h.created j c hj hc).1.token]

/-- The connection `j` draws a token that nobody has. -/
theorem Page.draw (h : Page es p) (hj : p.tcps[j]? = some c) (hc : c.runPc = .created) (hlen : token.length = 16)
    (hfresh : owner token es = none) (hholds : holds? c' = some token) (hpc : c'.runPc ≠ .created)
    (hreg : ∀ t, c'.runPc = .registering t → c'.token = none) (hout : c'.outPc = .none) :
    Page (es ++ [.page (.tcp j (.run token))])
      { p with tcps := p.tcps.set j c', dispatch_table := p.dispatch_table.set token j } := by
  have hget : ∀ i : Nat, (p.tcps.set j c')[i]? = if i = j then some c' else p.tcps[i]? :=
    fun i => getElem?_set_of_some hj
  have hput : ∀ k, putData k (es ++ [.page (.tcp j (.run token))]) = putData k es := fun k =>
    putData_tcp fun _ heq => by cases heq
  have hown := owner_draw (j := j) hfresh
  refine ⟨h.websocket, ?_, ?_, ?_, ?_, ?_, ?_, ?_, ?_⟩
  · intro i x hx hx'
    rw [hput]
    rcases Agent.getElem?_set_cases hx with ⟨rfl, rfl⟩ | ⟨-, hx⟩
    · exact absurd hx' hpc
    · exact h.created i x hx hx'
  · intro i x t hx hx'
    rcases Agent.getElem?_set_cases hx with ⟨rfl, rfl⟩ | ⟨-, hx⟩
    · exact ⟨hreg t hx', hout⟩
    · exact h.registering i x t hx hx'
  · intro i x data hx
    rcases Agent.getElem?_set_cases hx with ⟨rfl, rfl⟩ | ⟨-, hx⟩
    · rw [hout]
      exact fun hopen => by cases hopen
    · exact h.opening i x data hx
  · intro i x t hx ht
    rw [hown, Dict.get?_set]
    rcases Agent.getElem?_set_cases hx with ⟨rfl, rfl⟩ | ⟨-, hx⟩
    · cases hholds.symm.trans ht
      exact ⟨if_pos rfl, if_pos rfl, hlen⟩
    · obtain ⟨hdis, hown', hlen'⟩ := h.holds i x t hx ht
      have hne : t ≠ token := by
        rintro rfl
        cases hown'.symm.trans hfresh
      rw [if_neg hne, if_neg hne]
      exact ⟨hdis, hown', hlen'⟩
  · intro t i ht
    rw [Dict.get?_set] at ht
    by_cases htt : t = token
    · rw [if_pos htt] at ht
      cases ht
      exact ⟨c', by rw [hget, if_pos rfl], htt ▸ hholds⟩
    · rw [if_neg htt] at ht
      obtain ⟨x, hx, hxt⟩ := h.dispatch t i ht
      have hij : i ≠ j := by
        rintro rfl
        cases hj.symm.trans hx
        cases (h.holds_created hj hc).symm.trans hxt
      exact ⟨x, by rw [hget, if_neg hij, hx], hxt⟩
  · intro t i hi
    rw [hown] at hi
    by_cases htt : t = token
    · rw [if_pos htt] at hi
      cases hi
      exact ⟨c', by rw [hget, if_pos rfl], hpc⟩
    · rw [if_neg htt] at hi
      obtain ⟨x, hx, hx'⟩ := h.owned t i hi
      have hij : i ≠ j := by
        rintro rfl
        exact h.not_owner hj hc t hi
      exact ⟨x, by rw [hget, if_neg hij, hx], hx'⟩
  · intro t t' i hi hi'
    rw [hown] at hi hi'
    by_cases htt : t = token <;> by_cases htt' : t' = token
    · rw [htt, htt']
    · rw [if_pos htt] at hi
      rw [if_neg htt'] at hi'
      cases hi
      exact absurd hi' (h.not_owner hj hc t')
    · rw [if_neg htt] at hi
      rw [if_pos htt'] at hi'
      cases hi'
      exact absurd hi (h.not_owner hj hc t)
    · rw [if_neg htt] at hi
      rw [if_neg htt'] at hi'
      exact h.once t t' i hi hi'
  · intro i hi
    rw [hput]
    rw [hget] at hi
    by_cases hij : i = j
    · rw [if_pos hij] at hi
      cases hi
    · rw [if_neg hij] at hi
      exact h.put i hi

/-- The call of `run`: a tunnel starts, and its CONNECT may be sent at once. -/
structure Drawn (es : List Event) (p p' : WSNETWSInterface) (j : Nat) (token : Bytes) (fs : List Bytes) : Prop where
  page : Page (es ++ [.page (.tcp j (.run token))]) p'
  oks : p'.oks = p.oks
  established : p'.established = p.established
  others : ∀ i ≠ j, p'.tcps[i]? = p.tcps[i]?
  nobody : ∀ t, owner t es ≠ some j
  table : ∀ t ≠ token, p'.dispatch_table.contains t = p.dispatch_table.contains t
  client : ∃ c', p'.tcps[j]? = some c' ∧ ∃ a : Tunnel.Client,
    a = { put := putData j es, left := putData j es } ∧
      Moves token a (clientOf (putData j es) (p'.dispatch_table.contains token) token c') (decoded fs)

theorem Page.run (h : Page es p) (hj : p.tcps[j]? = some c) (hlen : token.length = 16) (hfresh : owner token es = none)
    (hs : WSNETWSInterface.TcpStep p j c (.run token) p' fs) : Drawn es p p' j token fs := by
  have hdrawn : ∀ c', holds? c' = some token → c'.runPc ≠ .created →
      (∀ t, c'.runPc = .registering t → c'.token = none) →
      c'.outPc = .none → c.runPc = .created → ∀ fs, Moves token { put := putData j es, left := putData j es }
        (clientOf (putData j es) true token c') (decoded fs) →
      Drawn es p ({ p with dispatch_table := p.dispatch_table.set token j }.setTcp j c') j token fs := by
    intro c' hholds hpc hreg hout hc fs hm
    refine ⟨h.draw hj hc hlen hfresh hholds hpc hreg hout, rfl, rfl, fun i hi =>
      (getElem?_set_of_some hj).trans (if_neg hi),
      h.not_owner hj hc, fun t ht => ?_, c', (getElem?_set_of_some hj).trans (if_pos rfl), _, rfl, ?_⟩
    · simp [WSNETWSInterface.setTcp, Dict.contains, Dict.get?_set_ne _ _ ht]
    · have hcontains : (p.dispatch_table.set token j).contains token = true :=
        Dict.contains_iff.2 ⟨j, Dict.get?_set_self ..⟩
      change Moves token _ (clientOf (putData j es) ((p.dispatch_table.set token j).contains token) token c') _
      rw [hcontains]
      exact hm
  cases hs with
  | run _ hpc ho =>
    obtain ⟨hearly, hun⟩ := h.created j c hj hpc
    have hemit : p.emit (trySend (c.connectCmd token)) = trySend (c.connectCmd token) := by
      rw [WSNETWSInterface.emit, h.websocket, if_pos rfl]
    refine hdrawn (c.registered token) rfl (fun hcr => by cases hcr) (fun _ hr => by cases hr) hearly.outPc hpc _ ?_
    have hclient : clientOf (putData j es) true token (c.registered token) =
        { { put := putData j es, left := putData j es : Tunnel.Client } with asking := false } := by
      have hleft : unsent (c.registered token) = putData j es := hun
      have hin : inData (c.registered token) = [] := by rw [inData, WSNetworkTCP.registered, hearly.in_q]; rfl
      have hans : answered (c.registered token) = false := by
        simp [answered, WSNetworkTCP.registered, hearly.waits, hearly.outPc]
      simp only [clientOf, hleft, hin, hans]
      rfl
    rw [hclient]
    change Moves _ _ _ (decoded (p.emit _))
    rw [hemit]
    exact .connect rfl rfl (decoded_connect hlen c)
  | runLater _ hpc ho =>
    obtain ⟨hearly, hun⟩ := h.created j c hj hpc
    refine hdrawn { c with runPc := .registering token } rfl (fun hcr => by cases hcr)
      (fun _ _ => hearly.token) hearly.outPc hpc
      _ ?_
    have hclient : clientOf (putData j es) true token { c with runPc := .registering token } =
        { put := putData j es, left := putData j es } := by
      have hleft : unsent { c with runPc := .registering token } = putData j es := hun
      have hin : inData { c with runPc := .registering token } = [] := by rw [inData, hearly.in_q]; rfl
      have hans : answered { c with runPc := .registering token } = false := by
        simp [answered, hearly.waits, hearly.outPc]
      simp only [clientOf, hleft, hin, hans, decide_true]
    rw [hclient]
    exact .none
  | failRun b he => rcases he with he | he <;> cases he

end Draw

section Arrival
variable {es es' : List Event} {p : WSNETWSInterface} {j : Nat} {c : WSNetworkTCP} {token : Bytes} {m : CMD}

/-- What a message that arrives does to a connection. -/
structure Received (c c' : WSNetworkTCP) (m : CMD) : Prop where
  token : c'.token = c.token
  outPc : c'.outPc = c.outPc
  runPc : ∀ pc, (∀ b, pc ≠ .waiting b) → (c'.runPc = pc ↔ c.runPc = pc)
  unsent : unsent c' = unsent c
  inData : inData c' = inData c ++ m.sd?.getD []
  answered : answered c' = true → answered c = true ∨ ∃ m', m = .CONTINUE m'

theorem received_onDataReceived (c : WSNetworkTCP) (hm : m.IsReply) : Received c (c.onDataReceived m) m := by
  cases m with
  | OK d | ERR d =>
    refine ⟨rfl, rfl, fun pc hpc => WSNetworkTCP.runPc_establish _ pc hpc, rfl, ?_, fun ha => .inl ?_⟩
    · simp [Tunnels.inData, WSNetworkTCP.onDataReceived, WSNetworkTCP.fail, WSNetworkTCP.establish, CMD.sd?]
    · have hout : c.outPc ≠ .none := by
        simpa [Tunnels.answered, WSNetworkTCP.onDataReceived, WSNetworkTCP.fail, WSNetworkTCP.establish] using ha
      simp [Tunnels.answered, hout]
  | CONTINUE d =>
    refine ⟨rfl, rfl, fun pc hpc => WSNetworkTCP.runPc_establish _ pc hpc, rfl, ?_, fun _ => .inr ⟨d, rfl⟩⟩
    simp [Tunnels.inData, WSNetworkTCP.onDataReceived, WSNetworkTCP.establish, CMD.sd?]
  | SD d =>
    refine ⟨rfl, rfl, fun pc _ => Iff.rfl, rfl, ?_, fun ha => .inl ha⟩
    simp [Tunnels.inData, WSNetworkTCP.onDataReceived, InItem.ofCmd?, InItem.ofData, CMD.data, CMD.sd?]
  | _ => cases hm

theorem Received.holds? {c' : WSNetworkTCP} (h : Received c c' m) : holds? c' = holds? c := by
  by_cases hr : ∃ t, c.runPc = .registering t
  · obtain ⟨t, hr⟩ := hr
    have hr' : c'.runPc = .registering t := (h.runPc _ fun b heq => by cases heq).2 hr
    simp only [Tunnels.holds?, hr, hr']
  · have hne : ∀ t, c.runPc ≠ .registering t := fun t ht => hr ⟨t, ht⟩
    have hne' : ∀ t, c'.runPc ≠ .registering t := fun t ht => hne t ((h.runPc _ fun b heq => by cases heq).1 ht)
    exact holds?_waiting hne hne' h.token

theorem Page.congr (h : Page es p) (hown : ∀ t, owner t es' = owner t es) (hput : ∀ k, putData k es' = putData k es)
    {oks : List Bytes} {established : Bool} : Page es' { p with oks, established } where
  websocket := h.websocket
  created j c hj hc := by rw [hput]; exact h.created j c hj hc
  registering := h.registering
  opening := h.opening
  holds j c t hj ht := by rw [hown]; exact h.holds j c t hj ht
  dispatch := h.dispatch
  owned t j ht := h.owned t j ((hown t).symm.trans ht)
  once t t' j ht ht' := h.once t t' j ((hown t).symm.trans ht) ((hown t').symm.trans ht')
  put j hj := (hput j).trans (h.put j hj)

theorem Page.received (h : Page es p) (hj : p.tcps[j]? = some c) (hd : p.dispatch_table.get? m.token = some j)
    {c' : WSNetworkTCP}
    (hrec : Received c c' m) (hown : ∀ t, owner t es' = owner t es) (hput : ∀ k, putData k es' = putData k es) :
    Page es' (p.setTcp j c') := by
  obtain ⟨x, hx, hholds⟩ := h.dispatch _ _ hd
  cases hj.symm.trans hx
  have hcr : c.runPc ≠ .created := fun hcr => by cases (h.holds_created hj hcr).symm.trans hholds
  have hcr' : c'.runPc ≠ .created := fun hcr' => hcr ((hrec.runPc _ fun b heq => by cases heq).1 hcr')
  refine h.set hj
    ⟨fun hc => absurd hc hcr', fun t ht => ⟨(hrec.runPc _ fun b heq => by cases heq).1 ht, ?_, ?_⟩,
      fun data ho => ?_⟩ hown (fun k _ => hput k) (fun hc => absurd hc hcr') (.inl ⟨hrec.holds?, rfl⟩)
  · exact fun hnone => hrec.token.trans hnone
  · exact fun hnone => hrec.outPc.trans hnone
  · exact hrec.outPc.symm.trans ho

theorem Page.create (h : Page es p) {e : Event} (hown : ∀ t, owner t (es ++ [e]) = owner t es)
    (hput : ∀ k, putData k (es ++ [e]) = putData k es) (ip : String) (port : Int) :
    Page (es ++ [e]) { p with tcps := p.tcps ++ [({ ip, port } : WSNetworkTCP)] } := by
  have hget : ∀ {i : Nat} {x : WSNetworkTCP}, (p.tcps ++ [({ ip, port } : WSNetworkTCP)])[i]? = some x →
      p.tcps[i]? = some x ∨ p.tcps[i]? = none ∧ x = { ip, port } := by
    intro i x hx
    rw [List.getElem?_append] at hx
    by_cases hi : i < p.tcps.length
    · rw [if_pos hi] at hx
      exact .inl hx
    · rw [if_neg hi] at hx
      refine .inr ⟨List.getElem?_eq_none (Nat.le_of_not_lt hi), ?_⟩
      have hmem := List.mem_of_getElem? hx
      exact List.mem_singleton.1 hmem
  have hold : ∀ {i : Nat} {x : WSNetworkTCP}, p.tcps[i]? = some x →
      (p.tcps ++ [({ ip, port } : WSNetworkTCP)])[i]? = some x := fun hx =>
    (List.getElem?_append_left (List.getElem?_eq_some_iff.1 hx).1).trans hx
  refine ⟨h.websocket, ?_, ?_, ?_, ?_, ?_, ?_, ?_, ?_⟩
  · intro i x hx hc
    rw [hput]
    rcases hget hx with hx | ⟨hnone, rfl⟩
    · exact h.created i x hx hc
    · exact ⟨⟨rfl, rfl, rfl, rfl⟩, (h.put i hnone).symm⟩
  · intro i x t hx hr
    rcases hget hx with hx | ⟨-, rfl⟩
    · exact h.registering i x t hx hr
    · cases hr
  · intro i x data hx hout
    rcases hget hx with hx | ⟨-, rfl⟩
    · exact h.opening i x data hx hout
    · cases hout
  · intro i x t hx ht
    rw [hown]
    rcases hget hx with hx | ⟨-, rfl⟩
    · exact h.holds i x t hx ht
    · cases ht
  · intro t i hd
    obtain ⟨x, hx, hxt⟩ := h.dispatch t i hd
    exact ⟨x, hold hx, hxt⟩
  · intro t i hi
    rw [hown] at hi
    obtain ⟨x, hx, hpc⟩ := h.owned t i hi
    exact ⟨x, hold hx, hpc⟩
  · intro t t' i hi hi'
    rw [hown] at hi hi'
    exact h.once t t' i hi hi'
  · intro i hi
    rw [hput]
    refine h.put i (List.getElem?_eq_none ?_)
    have hlen : (p.tcps ++ [({ ip, port } : WSNetworkTCP)]).length ≤ i := List.getElem?_eq_none_iff.1 hi
    rw [List.length_append] at hlen
    omega

end Arrival

end Tunnels

end Wsnet.Pyodide
