import Wsnet.Pyodide.Page

/-!
# The streams of the tunnels

Every step of `Tunnels` is no step or some steps of each `Tunnel` in it, which is what `Held` says besides what
holds of the page, of the agent and of the frames on their way. What one tunnel guarantees then holds of each
connection, whatever the others do (`streams_intact`).
-/

namespace Wsnet.Pyodide

namespace Tunnels

section OfToken
variable {token : Bytes} {c : CMD} {cs cs' : List CMD}

@[simp] theorem ofToken_nil : ofToken token [] = [] := rfl

@[simp] theorem ofToken_append : ofToken token (cs ++ cs') = ofToken token cs ++ ofToken token cs' :=
  List.filter_append ..

theorem ofToken_cons_self (h : c.token = token) :
    ofToken token (c :: cs) = c :: ofToken token cs := by simp [ofToken, h]

theorem ofToken_cons_of_ne (h : c.token ≠ token) : ofToken token (c :: cs) = ofToken token cs := by simp [ofToken, h]

theorem ofToken_eq_self (h : ∀ m ∈ cs, m.token = token) : ofToken token cs = cs := by
  simpa [ofToken, List.filter_eq_self] using h

theorem ofToken_eq_nil (h : ∀ m ∈ cs, m.token ≠ token) : ofToken token cs = [] := by
  simpa [ofToken, List.filter_eq_nil_iff] using h

end OfToken

/-! ### What holds at all times -/

/-- A connection that has had no answer. -/
structure Calm (c : WSNetworkTCP) : Prop where
  outPc : c.outPc = .none
  waits : c.connection_established = false
  runPc : c.runPc ≠ .waiting true

/-- Before the websocket opens nothing is sent. -/
structure Quiet (s : Tunnels) : Prop where
  up : s.link.up = []
  down : s.link.down = []
  sessions : s.link.agent.sessions = []
  calm : ∀ c ∈ s.page.tcps, Calm c

structure Held (es : List Event) (s : Tunnels) (os : List Agent.Output) : Prop where
  page : Page es s.page
  quiet : s.page.established = false → Quiet s
  agent : Agent.TcpOnly s.link.agent
  sized : ∀ x ∈ s.link.agent.sessions, x.cmd.token.length = 16
  up : ∀ m ∈ decoded s.link.up, m.IsTcp ∧ m.token.length = 16
  down : ∀ m ∈ decoded s.link.down, m.token.length = 16
  oks : ∀ t ∈ s.page.oks, t.length = 16
  tunnels : ∀ t, Tunnel.Steps {} (view t es s os)

section Moves
variable {token : Bytes} {a a' : Tunnel.Client} {ms : List CMD} {m : CMD} {u : Tunnel}

/-- What is sent has the token, which is in the dispatch table. -/
theorem Moves.of_mem (h : Moves token a a' ms) (hm : m ∈ ms) : a.registered = true ∧ m.IsTcp ∧ m.token = token := by
  cases h with
  | none | step => cases hm
  | connect ha hr hms =>
    rcases hms with rfl | ⟨m', rfl, -, htcp, htok⟩
    · cases hm
    · rw [List.mem_singleton.1 hm]
      exact ⟨hr, htcp, htok⟩
  | send hr hc hms hl =>
    obtain ⟨d, rfl⟩ := hms m hm
    exact ⟨hr, trivial, rfl⟩

theorem Moves.steps (h : Moves token a a' ms) (hu : u.client = some a) :
    u.Steps { u with client := some a', up := u.up ++ ms } := by
  cases h with
  | none =>
    obtain ⟨⟩ := u
    cases hu
    simp only [List.append_nil]
    exact .refl
  | step h =>
    rw [List.append_nil]
    exact .single (.client hu h)
  | connect ha hr hms =>
    refine .single (.connect hu ha hr ?_)
    rcases hms with rfl | ⟨m, rfl, hm, -⟩
    · exact .inl rfl
    · exact .inr ⟨m, rfl, hm⟩
  | send hr hc hms hl =>
    refine .single (.send hu hr hc (fun m hm => ?_) hl)
    obtain ⟨d, hd⟩ := hms m hm
    exact ⟨_, hd⟩

end Moves

section Views
variable {es es' : List Event} {s : Tunnels} {p p' : WSNETWSInterface} {l : Link} {os : List Agent.Output} {j : Nat}
  {c : WSNetworkTCP} {token : Bytes} {fs : List Bytes}

theorem clientView_of_owner (ho : owner token es = some j) (hj : p.tcps[j]? = some c) :
    clientView token es p = some (clientOf (putData j es) (p.dispatch_table.contains token) token c) := by
  simp [clientView, ho, hj]

theorem clientView_congr (hown : owner token es' = owner token es)
    (hsame : ∀ j, owner token es = some j → p'.tcps[j]? = p.tcps[j]? ∧ putData j es' = putData j es)
    (htab : p'.dispatch_table.contains token = p.dispatch_table.contains token) :
    clientView token es' p' = clientView token es p := by
  unfold clientView
  rw [hown, htab]
  cases ho : owner token es with
  | none => rfl
  | some j =>
    obtain ⟨htcp, hput⟩ := hsame j ho
    simp [htcp, hput]

theorem view_page (es : List Event) (p : WSNETWSInterface) : view token es' ⟨p', { l with up := l.up ++ fs }⟩ os =
    { view token es ⟨p, l⟩ os with
      client := clientView token es' p', okTask := decide (token ∈ p'.oks),
      up := (view token es ⟨p, l⟩ os).up ++ ofToken token (decoded fs) } := by
  simp [view]

theorem Turn.view_steps {e : WSNETWSInterface.TcpEvent} (h : Turn es (es ++ [.page (.tcp j e)]) p p' j fs)
    (he : ∀ t, e ≠ .run t)
    (t : Bytes) :
    Tunnel.Steps (view t es ⟨p, l⟩ os) (view t (es ++ [.page (.tcp j e)]) ⟨p', { l with up := l.up ++ fs }⟩ os) := by
  have hown : owner t (es ++ [.page (.tcp j e)]) = owner t es := owner_tcp he
  rw [view_page es p, h.oks]
  by_cases ho : owner t es = some j
  · obtain ⟨c, c', hj, hj', hm⟩ := h.moves t ho
    rw [clientView_of_owner (hown.trans ho) hj', ofToken_eq_self fun m hmem => (hm.of_mem hmem).2.2]
    exact hm.steps (clientView_of_owner ho hj)
  · have hnil : ofToken t (decoded fs) = [] := by
      refine ofToken_eq_nil fun m hmem ht => ?_
      by_cases hno : ∀ t', owner t' es ≠ some j
      · rw [h.nobody hno] at hmem
        cases hmem
      · push Not at hno
        obtain ⟨t', ho'⟩ := hno
        obtain ⟨c, c', -, -, hm⟩ := h.moves t' ho'
        exact ho (ht.symm.trans (hm.of_mem hmem).2.2 ▸ ho')
    have hsame : clientView t (es ++ [.page (.tcp j e)]) p' = clientView t es p := by
      refine clientView_congr hown (fun i hi => ?_) (h.table t ho)
      have hij : i ≠ j := by
        rintro rfl
        exact ho hi
      exact ⟨h.others i hij, putData_other hij e⟩
    rw [hsame, hnil, List.append_nil]
    exact .refl

end Views

section Held
variable {es : List Event} {s s' : Tunnels} {p p' : WSNETWSInterface} {os o : List Agent.Output} {j : Nat}
  {c : WSNetworkTCP}
  {token : Bytes} {fs : List Bytes}

/-- Before the websocket opens a connection sends nothing and stays without an answer. -/
theorem Calm.tcpStep (hc : Calm c) (hall : ∀ x ∈ p.tcps, Calm x) (hest : p.established = false)
    {e : WSNETWSInterface.TcpEvent}
    (hs : WSNETWSInterface.TcpStep p j c e p' fs) : fs = [] ∧ ∀ x ∈ p'.tcps, Calm x := by
  have hset : ∀ {c'}, Calm c' → ∀ x ∈ p.tcps.set j c', Calm x := fun hc' x hx =>
    (List.mem_or_eq_of_mem_set hx).elim (hall x) fun heq => heq ▸ hc'
  have hterm : ∀ {pc : WSNetworkTCP.RunPc}, pc ≠ .waiting true →
      ∀ x ∈ (p.terminateTcp j { c with runPc := pc }).tcps, Calm x := by
    intro pc hpc x hx
    have htcps : (p.terminateTcp j { c with runPc := pc }).tcps = p.tcps.set j { c with runPc := pc }.terminated := by
      unfold WSNETWSInterface.terminateTcp WSNETWSInterface.setTcp
      cases c.token <;> rfl
    rw [htcps] at hx
    exact hset ⟨by simp [WSNetworkTCP.terminated, hc.outPc], rfl, hpc⟩ x hx
  cases hs with
  | put data => exact ⟨rfl, hset ⟨hc.outPc, hc.waits, hc.runPc⟩⟩
  | run t hpc ho | opened t hpc ho => cases hest.symm.trans ho
  | runLater t hpc ho => exact ⟨rfl, hset ⟨hc.outPc, hc.waits, fun h => by cases h⟩⟩
  | openTimeout t hpc => exact ⟨rfl, hset ⟨hc.outPc, hc.waits, by simp [WSNetworkTCP.registered, hc.waits]⟩⟩
  | resume hpc => exact absurd hpc hc.runPc
  | failRun b he hpc => exact ⟨rfl, hterm fun h => by cases h⟩
  | outEnd _ hout | out _ _ hout | outLater _ _ hout | outOpened _ hout | outTimeout _ hout =>
      cases hc.outPc.symm.trans hout
  | terminate => exact ⟨rfl, hterm hc.runPc⟩

theorem Held.page_step (h : Held es s os) {es' : List Event} (hp : Page es' p')
    (hquiet : p'.established = false → s.page.established = false ∧ fs = [] ∧ ∀ x ∈ p'.tcps, Calm x)
    (hup : ∀ m ∈ decoded fs, m.IsTcp ∧ m.token.length = 16) (hoks : ∀ t ∈ p'.oks, t.length = 16)
    (ht : ∀ t, Tunnel.Steps (view t es s os) (view t es' ⟨p', { s.link with up := s.link.up ++ fs }⟩ os)) :
    Held es' ⟨p', { s.link with up := s.link.up ++ fs }⟩ os where
  page := hp
  quiet hest := by
    obtain ⟨hest', rfl, hcalm⟩ := hquiet hest
    have hq := h.quiet hest'
    exact ⟨by simp [hq.up], hq.down, hq.sessions, hcalm⟩
  agent := h.agent
  sized := h.sized
  up m hm := by
    rw [decoded_append] at hm
    exact (List.mem_append.1 hm).elim (h.up m) (hup m)
  down := h.down
  oks := hoks
  tunnels t := (h.tunnels t).trans (ht t)

/-- A step of a connection, but for the call of its `run`. -/
theorem Held.tcp (h : Held es s os) (hj : s.page.tcps[j]? = some c) {e : WSNETWSInterface.TcpEvent}
    (he : ∀ t, e ≠ .run t)
    (hs : WSNETWSInterface.TcpStep s.page j c e p' fs) :
    Held (es ++ [.page (.tcp j e)]) ⟨p', { s.link with up := s.link.up ++ fs }⟩ os := by
  have hcalm : s.page.established = false → Calm c := fun hest => (h.quiet hest).calm c (List.mem_of_getElem? hj)
  have hturn := h.page.tcpStep (fun hest => (hcalm hest).outPc) hj he hs
  refine h.page_step hturn.page (fun hest => ?_) (fun m hm => ?_) (hturn.oks ▸ h.oks) fun t => hturn.view_steps he t
  · have hest' : s.page.established = false := hturn.established.symm.trans hest
    exact ⟨hest', (hcalm hest').tcpStep (h.quiet hest').calm hest' hs⟩
  · by_cases hno : ∀ t, owner t es ≠ some j
    · rw [hturn.nobody hno] at hm
      cases hm
    · push Not at hno
      obtain ⟨t, ho⟩ := hno
      obtain ⟨c, c', -, -, hmoves⟩ := hturn.moves t ho
      obtain ⟨hr, htcp, htok⟩ := hmoves.of_mem hm
      exact ⟨htcp, htok ▸ h.page.length_of_contains hr⟩

theorem Held.run (h : Held es s os) (hj : s.page.tcps[j]? = some c) (hlen : token.length = 16)
    (hfresh : owner token es = none)
    (hs : WSNETWSInterface.TcpStep s.page j c (.run token) p' fs) :
    Held (es ++ [.page (.tcp j (.run token))]) ⟨p', { s.link with up := s.link.up ++ fs }⟩ os := by
  have hdrawn := h.page.run hj hlen hfresh hs
  obtain ⟨c', hj', a, ha, hm⟩ := hdrawn.client
  have hown := owner_draw (j := j) hfresh
  have hput : ∀ k, putData k (es ++ [.page (.tcp j (.run token))]) = putData k es := fun k =>
    putData_tcp fun _ heq => by cases heq
  refine h.page_step hdrawn.page (fun hest => ?_) (fun m hmem => ?_) (hdrawn.oks ▸ h.oks) fun t => ?_
  · have hest' : s.page.established = false := hdrawn.established.symm.trans hest
    exact ⟨hest', ((h.quiet hest').calm c (List.mem_of_getElem? hj)).tcpStep (h.quiet hest').calm hest' hs⟩
  · obtain ⟨-, htcp, htok⟩ := hm.of_mem hmem
    exact ⟨htcp, htok ▸ hlen⟩
  · rw [view_page es s.page, hdrawn.oks]
    by_cases ht : t = token
    · subst ht
      have hnone : (view t es s os).client = none := by simp [view, clientView, hfresh]
      have hclient : clientView t (es ++ [.page (.tcp j (.run t))]) p' =
          some (clientOf (putData j es) (p'.dispatch_table.contains t) t c') := by
        rw [clientView_of_owner ((hown t).trans (if_pos rfl)) hj', hput]
      have hms : ofToken t (decoded fs) = decoded fs := ofToken_eq_self fun m hmem => (hm.of_mem hmem).2.2
      rw [hclient, hms]
      have hask : Tunnel.Step (view t es s os) { view t es s os with client := some a } := ha ▸ .ask _ hnone
      exact (Relation.ReflTransGen.single hask).trans (hm.steps rfl)
    · have hsame : clientView t (es ++ [.page (.tcp j (.run token))]) p' = clientView t es s.page := by
        refine clientView_congr ((hown t).trans (if_neg ht)) (fun i hi => ⟨hdrawn.others i ?_, hput i⟩)
          (hdrawn.table t ht)
        rintro rfl
        exact hdrawn.nobody t hi
      have hnil : ofToken t (decoded fs) = [] :=
        ofToken_eq_nil fun m hmem htok => ht ((hm.of_mem hmem).2.2.symm.trans htok).symm
      rw [hsame, hnil, List.append_nil]
      exact .refl

theorem Held.inv (h : Held es s os) (t : Bytes) : (view t es s os).Inv := Tunnel.Inv.init.steps (h.tunnels t)

/-- A step that takes a frame from the websocket. -/
theorem Held.arrival (h : Held es s os) {es' : List Event} {b : Bytes} {down : List Bytes}
    (hdown : s.link.down = b :: down)
    (hp : Page es' p') (hest : p'.established = s.page.established) (hoks : ∀ t ∈ p'.oks, t.length = 16)
    (ht : ∀ t, Tunnel.Steps (view t es s os) { view t es s os with
      client := clientView t es' p', okTask := decide (t ∈ p'.oks), down := ofToken t (decoded down) }) :
    Held es' ⟨p', { s.link with down }⟩ os where
  page := hp
  quiet hest' := by
    have hnil := (h.quiet (hest.symm.trans hest')).down
    cases hdown.symm.trans hnil
  agent := h.agent
  sized := h.sized
  up := h.up
  down m hm := h.down m
    (by rw [hdown, show b :: down = [b] ++ down from rfl, decoded_append]; exact List.mem_append_right _ hm)
  oks := hoks
  tunnels t := (h.tunnels t).trans (ht t)

theorem Held.onData (h : Held es s os) {b : Bytes} {down : List Bytes} (hdown : s.link.down = b :: down) :
    Held (es ++ [.page (.onData b)]) ⟨s.page.onData b, { s.link with down }⟩ os := by
  have hown : ∀ t, owner t (es ++ [.page (.onData b)]) = owner t es := fun t => owner_of_draw rfl
  have hput : ∀ k, putData k (es ++ [.page (.onData b)]) = putData k es := fun k => by
    rw [putData_append]
    simp [putData]
  have hview : ∀ t, (view t es s os).down = ofToken t (decoded (b :: down)) := fun t => by rw [view, hdown]
  unfold WSNETWSInterface.onData
  cases hm : CMD.fromBytes b with
  | error e =>
    change Held _ ⟨s.page, _⟩ os
    refine h.arrival hdown (h.page.congr hown hput) rfl h.oks fun t => ?_
    have hsame : clientView t (es ++ [.page (.onData b)]) s.page = clientView t es s.page :=
      clientView_congr (hown t) (fun k _ => ⟨rfl, hput k⟩) rfl
    have hdec : ofToken t (decoded down) = (view t es s os).down := by rw [hview, decoded_cons_error hm]
    rw [hsame, hdec]
    exact .refl
  | ok m =>
    have hlen : m.token.length = 16 := h.down m (by rw [hdown, decoded_cons_ok hm]; exact List.mem_cons_self)
    have hself : (view m.token es s os).down = m :: ofToken m.token (decoded down) := by
      rw [hview, decoded_cons_ok hm, ofToken_cons_self rfl]
    have hother : ∀ t, t ≠ m.token → ofToken t (decoded down) = (view t es s os).down := fun t ht => by
      rw [hview, decoded_cons_ok hm, ofToken_cons_of_ne (Ne.symm ht)]
    cases hd : s.page.dispatch_table.get? m.token with
    | some j =>
      obtain ⟨c, hj, hholds⟩ := h.page.dispatch _ _ hd
      have hreply : m.IsReply := (h.inv m.token).order.reply m (by rw [hself]; exact List.mem_cons_self)
      have hrec := received_onDataReceived c hreply
      have hdis : s.page.dispatch j m = s.page.setTcp j (c.onDataReceived m) := by
        simp only [WSNETWSInterface.dispatch, hj]
      have hj' : (s.page.setTcp j (c.onDataReceived m)).tcps[j]? = some (c.onDataReceived m) :=
        (getElem?_set_of_some hj).trans (if_pos rfl)
      have ho : owner m.token es = some j := (h.page.holds j c m.token hj hholds).2.1
      simp only [hd, hdis]
      refine h.arrival hdown (h.page.received hj hd hrec hown hput) rfl h.oks fun t => ?_
      by_cases ht : t = m.token
      · subst ht
        have hcontains : s.page.dispatch_table.contains m.token = true := Dict.contains_iff.2 ⟨j, hd⟩
        have hasking : decide ((c.onDataReceived m).runPc = .registering m.token) =
            decide (c.runPc = .registering m.token) :=
          decide_eq_decide.2 (hrec.runPc _ fun b heq => by cases heq)
        have hclient : clientView m.token (es ++ [.page (.onData b)]) (s.page.setTcp j (c.onDataReceived m)) =
            some { clientOf (putData j es) true m.token c with
              got := inData c ++ m.sd?.getD [], continued := answered (c.onDataReceived m) } := by
          rw [clientView_of_owner ((hown _).trans ho) hj', hput]
          simp only [clientOf, hrec.unsent, hrec.inData, hasking]
          rw [show (s.page.setTcp j (c.onDataReceived m)).dispatch_table.contains m.token = true from hcontains]
        rw [hclient]
        have hu : (view m.token es s os).client = some (clientOf (putData j es) true m.token c) := by
          rw [← hcontains]
          exact clientView_of_owner ho hj
        exact .single (.take hu rfl hself hrec.answered)
      · have hsame : clientView t (es ++ [.page (.onData b)]) (s.page.setTcp j (c.onDataReceived m)) =
            clientView t es s.page := by
          refine clientView_congr (hown t) (fun i hi => ⟨(getElem?_set_of_some hj).trans (if_neg ?_), hput i⟩) rfl
          rintro rfl
          exact ht (h.page.once _ _ _ hi ho)
        rw [hsame, hother t ht]
        exact .refl
    | none =>
      simp only [hd]
      refine h.arrival hdown (h.page.congr hown hput) rfl (fun t ht => ?_) fun t => ?_
      · rcases List.mem_append.1 ht with ht | ht
        · exact h.oks t ht
        · rw [List.mem_singleton.1 ht, hlen]
      have hsame : clientView t (es ++ [.page (.onData b)]) { s.page with oks := s.page.oks ++ [m.token] } =
          clientView t es s.page :=
        clientView_congr (hown t) (fun k _ => ⟨rfl, hput k⟩) rfl
      rw [hsame]
      by_cases ht : t = m.token
      · subst ht
        have hok : decide (m.token ∈ s.page.oks ++ [m.token]) = true := by simp
        rw [hok]
        refine .single (.drop (fun a ha => ?_) hself)
        have hnot : s.page.dispatch_table.contains m.token = false := Dict.contains_eq_false_iff.2 hd
        simp only [view, clientView, Option.bind_eq_some_iff, Option.map_eq_some_iff] at ha
        obtain ⟨i, -, x, -, rfl⟩ := ha
        exact hnot
      · have hok : decide (t ∈ s.page.oks ++ [m.token]) = decide (t ∈ s.page.oks) := by simp [ht]
        rw [hok, hother t ht]
        exact .refl

/-- A step that neither sends nor says anything about a connection. -/
theorem Held.still (h : Held es s os) {e : Event} (hown : ∀ t, owner t (es ++ [e]) = owner t es)
    (hput : ∀ k, putData k (es ++ [e]) = putData k es) (hp : Page (es ++ [e]) p')
    (htcps : ∀ j : Nat, j < s.page.tcps.length → p'.tcps[j]? = s.page.tcps[j]?)
    (htab : p'.dispatch_table = s.page.dispatch_table) (hoks : p'.oks = s.page.oks)
    (hquiet : p'.established = false → s.page.established = false ∧ ∀ x ∈ p'.tcps, Calm x) :
    Held (es ++ [e]) { s with page := p' } os := by
  have h' : Held (es ++ [e]) ⟨p', { s.link with up := s.link.up ++ [] }⟩ os := by
    refine h.page_step hp (fun hest => ⟨(hquiet hest).1, rfl, (hquiet hest).2⟩) (fun m hm => by cases hm) (hoks ▸ h.oks)
      fun t => ?_
    have hsame : clientView t (es ++ [e]) p' = clientView t es s.page := by
      refine clientView_congr (hown t) (fun k hk => ⟨htcps k ?_, hput k⟩) (by rw [htab])
      obtain ⟨c, hc, -⟩ := h.page.owned t k hk
      exact (List.getElem?_eq_some_iff.1 hc).1
    rw [view_page es s.page, hsame, hoks, decoded_nil, ofToken_nil, List.append_nil]
    exact .refl
  simpa using h'

theorem mem_eraseIdx_of_ne {k : Nat} {l : List Bytes} {t t' : Bytes} (h : l[k]? = some t) (hne : t' ≠ t) :
    t' ∈ l.eraseIdx k ↔ t' ∈ l := by
  rw [List.mem_eraseIdx_iff_getElem?, List.mem_iff_getElem?]
  constructor
  · rintro ⟨i, -, hi⟩
    exact ⟨i, hi⟩
  · rintro ⟨i, hi⟩
    refine ⟨i, ?_, hi⟩
    rintro rfl
    exact hne (Option.some.inj (hi.symm.trans h))

/-- A task that sends an OK ends. -/
theorem Held.ok (h : Held es s os) {e : Event} (hown : ∀ t, owner t (es ++ [e]) = owner t es)
    (hput : ∀ k, putData k (es ++ [e]) = putData k es) {k : Nat} (hk : s.page.oks[k]? = some token)
    (hfs : ∀ m ∈ decoded fs, (∃ c, m = .OK c) ∧ m.token = token) (hquiet : s.page.established = false → fs = []) :
    Held (es ++ [e]) ⟨{ s.page with oks := s.page.oks.eraseIdx k }, { s.link with up := s.link.up ++ fs }⟩ os := by
  have hmem : token ∈ s.page.oks := List.mem_of_getElem? hk
  refine h.page_step (h.page.congr hown hput) (fun hest => ⟨hest, hquiet hest, (h.quiet hest).calm⟩) (fun m hm => ?_)
    (fun t ht => h.oks t (List.mem_of_mem_eraseIdx ht)) fun t => ?_
  · obtain ⟨⟨c, rfl⟩, htok⟩ := hfs m hm
    exact ⟨trivial, htok ▸ h.oks token hmem⟩
  have hsame : clientView t (es ++ [e]) { s.page with oks := s.page.oks.eraseIdx k } = clientView t es s.page :=
    clientView_congr (hown t) (fun k _ => ⟨rfl, hput k⟩) rfl
  rw [view_page es s.page, hsame]
  by_cases ht : t = token
  · subst ht
    have hok : (view t es s os).okTask = true := decide_eq_true hmem
    rw [ofToken_eq_self fun m hm => (hfs m hm).2]
    exact .single (.ok hok _ fun m hm => (hfs m hm).1)
  · have hnil : ofToken t (decoded fs) = [] := ofToken_eq_nil fun m hm htok => ht (htok.symm.trans (hfs m hm).2)
    have hsame : decide (t ∈ s.page.oks.eraseIdx k) = decide (t ∈ s.page.oks) :=
      decide_eq_decide.2 (mem_eraseIdx_of_ne hk ht)
    rw [hnil, List.append_nil, hsame]
    exact .refl

theorem Held.page_event (h : Held es s os) {e : WSNETWSInterface.Event} (hrel : (Event.page e).Reliable)
    (hfresh : ∀ t j, (Event.page e).draw? = some (t, j) → owner t es = none) (hs : step s (.page e) = some (s', o)) :
    Held (es ++ [.page e]) s' (os ++ o) := by
  have hno : (∀ j e', e ≠ .tcp j e') →
      (∀ t, owner t (es ++ [.page e]) = owner t es) ∧ ∀ k, putData k (es ++ [.page e]) = putData k es := by
    intro hne
    constructor
    · refine fun t => owner_of_draw ?_
      cases e with
      | tcp j e' => exact absurd rfl (hne j e')
      | _ => rfl
    · intro k
      rw [putData_append]
      cases e with
      | tcp j e' => exact absurd rfl (hne j e')
      | _ => simp [putData]
  cases e with
  | onData data =>
    simp only [step] at hs
    split at hs
    · rename_i b down hdown
      split at hs
      · rename_i heq
        cases hs
        subst heq
        rw [List.append_nil]
        exact h.onData hdown
      · cases hs
    · cases hs
  | onClose | onError | terminate => exact hrel.elim
  | onOpen =>
    cases hs
    obtain ⟨hown, hput⟩ := hno fun _ _ heq => by cases heq
    have hp : Page (es ++ [.page .onOpen]) { s.page with established := true } := h.page.congr hown hput
    simpa using h.still hown hput hp (fun _ _ => rfl) rfl rfl fun hest => by cases hest
  | create ip port =>
    cases hs
    obtain ⟨hown, hput⟩ := hno fun _ _ heq => by cases heq
    have h' := h.still hown hput (h.page.create hown hput ip port) (fun j hj => List.getElem?_append_left hj) rfl rfl
      fun hest => ?_
    · simpa using h'
    · refine ⟨hest, fun x hx => ?_⟩
      rcases List.mem_append.1 hx with hx | hx
      · exact (h.quiet hest).calm x hx
      · rw [List.mem_singleton.1 hx]
        exact ⟨rfl, rfl, fun hw => by cases hw⟩
  | sendOk k =>
    obtain ⟨hown, hput⟩ := hno fun _ _ heq => by cases heq
    obtain ⟨⟨p', fs⟩, hstep, heq⟩ := Option.map_eq_some_iff.1 hs
    simp only [WSNETWSInterface.step] at hstep
    cases heq
    split at hstep
    · rename_i t hk
      split at hstep
      · rename_i hest
        cases hstep
        have hemit : s.page.emit (trySend (.OK { token := t })) = trySend (.OK { token := t }) := by
          rw [WSNETWSInterface.emit, h.page.websocket, if_pos rfl]
        have hlen := h.oks t (List.mem_of_getElem? hk)
        dsimp only
        rw [List.append_nil os, hemit]
        refine h.ok hown hput hk (fun m hm => ?_) fun hest' => by cases hest.symm.trans hest'
        obtain ⟨c, rfl, htok⟩ := ok_of_mem_decoded hlen hm
        exact ⟨⟨c, rfl⟩, htok⟩
      · cases hstep
    · cases hstep
  | okTimeout k =>
    obtain ⟨hown, hput⟩ := hno fun _ _ heq => by cases heq
    simp only [step, WSNETWSInterface.step] at hs
    split at hs
    · rename_i hlt
      cases hs
      rw [List.append_nil os]
      exact h.ok hown hput (List.getElem?_eq_getElem hlt) (fun m hm => by cases hm) fun _ => rfl
    · cases hs
  | tcp j e =>
    simp only [step, WSNETWSInterface.step] at hs
    cases hj : s.page.tcps[j]? with
    | none => simp [hj] at hs
    | some c =>
      simp only [hj, Option.map_eq_some_iff] at hs
      obtain ⟨⟨p', fs⟩, hstep, heq⟩ := hs
      cases heq
      have hstep := WSNETWSInterface.tcpStep_of_step hstep
      rw [List.append_nil]
      by_cases he : ∃ t, e = .run t
      · obtain ⟨t, rfl⟩ := he
        exact h.run hj hrel (hfresh t j rfl) hstep
      · exact h.tcp hj (fun t ht => he ⟨t, ht⟩) hstep

end Held

section Agent
variable {token t : Bytes} {ss : List Session} {i : Nat} {cmd : WSNConnect} {tc tc' : TcpClient} {os : List Effect}
  {ms : List CMD} {m : CMD}

/-- Frames keep the token and the type. -/
theorem of_mem_decoded_frames (hm : m ∈ decoded (Wsnet.frames ms)) (ht : ∀ m ∈ ms, m.token = t) (hlen : t.length = 16) :
    m.token = t ∧ ∃ m' ∈ ms, m.type = m'.type := by
  obtain ⟨m', hm', b, hb, hm⟩ := mem_decoded_frames hm
  have htok := ht m' hm'
  exact ⟨(CMD.token_of_frame hb (htok ▸ hlen) hm).trans htok, m', hm', CMD.type_of_fromBytes hb hm⟩

theorem sd?_of_type {c : CMD} (h : m.type = c.type) (hc : c.type ≠ .SD) : m.sd? = none := by
  cases m with
  | SD d => exact absurd h.symm hc
  | _ => rfl

/-- The data of a message arrives. -/
theorem sdData_decoded_frames (hlen : ∀ m ∈ ms, m.token.length = 16) (hd : ∀ d, .SD d ∈ ms → d.data.length ≤ 65536) :
    sdData (decoded (Wsnet.frames ms)) = sdData ms := by
  induction ms with
  | nil => rfl
  | cons m ms ih =>
    have ih := ih (fun m' hm' => hlen m' (List.mem_cons_of_mem m hm')) fun d hm' => hd d (List.mem_cons_of_mem m hm')
    have hhead : sdData (decoded (Wsnet.frames [m])) = m.sd?.getD [] := by
      by_cases hsd : ∃ d, m = .SD d
      · obtain ⟨⟨t, data⟩, rfl⟩ := hsd
        have ht : t.length = 16 := hlen _ List.mem_cons_self
        have hdata : data.length ≤ 65536 := hd _ List.mem_cons_self
        obtain ⟨b, hb, hdec⟩ := written_SD ht (p := data) (by omega)
        simp [Wsnet.frames, hb, decoded, hdec, Except.toOption, sdData, CMD.sd?]
      · have htype : m.type ≠ .SD := by
          cases m with
          | SD d => exact absurd ⟨d, rfl⟩ hsd
          | _ => exact fun heq => by cases heq
        have hnone : m.sd? = none := sd?_of_type rfl htype
        rw [sdData_eq_nil fun m' hm' => sd?_of_type (kept_of_mem_decoded hm').1 htype, hnone]
        rfl
    rw [frames_cons, decoded_append, sdData_append, ih, hhead, sdData_cons]

/-- The session at an index is the one of its tunnel. -/
theorem sessionsOf_set (hs : ss[i]? = some ⟨cmd, .tcpClient tc⟩) :
    ∃ pre post, sessionsOf cmd.token ss = pre ++ tc :: post ∧
    ∀ tc', sessionsOf cmd.token (ss.set i ⟨cmd, .tcpClient tc'⟩) = pre ++ tc' :: post := by
  induction ss generalizing i with
  | nil => cases hs
  | cons s ss ih =>
    cases i with
    | zero =>
      cases hs
      exact ⟨[], sessionsOf cmd.token ss, by simp [sessionsOf], fun tc' => by simp [sessionsOf]⟩
    | succ i =>
      obtain ⟨pre, post, hpre, hset⟩ := ih hs
      refine ⟨sessionsOf cmd.token [s] ++ pre, post, ?_, fun tc' => ?_⟩
      · rw [List.append_assoc, ← hpre]
        exact List.filterMap_append (l := [s])
      · rw [List.append_assoc, ← hset]
        exact List.filterMap_append (l := [s])

theorem sessionsOf_set_of_ne (hs : ss[i]? = some ⟨cmd, .tcpClient tc⟩) (ht : cmd.token ≠ t) :
    sessionsOf t (ss.set i ⟨cmd, .tcpClient tc'⟩) = sessionsOf t ss := by
  induction ss generalizing i with
  | nil => rfl
  | cons s ss ih =>
    cases i with
    | zero =>
      cases hs
      simp [sessionsOf, ht]
    | succ i =>
      have ih := ih hs
      simp only [sessionsOf, List.set_cons_succ, List.filterMap_cons] at ih ⊢
      rw [ih]

/-- A session that has its token to itself. -/
theorem sole_of_sessionsOf (htask : ∀ s ∈ ss, ∃ tc, s.task = .tcpClient tc) (h : sessionsOf t ss = [tc]) :
    ∃ i s, ss[i]? = some s ∧ s.task = .tcpClient tc ∧ s.cmd.token = t ∧ Agent.Sole ss t i := by
  unfold sessionsOf at h
  obtain ⟨pre, s, post, rfl, hpre, hs, hpost⟩ := List.filterMap_eq_cons_iff.1 h
  have hpost := List.filterMap_eq_nil_iff.1 hpost
  have hnot : ∀ s' ∈ pre ++ post, s'.cmd.token ≠ t := by
    intro s' hs' ht
    obtain ⟨tc', htc'⟩ := htask s' (by rcases List.mem_append.1 hs' with h | h <;> simp [h])
    have hnone := (List.mem_append.1 hs').elim (hpre s') (hpost s')
    simp [htc', ht] at hnone
  obtain ⟨tc', htc'⟩ := htask s (by simp)
  simp only [htc', Option.ite_none_right_eq_some, Option.some.injEq] at hs
  obtain ⟨ht, rfl⟩ := hs
  refine ⟨pre.length, s, by simp, htc', ht, fun j s' hj ht' => ?_⟩
  by_contra hne
  refine hnot s' ?_ ht'
  rw [List.getElem?_append] at hj
  split at hj
  · exact List.mem_append_left _ (List.mem_of_getElem? hj)
  · rename_i hle
    obtain ⟨k, hk⟩ : ∃ k, j - pre.length = k + 1 := ⟨j - pre.length - 1, by omega⟩
    rw [hk] at hj
    exact List.mem_append_right _ (List.mem_of_getElem? hj)

theorem sentMessages_session : Agent.sentMessages (os.map (.session t)) = messages os := by
  rw [Agent.sentMessages, List.filterMap_map]
  exact List.filterMap_congr fun e _ => by cases e <;> rfl

theorem writtenTo_session : writtenTo token (os.map (.session t)) = if t = token then wroteData os else [] := by
  rw [writtenTo, List.filterMap_map]
  by_cases h : t = token
  · rw [if_pos h, wroteData]
    exact congrArg List.flatten (List.filterMap_congr fun e _ => by cases e <;> simp [h])
  · rw [if_neg h, List.filterMap_eq_nil_iff.2 fun e _ => by cases e <;> simp [h]]
    rfl

theorem readFrom_session : readFrom token (os.map (.session t)) = if t = token then readData os else [] := by
  rw [readFrom, List.filterMap_map]
  by_cases h : t = token
  · rw [if_pos h, readData]
    exact congrArg List.flatten (List.filterMap_congr fun e _ => by cases e <;> simp [h])
  · rw [if_neg h, List.filterMap_eq_nil_iff.2 fun e _ => by cases e <;> simp [h]]
    rfl

end Agent

section Held
variable {es : List Event} {s s' : Tunnels} {os o : List Agent.Output} {l : Link} {e : Agent.Event}

theorem Held.agent_step (h : Held es s os) (hsend : e.isSendFailed = false) (hs : s.link.step e = some (l, o))
    (hsized : ∀ x ∈ l.agent.sessions, x.cmd.token.length = 16)
    (hdown : ∀ m ∈ decoded (Wsnet.frames (Agent.sentMessages o)), m.token.length = 16)
    (hquiet : Quiet s → l.agent.sessions = [] ∧ Agent.sentMessages o = [])
    (ht : ∀ t, Tunnel.Steps (view t es s os) { view t es s os with
      up := ofToken t (decoded l.up), sessions := sessionsOf t l.agent.sessions,
      written := writtenTo t os ++ writtenTo t o,
      read := readFrom t os ++ readFrom t o,
      down := ofToken t (decoded s.link.down) ++ ofToken t (decoded (Wsnet.frames (Agent.sentMessages o))) }) :
    Held (es ++ [.agent e]) { s with link := l } (os ++ o) := by
  obtain ⟨hstep, hdown', hup⟩ := Link.step_eq_some hs
  have hm : ∀ c, e.cmd? = some c → c.IsTcp :=
    fun c hc => (h.up c (by rw [Link.cmd?_of_step hs hc]; exact List.mem_cons_self)).1
  have hown : ∀ t, owner t (es ++ [.agent e]) = owner t es := fun t => owner_of_draw rfl
  have hput : ∀ k, putData k (es ++ [.agent e]) = putData k es := fun k => by
    rw [putData_append]
    simp [putData]
  refine ⟨h.page.congr hown hput, fun hest => ?_, h.agent.step hsend hm hstep, hsized,
    fun m hm => ?_, fun m hm => ?_, h.oks, fun t => ?_⟩
  · have hq := h.quiet hest
    obtain ⟨hsess, hsent⟩ := hquiet hq
    refine ⟨?_, ?_, hsess, hq.calm⟩
    · rcases hup with ⟨data, f, -, hup⟩ | ⟨-, hup⟩
      · cases hq.up.symm.trans hup
      · exact hup.trans hq.up
    · rw [hdown', hq.down, hsent]
      rfl
  · refine h.up m ?_
    rcases hup with ⟨data, f, -, hup⟩ | ⟨-, hup⟩
    · rw [hup, show data :: l.up = [data] ++ l.up from rfl, decoded_append]
      exact List.mem_append_right _ hm
    · exact hup ▸ hm
  · rw [hdown', decoded_append] at hm
    exact (List.mem_append.1 hm).elim (h.down m) (hdown m)
  · have hview : view t (es ++ [.agent e]) { s with link := l } (os ++ o) = { view t es s os with
        up := ofToken t (decoded l.up), sessions := sessionsOf t l.agent.sessions,
        written := writtenTo t os ++ writtenTo t o,
        read := readFrom t os ++ readFrom t o,
        down := ofToken t (decoded s.link.down) ++ ofToken t (decoded (Wsnet.frames (Agent.sentMessages o))) } := by
      have hclient : clientView t (es ++ [.agent e]) s.page = clientView t es s.page :=
        clientView_congr (hown t) (fun k _ => ⟨rfl, hput k⟩) rfl
      simp only [view, hclient, writtenTo_append, readFrom_append, hdown', decoded_append, ofToken_append]
    rw [hview]
    exact (h.tunnels t).trans (ht t)

theorem isSendFailed_of_reliable (hrel : (Event.agent e).Reliable) : e.isSendFailed = false := by
  cases e with
  | session i e =>
    cases e with
    | tcpClient e =>
      cases e with
      | put c => rfl
      | main e => cases e <;> first | rfl | exact hrel
      | dataIn e => cases e <;> first | rfl | exact hrel
    | _ => exact hrel
  | _ => exact hrel

/-- What a reliable event is for its session. -/
theorem reliable_taskEvent {i : Nat} {cmd : WSNConnect} {tc : TcpClient} {e : Session.Event} {e' : TcpClient.Event}
    (hrel : (Event.agent (.session i e)).Reliable) (he : Session.taskEvent ⟨cmd, .tcpClient tc⟩ e = .tcpClient e') :
    e'.raises = false ∧ ∀ data, e' = .main (.read data) → data.length ≤ 65536 := by
  cases e with
  | opening o =>
    simp only [Session.taskEvent, Session.outcome] at he
    split at he <;> cases he <;> exact ⟨rfl, fun _ heq => by cases heq⟩
  | tcpClient e =>
    cases he
    refine ⟨?_, fun data heq => by cases heq; exact hrel⟩
    cases e' with
    | put c => rfl
    | main e => cases e <;> first | rfl | cases hrel
    | dataIn e => cases e <;> first | rfl | cases hrel
  | _ => cases he

theorem Held.agent_session (h : Held es s os) {i : Nat} {cmd : WSNConnect} {tc tc' : TcpClient} {e : Session.Event}
    {e' : TcpClient.Event} {os' : List Effect} {up down : List Bytes} (hrel : (Event.agent (.session i e)).Reliable)
    (hsess : s.link.agent.sessions[i]? = some ⟨cmd, .tcpClient tc⟩) (hput : ∀ c, e' ≠ .put c)
    (he : Session.taskEvent ⟨cmd, .tcpClient tc⟩ e = .tcpClient e') (hstep : tc.step e' = some (tc', os'))
    (hs : s.link.step (.session i e) =
      some (⟨(s.link.agent.putSession i ⟨cmd, .tcpClient tc'⟩ os').1, up, down⟩, os'.map (.session cmd.token))) :
    Held (es ++ [.agent (.session i e)])
      { s with link := ⟨(s.link.agent.putSession i ⟨cmd, .tcpClient tc'⟩ os').1, up, down⟩ }
      (os ++ os'.map (.session cmd.token)) := by
  obtain ⟨hr, hread⟩ := reliable_taskEvent hrel he
  have hmem : (⟨cmd, .tcpClient tc⟩ : Session) ∈ s.link.agent.sessions := List.mem_of_getElem? hsess
  have hlen : cmd.token.length = 16 := h.sized _ hmem
  have htok : tc.token = cmd.token := (h.agent.fits _ hmem).2 tc.token rfl
  have hmsgs : ∀ m ∈ messages os', m.token = cmd.token :=
    fun m hm => (TcpClient.token_of_mem_messages hstep hm).trans htok
  have hup : decoded up = decoded s.link.up := Link.decoded_of_step hs rfl
  refine h.agent_step (isSendFailed_of_reliable hrel) hs (fun x hx => ?_) (fun m hm => ?_) (fun hq => ?_) fun t => ?_
  · rw [Agent.sessions_putSession] at hx
    rcases List.mem_or_eq_of_mem_set hx with hx | rfl
    · exact h.sized x hx
    · exact hlen
  · rw [sentMessages_session] at hm
    rw [(of_mem_decoded_frames hm hmsgs hlen).1, hlen]
  · rw [hq.sessions] at hsess
    cases hsess
  simp only [Agent.sessions_putSession, sentMessages_session, writtenTo_session, readFrom_session]
  by_cases ht : cmd.token = t
  · subst ht
    obtain ⟨pre, post, hpre, hset⟩ := sessionsOf_set hsess
    have hall : ofToken cmd.token (decoded (Wsnet.frames (messages os'))) = decoded (Wsnet.frames (messages os')) :=
      ofToken_eq_self fun m hm => (of_mem_decoded_frames hm hmsgs hlen).1
    have hdata : sdData (decoded (Wsnet.frames (messages os'))) = sdData (messages os') :=
      sdData_decoded_frames (fun m hm => hmsgs m hm ▸ hlen) fun d hd =>
        hread _ (TcpClient.data_of_mem_messages hstep hd)
    rw [hset, hall, hup, if_pos rfl, if_pos rfl]
    exact .single (.session hpre hr hput hstep (fun m hm => (of_mem_decoded_frames hm hmsgs hlen).2) hdata)
  · have hnil : ofToken t (decoded (Wsnet.frames (messages os'))) = [] :=
      ofToken_eq_nil fun m hm hmt => ht ((of_mem_decoded_frames hm hmsgs hlen).1.symm.trans hmt)
    rw [sessionsOf_set_of_ne hsess ht, hnil, hup, if_neg ht, if_neg ht, List.append_nil, List.append_nil,
      List.append_nil]
    exact .refl

theorem Held.agent_recv (h : Held es s os) {data : Bytes} {f : FileOs} {c : CMD} (hd : CMD.fromBytes data = .ok c)
    (hs : s.link.step (.recv data f) = some (l, o)) (hsized : ∀ x ∈ l.agent.sessions, x.cmd.token.length = 16)
    (hmsgs : ∀ m ∈ decoded (Wsnet.frames (Agent.sentMessages o)), m.token = c.token)
    (hio : ∀ t, writtenTo t o = [] ∧ readFrom t o = [])
    (hother : ∀ t, t ≠ c.token → sessionsOf t l.agent.sessions = sessionsOf t s.link.agent.sessions)
    (hself : ∀ u, u = view c.token es s os → u.up = c :: ofToken c.token (decoded l.up) → u.Step { u with
      up := ofToken c.token (decoded l.up), sessions := sessionsOf c.token l.agent.sessions,
      down := u.down ++ decoded (Wsnet.frames (Agent.sentMessages o)) }) :
    Held (es ++ [.agent (.recv data f)]) { s with link := l } (os ++ o) := by
  have hup : decoded s.link.up = c :: decoded l.up := Link.cmd?_of_step hs (by simp [Agent.Event.cmd?, hd])
  have hlen : c.token.length = 16 := (h.up c (by rw [hup]; exact List.mem_cons_self)).2
  refine h.agent_step rfl hs hsized (fun m hm => hmsgs m hm ▸ hlen) (fun hq => ?_) fun t => ?_
  · rw [hq.up] at hup
    cases hup
  rw [(hio t).1, (hio t).2, List.append_nil, List.append_nil]
  by_cases ht : t = c.token
  · subst ht
    rw [ofToken_eq_self hmsgs]
    exact .single (hself _ rfl (by rw [view, hup, ofToken_cons_self rfl]))
  · have hnil : ofToken t (decoded (Wsnet.frames (Agent.sentMessages o))) = [] :=
      ofToken_eq_nil fun m hm hmt => ht (hmt.symm.trans (hmsgs m hm))
    have hrest : ofToken t (decoded l.up) = ofToken t (decoded s.link.up) := by
      rw [hup, ofToken_cons_of_ne (Ne.symm ht)]
    rw [hother t ht, hnil, hrest, List.append_nil]
    exact .refl

theorem view_keep {up : List Bytes} (hup : decoded up = decoded s.link.up) (t : Bytes) :
    Tunnel.Steps (view t es s os) { view t es s os with
      up := ofToken t (decoded up), sessions := sessionsOf t s.link.agent.sessions, written := writtenTo t os ++ [],
      read := readFrom t os ++ [], down := ofToken t (decoded s.link.down) ++ [] } := by
  rw [hup, List.append_nil, List.append_nil, List.append_nil]
  exact .refl

/-- The agent has no queue for a token before its session has opened the connection, and after its writer is closed. -/
theorem Held.no_queue (h : Held es s os) {t : Bytes} {tc : TcpClient} (hq : s.link.agent.processQueues.get? t = none)
    (hs : sessionsOf t s.link.agent.sessions = [tc]) : tc.dataIn = .none ∨ tc.closed = true := by
  obtain ⟨i, x, hi, htask, rfl, hsole⟩ := sole_of_sessionsOf (fun x hx => (h.agent.task x hx).imp fun _ hx => hx.1) hs
  have hentry := (h.agent.entries i x tc hi htask).2 hsole
  rw [hq, TcpClient.entry] at hentry
  by_contra hno
  rw [if_neg hno] at hentry
  cases hentry

theorem Held.agent_event (h : Held es s os) (hrel : (Event.agent e).Reliable) (hs : s.link.step e = some (l, o)) :
    Held (es ++ [.agent e]) { s with link := l } (os ++ o) := by
  have hsend := isSendFailed_of_reliable hrel
  have hm : ∀ c, e.cmd? = some c → c.IsTcp :=
    fun c hc => (h.up c (by rw [Link.cmd?_of_step hs hc]; exact List.mem_cons_self)).1
  obtain ⟨agent, up, down⟩ := l
  cases h.agent.step_cases hsend hm (Link.step_eq_some hs).1 with
  | session hsess hput he hsess' hstep => exact h.agent_session hrel hsess hput he hstep hs
  | @put data f c i cmd tc hd hq hsess ht =>
    have hio : ∀ t, writtenTo t [.received c, .returned true] = [] ∧ readFrom t [.received c, .returned true] = [] :=
      fun t => ⟨rfl, rfl⟩
    refine h.agent_recv hd hs (fun x hx => ?_) (fun m hm => by cases hm) hio (fun t htc => ?_) fun u hu hup => ?_
    · rcases List.mem_or_eq_of_mem_set hx with hx | rfl
      · exact h.sized x hx
      · have hlen : cmd.token.length = 16 := h.sized _ (List.mem_of_getElem? hsess)
        exact hlen
    · exact sessionsOf_set_of_ne hsess (by rw [ht]; exact Ne.symm htc)
    · obtain ⟨pre, post, hpre, hset⟩ := sessionsOf_set hsess
      rw [ht] at hpre hset
      rw [hset, show Agent.sentMessages [.received c, .returned true] = [] from rfl, frames_nil, decoded_nil,
        List.append_nil]
      exact .deliver hup (by rw [hu]; exact hpre)
  | @refuse data f c hd hq =>
    have hup := Link.cmd?_of_step (c := .SD c) hs (by simp [Agent.Event.cmd?, hd])
    have hlen : c.token.length = 16 := (h.up (.SD c) (by rw [hup]; exact List.mem_cons_self)).2
    have hio : ∀ t m, writtenTo t [.received (.SD c), .sent m] = [] ∧ readFrom t [.received (.SD c), .sent m] = [] :=
      fun t m => ⟨rfl, rfl⟩
    refine h.agent_recv hd hs h.sized (fun m hm => (kept_of_mem_decoded hm).2 hlen) (hio · _)
      (fun _ _ => rfl) fun u hu hup => ?_
    subst hu
    refine .refuse hup rfl (fun tc htc => h.no_queue hq htc) fun m hm => ?_
    have htype : m.type = .ERR := (kept_of_mem_decoded hm).1
    cases m with
    | ERR c => exact ⟨c, rfl⟩
    | _ => cases htype
  | @ignore data f c hd hq =>
    have hio : ∀ t, writtenTo t [.received (.OK c), .returned true] = [] ∧
        readFrom t [.received (.OK c), .returned true] = [] :=
      fun t => ⟨rfl, rfl⟩
    refine h.agent_recv hd hs h.sized (fun m hm => by cases hm) hio (fun _ _ => rfl) fun u hu hup => ?_
    subst hu
    exact .refuse hup rfl (fun tc htc => h.no_queue hq htc) fun m hm => by cases hm
  | @create data f c hd hk hq =>
    have hup := Link.cmd?_of_step (c := .CONNECT c) hs (by simp [Agent.Event.cmd?, hd])
    have hlen : c.token.length = 16 := (h.up (.CONNECT c) (by rw [hup]; exact List.mem_cons_self)).2
    have hio : ∀ t, writtenTo t [.received (.CONNECT c), .returned true] = [] ∧
        readFrom t [.received (.CONNECT c), .returned true] = [] := fun t => ⟨rfl, rfl⟩
    have hnew : ∀ t, sessionsOf t
        (s.link.agent.sessions ++ [⟨c, .tcpClient { token := c.token, full := s.link.agent.full }⟩]) =
        sessionsOf t s.link.agent.sessions ++
          if c.token = t then [{ token := c.token, full := s.link.agent.full }] else [] := by
      intro t
      by_cases ht : c.token = t <;> simp [sessionsOf, ht]
    refine h.agent_recv hd hs (fun x hx => ?_) (fun m hm => by cases hm) hio (fun t ht => ?_) fun u hu hup => ?_
    · rcases List.mem_append.1 hx with hx | hx
      · exact h.sized x hx
      · rw [List.mem_singleton.1 hx]
        exact hlen
    · rw [hnew, if_neg fun heq => ht heq.symm, List.append_nil]
    · have hnone : Agent.sentMessages [.received (.CONNECT c), .returned true] = [] := rfl
      rw [hnew, if_pos (show c.token = (CMD.CONNECT c).token from rfl), hnone, frames_nil, decoded_nil,
        List.append_nil, hu]
      exact .create (hu ▸ hup) rfl c.token s.link.agent.full
  | @undecodable data f e hd =>
    have hup : decoded up = decoded s.link.up := Link.decoded_of_step hs (by simp [Agent.Event.cmd?, hd])
    refine h.agent_step hsend hs h.sized (fun m hm => by cases hm) (fun hq => ⟨hq.sessions, rfl⟩) fun t => ?_
    exact view_keep hup t
  | replied hi =>
    have hup : decoded up = decoded s.link.up := Link.decoded_of_step hs rfl
    refine h.agent_step hsend hs h.sized (fun m hm => by cases hm) (fun hq => ⟨hq.sessions, rfl⟩) fun t => ?_
    exact view_keep hup t

theorem Held.start (full : Bool) (info : WSNGetInfoReply) : Held [] (start full info) [] where
  page := by constructor <;> simp [Tunnels.start, owner, draws, putData]
  quiet _ := ⟨rfl, rfl, rfl, fun _ hc => by cases hc⟩
  agent := .init full info
  sized _ hx := by cases hx
  up _ hm := by cases hm
  down _ hm := by cases hm
  oks _ ht := by cases ht
  tunnels _ := .refl

/-- A token that is drawn has not been drawn before. -/
theorem owner_of_nodup {e : Event} (hn : ((draws (es ++ [e])).map Prod.fst).Nodup) {t : Bytes} {j : Nat}
    (hd : e.draw? = some (t, j)) :
    owner t es = none := by
  have hdraws : draws (es ++ [e]) = draws es ++ [(t, j)] := by simp [draws, hd]
  rw [hdraws, List.map_append] at hn
  rw [owner_eq_none_iff]
  exact fun hmem => (List.nodup_append.1 hn).2.2 t hmem t (by simp) rfl

theorem Held.step (h : Held es s os) {e : Event} (hrel : e.Reliable) (hn : ((draws (es ++ [e])).map Prod.fst).Nodup)
    (hs : step s e = some (s', o)) : Held (es ++ [e]) s' (os ++ o) := by
  cases e with
  | page e => exact h.page_event hrel (fun t j hd => owner_of_nodup hn hd) hs
  | agent e =>
    obtain ⟨⟨l, o'⟩, hl, heq⟩ := Option.map_eq_some_iff.1 hs
    cases heq
    exact h.agent_event hrel hl

theorem held_run {full : Bool} {info : WSNGetInfoReply} (h : Run Tunnels.step (Tunnels.start full info) es s os)
    (hrel : ∀ e ∈ es, e.Reliable) (hdistinct : ((draws es).map Prod.fst).Nodup) : Held es s os := by
  have hinv : ((draws es).map Prod.fst).Nodup → Held es s os :=
    h.history_invariant_of (P := fun es s os => ((draws es).map Prod.fst).Nodup → Held es s os) (A := Event.Reliable)
      (fun {es s s' e o os} hrel hp hs hn => by
        have hn' : ((draws es).map Prod.fst).Nodup := by
          rw [draws, List.filterMap_append, List.map_append] at hn
          exact (List.nodup_append.1 hn).1
        exact (hp hn').step hrel hn hs)
      hrel fun _ => Held.start full info
  exact hinv hdistinct

end Held

/-! ### The streams -/

/-- Between the user of the connection `c`, that has drawn the token, and its socket everything has been taken on. -/
structure Drained (token : Bytes) (c : WSNetworkTCP) (s : Tunnels) : Prop where
  out_q : c.out_q = []
  outPc : ∀ data, c.outPc ≠ .opening data
  up : ∀ m ∈ decoded s.link.up, m.token ≠ token
  inQ : ∀ tc ∈ sessionsOf token s.link.agent.sessions, tc.inQ = []
  dataIn : ∀ tc ∈ sessionsOf token s.link.agent.sessions, ∀ data, tc.dataIn ≠ .sleeping data
  down : ∀ m ∈ decoded s.link.down, m.token ≠ token

/-- Neither side has closed: the client has the token still registered, and a session that has opened its socket still
reads from it. -/
structure BothOpen (token : Bytes) (s : Tunnels) : Prop where
  client : s.page.dispatch_table.contains token = true
  remote : ∀ tc ∈ sessionsOf token s.link.agent.sessions, tc.dataIn ≠ .none → ¬ tc.Over

section Streams
variable {full : Bool} {info : WSNGetInfoReply} {es : List Event} {s : Tunnels} {os : List Agent.Output}
  {token : Bytes} {j : Nat}
  {c : WSNetworkTCP}

theorem owner_of_mem_draws (hdistinct : ((draws es).map Prod.fst).Nodup) (hd : (token, j) ∈ draws es) :
    owner token es = some j := by
  have hmem : token ∈ (draws es).map Prod.fst := List.mem_map_of_mem hd
  cases ho : owner token es with
  | none => exact absurd hmem (owner_eq_none_iff.1 ho)
  | some i =>
    have hi : (token, i) ∈ draws es := by
      obtain ⟨pre, post, hsplit, -⟩ := List.lookup_eq_some_iff.1 ho
      rw [hsplit]
      exact List.mem_append_right _ List.mem_cons_self
    have heq := List.inj_on_of_nodup_map hdistinct hi hd rfl
    cases heq
    rfl

theorem Drained.ahead (h : Drained token c s) : (view token es s os).ahead = [] := by
  have hup : ofToken token (decoded s.link.up) = [] := ofToken_eq_nil h.up
  have hpending : ∀ tc ∈ sessionsOf token s.link.agent.sessions, tc.pending = [] := by
    intro tc htc
    rw [TcpClient.pending, h.inQ tc htc, sdData_nil, List.append_nil]
    unfold TcpClient.inHand
    split
    · rename_i data hdata
      exact absurd hdata (h.dataIn tc htc data)
    · rfl
  rw [Tunnel.ahead]
  change ((sessionsOf token s.link.agent.sessions).map TcpClient.pending).flatten ++
    sdData (ofToken token (decoded s.link.up)) = []
  rw [hup, sdData_nil, List.append_nil, List.flatten_eq_nil_iff]
  intro l hl
  obtain ⟨tc, htc, rfl⟩ := List.mem_map.1 hl
  exact hpending tc htc

/-- The bytes written to the socket of a token are a prefix of those put into the `out_q` of its connection, and the
bytes put into `in_q` of those read from the socket, in all runs of any number of connections. They are the same when
nothing is on its way and neither side has closed. -/
theorem streams_intact (h : Run step (start full info) es s os) (hrel : ∀ e ∈ es, e.Reliable)
    (hdistinct : ((draws es).map Prod.fst).Nodup) (hd : (token, j) ∈ draws es) : ∃ c, s.page.tcps[j]? = some c ∧
      writtenTo token os <+: putData j es ∧ inData c <+: readFrom token os ∧
        (Drained token c s → BothOpen token s → writtenTo token os = putData j es ∧ inData c = readFrom token os) := by
  have hheld := held_run h hrel hdistinct
  have ho := owner_of_mem_draws hdistinct hd
  obtain ⟨c, hj, -⟩ := hheld.page.owned token j ho
  have hclient : (view token es s os).client =
      some (clientOf (putData j es) (s.page.dispatch_table.contains token) token c) :=
    clientView_of_owner ho hj
  have hinv := hheld.inv token
  refine ⟨c, hj, hinv.streams.written _ hclient, hinv.streams.got _ hclient, fun hdrained hopen => ?_⟩
  obtain ⟨hup, hdown⟩ := hinv.drained hclient hopen.client hopen.remote
  have hleft : unsent c = [] := by
    rw [unsent_of_outPc hdrained.outPc, hdrained.out_q]
    rfl
  exact ⟨hup hdrained.ahead hleft, hdown (by rw [view, ofToken_eq_nil hdrained.down]; rfl)⟩

end Streams

/-! ### Two tunnels -/

def frameOf (c : CMD) : Bytes := c.toBytes.toOption.getD []

def tokenOf (n : UInt8) : Bytes := List.replicate 16 n

/-- Two connections of one page; `"hi"` goes through the first, and `"yo"` comes back. -/
def twoTunnels : List Event :=
  let connect (n : UInt8) : Bytes :=
    frameOf (.CONNECT { token := tokenOf n, protocol := "TCP", ip := "10.0.0.1", port := 80 })
  [.page (.create "10.0.0.1" 80), .page (.create "10.0.0.1" 80), .page (.tcp 0 (.put (some [104, 105]))), .page .onOpen,
    .page (.tcp 0 (.run (tokenOf 1))), .page (.tcp 1 (.run (tokenOf 2))), .agent (.recv (connect 1) {}),
    .agent (.session 0 (.opening { raises := fun _ => none })), .agent (.recv (connect 2) {}),
    .agent (.session 1 (.opening { raises := fun _ => none })), .page (.onData (frameOf (continueReply (tokenOf 1)))),
    .page (.tcp 0 .resume), .page (.tcp 0 .out), .agent (.session 0 (.tcpClient (.main .sent))),
    .agent (.session 0 (.tcpClient (.dataIn .start))), .agent (.recv (frameOf (.SD ⟨tokenOf 1, [104, 105]⟩)) {}),
    .agent (.session 0 (.tcpClient (.main .wake))), .agent (.session 0 (.tcpClient (.main (.read [121, 111])))),
    .agent (.session 0 (.tcpClient (.dataIn .got))), .agent (.session 0 (.tcpClient (.dataIn .wake))),
    .page (.onData (frameOf (continueReply (tokenOf 2)))), .page (.onData (frameOf (.SD ⟨tokenOf 1, [121, 111]⟩)))]

/-- The first connection is open and has nothing on its way. -/
def firstIdle (r : Tunnels × List Agent.Output) : Bool :=
  r.1.page.tcps[0]?.any (fun c => c.out_q = [] ∧ c.outPc = .getting) && r.1.page.dispatch_table.contains (tokenOf 1) &&
    decide (decoded r.1.link.up = [] ∧ decoded r.1.link.down = []) &&
      (sessionsOf (tokenOf 1) r.1.link.agent.sessions).all fun tc =>
        tc.inQ = [] ∧ tc.dataIn = .draining ∧ tc.main = .sendingData

theorem streams_intact_twoTunnels :
    ∃ s os, Run step (start true ⟨[], 1, "", "", "", "", "", "", "", ""⟩) twoTunnels s os ∧
    ∃ c, s.page.tcps[0]? = some c ∧ writtenTo (tokenOf 1) os = [104, 105] ∧ inData c = readFrom (tokenOf 1) os := by
  have hidle : (exec step (start true ⟨[], 1, "", "", "", "", "", "", "", ""⟩) twoTunnels).any firstIdle = true := by
    decide +kernel
  obtain ⟨⟨s, os⟩, hexec, hidle⟩ := (Option.any_eq_true _ _).1 hidle
  have hrel : ∀ e ∈ twoTunnels, e.Reliable := by
    simp [twoTunnels, Event.Reliable, tokenOf, Agent.Event.isSendFailed, Session.Event.isSendFailed]
  obtain ⟨c, hc, -, -, heq⟩ :=
    streams_intact (.of_exec hexec) hrel (by decide) (show (tokenOf 1, 0) ∈ draws twoTunnels by decide)
  simp only [firstIdle, hc, Option.any_some, Bool.and_eq_true, decide_eq_true_eq, List.all_eq_true] at hidle
  obtain ⟨⟨⟨⟨hout, hpc⟩, htable⟩, hup, hdown⟩, hsess⟩ := hidle
  refine ⟨s, os, .of_exec hexec, c, hc,
    heq ⟨hout, by simp [hpc], by simp [hup], fun tc htc => (hsess tc htc).1, ?_, by simp [hdown]⟩ ⟨htable, ?_⟩⟩
  · intro tc htc data
    simp [(hsess tc htc).2.1]
  · intro tc htc _
    simp [TcpClient.Over, (hsess tc htc).2.2]

end Tunnels

end Wsnet.Pyodide
