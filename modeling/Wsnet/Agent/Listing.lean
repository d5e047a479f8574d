import Wsnet.Agent.FileOps

/-!
# Listing a directory

One entry that cannot be encoded ends the listing with an `ERR`: a name that is no text, a time before 1970 or
one that eight bytes do not hold (`listed_iff`).
-/

namespace Wsnet

theorem PyText.text?_ofString (s : String) : (ofString s).text? = some s := by
  have hchars : ∀ cs : List Char, chars? (cs.map .scalar) = some cs := by
    intro cs
    induction cs with
    | nil => rfl
    | cons c cs ih => simp [chars?, ih]
  rw [text?, ofString, hchars]
  simp

namespace FileSystem
variable {σ φ : Type}

/-- The numbers that are sent for what `os.stat` does. -/
def numbers : Except String Stat → Stat
  | .ok stat => stat
  | .error _ => ⟨0, 0, 0, 0⟩

/-- The entry can be sent: its name is a text, its times are unsigned numbers of eight bytes, and its frame has
a length of four. -/
structure Sendable (path : String) (name : PyText) (stat : Stat) : Prop where
  text : ∃ s, name.text? = some s ∧ 63 + (utf8Encode path).length + (utf8Encode s).length < 2 ^ 32
  atime : 0 ≤ stat.st_atime_ns ∧ stat.st_atime_ns < 2 ^ 64
  mtime : 0 ≤ stat.st_mtime_ns ∧ stat.st_mtime_ns < 2 ^ 64
  ctime : 0 ≤ stat.st_ctime_ns ∧ stat.st_ctime_ns < 2 ^ 64

theorem frameLength_entry {token : Bytes} (ht : token.length = 16) (root name : String) (is_dir : Bool) (stat : Stat) :
    (CMD.FILEENTRY (entry token root name is_dir stat)).frameLength =
      63 + (utf8Encode root).length + (utf8Encode name).length := by
  simp only [CMD.frameLength, CMD.fields, WSNFileEntry.fields, entry, List.map_cons, List.map_nil, List.sum_cons,
    List.sum_nil, Field.size, encode, ht, flagByte, List.length_singleton]
  omega

/-- The numbers of an entry that is encoded have room in eight bytes each. -/
theorem times_of_toBytes {token b : Bytes} {root name : String} {is_dir : Bool} {stat : Stat}
    (h : (CMD.FILEENTRY (entry token root name is_dir stat)).toBytes = .ok b) :
    (0 ≤ stat.st_atime_ns ∧ stat.st_atime_ns < 2 ^ 64) ∧ (0 ≤ stat.st_mtime_ns ∧ stat.st_mtime_ns < 2 ^ 64) ∧
      0 ≤ stat.st_ctime_ns ∧ stat.st_ctime_ns < 2 ^ 64 := by
  obtain ⟨body, hw, -, -⟩ := CMD.toBytes_eq_ok.1 h
  have hint : ∀ n : Int, .int n 8 ∈ (CMD.FILEENTRY (entry token root name is_dir stat)).fields →
      0 ≤ n ∧ n < 2 ^ 64 := by
    intro n hn
    obtain ⟨x, hx⟩ := write_of_writeFields hw hn
    exact (intToBytes_eq_ok.1 hx).1
  exact ⟨hint _ (by simp [CMD.fields, WSNFileEntry.fields, entry]),
    hint _ (by simp [CMD.fields, WSNFileEntry.fields, entry]),
    hint _ (by simp [CMD.fields, WSNFileEntry.fields, entry])⟩

theorem sendable_iff {token : Bytes} (ht : token.length = 16) (path : String) (name : PyText) (is_dir : Bool)
    {stat : Stat}
    (hsize : 0 ≤ stat.st_size ∧ stat.st_size < 2 ^ 64) :
    (∃ c b, fileEntry token (.ofString path) name is_dir stat = .ok c ∧ c.toBytes = .ok b) ↔
    Sendable path name stat := by
  rw [fileEntry, PyText.text?_ofString]
  constructor
  · rintro ⟨c, b, hc, hb⟩
    cases hs : name.text? with
    | none => rw [hs] at hc; cases hc
    | some s =>
      rw [hs] at hc
      cases hc
      have hfit := CMD.frameLength_lt hb
      rw [frameLength_entry ht] at hfit
      obtain ⟨hatime, hmtime, hctime⟩ := times_of_toBytes hb
      exact ⟨⟨s, hs, hfit⟩, hatime, hmtime, hctime⟩
  · rintro ⟨⟨s, hs, hfit⟩, hatime, hmtime, hctime⟩
    rw [hs]
    have hsize' : 0 ≤ (if is_dir then 0 else stat.st_size) ∧ (if is_dir then 0 else stat.st_size) < 256 ^ 8 := by
      cases is_dir
      · exact hsize
      · exact ⟨le_refl 0, show (0 : Int) < 256 ^ 8 by decide⟩
    have hw : ∀ f ∈ (CMD.FILEENTRY (entry token path s is_dir stat)).fields, f.InWidth := by
      simp only [CMD.fields, WSNFileEntry.fields, entry, List.forall_mem_cons]
      exact ⟨rfl, trivial, trivial, rfl, hsize', hatime, hmtime, hctime, fun _ h => absurd h List.not_mem_nil⟩
    obtain ⟨b, hb⟩ := CMD.toBytes_of_fits hw (by rw [frameLength_entry ht]; exact hfit)
    exact ⟨_, b, rfl, hb⟩

/-! ### The loops -/

section Loop
variable {os : FileSystem σ φ} {outcome : PyText → Except String Stat}
  (hstat : ∀ p w, ((os.stat p).exec w).1 = outcome p) (hsend : ∀ b w, ((os.send b).exec w).1 = .ok ())

include hstat in
theorem statEntry_exec (p : PyText) (s : FileState σ φ) : ∃ world log,
    (os.statEntry p).exec s = (.ok (numbers (outcome p)), { s with world, log }) := by
  have hp := hstat p s.world
  rw [statEntry, Exec.tryCatch_exec]
  simp only [call, Exec.ofFun_exec]
  cases hx : (os.stat p).exec s.world with
  | mk r world =>
    rw [hx] at hp
    cases r with
    | ok stat => exact ⟨world, _, by rw [← hp]; rfl⟩
    | error exc => exact ⟨world, _, by rw [← hp]; rfl⟩

include hsend in
/-- A message is sent exactly when it can be encoded. -/
theorem send_data_ok {reply : Except PyErr CMD} {c : CMD} {b : Bytes} (hc : reply = .ok c) (hb : c.toBytes = .ok b)
    (s : FileState σ φ) : ∃ world, (os.send_data reply).exec s = (.ok (), { s with world, sent := s.sent ++ [c] }) := by
  have hr : (reply.bind fun c => c.toBytes.map (c, ·)) = .ok (c, b) := by
    rw [hc]
    simp only [Except.bind, hb, Except.map]
  have hs := hsend b s.world
  simp only [send_data, Exec.ofFun_exec, hr]
  cases hx : (os.send b).exec s.world with
  | mk r world =>
    rw [hx] at hs
    cases hs
    exact ⟨world, rfl⟩

theorem send_data_error (os : FileSystem σ φ) {reply : Except PyErr CMD}
    (h : ¬ ∃ c b, reply = .ok c ∧ c.toBytes = .ok b) (s : FileState σ φ) :
    ∃ exc, (os.send_data reply).exec s = (.error exc, { s with failed := true }) := by
  cases hr : reply.bind fun c => c.toBytes.map (c, ·) with
  | error e => exact ⟨os.format_exc e, by simp only [send_data, Exec.ofFun_exec, hr]⟩
  | ok r =>
    obtain ⟨c, hc, hb⟩ := except_bind_eq_ok.1 hr
    obtain ⟨b, hb, -⟩ := except_map_eq_ok.1 hb
    exact absurd ⟨c, b, hc, hb⟩ h

/-- The entry that is to be sent for a name. -/
def nameEntry (os : FileSystem σ φ) (outcome : PyText → Except String Stat) (token : Bytes) (path : String)
    (is_dir : Bool)
    (name : PyText) : Except PyErr CMD :=
  fileEntry token (.ofString path) name is_dir (numbers (outcome (os.join (.ofString path) name)))

include hstat hsend in
/-- Either every entry of a loop is sent, or the loop ends with an exception before the last is. -/
theorem forEach_sendEntry (token : Bytes) (path : String) (is_dir : Bool) (names : List PyText) (s : FileState σ φ) :
    ((∀ n ∈ names, ∃ c b, nameEntry os outcome token path is_dir n = .ok c ∧ c.toBytes = .ok b) ∧
        ∃ s' cmds, (Exec.forEach (os.sendEntry token (.ofString path) is_dir) names).exec s = (.ok (), s') ∧
          s'.sent = s.sent ++ cmds ∧ cmds.map .ok = names.map (nameEntry os outcome token path is_dir)) ∨
      (¬ ∀ n ∈ names, ∃ c b, nameEntry os outcome token path is_dir n = .ok c ∧ c.toBytes = .ok b) ∧
        ∃ exc s', (Exec.forEach (os.sendEntry token (.ofString path) is_dir) names).exec s = (.error exc, s') ∧
          s'.sent.length < s.sent.length + names.length := by
  induction names generalizing s with
  | nil => exact .inl ⟨fun _ h => absurd h List.not_mem_nil, s, [], rfl, by simp, rfl⟩
  | cons n names ih =>
    obtain ⟨w, log, hnumbers⟩ := statEntry_exec hstat (os.join (.ofString path) n) s
    have hfirst : (os.sendEntry token (.ofString path) is_dir n).exec s =
        (os.send_data (nameEntry os outcome token path is_dir n)).exec { s with world := w, log } := by
      rw [sendEntry, Exec.bind_exec, hnumbers]
      rfl
    rw [List.forall_mem_cons]
    by_cases h : ∃ c b, nameEntry os outcome token path is_dir n = .ok c ∧ c.toBytes = .ok b
    · obtain ⟨c, b, hc, hb⟩ := h
      obtain ⟨world, hx⟩ := send_data_ok hsend hc hb { s with world := w, log }
      rw [Exec.forEach, Exec.bind_of_ok (hfirst.trans hx)]
      rcases ih { s with world, log, sent := s.sent ++ [c] } with ⟨hall, s', cmds, hrun, hsent, hmap⟩ |
        ⟨hnot, exc, s', hrun, hlt⟩
      · refine .inl ⟨⟨⟨c, b, hc, hb⟩, hall⟩, s', c :: cmds, hrun, ?_, ?_⟩
        · rw [hsent, List.append_assoc, List.singleton_append]
        · rw [List.map_cons, List.map_cons, hmap, hc]
      · refine .inr ⟨fun h => hnot h.2, exc, s', hrun, ?_⟩
        rw [List.length_append, List.length_singleton] at hlt
        rw [List.length_cons]
        omega
    · obtain ⟨exc, hx⟩ := send_data_error os h { s with world := w, log }
      rw [Exec.forEach, Exec.bind_of_error (hfirst.trans hx)]
      exact .inr ⟨fun h' => h h'.1, exc, _, rfl, Nat.lt_add_of_pos_right (Nat.succ_pos _)⟩

/-- The entries that are to be sent for a directory, files first. -/
def listing (os : FileSystem σ φ) (outcome : PyText → Except String Stat) (token : Bytes) (path : String)
    (dirs files : List PyText) : List (Except PyErr CMD) :=
  files.map (nameEntry os outcome token path false) ++ dirs.map (nameEntry os outcome token path true)

/-- All entries can be encoded. -/
def AllEncode (rs : List (Except PyErr CMD)) : Prop := ∀ r ∈ rs, ∃ m b, r = .ok m ∧ m.toBytes = .ok b

/-- The iteration ends behind the triple of the directory itself: the next one is another's, or there is none. -/
def EndsWalk (path : String) (rest : List WalkEntry) (raised : Option String) : Prop :=
  rest = [] ∧ raised = none ∨ ∃ e es, rest = e :: es ∧ e.root ≠ .ofString path

theorem walkLoop_rest {token : Bytes} {path : String} {rest : List WalkEntry} {raised : Option String}
    (h : EndsWalk path rest raised) (s : FileState σ φ) :
    (os.walkLoop token path raised rest).exec s = (.ok (), s) := by
  rcases h with ⟨rfl, rfl⟩ | ⟨e, es, rfl, hroot⟩
  · rfl
  · rw [walkLoop, if_pos hroot]
    rfl

include hstat hsend in
theorem walkLoop_exec (token : Bytes) {path : String} {rest : List WalkEntry} {raised : Option String}
    (hrest : EndsWalk path rest raised) (dirs files : List PyText) (s : FileState σ φ) :
    (AllEncode (os.listing outcome token path dirs files) ∧
        ∃ s' cmds, (os.walkLoop token path raised (⟨.ofString path, dirs, files⟩ :: rest)).exec s = (.ok (), s') ∧
          s'.sent = s.sent ++ cmds ∧ cmds.map .ok = os.listing outcome token path dirs files) ∨
      (¬ AllEncode (os.listing outcome token path dirs files) ∧
        ∃ exc s', (os.walkLoop token path raised (⟨.ofString path, dirs, files⟩ :: rest)).exec s = (.error exc, s') ∧
          s'.sent.length < s.sent.length + (files.length + dirs.length)) := by
  have hall : AllEncode (os.listing outcome token path dirs files) ↔
      (∀ n ∈ files, ∃ c b, nameEntry os outcome token path false n = .ok c ∧ c.toBytes = .ok b) ∧
        ∀ n ∈ dirs, ∃ c b, nameEntry os outcome token path true n = .ok c ∧ c.toBytes = .ok b := by
    simp only [AllEncode, listing, List.forall_mem_append, List.forall_mem_map]
  rw [hall, walkLoop, if_neg (not_not.2 rfl)]
  rcases forEach_sendEntry hstat hsend token path false files s with ⟨hf, s₁, c₁, h₁, hs₁, hm₁⟩ | ⟨hf, exc, s₁, h₁, hlt⟩
  · rw [Exec.bind_of_ok h₁]
    rcases forEach_sendEntry hstat hsend token path true dirs s₁ with ⟨hd, s₂, c₂, h₂, hs₂, hm₂⟩ |
      ⟨hd, exc, s₂, h₂, hlt⟩
    · rw [Exec.bind_of_ok h₂]
      refine .inl ⟨⟨hf, hd⟩, s₂, c₁ ++ c₂, walkLoop_rest hrest s₂, ?_, ?_⟩
      · rw [hs₂, hs₁, List.append_assoc]
      · rw [List.map_append, hm₁, hm₂, listing]
    · rw [Exec.bind_of_error h₂]
      refine .inr ⟨fun h => hd h.2, exc, s₂, rfl, ?_⟩
      have hlen : c₁.length = files.length := by simpa using congrArg List.length hm₁
      rw [hs₁, List.length_append] at hlt
      omega
  · rw [Exec.bind_of_error h₁]
    exact .inr ⟨fun h => hf h.1, exc, s₁, rfl, by omega⟩

include hsend in
/-- At most one message more is sent, whether it can be encoded or not. -/
theorem length_send_data_le (c : CMD) (s : FileState σ φ) :
    ((os.send_data (.ok c)).exec s).2.sent.length ≤ s.sent.length + 1 := by
  by_cases h : ∃ m b, (.ok c : Except PyErr CMD) = .ok m ∧ m.toBytes = .ok b
  · obtain ⟨m, b, hm, hb⟩ := h
    obtain ⟨world, hx⟩ := send_data_ok hsend hm hb s
    rw [hx, List.length_append, List.length_singleton]
  · obtain ⟨exc, hx⟩ := send_data_error os h s
    rw [hx]
    exact Nat.le_succ _

include hsend in
theorem length_send_err_le (full : Bool) (cmd : CMD) (reason exc : String) (s : FileState σ φ) :
    ((os.send_err full cmd reason exc).exec s).2.sent.length ≤ s.sent.length + 1 := by
  rw [send_err]
  exact length_send_data_le hsend _ s

theorem toBytes_okReply {token : Bytes} (ht : token.length = 16) : ∃ b, (okReply token).toBytes = .ok b := by
  refine CMD.toBytes_of_fits (fun f hf => ?_) ?_
  · simp only [okReply, CMD.fields, MsgCmd.fields, List.mem_cons, List.not_mem_nil, or_false] at hf
    rcases hf with rfl | rfl
    · rfl
    · trivial
  · simp [okReply, CMD.frameLength, CMD.fields, MsgCmd.fields, Field.size, encode, ht]

include hsend in
theorem send_ok_exec {cmd : CMD} (ht : cmd.token.length = 16) (s : FileState σ φ) :
    ∃ world, (os.send_ok cmd).exec s = (.ok (), { s with world, sent := s.sent ++ [okReply cmd.token] }) := by
  obtain ⟨b, hb⟩ := toBytes_okReply ht
  exact send_data_ok hsend rfl hb s

theorem process_fileop_dirls (os : FileSystem σ φ) (full : Bool) (c : WSNDirLS) : ∃ reason,
    os.process_fileop full (.DIRLS c) = tryCatch (os.dirLs c) fun exc => os.send_err full (.DIRLS c) reason exc :=
  ⟨_, rfl⟩

include hstat hsend in
/-- A directory is listed, followed by `OK`, if every entry can be encoded; otherwise fewer messages are sent. -/
theorem dirls_exec {c : WSNDirLS} (ht : c.token.length = 16) (full : Bool) {world : σ} {dirs files : List PyText}
    {rest : List WalkEntry} {raised : Option String}
    (hwalk : ∃ w, (os.walk c.path).exec world = (.ok (⟨.ofString c.path, dirs, files⟩ :: rest, raised), w))
    (hrest : EndsWalk c.path rest raised) (fq : Dict Bytes φ) :
    (AllEncode (os.listing outcome c.token c.path dirs files) ∧
        ∃ cmds, ((os.process_fileop full (.DIRLS c)).exec (.start world fq)).2.sent = cmds ++ [okReply c.token] ∧
          cmds.map .ok = os.listing outcome c.token c.path dirs files) ∨
      (¬ AllEncode (os.listing outcome c.token c.path dirs files) ∧
        ((os.process_fileop full (.DIRLS c)).exec (.start world fq)).2.sent.length ≤ files.length + dirs.length) := by
  obtain ⟨w, hwalk⟩ := hwalk
  have hcall : (call .walk (os.walk c.path)).exec (.start world fq) =
      (.ok (⟨.ofString c.path, dirs, files⟩ :: rest, raised), ⟨w, fq, [], false, [(.walk, false)]⟩) := by
    simp only [call, Exec.ofFun_exec, FileState.start, hwalk, List.nil_append]
  have hdirs : (os.dirLs c).exec (.start world fq) =
      (do os.walkLoop c.token c.path raised (⟨.ofString c.path, dirs, files⟩ :: rest); os.send_ok (.DIRLS c)).exec
        ⟨w, fq, [], false, [(.walk, false)]⟩ := by
    rw [dirLs, Exec.bind_of_ok hcall]
  obtain ⟨reason, hprocess⟩ := process_fileop_dirls os full c
  rw [hprocess]
  rcases walkLoop_exec hstat hsend c.token hrest dirs files ⟨w, fq, [], false, [(.walk, false)]⟩
    with ⟨hall, s, cmds, hx, hsent, hmap⟩ | ⟨hnot, exc, s, hx, hlt⟩
  · obtain ⟨world', hok⟩ := send_ok_exec hsend (show (CMD.DIRLS c).token.length = 16 from ht) s
    refine .inl ⟨hall, cmds, ?_, hmap⟩
    rw [Exec.tryCatch_of_ok (hdirs.trans ((Exec.bind_of_ok hx _).trans hok)), hsent]
    rfl
  · refine .inr ⟨hnot, ?_⟩
    rw [Exec.tryCatch_of_error (hdirs.trans (Exec.bind_of_error hx _))]
    have herr := length_send_err_le hsend full (.DIRLS c) reason exc s
    rw [List.length_nil] at hlt
    omega

theorem allEncode_listing_iff {token : Bytes} (ht : token.length = 16) (path : String) (dirs files : List PyText)
    (hsize : ∀ p stat, outcome p = .ok stat → 0 ≤ stat.st_size ∧ stat.st_size < 2 ^ 64) :
    AllEncode (os.listing outcome token path dirs files) ↔
      ∀ n ∈ files ++ dirs, Sendable path n (numbers (outcome (os.join (.ofString path) n))) := by
  have hnumbers : ∀ p, 0 ≤ (numbers (outcome p)).st_size ∧ (numbers (outcome p)).st_size < 2 ^ 64 := by
    intro p
    cases hp : outcome p with
    | ok stat => exact hsize p stat hp
    | error exc => exact ⟨le_refl 0, show (0 : Int) < 2 ^ 64 by decide⟩
  simp only [AllEncode, listing, List.forall_mem_append, List.forall_mem_map, nameEntry,
    sendable_iff ht path _ _ (hnumbers _)]

include hstat hsend in
/-- Every entry of a directory is sent, files first, followed by `OK`, exactly when every name is a text and every
time is an unsigned number of eight bytes. -/
theorem listed_iff (hsize : ∀ p stat, outcome p = .ok stat → 0 ≤ stat.st_size ∧ stat.st_size < 2 ^ 64) {c : WSNDirLS}
    (ht : c.token.length = 16) (full : Bool) {world : σ} {dirs files : List PyText} {rest : List WalkEntry}
    {raised : Option String}
    (hwalk : ∃ w, (os.walk c.path).exec world = (.ok (⟨.ofString c.path, dirs, files⟩ :: rest, raised), w))
    (hrest : EndsWalk c.path rest raised) (fq : Dict Bytes φ) :
    (∃ cmds, ((os.process_fileop full (.DIRLS c)).exec (.start world fq)).2.sent = cmds ++ [okReply c.token] ∧
        cmds.map .ok = os.listing outcome c.token c.path dirs files) ↔
      ∀ n ∈ files ++ dirs, Sendable c.path n (numbers (outcome (os.join (.ofString c.path) n))) := by
  rw [← allEncode_listing_iff ht c.path dirs files hsize]
  rcases dirls_exec hstat hsend ht full hwalk hrest fq with ⟨hall, hsent⟩ | ⟨hnot, hle⟩
  · exact ⟨fun _ => hall, fun _ => hsent⟩
  · refine ⟨fun ⟨cmds, hsent, hmap⟩ => ?_, fun h => absurd h hnot⟩
    have hlen : cmds.length = files.length + dirs.length := by simpa [listing] using congrArg List.length hmap
    rw [hsent, List.length_append, List.length_singleton] at hle
    omega

end Loop

/-- `os.stat` raises for `/tmp/a` alone. -/
def shareOutcome (p : PyText) : Except String Stat :=
  if p = .ofString "/tmp/a" then .error "PermissionError" else .ok ⟨1, 2, 3, 4⟩

/-- Each directory has a folder and two files, and the folder comes behind it in a walk. -/
def share : FileSystem Unit Unit :=
  { idle false with
    walk := fun path => pure ([⟨.ofString path, [.ofString "d"], [.ofString "a", .ofString "é"]⟩,
      ⟨.ofString path ++ .ofString "/d", [], []⟩], none)
    stat := fun p => match shareOutcome p with
      | .ok stat => pure stat
      | .error exc => throw exc }

theorem listed_iff_share :
    (∃ cmds, ((share.process_fileop true (.DIRLS ⟨List.replicate 16 1, "/tmp"⟩)).exec
        (.start () Dict.empty)).2.sent = cmds ++ [okReply (List.replicate 16 1)] ∧
        cmds.map .ok = share.listing shareOutcome (List.replicate 16 1) "/tmp" [.ofString "d"]
          [.ofString "a", .ofString "é"]) ↔
      ∀ n ∈ [PyText.ofString "a", PyText.ofString "é"] ++ [PyText.ofString "d"],
        Sendable "/tmp" n (numbers (shareOutcome (share.join (.ofString "/tmp") n))) := by
  have hstat : ∀ p w, ((share.stat p).exec w).1 = shareOutcome p := by
    intro p w
    simp only [share]
    cases shareOutcome p <;> rfl
  have hsize : ∀ p stat, shareOutcome p = .ok stat → 0 ≤ stat.st_size ∧ stat.st_size < 2 ^ 64 := by
    intro p stat h
    unfold shareOutcome at h
    split at h
    · cases h
    · cases h
      decide
  exact listed_iff hstat (fun _ _ => rfl) hsize (c := ⟨List.replicate 16 1, "/tmp"⟩) rfl true ⟨(), rfl⟩
    (.inr ⟨_, [], rfl, by decide⟩) Dict.empty

/-- A file that was last read a nanosecond before 1970 ends the listing of its directory with an `ERR`. -/
theorem not_listed : ¬ ∀ (os : FileSystem Unit Unit) (outcome : PyText → Except String Stat),
    (∀ p w, ((os.stat p).exec w).1 = outcome p) → (∀ b w, ((os.send b).exec w).1 = .ok ()) →
    (∀ p stat, outcome p = .ok stat → 0 ≤ stat.st_size ∧ stat.st_size < 2 ^ 64) →
    ∀ (c : WSNDirLS), c.token.length = 16 →
    ∀ (full : Bool) (dirs files : List PyText),
    (∃ w, (os.walk c.path).exec () = (.ok ([⟨.ofString c.path, dirs, files⟩], none), w)) →
    ∃ cmds, ((os.process_fileop full (.DIRLS c)).exec (.start () Dict.empty)).2.sent = cmds ++ [okReply c.token] ∧
      cmds.map .ok = os.listing outcome c.token c.path dirs files := by
  intro h
  obtain ⟨cmds, hsent, -⟩ := h { idle false with stat := fun _ => pure ⟨1, -1, 3, 4⟩ } (fun _ => .ok ⟨1, -1, 3, 4⟩)
    (fun _ _ => rfl) (fun _ _ => rfl) (fun _ _ h => by cases h; decide)
    ⟨List.replicate 16 1, "/tmp"⟩ rfl true [] [.ofString "a"]
    ⟨(), rfl⟩
  have herr : ((FileSystem.process_fileop { idle false with stat := fun _ => pure ⟨1, -1, 3, 4⟩ } true
      (.DIRLS ⟨List.replicate 16 1, "/tmp"⟩)).exec (.start () Dict.empty)).2.sent.getLast?.map CMD.type =
      some .ERR := by
    decide +kernel
  rw [hsent, List.getLast?_concat] at herr
  cases herr

end FileSystem

end Wsnet
