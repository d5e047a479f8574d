import Wsnet.Protocol.RoundTrip
import Wsnet.Lib.IpText

/-!
# What every frame keeps

The readers of some classes do not invert their writers, but all of them read the token first, behind
a type number that is always kept. An `SDSRV` keeps all that the two ends of a connection look at, its
tokens and its data; the frame of a `CONNECT`, when it can be read at all, keeps the token, the protocol
and the bind flag, which come before the address.
-/

namespace Wsnet

/-- Whatever `p` returns, `g` of it is `t`. -/
def Yields {α β : Type} (p : Buf α) (g : α → β) (t : β) : Prop := ∀ b r, p b = .ok r → g r.1 = t

namespace Yields
variable {α β γ : Type} {p : Buf α} {f : α → Buf γ} {t : β}

protected theorem pure {a : α} {g : α → β} (h : g a = t) : Yields (pure a) g t := by
  intro b r hr
  cases hr
  exact h

protected theorem bind {g : γ → β} (h : ∀ a, Yields (f a) g t) : Yields (p >>= f) g t := by
  intro b r hr
  rw [Buf.bind_run] at hr
  cases hp : p b with
  | error e => rw [hp] at hr; cases hr
  | ok x => rw [hp] at hr; exact h x.1 x.2 r hr

end Yields

namespace CMD
variable {c c' : CMD} {t : CMDType} {b d rest : Bytes}

/-- A reader that takes the token and goes on. -/
theorem token_of_bind {α : Type} {k : Bytes → Buf α} {g : α → CMD}
    (hk : ∀ tok, Yields (k tok) (fun a => (g a).token) tok)
    (h : (g <$> (Buf.read 16 >>= k)) b = .ok (c, rest)) : c.token = b.take 16 := by
  rw [Buf.map_run] at h
  obtain ⟨r, hr, hg⟩ := except_map_eq_ok.1 h
  cases hg
  exact hk _ _ _ hr

theorem token_of_type2cmd (h : type2cmd t b = .ok (c, rest)) : c.token = b.take 16 := by
  cases t with
  | DISCONNECT => cases h
  | _ =>
    refine token_of_bind (fun tok => ?_) h
    repeat first | exact .pure rfl | refine .bind fun _ => ?_

theorem fromBytes_eq_ok : fromBytes d = .ok c ↔
    ∃ t rest, CMDType.ofValue (beNat ((d.drop 4).take 2)) = .ok t ∧ type2cmd t (d.drop 6) = .ok (c, rest) := by
  rw [fromBytes, except_map_eq_ok, fromBuffer_eq]
  constructor
  · rintro ⟨r, hr, rfl⟩
    obtain ⟨t, ht, h⟩ := except_bind_eq_ok.1 hr
    exact ⟨t, r.2, ht, h⟩
  · rintro ⟨t, rest, ht, h⟩
    exact ⟨(c, rest), by rw [ht]; exact h, rfl⟩

/-- The token is behind the length and the type, whatever the message is. -/
theorem token_of_fromBytes (h : fromBytes d = .ok c) : c.token = (d.drop 6).take 16 := by
  obtain ⟨t, rest, -, h⟩ := fromBytes_eq_ok.1 h
  exact token_of_type2cmd h

section Frame
variable (h : c.toBytes = .ok b)
include h

/-- A frame has the type of its command, whatever else is read from it. -/
theorem type_of_fromBytes (h' : fromBytes b = .ok c') : c'.type = c.type := by
  obtain ⟨body, -, -, rfl⟩ := toBytes_eq_ok.1 h
  rw [fromBytes, fromBuffer_run (length_beBytes ..)] at h'
  obtain ⟨r, hr, rfl⟩ := except_map_eq_ok.1 h'
  exact type_of_type2cmd hr

theorem token_of_frame (ht : c.token.length = 16) (h' : fromBytes b = .ok c') : c'.token = c.token := by
  rw [token_of_fromBytes h', token_slice h ht]

end Frame

/-! ### Addresses -/

/-- What an address is read back as. -/
def decodedAddress (ip : String) : String :=
  match ipAddress ip with
  | .ok a => a.unscoped.str
  | .error _ => ip

/-- A packed address is read back without its scope id, whatever stands for the length of a text. -/
theorem reads_packed {ip : String} {a : IPAddress} (h : ipAddress ip = .ok a) (n : Nat) (unknown : Bytes → PyErr) :
    Codes (writeFields (addressParts ip n)) (readAddress unknown) a.unscoped.str := by
  have hpacked : ∀ n, a.packed.length = n → Reads (readPackedIp n) a.packed a.unscoped.str := by
    intro n hn
    refine (reads_read hn).bind_left ?_
    rw [ipOfPacked_packed]
    exact reads_ofExcept _
  intro bs hbs
  rw [addressParts, h] at hbs
  cases a with
  | v4 a b c d =>
    obtain ⟨_, _, ⟨⟩, htail, rfl⟩ := concat_cons_eq_ok.1 hbs
    obtain ⟨_, _, ⟨⟩, ⟨⟩, rfl⟩ := concat_cons_eq_ok.1 htail
    simpa [readAddress] using (show Reads (Buf.read 1) [0x04] [0x04] from reads_read rfl).bind (hpacked 4 rfl)
  | v6 hextets len scopeId =>
    obtain ⟨_, _, ⟨⟩, htail, rfl⟩ := concat_cons_eq_ok.1 hbs
    obtain ⟨_, _, ⟨⟩, ⟨⟩, rfl⟩ := concat_cons_eq_ok.1 htail
    have hlen := IPAddress.length_packed_v6 hextets len scopeId
    simpa [readAddress] using (show Reads (Buf.read 1) [0x06] [0x06] from reads_read rfl).bind (hpacked 16 hlen)

theorem reads_address (ip : String) (unknown : Bytes → PyErr) :
    Codes (writeFields (addressParts ip (utf8Encode ip).length)) (readAddress unknown) (decodedAddress ip) := by
  unfold decodedAddress
  split
  · rename_i a ha
    exact reads_packed ha _ unknown
  · rename_i e he
    intro bs hbs
    rw [addressParts, he] at hbs
    obtain ⟨_, _, ⟨⟩, htail, rfl⟩ := concat_cons_eq_ok.1 hbs
    obtain ⟨l, _, hl, htext, rfl⟩ := concat_cons_eq_ok.1 htail
    obtain ⟨_, _, ⟨⟩, ⟨⟩, rfl⟩ := concat_cons_eq_ok.1 htext
    have hstr : writeStr ip = .ok (l ++ utf8Encode ip) := by
      have : (utf8Encode ip).length < 256 ^ 4 ∧ beBytes 4 (utf8Encode ip).length = l := lenToBytes_eq_ok.1 hl
      exact writeStr_eq_ok.2 ⟨this.1, by rw [← this.2]; rfl⟩
    have hread : Reads (readStr .utf8) (l ++ utf8Encode ip) ip := codes_str ip .utf8 _ hstr
    simpa [readAddress] using (show Reads (Buf.read 1) [0xFF] [0xFF] from reads_read rfl).bind hread

theorem writeFields_append {fs gs : List Field} :
    writeFields (fs ++ gs) = .ok b ↔ ∃ x y, writeFields fs = .ok x ∧ writeFields gs = .ok y ∧ b = x ++ y := by
  rw [writeFields, List.map_append, concat_append]
  change ((writeFields fs).bind fun b => (writeFields gs).map (b ++ ·)) = .ok b ↔ _
  cases writeFields fs <;> cases writeFields gs <;> simp [Except.bind, Except.map, eq_comm]

theorem fromBytes_SDSRV {c : WSNServerSocketData} (h : (SDSRV c).toBytes = .ok b) (ht : c.token.length = 16)
    (hct : c.connectiontoken.length = 16) :
    fromBytes b = .ok (SDSRV { c with clientip := decodedAddress c.clientip }) := by
  obtain ⟨body, hw, -, rfl⟩ := toBytes_eq_ok.1 h
  obtain ⟨front, tail, hfront, htail, rfl⟩ := writeFields_append.1 hw
  obtain ⟨tokens, address, htokens, haddress, rfl⟩ := writeFields_append.1 hfront
  obtain ⟨_, _, ⟨⟩, hrest, rfl⟩ := concat_cons_eq_ok.1 htokens
  obtain ⟨_, _, ⟨⟩, ⟨⟩, rfl⟩ := concat_cons_eq_ok.1 hrest
  obtain ⟨port, _, hport, hrest, rfl⟩ := concat_cons_eq_ok.1 htail
  obtain ⟨_, _, ⟨⟩, ⟨⟩, rfl⟩ := concat_cons_eq_ok.1 hrest
  have hrun : WSNServerSocketData.fromBuffer
      (c.token ++ (c.connectiontoken ++ (address ++ (port ++ c.data)))) = .ok
      ({ c with clientip := decodedAddress c.clientip }, []) := by
    rw [WSNServerSocketData.fromBuffer, Buf.bind_run, reads_read ht, Except.bind, Buf.bind_run, reads_read hct,
      Except.bind,
      Buf.bind_run, reads_address c.clientip _ address haddress, Except.bind, Buf.bind_run,
        codes_int c.clientport 2 port hport]
    rfl
  rw [fromBytes, fromBuffer_run (length_beBytes ..)]
  simp only [type, type2cmd, Buf.map_run, List.append_assoc, List.append_nil]
  rw [hrun]
  rfl

/-- The two ends of a connection of a server see the same tokens and the same data. -/
theorem fromBytes_of_toBytes_SDSRV {c : WSNServerSocketData} (h : (SDSRV c).toBytes = .ok b) (ht : c.token.length = 16)
    (hct : c.connectiontoken.length = 16) : ∃ clientip, fromBytes b = .ok (SDSRV { c with clientip }) :=
  ⟨_, fromBytes_SDSRV h ht hct⟩

theorem reads_readText {s : String} {n : Nat} (h : (utf8Encode s).length = n) :
    Reads (readText n) (utf8Encode s) s := by
  refine (reads_read h).bind_left ?_
  rw [utf8Decode_utf8Encode]
  exact reads_ofExcept s

theorem reads_readOrd {b : Bool} {flag : Bytes} (h : singleByte b.toInt = .ok flag) : Reads readOrd flag b := by
  intro rest
  cases b <;> cases h <;> rfl

/-- Which session is asked for, but for where it connects to: a frame that can be read at all tells. -/
theorem fromBytes_of_toBytes_CONNECT {c : WSNConnect} (h : (CONNECT c).toBytes = .ok b) (ht : c.token.length = 16)
    (hp : (utf8Encode c.protocol).length = 3) (hc : fromBytes b = .ok c') :
    ∃ c₁, c' = CONNECT c₁ ∧ c₁.token = c.token ∧ c₁.protocol = c.protocol ∧ c₁.bind = c.bind := by
  obtain ⟨body, hw, -, rfl⟩ := toBytes_eq_ok.1 h
  obtain ⟨front, tail, hfront, -, rfl⟩ := writeFields_append.1 hw
  obtain ⟨flags, address, hflags, -, rfl⟩ := writeFields_append.1 hfront
  obtain ⟨_, _, ⟨⟩, hrest, rfl⟩ := concat_cons_eq_ok.1 hflags
  obtain ⟨_, _, ⟨⟩, hrest', rfl⟩ := concat_cons_eq_ok.1 hrest
  obtain ⟨flag, _, hflag, ⟨⟩, rfl⟩ := concat_cons_eq_ok.1 hrest'
  rw [fromBytes, fromBuffer_run (length_beBytes ..)] at hc
  simp only [type, type2cmd, Buf.map_run, List.append_assoc, List.append_nil] at hc
  obtain ⟨r, hr, hc'⟩ := except_map_eq_ok.1 hc
  obtain ⟨r₁, hr₁, rfl⟩ := except_map_eq_ok.1 hr
  rw [WSNConnect.fromBuffer, Buf.bind_run, reads_read ht, Except.bind, Buf.bind_run, reads_readText hp, Except.bind,
    Buf.bind_run, reads_readOrd hflag, Except.bind] at hr₁
  have hkept : Yields (do
      let ip ← readAddress fun _ => .unboundLocalError
      let port ← readInt 2
      let bindtype ← readInt 1
      return ({ c with ip, port, bindtype } : WSNConnect)) (fun c => (c.token, c.protocol, c.bind))
        (c.token, c.protocol, c.bind) :=
    .bind fun _ => .bind fun _ => .bind fun _ => .pure rfl
  have := hkept _ _ hr₁
  simp only [Prod.mk.injEq] at this
  exact ⟨r₁.1, hc'.symm, this⟩

end CMD

end Wsnet
