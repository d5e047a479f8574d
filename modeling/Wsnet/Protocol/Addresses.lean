import Wsnet.Protocol.Lossy

/-!
# Addresses on the wire

`WSNConnect` and `WSNServerSocketData` send the packed form of an IP literal, which has no room for a scope
id, and any other text as it is, `WSNConnect` behind its number of characters. `addresses_survive_iff` says
which addresses the other side gets: all but scoped ones in both messages, and of the texts that are no
literals only the ASCII ones in a `CONNECT`.
-/

namespace Wsnet
open CMD

/-- The literal of an address may come back spelled differently, any other text not. -/
def AddressKept (ip ip' : String) : Prop :=
  match ipAddress ip with
  | .ok a => ipAddress ip' = .ok a
  | .error _ => ip' = ip

/-- A literal. -/
def IsLiteral (ip : String) : Prop := ∃ a, ipAddress ip = .ok a

/-- A literal with a scope id. -/
def Scoped (ip : String) : Prop := ∃ hextets len z, ipAddress ip = .ok (.v6 hextets len (some z))

theorem IPAddress.unscoped_eq_iff {a : IPAddress} : a.unscoped = a ↔ ∀ hextets len z, a ≠ .v6 hextets len (some z) := by
  cases a with
  | v4 a b c d => simp [unscoped]
  | v6 hextets len scopeId => cases scopeId <;> simp [unscoped, len]

theorem ipAddress_str_unscoped (a : IPAddress) : ipAddress a.unscoped.str = .ok a.unscoped := by
  refine ipAddress_str ?_
  cases a <;> simp [IPAddress.unscoped]

/-- Only a scope id is lost in the packed form. -/
theorem addressKept_decodedAddress (ip : String) : AddressKept ip (decodedAddress ip) ↔ ¬ Scoped ip := by
  unfold AddressKept decodedAddress Scoped
  cases ipAddress ip with
  | error e => simp
  | ok a =>
    simp only [ipAddress_str_unscoped, Except.ok.injEq, IPAddress.unscoped_eq_iff, not_exists]

theorem not_scoped_of_not_isLiteral {ip : String} (h : ¬ IsLiteral ip) : ¬ Scoped ip :=
  fun ⟨_, _, _, hip⟩ => h ⟨_, hip⟩

/-- A `CONNECT` comes back with nothing lost but the spelling of its address. -/
def WSNConnect.Survives (c : WSNConnect) : Prop := ∃ b ip, (CMD.CONNECT c).toBytes = .ok b ∧
  CMD.fromBytes b = .ok (CMD.CONNECT { c with ip }) ∧ AddressKept c.ip ip

def WSNServerSocketData.Survives (c : WSNServerSocketData) : Prop := ∃ b clientip, (CMD.SDSRV c).toBytes = .ok b ∧
  CMD.fromBytes b = .ok (CMD.SDSRV { c with clientip }) ∧ AddressKept c.clientip clientip

/-! ### SDSRV -/

namespace CMD

theorem frameLength_SDSRV {c : WSNServerSocketData} (ht : c.token.length = 16) (hct : c.connectiontoken.length = 16) :
    (SDSRV c).frameLength = 40 + addressSize c.clientip + c.data.length := by
  simp only [frameLength, fields, WSNServerSocketData.fields, List.map_append, List.sum_append, size_addressParts,
    List.map_cons, List.map_nil, Field.size, List.sum_cons, List.sum_nil]
  omega

theorem SDSRV_survives_iff {c : WSNServerSocketData} (ht : c.token.length = 16) (hct : c.connectiontoken.length = 16)
    (hport : 0 ≤ c.clientport ∧ c.clientport < 2 ^ 16) :
    c.Survives ↔ ¬ Scoped c.clientip ∧ 40 + addressSize c.clientip + c.data.length < 2 ^ 32 := by
  rw [← frameLength_SDSRV ht hct]
  constructor
  · rintro ⟨b, ip, hb, hd, hkept⟩
    refine ⟨?_, frameLength_lt hb⟩
    rw [fromBytes_SDSRV hb ht hct] at hd
    have hip : decodedAddress c.clientip = ip := by simpa using hd
    rwa [← addressKept_decodedAddress, hip]
  · rintro ⟨hscope, hfit⟩
    have hw : ∀ f ∈ (SDSRV c).fields, f.InWidth := by
      intro f hf
      simp only [fields, WSNServerSocketData.fields, List.mem_append, List.mem_cons, List.not_mem_nil, or_false] at hf
      rcases hf with ((rfl | rfl) | hf) | rfl | rfl
      · rfl
      · rfl
      · rw [frameLength_SDSRV ht hct] at hfit
        exact inWidth_of_mem_addressParts (by omega) le_rfl hf
      · exact hport
      · rfl
    obtain ⟨b, hb⟩ := toBytes_of_fits hw hfit
    exact ⟨b, _, hb, fromBytes_SDSRV hb ht hct, (addressKept_decodedAddress _).2 hscope⟩

/-! ### CONNECT -/

theorem frameLength_CONNECT {c : WSNConnect} (ht : c.token.length = 16) (hp : (utf8Encode c.protocol).length = 3)
    (hbind : 0 ≤ c.bindtype ∧ c.bindtype < 256) : (CONNECT c).frameLength = 29 + addressSize c.ip := by
  have hflag : (Field.part (singleByte c.bind.toInt)).size = 1 := by cases c.bind <;> rfl
  have htype : (Field.part (singleByte c.bindtype)).size = 1 := by rw [singleByte, if_pos hbind]; rfl
  simp only [frameLength, fields, WSNConnect.fields, List.map_append, List.sum_append, size_addressParts, List.map_cons,
    List.map_nil, List.sum_cons, List.sum_nil, hflag, htype]
  simp only [Field.size]
  omega

theorem readAddress_text {c : WSNConnect} {e : PyErr} (he : ipAddress c.ip = .error e) {address : Bytes}
    (ha : writeFields (addressParts c.ip c.ip.length) = .ok address) (rest r : Bytes) :
    readAddress (fun _ => .unboundLocalError) (address ++ rest) = .ok (c.ip, r) ↔ Ascii c.ip ∧ r = rest := by
  rw [addressParts, he] at ha
  obtain ⟨_, text, ⟨⟩, htext, rfl⟩ := concat_cons_eq_ok.1 ha
  exact readStr_textParts htext rest r

section Connect
variable {c : WSNConnect} (ht : c.token.length = 16) (hp : (utf8Encode c.protocol).length = 3)
  (hport : 0 ≤ c.port ∧ c.port < 2 ^ 16) (hbind : 0 ≤ c.bindtype ∧ c.bindtype < 256)

/-- What follows the address. -/
def afterAddress (c : WSNConnect) : Bytes := beBytes 2 c.port.toNat ++ [UInt8.ofNat c.bindtype.toNat]

include ht hp hport hbind

/-- What the address is read as decides what the frame is read as. -/
theorem fromBytes_CONNECT {b : Bytes} (hb : (CONNECT c).toBytes = .ok b) :
    ∃ address, writeFields (addressParts c.ip c.ip.length) = .ok address ∧ ∀ ip,
      (readAddress (fun _ => .unboundLocalError) (address ++ afterAddress c) = .ok (ip, afterAddress c) →
        fromBytes b = .ok (CONNECT { c with ip })) ∧
      (fromBytes b = .ok (CONNECT { c with ip }) →
        ∃ rest, readAddress (fun _ => .unboundLocalError) (address ++ afterAddress c) = .ok (ip, rest)) := by
  obtain ⟨body, hw, -, rfl⟩ := toBytes_eq_ok.1 hb
  obtain ⟨front, tail, hfront, htail, rfl⟩ := writeFields_append.1 hw
  obtain ⟨flags, address, hflags, haddress, rfl⟩ := writeFields_append.1 hfront
  obtain ⟨_, _, ⟨⟩, hrest, rfl⟩ := concat_cons_eq_ok.1 hflags
  obtain ⟨_, _, ⟨⟩, hrest', rfl⟩ := concat_cons_eq_ok.1 hrest
  obtain ⟨flag, _, hflag, ⟨⟩, rfl⟩ := concat_cons_eq_ok.1 hrest'
  obtain ⟨port, _, hp', hrest, rfl⟩ := concat_cons_eq_ok.1 htail
  obtain ⟨bindtype, _, hb', ⟨⟩, rfl⟩ := concat_cons_eq_ok.1 hrest
  obtain ⟨-, rfl⟩ := intToBytes_eq_ok.1 hp'
  have hb'' : singleByte c.bindtype = .ok bindtype := hb'
  rw [singleByte, if_pos hbind] at hb''
  cases hb''
  have htype : intToBytes c.bindtype 1 = .ok [UInt8.ofNat c.bindtype.toNat] := intToBytes_eq_ok.2 ⟨by omega, rfl⟩
  refine ⟨address, haddress, fun ip => ?_⟩
  rw [fromBytes, fromBuffer_run (length_beBytes ..)]
  simp only [type, type2cmd, Buf.map_run, List.append_assoc, List.append_nil]
  rw [WSNConnect.fromBuffer, Buf.bind_run, reads_read ht, Except.bind, Buf.bind_run, reads_readText hp, Except.bind,
    Buf.bind_run, reads_readOrd hflag, Except.bind, Buf.bind_run, ← afterAddress]
  constructor
  · intro hread
    have htail : Reads (do
        let port ← readInt 2
        let bindtype ← readInt 1
        return ({ c with ip, port, bindtype } : WSNConnect)) (afterAddress c) { c with ip } :=
      (codes_int c.port 2 _ (intToBytes_eq_ok.2 ⟨hport, rfl⟩)).bind
      ((codes_int c.bindtype 1 _ htype).bind_left (.pure _))
    rw [hread]
    exact except_map_eq_ok.2 ⟨_, except_map_eq_ok.2 ⟨_, htail.run, rfl⟩, rfl⟩
  · intro hc
    cases hread : readAddress (fun _ => .unboundLocalError) (address ++ afterAddress c) with
    | error e =>
      rw [hread] at hc
      cases hc
    | ok r =>
      rw [hread] at hc
      obtain ⟨_, hr, hc⟩ := except_map_eq_ok.1 hc
      obtain ⟨r', hr', rfl⟩ := except_map_eq_ok.1 hr
      have hip : Yields (do
          let port ← readInt 2
          let bindtype ← readInt 1
          return ({ c with ip := r.1, port, bindtype } : WSNConnect)) (fun c => c.ip) r.1 :=
        .bind fun _ => .bind fun _ => .pure rfl
      have heq : r'.1 = { c with ip } := CONNECT.inj hc
      have := hip _ _ hr'
      rw [heq] at this
      exact ⟨r.2, by rw [show ip = r.1 from this]⟩

theorem CONNECT_survives_iff : c.Survives ↔
    ¬ Scoped c.ip ∧ (IsLiteral c.ip ∨ Ascii c.ip) ∧ 29 + addressSize c.ip < 2 ^ 32 := by
  rw [← frameLength_CONNECT ht hp hbind]
  constructor
  · rintro ⟨b, ip, hb, hd, hkept⟩
    obtain ⟨address, haddress, hiff⟩ := fromBytes_CONNECT ht hp hport hbind hb
    obtain ⟨rest, hread⟩ := (hiff ip).2 hd
    cases hip : ipAddress c.ip with
    | error e =>
      have hsame : ip = c.ip := by rwa [AddressKept, hip] at hkept
      rw [hsame] at hread
      have hnot : ¬ IsLiteral c.ip := fun ⟨a, ha⟩ => by cases ha.symm.trans hip
      exact ⟨not_scoped_of_not_isLiteral hnot, .inr ((readAddress_text hip haddress _ _).1 hread).1, frameLength_lt hb⟩
    | ok a =>
      have hdecoded : decodedAddress c.ip = ip := by
        rw [reads_packed hip _ _ address haddress] at hread
        rw [decodedAddress, hip]
        exact (Prod.mk.inj (Except.ok.inj hread)).1
      rw [← addressKept_decodedAddress, hdecoded]
      exact ⟨hkept, .inl ⟨a, hip⟩, frameLength_lt hb⟩
  · rintro ⟨hscope, hlit, hfit⟩
    have hw : ∀ f ∈ (CONNECT c).fields, f.InWidth := by
      intro f hf
      simp only [fields, WSNConnect.fields, List.mem_append, List.mem_cons, List.not_mem_nil, or_false] at hf
      rcases hf with ((rfl | rfl | rfl) | hf) | rfl | rfl
      · rfl
      · rfl
      · cases c.bind <;> rfl
      · rw [frameLength_CONNECT ht hp hbind] at hfit
        exact inWidth_of_mem_addressParts (by omega) (length_le_utf8Encode _) hf
      · exact hport
      · rw [Field.InWidth, singleByte, if_pos hbind]
        rfl
    obtain ⟨b, hb⟩ := toBytes_of_fits hw hfit
    obtain ⟨address, haddress, hiff⟩ := fromBytes_CONNECT ht hp hport hbind hb
    refine ⟨b, decodedAddress c.ip, hb, (hiff _).1 ?_, (addressKept_decodedAddress _).2 hscope⟩
    cases hip : ipAddress c.ip with
    | error e =>
      rw [decodedAddress, hip]
      exact (readAddress_text hip haddress _ _).2 ⟨hlit.resolve_left fun ⟨a, ha⟩ => (by cases ha.symm.trans hip), rfl⟩
    | ok a =>
      rw [decodedAddress, hip]
      exact reads_packed hip _ _ address haddress _

end Connect

/-- An address comes back from its frame exactly when it has no scope id and, in a `CONNECT`, is a literal or ASCII. -/
theorem addresses_survive_iff {c : WSNConnect} {d : WSNServerSocketData} (ht : c.token.length = 16)
    (hp : c.protocol.length = 3) (ha : Ascii c.protocol) (hport : 0 ≤ c.port ∧ c.port < 2 ^ 16)
    (hbind : 0 ≤ c.bindtype ∧ c.bindtype < 256) (hdt : d.token.length = 16) (hct : d.connectiontoken.length = 16)
    (hdport : 0 ≤ d.clientport ∧ d.clientport < 2 ^ 16) :
    (c.Survives ↔ ¬ Scoped c.ip ∧ (IsLiteral c.ip ∨ Ascii c.ip) ∧ 29 + addressSize c.ip < 2 ^ 32) ∧
      (d.Survives ↔ ¬ Scoped d.clientip ∧ 40 + addressSize d.clientip + d.data.length < 2 ^ 32) :=
  ⟨CONNECT_survives_iff ht (((length_utf8Encode_eq_iff _).2 ha).trans hp) hport hbind,
    SDSRV_survives_iff hdt hct hdport⟩

theorem addresses_survive_iff_localhost :
    ((WSNConnect.mk (List.replicate 16 1) "TCP" "localhost" 445 false 1).Survives ↔
        ¬ Scoped "localhost" ∧ (IsLiteral "localhost" ∨ Ascii "localhost") ∧ 29 + addressSize "localhost" < 2 ^ 32) ∧
      ((WSNServerSocketData.mk (List.replicate 16 1) (List.replicate 16 2) [1, 2] "::1" 80).Survives ↔
        ¬ Scoped "::1" ∧ 40 + addressSize "::1" + 2 < 2 ^ 32) :=
  addresses_survive_iff (c := ⟨List.replicate 16 1, "TCP", "localhost", 445, false, 1⟩)
    (d := ⟨List.replicate 16 1, List.replicate 16 2, [1, 2], "::1", 80⟩) rfl rfl (by decide) ⟨by decide, by decide⟩
    ⟨by decide, by decide⟩ rfl rfl ⟨by decide, by decide⟩

/-- A host name that is not ASCII is not read in a `CONNECT`, and a scoped peer of a datagram becomes another address. -/
theorem not_addresses_survive :
    (¬ ∀ c : WSNConnect, c.token.length = 16 → c.protocol.length = 3 → Ascii c.protocol →
      (0 ≤ c.port ∧ c.port < 2 ^ 16) → (0 ≤ c.bindtype ∧ c.bindtype < 256) → c.Survives) ∧
    ¬ ∀ d : WSNServerSocketData, d.token.length = 16 → d.connectiontoken.length = 16 →
      (0 ≤ d.clientport ∧ d.clientport < 2 ^ 16) → d.Survives := by
  constructor
  · intro h
    have hsurvives := h ⟨List.replicate 16 1, "TCP", "é", 445, false, 1⟩ rfl rfl (by decide) ⟨by decide, by decide⟩
      ⟨by decide, by decide⟩
    obtain ⟨-, ⟨a, ha⟩ | ha, -⟩ :=
      (CONNECT_survives_iff rfl rfl ⟨by decide, by decide⟩ ⟨by decide, by decide⟩).1 hsurvives
    · have : ipAddress "é" = .error .valueError := by decide +kernel
      cases ha.symm.trans this
    · revert ha
      decide
  · intro h
    have hsurvives := h ⟨List.replicate 16 1, List.replicate 16 2, [], "fe80::1%eth0", 53⟩ rfl rfl
      ⟨by decide, by decide⟩
    have hscope := ((SDSRV_survives_iff rfl rfl ⟨by decide, by decide⟩).1 hsurvives).1
    exact hscope ⟨[0xFE80, 0, 0, 0, 0, 0, 0, 1], rfl, "eth0", by decide +kernel⟩

end CMD

end Wsnet
