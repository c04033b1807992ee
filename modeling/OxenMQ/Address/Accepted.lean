import OxenMQ.Address.Spec

/-!
# What an address looks like that has been read

`Address.Accepted` is what a user of an address may rely on when the constructor has accepted its
text: the pubkey has 32 bytes if there has to be one, the port is one, the host can be told from the
port, and a key at the end of a path is in one of the documented forms.

It holds with one exception.  At the end of a path the parser looks for base64 with 44 characters if
there is a `=` at the end, and `oxenc` takes that for base64 when there are two.  Then there are
only 42 digits, and the pubkey has 31 bytes (`accepted_iff`).  Behind a port there is no such case,
because the parser takes 43 characters there and then looks for a `=`.
-/

set_option autoImplicit false

namespace OxenMQ

namespace Control

namespace Address

variable {x : Oxenc} {a : Address} {qr : Bool} {addr : List Char}

/-- What may be expected of the address `a` that has been read from `text`: a pubkey of 32 bytes
where there is encryption and none elsewhere, a port and a host or a path, and behind `ipc+curve://`
a path and a key in a documented form. -/
structure Accepted (text : String) (a : Address) : Prop where
  pubkey : a.curve = true → IsPubkey a.pubkey.toList
  no_pubkey : a.curve = false → a.pubkey = ""
  port : a.tcp = true → 1 ≤ a.port ∧ a.port ≤ 65535
  host : a.tcp = true → a.host ≠ "" ∧ (':' ∉ a.host.toList ∨ Bracketed a.host.toList)
  socket : a.protocol = .ipc → a.socket ≠ ""
  key : a.protocol = .ipcCurve → ∃ key,
    text.toList = "ipc+curve://".toList ++ a.socket.toList ++ '/' :: key ∧ DocumentedKey key

/-- The text ends in two `=`. -/
def DoublePadded (text : String) : Prop := ['=', '='] <:+ text.toList

/-- The text begins with `ipc+curve://`. -/
def IpcCurveText (text : String) : Prop := "ipc+curve://".toList <+: text.toList

/-- The scheme decides on the protocol. -/
theorem IpcCurveText.protocol {text : String} {pro addr : List Char} {protocol : Proto}
    {qr : Bool} (h : IpcCurveText text) (hsplit : splitProtocol text.toList = some (pro, addr))
    (hpro : protocolOf (String.ofList pro) = some (protocol, qr)) : protocol = .ipcCurve := by
  obtain ⟨rest, hrest⟩ := h
  have hcolon : ':' ∉ "ipc+curve".toList := by decide
  have hsplit' : splitProtocol text.toList = some ("ipc+curve".toList, rest) := by
    rw [← hrest]
    exact splitProtocol_append hcolon rest
  cases hsplit.symm.trans hsplit'
  have hcurve : protocolOf (String.ofList "ipc+curve".toList) = some (.ipcCurve, false) := by decide
  cases hpro.symm.trans hcurve
  rfl

/-! ## The host -/

theorem eq_colon_of_toLower {c : Char} (h : c.toLower = ':') : c = ':' := by
  have halpha : c.isAlpha = false := by
    rw [← Char.isLower_toLower_eq_isAlpha, h]
    decide
  have hupper : ¬ c.isUpper = true := fun hu => by
    rw [Char.isAlpha, hu, Bool.true_or] at halpha
    cases halpha
  rwa [Char.toLower_eq_of_not_isUpper hupper] at h

theorem ipv6Char_toLower {c : Char} (h : ipv6Char c = true) : ipv6Char c.toLower = true := by
  have hall :
      (":.1234567890abcdefABCDEF".toList.all fun c => ipv6Char c.toLower) = true := by decide
  exact List.all_eq_true.1 hall c (of_decide_eq_true h)

/-- The host that is found may be put in lower case. -/
theorem host_of_parseHost {host rest : List Char} (h : parseHost addr qr = .ok (host, rest)) :
    let host := if qr then host.map Char.toLower else host
    host ≠ [] ∧ (':' ∉ host ∨ Bracketed host) := by
  rcases parseHost_ok h with ⟨_, inner, _, _, hinner, _, _, rfl⟩ | ⟨hplain, _⟩
  · cases qr with
    | false => exact ⟨by simp, Or.inr ⟨inner, rfl, hinner⟩⟩
    | true =>
      refine ⟨by simp, Or.inr ⟨inner.map Char.toLower, ?_, fun c hc => ?_⟩⟩
      · simp only [if_true, List.map_append, List.map_cons]
        rfl
      · obtain ⟨d, hd, rfl⟩ := List.mem_map.1 hc
        exact ipv6Char_toLower (hinner d hd)
  · cases qr with
    | false => exact ⟨hplain.ne_nil, Or.inl hplain.colon⟩
    | true =>
      refine ⟨fun hnil => hplain.ne_nil (List.map_eq_nil_iff.1 hnil), Or.inl fun hcolon => ?_⟩
      obtain ⟨c, hc, heq⟩ := List.mem_map.1 hcolon
      exact hplain.colon (eq_colon_of_toLower heq ▸ hc)

/-- An address with a host and a port is as expected. -/
theorem accepted_tcp (text : String) {protocol : Proto} (hp : ({ protocol } : Address).tcp = true)
    (h : parseAddr x protocol qr addr = .ok a) : Accepted text a := by
  obtain ⟨host, port, pk, htcp, rfl⟩ := (parseAddr_tcp_ok hp).1 h
  obtain ⟨host', rest₁, rest₂, hhost, rfl, hport, hpk⟩ := parseTcp_ok.1 htcp
  obtain ⟨_, _, _, _, _, _, hpos, hle⟩ := parsePort_ok.1 hport
  obtain ⟨_, hpubkey, hnone⟩ := parsePubkey_ok hpk
  obtain ⟨hne, hshape⟩ := host_of_parseHost hhost
  refine ⟨?_, fun hc => ?_, fun _ => ⟨hpos, hle⟩, fun _ => ⟨?_, ?_⟩, ?_, ?_⟩
  · intro hc
    rw [String.toList_ofList]
    exact hpubkey hc
  · dsimp only
    rw [hnone hc]
  · intro hempty
    rw [← String.toList_eq_nil_iff, String.toList_ofList] at hempty
    exact hne hempty
  · rw [String.toList_ofList]
    exact hshape
  · rintro rfl
    cases hp
  · rintro rfl
    cases hp

/-! ## The key at the end of a path -/

theorem protocolOf_ipcCurve {pro : String} (h : protocolOf pro = some (.ipcCurve, qr)) :
    pro = "ipc+curve" := by
  unfold protocolOf at h
  split_ifs at h with h₁ h₂ h₃ h₄
  all_goals cases h
  exact h₄

theorem equals_not_mem {k : ℕ} {al : Radix.Alphabet k} (hal : al.digit '=' = false) {s : List Char}
    (h : al.valid s = true) : '=' ∉ s := fun hmem =>
  Bool.false_ne_true (hal.symm.trans ((al.valid_iff.1 h).1 '=' hmem))

/-- A key in a documented form has at most one `=`. -/
theorem DocumentedKey.not_doublePadded {key : List Char} (h : DocumentedKey key) :
    ¬ ['=', '='] <:+ key := by
  intro hsuffix
  have hmem : '=' ∈ key := hsuffix.subset List.mem_cons_self
  rcases h with ⟨hhex, _⟩ | ⟨hbase32z, _⟩ | ⟨body, hbody, _, rfl | rfl⟩
  · exact equals_not_mem (by decide) hhex hmem
  · exact equals_not_mem (by decide) hbase32z hmem
  · exact equals_not_mem (by decide) hbody hmem
  · have hbody' : ['='] <:+ body :=
      ((List.suffix_append_inj_of_length_eq rfl).1 (show ['='] ++ ['='] <:+ _ from hsuffix)).1
    exact equals_not_mem (by decide) hbody (hbody'.subset List.mem_cons_self)

theorem DocumentedKey.two_le {key : List Char} (h : DocumentedKey key) : 2 ≤ key.length := by
  rcases h with ⟨_, hlen⟩ | ⟨_, hlen⟩ | ⟨body, _, hlen, rfl | rfl⟩
  · omega
  · omega
  · omega
  · rw [List.length_append]
    omega

/-- A path without a key is as expected, if there is one. -/
theorem accepted_ipc (text : String) (haddr : addr ≠ []) (h : parseAddr x .ipc qr addr = .ok a) :
    Accepted text a := by
  obtain ⟨path, pk, hunix, rfl⟩ := (parseAddr_ipc_ok rfl).1 h
  cases hunix
  refine ⟨(fun hc => by cases hc), fun _ => rfl, (fun ht => by cases ht), (fun ht => by cases ht),
    fun _ hempty => ?_, (fun hp => by cases hp)⟩
  rw [← String.toList_eq_nil_iff, String.toList_ofList] at hempty
  exact haddr hempty

/-- **What is read is as expected, but for a key with two `=`.** -/
theorem accepted_iff (x : Oxenc) {text : String} {a : Address} (h : parse x text = .ok a) :
    Accepted text a ↔ ¬ (IpcCurveText text ∧ DoublePadded text) := by
  obtain ⟨pro, addr, protocol, qr, hsplit, haddr, hpro, _, h⟩ := parse_ok h
  have htext := eq_of_splitProtocol hsplit
  cases protocol with
  | tcp | tcpCurve =>
    refine iff_of_true (accepted_tcp text rfl h) fun hbad => ?_
    cases hbad.1.protocol hsplit hpro
  | ipc =>
    refine iff_of_true (accepted_ipc text haddr h) fun hbad => ?_
    cases hbad.1.protocol hsplit hpro
  | ipcCurve =>
    obtain ⟨path, pk, hunix, rfl⟩ := (parseAddr_ipc_ok rfl).1 h
    obtain ⟨key, rfl, hkey⟩ := parseUnix_ok hunix
    have hpro' : pro = "ipc+curve".toList := by
      rw [← protocolOf_ipcCurve hpro, String.toList_ofList]
    have htext' : text.toList = "ipc+curve://".toList ++ path ++ '/' :: key := by
      rw [htext, hpro', List.append_assoc, List.append_assoc]
      rfl
    rcases hkey with ⟨hdoc, hpk⟩ | ⟨body, rfl, hbody, hlen, rfl⟩
    · refine iff_of_true ⟨fun _ => ?_, (fun hc => by cases hc), (fun ht => by cases ht),
        (fun ht => by cases ht), (fun hp => by cases hp), fun _ => ⟨key, ?_, hdoc⟩⟩ fun hbad => ?_
      · rwa [String.toList_ofList]
      · have hpath : (String.ofList path).toList = path := String.toList_ofList
        rw [hpath, htext']
      · refine hdoc.not_doublePadded (List.suffix_of_suffix_length_le hbad.2 ?_ hdoc.two_le)
        exact ⟨_, (List.append_cons _ _ _).symm.trans htext'.symm⟩
    · refine iff_of_false (fun hok => ?_) fun hgood =>
        hgood ⟨⟨_, (htext'.trans (List.append_assoc _ _ _)).symm⟩, ?_⟩
      · have hpk := (hok.pubkey rfl).1
        rw [String.toList_ofList, x.base64.length_decode body hbody, hlen] at hpk
        cases hpk
      · refine ⟨"ipc+curve://".toList ++ path ++ '/' :: body, ?_⟩
        rw [htext', List.append_assoc]
        rfl

/-- A path with a key in base64 that is followed by `padding`. -/
def base64Path (digits : ℕ) (padding : String) : String :=
  "ipc+curve:///tmp/node.sock/" ++ String.ofList (List.replicate digits 'A') ++ padding

/-- A key with one `=` is read as expected. -/
theorem accepted_base64Path : ∃ a, parse Oxenc.reference (base64Path 43 "=") = .ok a ∧
    a.curve = true ∧ IsPubkey a.pubkey.toList := by
  have hcurve : (parse Oxenc.reference (base64Path 43 "=")).toOption.map (·.curve) = some true := by
    decide +kernel
  have hpad : ¬ DoublePadded (base64Path 43 "=") := by
    unfold DoublePadded
    decide +kernel
  cases h : parse Oxenc.reference (base64Path 43 "=") with
  | error e =>
    rw [h] at hcurve
    cases hcurve
  | ok a =>
    rw [h] at hcurve
    have hcurve : a.curve = true := Option.some.inj hcurve
    exact ⟨a, rfl, hcurve, ((accepted_iff _ h).2 fun hbad => hpad hbad.2).pubkey hcurve⟩

/-- A key with two `=` is accepted, but it is one byte short. -/
theorem not_accepted_base64Path : ∃ a, parse Oxenc.reference (base64Path 42 "==") = .ok a ∧
    a.pubkey.toList.length = 31 ∧ ¬ Accepted (base64Path 42 "==") a := by
  have heval : (parse Oxenc.reference (base64Path 42 "==")).toOption.map
      (fun a => (a.curve, a.pubkey.toList.length)) = some (true, 31) := by
    decide +kernel
  cases h : parse Oxenc.reference (base64Path 42 "==") with
  | error e =>
    rw [h] at heval
    cases heval
  | ok a =>
    rw [h] at heval
    obtain ⟨hcurve, hlen⟩ := Prod.mk.inj (Option.some.inj heval)
    refine ⟨a, rfl, hlen, fun hok => ?_⟩
    have hpubkey := (hok.pubkey hcurve).1
    rw [hlen] at hpubkey
    cases hpubkey

end Address

end Control

end OxenMQ
