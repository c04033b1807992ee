import OxenMQ.Address.Spec

/-!
# Addresses are read back as they are written

`parse_fullAddress` and `parse_qrAddress`: the two texts of an address are read back as the address.

For a path with a key behind it this rests on the slash in between.  The parser looks for a key of
64, of 52 and of 43 characters at the end of the text, in this order, and takes the first that it
can read.  When it looks for a longer key than there is, it finds the slash among the characters of
the key, and there is no slash in hex or base32z.
-/

set_option autoImplicit false

namespace OxenMQ

namespace Control

namespace Address

variable {x : Oxenc} {a : Address}

/-- An address whose full address can be read back: its host is a bracketed IPv6 address or a name
without a colon, its port is one, its path is not empty, and its pubkey has 32 bytes. -/
structure WellFormed (a : Address) : Prop where
  host : a.tcp = true → Bracketed a.host.toList ∨ Plain a.host.toList
  port : a.tcp = true → 1 ≤ a.port ∧ a.port ≤ 65535
  socket : a.protocol = .ipc → a.socket ≠ ""
  pubkey : a.curve = true → IsPubkey a.pubkey.toList

/-- A text with a host and a port. -/
theorem parse_tcpText {text : String} {pro addr pk : List Char} {qr : Bool}
    (htext : text.toList = pro ++ "://".toList ++ addr) (hcolon : ':' ∉ pro) (haddr : addr ≠ [])
    (hpro : protocolOf (String.ofList pro) = some (a.protocol, qr))
    (hqr : qr = true → addr.all qrChar = true) (htcp : a.tcp = true)
    (hparse : parseTcp x addr qr a.curve = .ok (a.host.toList, a.port, pk, []))
    (hpk : a.curve = true → pk = a.pubkey.toList) :
    ∃ b, parse x text = .ok b ∧ b.eq a = true := by
  refine ⟨_, (parse_of_split htext hcolon haddr hpro hqr).trans
    ((parseAddr_tcp_ok htcp).2 ⟨_, _, _, hparse, rfl⟩), ?_⟩
  obtain ⟨protocol, host, port, socket, pubkey⟩ := a
  cases protocol with
  | tcp => simp [eq, tcp, curve]
  | tcpCurve => simp [eq, tcp, curve, hpk rfl]
  | ipc => cases htcp
  | ipcCurve => cases htcp

/-- A text with a path. -/
theorem parse_ipcText {text : String} {pro addr pk : List Char}
    (htext : text.toList = pro ++ "://".toList ++ addr) (hcolon : ':' ∉ pro) (haddr : addr ≠ [])
    (hpro : protocolOf (String.ofList pro) = some (a.protocol, false)) (htcp : a.tcp = false)
    (hparse : parseUnix x addr a.curve = .ok (a.socket.toList, pk))
    (hpk : a.curve = true → pk = a.pubkey.toList) :
    ∃ b, parse x text = .ok b ∧ b.eq a = true := by
  refine ⟨_, (parse_of_split htext hcolon haddr hpro nofun).trans
    ((parseAddr_ipc_ok htcp).2 ⟨_, _, hparse, rfl⟩), ?_⟩
  obtain ⟨protocol, host, port, socket, pubkey⟩ := a
  cases protocol with
  | tcp => cases htcp
  | tcpCurve => cases htcp
  | ipc => simp [eq, tcp, curve]
  | ipcCurve => simp [eq, tcp, curve, hpk rfl]

/-! ## The full address -/

theorem parseHost_wellFormed {host : List Char} (h : Bracketed host ∨ Plain host)
    (rest : List Char) : parseHost (host ++ ':' :: rest) false = .ok (host, ':' :: rest) := by
  rcases h with ⟨inner, rfl, hinner⟩ | h
  · rw [List.append_assoc]
    exact parseHost_bracketed (Or.inl rfl) hinner (Or.inl rfl) (':' :: rest)
  · exact parseHost_plain h (fun hq => by cases hq) rest

/-- The host and the port, followed by what may be a pubkey. -/
theorem parseTcp_wellFormed (h : a.WellFormed) (htcp : a.tcp = true) {tail pk : List Char}
    {curve : Bool} (hpk : parsePubkey x tail false curve = .ok (pk, []))
    (htail : ∀ c ∈ tail.head?, c.isDigit = false) :
    parseTcp x (a.host.toList ++ ':' :: Nat.toDigits 10 a.port ++ tail) false curve =
      .ok (a.host.toList, a.port, pk, []) := by
  obtain ⟨hpos, hle⟩ := h.port htcp
  rw [List.append_assoc]
  exact parseTcp_ok.2 ⟨_, _, tail, parseHost_wellFormed (h.host htcp) _, rfl,
    parsePort_toDigits hpos hle htail, hpk⟩

/-- **The full address is read back.** -/
theorem parse_fullAddress (x : Oxenc) {a : Address} (h : a.WellFormed) (enc : Encoding) :
    ∃ b, parse x (a.fullAddress x enc) = .ok b ∧ b.eq a = true := by
  have htext := toList_fullAddress x a enc
  obtain ⟨protocol, host, port, socket, pubkey⟩ := a
  cases protocol with
  | tcp =>
    have hpk : parsePubkey x [] false false = .ok ([], []) := rfl
    have htcp := parseTcp_wellFormed h rfl hpk (by simp)
    rw [List.append_nil] at htcp
    exact parse_tcpText htext (colon_notMem_fullScheme _)
      (by simp [fullBody]) rfl (by simp) rfl htcp
      fun hcurve => by cases hcurve
  | tcpCurve =>
    have hencodes := encodes_encodePubkey (x := x) (h.pubkey rfl) enc
    have hpk : parsePubkey x _ false true = _ := parsePubkey_encodes hencodes (by simp)
    have htcp := parseTcp_wellFormed h rfl hpk (by simp)
    exact parse_tcpText htext (colon_notMem_fullScheme _)
      (by simp [fullBody]) rfl (by simp) rfl htcp
      fun _ => rfl
  | ipc =>
    have hne : socket.toList ≠ [] := fun hnil => h.socket rfl (String.toList_eq_nil_iff.1 hnil)
    exact parse_ipcText htext
      (colon_notMem_fullScheme _) hne rfl rfl rfl fun hcurve => by cases hcurve
  | ipcCurve =>
    have hunix := parseUnix_encodes socket.toList (encodes_encodePubkey (x := x) (h.pubkey rfl) enc)
    exact parse_ipcText htext (colon_notMem_fullScheme _) (by simp [fullBody]) rfl rfl hunix
      fun _ => rfl

/-- 32 bytes that happen to be letters. -/
def somePubkey : String := String.ofList (List.replicate 32 'k')

theorem isPubkey_somePubkey : IsPubkey somePubkey.toList := by
  have hlist : somePubkey.toList = List.replicate 32 'k' := String.toList_ofList
  rw [hlist]
  refine ⟨List.length_replicate, fun c hc => ?_⟩
  rw [List.eq_of_mem_replicate hc]
  decide

/-- A path that ends in 64 hex digits, as if this were the key. -/
def keyLikePath : Address where
  protocol := .ipcCurve
  socket := "/run/" ++ String.ofList (List.replicate 64 'a')
  pubkey := somePubkey

theorem parse_fullAddress_keyLikePath :
    keyLikePath.WellFormed ∧
      ∃ b, parse .reference (keyLikePath.fullAddress .reference .base64) = .ok b ∧
        b.eq keyLikePath = true := by
  have h : keyLikePath.WellFormed :=
    ⟨(fun htcp => by cases htcp), (fun htcp => by cases htcp), (fun hp => by cases hp),
      fun _ => isPubkey_somePubkey⟩
  exact ⟨h, parse_fullAddress .reference h .base64⟩

/-! ## The address for a QR code -/

/-- The characters of a host name that can be put into a QR code. -/
def qrHostChar (c : Char) : Bool :=
  decide (c ∈ "abcdefghijklmnopqrstuvwxyz0123456789.-/$".toList)

/-- The characters of an IPv6 address in lower case. -/
def lowerIpv6Char (c : Char) : Bool := decide (c ∈ ":.0123456789abcdef".toList)

/-- A TCP address that survives the change to upper case in a QR code: its host has the characters
of such a code, in lower case and with no `$` in front, or is a bracketed IPv6 address in lower
case. -/
structure QrWellFormed (a : Address) : Prop where
  tcp : a.tcp = true
  host : (a.host ≠ "" ∧ (∀ c ∈ a.host.toList, qrHostChar c = true) ∧
    a.host.toList.head? ≠ some '$') ∨
    ∃ inner, a.host.toList = '[' :: inner ++ [']'] ∧ ∀ c ∈ inner, lowerIpv6Char c = true
  port : 1 ≤ a.port ∧ a.port ≤ 65535
  pubkey : a.curve = true → IsPubkey a.pubkey.toList

/-- What is in lower case comes back from upper case. -/
theorem toLower_toUpper {c : Char} (h : c.toLower = c) : c.toUpper.toLower = c := by
  rw [Char.toLower_toUpper_eq_toLower, h]

theorem eq_of_toUpper_eq {c d : Char} (hc : c.toLower = c) (hd : d.toLower = d)
    (h : c.toUpper = d) : c = d := by
  rw [← toLower_toUpper hc, h, hd]

theorem map_toLower_toUpper {l : List Char} (h : ∀ c ∈ l, c.toLower = c) :
    (l.map Char.toUpper).map Char.toLower = l := by
  rw [List.map_map]
  exact (List.map_congr_left fun c hc => toLower_toUpper (h c hc)).trans (List.map_id l)

theorem qrHostChar_spec {c : Char} (h : qrHostChar c = true) :
    c.toLower = c ∧ qrChar c.toUpper = true ∧ c ≠ ':' ∧ c ≠ '[' := by
  have hall : ("abcdefghijklmnopqrstuvwxyz0123456789.-/$".toList.all fun c =>
      decide (c.toLower = c ∧ qrChar c.toUpper = true ∧ c ≠ ':' ∧ c ≠ '[')) = true := by decide
  exact of_decide_eq_true (List.all_eq_true.1 hall c (of_decide_eq_true h))

theorem lowerIpv6Char_spec {c : Char} (h : lowerIpv6Char c = true) :
    c.toLower = c ∧ qrChar c.toUpper = true ∧ ipv6Char c.toUpper = true := by
  have hall : (":.0123456789abcdef".toList.all fun c =>
      decide (c.toLower = c ∧ qrChar c.toUpper = true ∧ ipv6Char c.toUpper = true)) = true := by
    decide
  exact of_decide_eq_true (List.all_eq_true.1 hall c (of_decide_eq_true h))

/-- The host in upper case, with the brackets replaced, is read back. -/
theorem parseHost_qrHost (h : a.QrWellFormed) (rest : List Char) :
    (∀ c ∈ qrHost a.host.toList, qrChar c = true) ∧
    ∃ host, parseHost (qrHost a.host.toList ++ ':' :: rest) true = .ok (host, ':' :: rest) ∧
      host.map Char.toLower = a.host.toList := by
  rcases h.host with ⟨hne, hchars, hfront⟩ | ⟨inner, heq, hinner⟩
  · have hlower : ∀ c ∈ a.host.toList, c.toLower = c :=
      fun c hc => (qrHostChar_spec (hchars c hc)).1
    obtain ⟨c, cs, hcons⟩ := List.exists_cons_of_ne_nil
      (fun hnil => hne (String.toList_eq_nil_iff.1 hnil))
    rw [hcons] at hchars hlower hfront ⊢
    have hc := qrHostChar_spec (hchars c List.mem_cons_self)
    have hbracket : c.toUpper ≠ '[' := fun heq => hc.2.2.2 (eq_of_toUpper_eq hc.1 (by decide) heq)
    have hdollar : c.toUpper ≠ '$' := fun heq =>
      hfront (congrArg some (eq_of_toUpper_eq hc.1 (by decide) heq))
    have hhost : qrHost (c :: cs) = (c :: cs).map Char.toUpper :=
      if_neg fun hb => hbracket (Option.some.inj hb.1)
    rw [hhost]
    refine ⟨fun d hd => ?_, _, parseHost_plain ⟨by simp, fun hcolon => ?_, ?_⟩ (fun _ => ?_) rest,
      map_toLower_toUpper hlower⟩
    · obtain ⟨e, he, rfl⟩ := List.mem_map.1 hd
      exact (qrHostChar_spec (hchars e he)).2.1
    · obtain ⟨e, he, hcolon⟩ := List.mem_map.1 hcolon
      exact (qrHostChar_spec (hchars e he)).2.2.1
        (eq_of_toUpper_eq (hlower e he) (by decide) hcolon)
    · exact fun heq => hbracket (Option.some.inj heq)
    · exact fun heq => hdollar (Option.some.inj heq)
  · have hhost : qrHost a.host.toList = '$' :: inner.map Char.toUpper ++ ['$'] := by
      have hupper : a.host.toList.map Char.toUpper = '[' :: inner.map Char.toUpper ++ [']'] := by
        rw [heq, List.map_append, List.map_cons]
        rfl
      unfold qrHost
      dsimp only
      rw [hupper, if_pos ⟨rfl, List.getLast?_concat⟩]
      show '$' :: (inner.map Char.toUpper ++ [']']).dropLast ++ ['$'] = _
      rw [List.dropLast_concat]
    have hlower : ∀ c ∈ inner, c.toLower = c := fun c hc => (lowerIpv6Char_spec (hinner c hc)).1
    have hupper : ∀ c ∈ inner.map Char.toUpper, qrChar c = true ∧ ipv6Char c = true := by
      intro d hd
      obtain ⟨c, hc, rfl⟩ := List.mem_map.1 hd
      exact (lowerIpv6Char_spec (hinner c hc)).2
    rw [hhost]
    refine ⟨fun c hc => ?_, '[' :: inner.map Char.toUpper ++ [']'], ?_, ?_⟩
    · rw [List.cons_append, List.mem_cons, List.mem_append, List.mem_singleton] at hc
      rcases hc with rfl | hc | rfl
      · decide
      · exact (hupper c hc).1
      · decide
    · rw [List.append_assoc]
      exact parseHost_bracketed (Or.inr ⟨rfl, rfl⟩) (fun c hc => (hupper c hc).2)
        (Or.inr ⟨rfl, rfl⟩) (':' :: rest)
    · rw [heq, List.map_append, List.map_cons, map_toLower_toUpper hlower]
      rfl

theorem qrChar_of_isDigit {c : Char} (h : c.isDigit = true) : qrChar c = true := by
  rw [qrChar, h, Bool.or_true, Bool.true_or]

theorem qrChar_toUpper_base32z {c : Char} (h : base32zAlphabet.digit c = true) :
    qrChar c.toUpper = true := by
  have hall : (base32zAlphabet.chars.all fun c => qrChar c.toUpper) = true := by decide
  have hmem : c.toLower ∈ base32zAlphabet.chars := of_decide_eq_true h
  rw [← Char.toUpper_toLower_eq_toUpper]
  exact List.all_eq_true.1 hall _ hmem

/-- The host and the port, followed by what may be a pubkey. -/
theorem parseTcp_qr (h : a.QrWellFormed) {tail pk : List Char} {curve : Bool}
    (hpk : parsePubkey x tail true curve = .ok (pk, []))
    (htail : ∀ c ∈ tail.head?, c.isDigit = false) :
    parseTcp x (qrHost a.host.toList ++ ':' :: Nat.toDigits 10 a.port ++ tail) true curve =
      .ok (a.host.toList, a.port, pk, []) := by
  obtain ⟨_, host, hhost, hlower⟩ := parseHost_qrHost h (Nat.toDigits 10 a.port ++ tail)
  rw [List.append_assoc]
  exact parseTcp_ok.2 ⟨host, _, tail, hhost, hlower.symm,
    parsePort_toDigits h.port.1 h.port.2 htail, hpk⟩

theorem qrChar_text (h : a.QrWellFormed) (tail : List Char) (htail : ∀ c ∈ tail, qrChar c = true) :
    (qrHost a.host.toList ++ ':' :: Nat.toDigits 10 a.port ++ tail).all qrChar = true := by
  refine List.all_eq_true.2 fun c hc => ?_
  rw [List.mem_append, List.mem_append, List.mem_cons] at hc
  rcases hc with (hc | rfl | hc) | hc
  · exact (parseHost_qrHost h []).1 c hc
  · decide
  · exact qrChar_of_isDigit (Nat.isDigit_of_mem_toDigits (by decide) (by decide) hc)
  · exact htail c hc

theorem qrChar_of_split {text : String} {pro addr : List Char}
    (htext : text.toList = pro ++ addr) (hpro : pro.all qrChar = true)
    (haddr : addr.all qrChar = true) : ∀ c ∈ text.toList, qrChar c = true := by
  rw [← List.all_eq_true, htext, List.all_append, hpro, haddr]
  rfl

/-- **The address for a QR code fits into one, and is read back.** -/
theorem parse_qrAddress (x : Oxenc) {a : Address} (h : a.QrWellFormed) :
    ∃ text, a.qrAddress x = .ok text ∧ (∀ c ∈ text.toList, qrChar c = true) ∧
      ∃ b, parse x text = .ok b ∧ b.eq a = true := by
  have hhost : a.host ≠ "" := by
    rcases h.host with ⟨hne, _⟩ | ⟨inner, heq, _⟩
    · exact hne
    · intro hempty
      rw [hempty] at heq
      cases heq
  have hok : a.qrAddress x = .ok (a.qrText x) := by
    rw [qrAddress, h.tcp, if_neg (by decide), if_neg hhost]
    rfl
  refine ⟨_, hok, ?_⟩
  obtain ⟨protocol, host, port, socket, pubkey⟩ := a
  cases protocol with
  | tcp =>
    have htext : (qrText x ⟨.tcp, host, port, socket, pubkey⟩).toList =
        "TCP".toList ++ "://".toList ++ (qrHost host.toList ++ ':' :: Nat.toDigits 10 port ++ []) := by
      have hcurve : curve ⟨.tcp, host, port, socket, pubkey⟩ = false := rfl
      simp only [qrText, hcurve, Bool.false_eq_true, if_false, String.toList_append,
        toList_toString, String.toList_ofList, List.append_assoc]
      rfl
    have hqr := qrChar_text h [] (by simp)
    have hpk : parsePubkey x [] true false = .ok ([], []) := rfl
    have htcp := parseTcp_qr h hpk (by simp)
    exact ⟨qrChar_of_split htext (by decide) hqr,
      parse_tcpText htext (by decide) (by simp) rfl (fun _ => hqr) rfl htcp nofun⟩
  | tcpCurve =>
    let a : Address := ⟨.tcpCurve, host, port, socket, pubkey⟩
    have htext : (a.qrText x).toList = "CURVE".toList ++ "://".toList ++
        (qrHost host.toList ++ ':' :: Nat.toDigits 10 port ++
          '/' :: a.encodePubkey x .upperBase32z) := by
      have hcurve : a.curve = true := rfl
      simp only [qrText, hcurve, if_true, String.toList_append, toList_toString,
        String.toList_ofList, List.append_assoc]
      rfl
    have hpubkey : IsPubkey a.pubkey.toList := h.pubkey rfl
    have hpk : parsePubkey x ('/' :: a.encodePubkey x .upperBase32z) true true =
        .ok (pubkey.toList, []) :=
      parsePubkey_encodes (encodes_encodePubkey hpubkey .upperBase32z) fun _ => by
        rw [length_upperBase32z hpubkey]
        decide
    have hqr := qrChar_text h ('/' :: a.encodePubkey x .upperBase32z) fun c hc => by
      rcases List.mem_cons.1 hc with rfl | hc
      · decide
      · obtain ⟨d, hd, rfl⟩ := List.mem_map.1 hc
        exact qrChar_toUpper_base32z (x.base32z.digit_encode _ hpubkey d hd)
    have htcp := parseTcp_qr h hpk (by simp)
    exact ⟨qrChar_of_split htext (by decide) hqr,
      parse_tcpText htext (by decide) (by simp) rfl (fun _ => hqr) rfl htcp fun _ => rfl⟩
  | ipc => cases h.tcp
  | ipcCurve => cases h.tcp

/-- A host with an IPv6 address. -/
def someIpv6 : Address :=
  { protocol := .tcpCurve, host := "[::1]", port := 5678, pubkey := somePubkey }

theorem parse_qrAddress_someIpv6 :
    someIpv6.QrWellFormed ∧ ∃ text, someIpv6.qrAddress .reference = .ok text ∧
      (∀ c ∈ text.toList, qrChar c = true) ∧
      ∃ b, parse .reference text = .ok b ∧ b.eq someIpv6 = true := by
  have h : someIpv6.QrWellFormed :=
    ⟨rfl, Or.inr ⟨[':', ':', '1'], rfl, List.all_eq_true.1 (by decide)⟩, by decide,
      fun _ => isPubkey_somePubkey⟩
  exact ⟨h, parse_qrAddress .reference h⟩

end Address

end Control

end OxenMQ
