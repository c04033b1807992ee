import OxenMQ.Address.Spec

/-!
# The grammar of addresses with a host and a port

`TcpText` is the grammar that is documented for the schemes `tcp`, `tcp+curve` and `curve`, and for
`TCP` and `CURVE` in addresses for QR codes: a host, a colon, a port, and a slash and a pubkey if
there has to be one.  It says how the text is cut and what each part stands for, without a word
about how this is found out.  `parse_tcp_iff` says that the constructor accepts exactly these texts,
and takes from them what they stand for.

The parser has no need to go back.  A host ends at the first colon, or at its closing bracket; a
port ends where the digits do; and a key is told from a longer one by the length of what is left.
-/

set_option autoImplicit false

namespace OxenMQ

namespace Control

namespace Address

variable {x : Oxenc} {qr : Bool} {addr host rest : List Char}

/-- `text` is a way to write `host` in front of a port, in an ordinary address or in one for a QR
code. -/
inductive TcpHost : (qr : Bool) → (text host : List Char) → Prop
  /-- An IPv6 address. -/
  | brackets (inner : List Char) (h : ∀ c ∈ inner, ipv6Char c = true) :
    TcpHost false ('[' :: inner ++ [']']) ('[' :: inner ++ [']'])
  /-- An IPv6 address for a QR code. -/
  | dollars (inner : List Char) (h : ∀ c ∈ inner, ipv6Char c = true) :
    TcpHost true ('$' :: inner ++ ['$']) ('[' :: inner.map Char.toLower ++ [']'])
  | name (host : List Char) (hne : host ≠ []) (hcolon : ':' ∉ host)
      (hfront : host.head? ≠ some '[') :
    TcpHost false host host
  | upperName (host : List Char) (hne : host ≠ []) (hcolon : ':' ∉ host)
      (hfront : host.head? ≠ some '$') :
    TcpHost true host (host.map Char.toLower)

/-- The schemes, and what they say about the address. -/
def tcpSchemes : List (String × Proto × Bool) :=
  [("tcp", .tcp, false), ("tcp+curve", .tcpCurve, false), ("curve", .tcpCurve, false),
    ("TCP", .tcp, true), ("CURVE", .tcpCurve, true)]

/-- The grammar of what follows `://`: a host, a port from 1 to 65535 in decimal digits and, where
there is encryption, a slash and a key. -/
structure TcpText (x : Oxenc) (qr curve : Bool) (text host : List Char) (port : ℕ)
    (pubkey : List Char) : Prop where
  cut : ∃ hostText digits tail, text = hostText ++ ':' :: digits ++ tail ∧
    TcpHost qr hostText host ∧
    (digits ≠ [] ∧ (∀ c ∈ digits, c.isDigit = true) ∧ Nat.ofDigitChars 10 digits 0 = port) ∧
    ((curve = true ∧ ∃ key, tail = '/' :: key ∧ TcpKey x qr key pubkey) ∨
      (curve = false ∧ tail = [] ∧ pubkey = []))
  port : 1 ≤ port ∧ port ≤ 65535
  chars : qr = true → ∀ c ∈ text, qrChar c = true

/-! ## The host -/

theorem qrChar_bracket : qrChar '[' = false ∧ qrChar ']' = false := by decide

/-- The parser finds the host if there is one. -/
theorem parseHost_iff (hqr : qr = true → ∀ c ∈ addr, qrChar c = true) :
    (∃ host', parseHost addr qr = .ok (host', ':' :: rest) ∧
      host = if qr then host'.map Char.toLower else host') ↔
    ∃ text, addr = text ++ ':' :: rest ∧ TcpHost qr text host := by
  constructor
  · rintro ⟨host', hhost, rfl⟩
    rcases parseHost_ok hhost with ⟨front, inner, close, hfront, hinner, hclose, rfl, rfl⟩ |
      ⟨hplain, hdollar, rfl, _⟩
    · refine ⟨front :: inner ++ [close], (List.append_cons _ _ _), ?_⟩
      cases qr with
      | false =>
        obtain rfl : front = '[' := hfront.resolve_right nofun
        obtain rfl : close = ']' := hclose.resolve_right nofun
        exact .brackets inner hinner
      | true =>
        -- there are no brackets in an address for a QR code
        have hfront' : front = '$' := by
          refine (hfront.resolve_left ?_).2
          rintro rfl
          exact Bool.false_ne_true (qrChar_bracket.1.symm.trans (hqr rfl _ List.mem_cons_self))
        have hclose' : close = '$' := by
          refine (hclose.resolve_left ?_).2
          rintro rfl
          refine Bool.false_ne_true (qrChar_bracket.2.symm.trans (hqr rfl _ ?_))
          exact List.mem_append_right _ List.mem_cons_self
        have hlower : ('[' :: inner ++ [']']).map Char.toLower =
            '[' :: inner.map Char.toLower ++ [']'] := by
          rw [List.map_append]
          rfl
        rw [hfront', hclose', if_pos rfl, hlower]
        exact .dollars inner hinner
    · refine ⟨host', rfl, ?_⟩
      cases qr with
      | false => exact .name host' hplain.ne_nil hplain.colon hplain.front
      | true => exact .upperName host' hplain.ne_nil hplain.colon (hdollar rfl)
  · rintro ⟨text, rfl, htext⟩
    cases htext with
    | brackets inner h =>
      refine ⟨_, ?_, rfl⟩
      rw [List.append_assoc]
      exact parseHost_bracketed (Or.inl rfl) h (Or.inl rfl) _
    | dollars inner h =>
      refine ⟨'[' :: inner ++ [']'], ?_, ?_⟩
      · rw [List.append_assoc]
        exact parseHost_bracketed (Or.inr ⟨rfl, rfl⟩) h (Or.inr ⟨rfl, rfl⟩) _
      · rw [if_pos rfl, List.map_append]
        rfl
    | name _ hne hcolon hfront =>
      exact ⟨host, parseHost_plain ⟨hne, hcolon, hfront⟩ (fun hq => by cases hq) rest, rfl⟩
    | upperName _ hne hcolon hfront =>
      refine ⟨text, parseHost_plain ⟨hne, hcolon, fun hbracket => ?_⟩ (fun _ => hfront) rest, rfl⟩
      have hmem : '[' ∈ text ++ ':' :: rest :=
        List.mem_append_left _ (List.mem_of_mem_head? hbracket)
      exact Bool.false_ne_true (qrChar_bracket.1.symm.trans (hqr rfl _ hmem))

/-! ## The whole text -/

/-- What follows the port does not begin with a digit. -/
theorem not_isDigit_of_tail {curve : Bool} {tail pubkey : List Char}
    (h : (curve = true ∧ ∃ key, tail = '/' :: key ∧ TcpKey x qr key pubkey) ∨
      (curve = false ∧ tail = [] ∧ pubkey = [])) : ∀ c ∈ tail.head?, c.isDigit = false := by
  intro c hc
  rcases h with ⟨_, key, rfl, _⟩ | ⟨_, rfl, _⟩
  · obtain rfl : '/' = c := Option.some.inj hc
    decide
  · cases hc

theorem parseTcp_iff {curve : Bool} {port : ℕ} {pubkey : List Char}
    (hqr : qr = true → ∀ c ∈ addr, qrChar c = true) :
    parseTcp x addr qr curve = .ok (host, port, pubkey, []) ↔
      TcpText x qr curve addr host port pubkey := by
  rw [parseTcp_ok]
  constructor
  · rintro ⟨host', rest₁, rest₂, hhost, hlower, hport, hpubkey⟩
    obtain ⟨digits, rfl, hne, hdigits, _, hvalue, hrange⟩ := parsePort_ok.1 hport
    obtain ⟨text, rfl, htext⟩ := (parseHost_iff hqr).1 ⟨host', hhost, hlower⟩
    refine ⟨⟨text, digits, rest₂, ?_, htext, ⟨hne, hdigits, hvalue⟩, (parsePubkey_iff.1 hpubkey).2⟩,
      hrange, hqr⟩
    rw [List.append_assoc]
    rfl
  · rintro ⟨⟨text, digits, tail, rfl, htext, ⟨hne, hdigits, hvalue⟩, htail⟩, hrange, _⟩
    rw [List.append_assoc] at hqr
    obtain ⟨host', hhost, hlower⟩ := (parseHost_iff hqr).2 ⟨text, rfl, htext⟩
    refine ⟨host', ':' :: digits ++ tail, tail, ?_, hlower, ?_, parsePubkey_iff.2 ⟨rfl, htail⟩⟩
    · rw [List.append_assoc]
      exact hhost
    · exact parsePort_ok.2 ⟨digits, rfl, hne, hdigits, not_isDigit_of_tail htail, hvalue, hrange⟩

/-- A scheme has no colon in it, and its protocol is one with a host and a port. -/
theorem tcpSchemes_spec {pro : List Char} {protocol : Proto}
    (h : (String.ofList pro, protocol, qr) ∈ tcpSchemes) :
    ':' ∉ pro ∧ protocolOf (String.ofList pro) = some (protocol, qr) ∧
      ({ protocol } : Address).tcp = true := by
  have hall : tcpSchemes.all (fun e => decide (':' ∉ e.1.toList) &&
      decide (protocolOf e.1 = some e.2) &&
        ({ protocol := e.2.1 } : Address).tcp) = true := by decide
  have hscheme := List.all_eq_true.1 hall _ h
  rw [Bool.and_eq_true, Bool.and_eq_true, decide_eq_true_iff, decide_eq_true_iff,
    String.toList_ofList] at hscheme
  exact ⟨hscheme.1.1, hscheme.1.2, hscheme.2⟩

/-- **The constructor accepts the grammar, and takes the address from it.** -/
theorem parse_tcp_iff (x : Oxenc) {text : String} {pro addr : List Char} {protocol : Proto}
    {qr : Bool} (htext : text.toList = pro ++ "://".toList ++ addr)
    (hpro : (String.ofList pro, protocol, qr) ∈ tcpSchemes) (a : Address) :
    parse x text = .ok a ↔
      ∃ host port pubkey, TcpText x qr ({ protocol } : Address).curve addr host port pubkey ∧
        a = { protocol, host := String.ofList host, port, pubkey := String.ofList pubkey } := by
  obtain ⟨hcolon, hprotocol, htcp⟩ := tcpSchemes_spec hpro
  constructor
  · intro h
    obtain ⟨pro', addr', protocol', qr', hsplit, _, hprotocol', hqr, h⟩ := parse_ok h
    rw [htext, splitProtocol_append hcolon] at hsplit
    obtain ⟨rfl, rfl⟩ := Prod.mk.inj (Option.some.inj hsplit)
    obtain ⟨rfl, rfl⟩ := Prod.mk.inj (Option.some.inj (hprotocol.symm.trans hprotocol'))
    obtain ⟨host, port, pubkey, hparse, rfl⟩ := (parseAddr_tcp_ok htcp).1 h
    exact ⟨host, port, pubkey, (parseTcp_iff fun hq => List.all_eq_true.1 (hqr hq)).1 hparse, rfl⟩
  · rintro ⟨host, port, pubkey, hcut, rfl⟩
    have haddr : addr ≠ [] := by
      obtain ⟨⟨hostText, digits, tail, rfl, _⟩, _, _⟩ := hcut
      simp
    rw [parse_of_split htext hcolon haddr hprotocol fun hq => List.all_eq_true.2 (hcut.chars hq)]
    exact (parseAddr_tcp_ok htcp).2 ⟨host, port, pubkey, (parseTcp_iff hcut.chars).2 hcut, rfl⟩

/-- An IPv6 address for a QR code, and a port with zeros in front. -/
theorem parse_tcp_iff_leadingZeros :
    TcpText .reference true false "$::A$:00080".toList "[::a]".toList 80 [] ∧
      parse .reference "TCP://$::A$:00080" =
        .ok { protocol := .tcp, host := "[::a]", port := 80 } := by
  have htext : "TCP://$::A$:00080".toList =
    "TCP".toList ++ "://".toList ++ "$::A$:00080".toList := by
    decide
  have hgrammar : TcpText .reference true false "$::A$:00080".toList "[::a]".toList 80 [] := by
    refine ⟨⟨"$::A$".toList, "00080".toList, [], by decide, ?_,
      ⟨by decide, List.all_eq_true.1 (by decide), rfl⟩, Or.inr ⟨rfl, rfl, rfl⟩⟩, by decide,
      fun _ => List.all_eq_true.1 (by decide)⟩
    exact .dollars "::A".toList (List.all_eq_true.1 (by decide))
  exact ⟨hgrammar, (parse_tcp_iff .reference htext (by decide) _).2 ⟨_, _, _, hgrammar, rfl⟩⟩

end Address

end Control

end OxenMQ
