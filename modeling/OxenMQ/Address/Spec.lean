import OxenMQ.Address.Defs

/-!
# What the parser of addresses accepts

One lemma for each piece of the parser, which says what the piece accepts and what it makes of it:
the text is cut where the lemma says.  Where a claim about all texts and a claim about the texts
that are written need different things, there are two: what is known when the piece has succeeded,
and what it does with a text of a given form.
-/

set_option autoImplicit false

namespace OxenMQ

namespace Control

namespace Address

variable {x : Oxenc} {qr : Bool} {addr host rest : List Char}

/-! ## The protocol -/

theorem splitProtocol_append {pro : List Char} (h : ':' ∉ pro) (addr : List Char) :
    splitProtocol (pro ++ "://".toList ++ addr) = some (pro, addr) := by
  induction pro with
  | nil => rfl
  | cons c pro ih =>
    rw [List.mem_cons, not_or] at h
    have hc : "://".toList.isPrefixOf (c :: (pro ++ "://".toList ++ addr)) = false := by
      have hne : (':' == c) = false := beq_eq_false_iff_ne.2 h.1
      show (':' == c && _) = false
      rw [hne, Bool.false_and]
    rw [List.cons_append, List.cons_append, splitProtocol, hc, ih h.2]
    rfl

theorem eq_of_splitProtocol {text pro addr : List Char}
    (h : splitProtocol text = some (pro, addr)) : text = pro ++ "://".toList ++ addr := by
  induction text generalizing pro with
  | nil => cases h
  | cons c cs ih =>
    rw [splitProtocol] at h
    split at h
    · rename_i hprefix
      cases h
      obtain ⟨rest, hrest⟩ := List.isPrefixOf_iff_prefix.1 hprefix
      rw [← hrest]
      have hcs : cs = ['/', '/'] ++ rest := (List.cons.inj hrest).2.symm
      rw [hcs]
      rfl
    · obtain ⟨⟨pro', addr'⟩, hsplit, heq⟩ := Option.map_eq_some_iff.1 h
      cases heq
      rw [ih hsplit]
      rfl

theorem parse_of_split {text : String} {pro : List Char} {protocol : Proto}
    (ht : text.toList = pro ++ "://".toList ++ addr) (hcolon : ':' ∉ pro) (haddr : addr ≠ [])
    (hpro : protocolOf (String.ofList pro) = some (protocol, qr))
    (hqr : qr = true → addr.all qrChar = true) : parse x text = parseAddr x protocol qr addr := by
  have hne : pro ≠ [] := by
    rintro rfl
    cases hpro
  obtain ⟨c, cs, rfl⟩ := List.exists_cons_of_ne_nil hne
  obtain ⟨d, ds, rfl⟩ := List.exists_cons_of_ne_nil haddr
  have hguard : (qr && !(d :: ds).all qrChar) = false := by
    cases hq : qr with
    | false => rfl
    | true => rw [hqr hq]; rfl
  simp only [parse, ht, splitProtocol_append hcolon, hpro, hguard, Bool.false_eq_true, if_false]

/-- The constructor objects to the part in front of `://`, or goes on with the part behind it. -/
theorem parse_cases (x : Oxenc) (text : String) :
    (∃ what, parse x text = throw (.invalidArgument what)) ∨
      ∃ pro addr protocol qr, splitProtocol text.toList = some (pro, addr) ∧ addr ≠ [] ∧
        protocolOf (String.ofList pro) = some (protocol, qr) ∧
        (qr = true → addr.all qrChar = true) ∧ parse x text = parseAddr x protocol qr addr := by
  unfold parse
  split
  · exact .inl ⟨_, rfl⟩
  · exact .inl ⟨_, rfl⟩
  · exact .inl ⟨_, rfl⟩
  · rename_i pro addr _ haddr hsplit
    split
    · exact .inl ⟨_, rfl⟩
    · rename_i protocol qr hpro
      split
      · exact .inl ⟨_, rfl⟩
      · rename_i hqr
        refine .inr ⟨pro, addr, protocol, qr, hsplit, ?_, hpro, ?_, rfl⟩
        · rintro rfl
          exact haddr rfl
        · rintro rfl
          simpa using hqr

theorem parse_ok {text : String} {a : Address} (h : parse x text = .ok a) :
    ∃ pro addr protocol qr, splitProtocol text.toList = some (pro, addr) ∧ addr ≠ [] ∧
      protocolOf (String.ofList pro) = some (protocol, qr) ∧
      (qr = true → addr.all qrChar = true) ∧ parseAddr x protocol qr addr = .ok a := by
  rcases parse_cases x text with
    ⟨what, herror⟩ | ⟨pro, addr, protocol, qr, hsplit, hne, hpro, hqr, hparse⟩
  · cases herror.symm.trans h
  · exact ⟨pro, addr, protocol, qr, hsplit, hne, hpro, hqr, hparse.symm.trans h⟩

/-! ## The host -/

/-- An IPv6 address in brackets. -/
def Bracketed (host : List Char) : Prop :=
  ∃ inner, host = '[' :: inner ++ [']'] ∧ ∀ c ∈ inner, ipv6Char c = true

/-- Any other host. -/
structure Plain (host : List Char) : Prop where
  ne_nil : host ≠ []
  colon : ':' ∉ host
  front : host.head? ≠ some '['

theorem parseHost_bracketed {front close : Char} {inner : List Char}
    (hfront : front = '[' ∨ qr = true ∧ front = '$') (hinner : ∀ c ∈ inner, ipv6Char c = true)
    (hclose : close = ']' ∨ qr = true ∧ close = '$') (rest : List Char) :
    parseHost (front :: inner ++ close :: rest) qr = .ok ('[' :: inner ++ [']'], rest) := by
  have hstop : ∀ c ∈ (close :: rest).head?, ipv6Char c = false := by
    intro c hc
    cases hc
    rcases hclose with rfl | ⟨_, rfl⟩ <;> decide
  obtain ⟨htake, hdrop⟩ := List.takeWhile_dropWhile_append hinner hstop
  have hopen : (if qr = true ∧ front = '$' then '[' else front) = '[' := by
    rcases hfront with rfl | ⟨hq, rfl⟩
    · exact ite_self '['
    · rw [if_pos ⟨hq, rfl⟩]
  have hend : (if qr = true ∧ close = '$' then ']' else close) = ']' := by
    rcases hclose with rfl | ⟨hq, rfl⟩
    · exact ite_self ']'
    · rw [if_pos ⟨hq, rfl⟩]
  rw [List.cons_append, parseHost, if_pos hfront]
  simp only [htake, hdrop]
  rw [if_pos hclose, hopen, hend]
  rfl

theorem parseHost_plain (h : Plain host) (hqr : qr = true → host.head? ≠ some '$')
    (rest : List Char) : parseHost (host ++ ':' :: rest) qr = .ok (host, ':' :: rest) := by
  have hrun : ∀ c ∈ host, decide (c ≠ ':') = true := by
    intro c hc
    refine decide_eq_true ?_
    rintro rfl
    exact h.colon hc
  have hstop : ∀ c ∈ (':' :: rest).head?, decide (c ≠ ':') = false := by simp
  obtain ⟨htake, hdrop⟩ :=
    List.takeWhile_dropWhile_append (p := fun c => decide (c ≠ ':')) hrun hstop
  obtain ⟨c, cs, rfl⟩ := List.exists_cons_of_ne_nil h.ne_nil
  have hfront : ¬ (c = '[' ∨ qr = true ∧ c = '$') := by
    rintro (rfl | ⟨hq, rfl⟩)
    · exact h.front rfl
    · exact hqr hq rfl
  rw [List.cons_append] at htake hdrop ⊢
  rw [parseHost, if_neg hfront]
  simp only [htake, hdrop]
  rfl

theorem parseHost_ok (h : parseHost addr qr = .ok (host, rest)) :
    (∃ front inner close, (front = '[' ∨ qr = true ∧ front = '$') ∧
      (∀ c ∈ inner, ipv6Char c = true) ∧ (close = ']' ∨ qr = true ∧ close = '$') ∧
      addr = front :: inner ++ close :: rest ∧ host = '[' :: inner ++ [']']) ∨
    (Plain host ∧ (qr = true → host.head? ≠ some '$') ∧ addr = host ++ rest ∧
      rest.head? = some ':') := by
  unfold parseHost at h
  split at h
  · cases h
  rename_i front tail
  split at h
  · rename_i hfront
    dsimp only at h
    split at h
    · cases h
    rename_i close rest' hdrop
    split at h
    · rename_i hclose
      cases h
      refine Or.inl ⟨front, tail.takeWhile ipv6Char, close, hfront,
        fun c hc => List.mem_takeWhile_imp hc, hclose, ?_, ?_⟩
      · rw [← hdrop, List.cons_append, List.takeWhile_append_dropWhile]
      · congr 1
        · rcases hfront with rfl | ⟨hq, rfl⟩
          · exact congrArg (· :: _) (ite_self '[')
          · rw [if_pos ⟨hq, rfl⟩]
        · rcases hclose with rfl | ⟨hq, rfl⟩
          · exact congrArg (fun c => [c]) (ite_self ']')
          · rw [if_pos ⟨hq, rfl⟩]
    · cases h
  · rename_i hfront
    dsimp only at h
    split at h
    · cases h
    rename_i hdrop
    split at h
    · cases h
    rename_i hne
    cases h
    have hsplit :=
      List.takeWhile_append_dropWhile (p := fun c => decide (c ≠ ':')) (l := front :: tail)
    have hhead :
        (List.takeWhile (fun c => decide (c ≠ ':')) (front :: tail)).head? = some front := by
      rw [List.takeWhile_cons]
      split
      · rfl
      · rename_i hcolon
        rw [List.takeWhile_cons, if_neg hcolon] at hne
        exact absurd rfl hne
    refine Or.inr ⟨⟨?_, ?_, ?_⟩, ?_, hsplit.symm, ?_⟩
    · simpa using hne
    · intro hmem
      simpa using List.mem_takeWhile_imp hmem
    · rw [hhead]
      exact fun heq => hfront (Or.inl (Option.some.inj heq))
    · rw [hhead]
      exact fun hq heq => hfront (Or.inr ⟨hq, Option.some.inj heq⟩)
    · cases hrest : List.dropWhile (fun c => decide (c ≠ ':')) (front :: tail) with
      | nil => exact absurd hrest hdrop
      | cons c cs =>
        have hc : c ∈ (List.dropWhile (fun c => decide (c ≠ ':')) (front :: tail)).head? := by
          rw [hrest]
          rfl
        have hcolon := List.eq_false_of_mem_head?_dropWhile hc
        rw [decide_eq_false_iff_not, not_not] at hcolon
        rw [hcolon]
        rfl

/-! ## The port -/

theorem stoi_ok {digits : List Char} {n : ℕ} :
    stoi digits = .ok n ↔ Nat.ofDigitChars 10 digits 0 = n ∧ n < 2 ^ 31 := by
  unfold stoi
  dsimp only
  split
  · rename_i hlt
    constructor
    · rintro ⟨⟩
      exact ⟨rfl, hlt⟩
    · rintro ⟨rfl, _⟩
      rfl
  · rename_i hge
    constructor
    · rintro ⟨⟩
    · rintro ⟨rfl, hlt⟩
      exact absurd hlt hge

theorem parsePort_ok {port : ℕ} :
    parsePort addr = .ok (port, rest) ↔
      ∃ digits, addr = ':' :: digits ++ rest ∧ digits ≠ [] ∧ (∀ c ∈ digits, c.isDigit = true) ∧
        (∀ c ∈ rest.head?, c.isDigit = false) ∧ Nat.ofDigitChars 10 digits 0 = port ∧
        1 ≤ port ∧ port ≤ 65535 := by
  constructor
  · intro h
    unfold parsePort at h
    split at h
    · cases h
    rename_i hcolon
    rw [not_or, not_not] at hcolon
    obtain ⟨tail, rfl⟩ : ∃ tail, addr = ':' :: tail := by
      cases addr with
      | nil => cases hcolon.2
      | cons c tail => exact ⟨tail, by rw [Option.some.inj hcolon.2]⟩
    dsimp only at h
    split at h
    · cases h
    rename_i hne
    obtain ⟨n, hstoi, h⟩ := Except.bind_eq_ok.1 h
    obtain ⟨hvalue, _⟩ := stoi_ok.1 hstoi
    split at h
    · cases h
    split at h
    · cases h
    cases h
    refine ⟨tail.takeWhile Char.isDigit, ?_, by simpa using hne,
      fun c hc => List.mem_takeWhile_imp hc, fun c hc => List.eq_false_of_mem_head?_dropWhile hc,
      hvalue, by omega, by omega⟩
    exact congrArg _ List.takeWhile_append_dropWhile.symm
  · rintro ⟨digits, rfl, hne, hdigits, hrest, hvalue, hpos, hle⟩
    obtain ⟨htake, hdrop⟩ := List.takeWhile_dropWhile_append hdigits hrest
    have hlen : ¬ ((':' :: digits ++ rest).length < 2 ∨
        (':' :: digits ++ rest).head? ≠ some ':') := by
      have hpos : 0 < digits.length := List.length_pos_iff.2 hne
      rintro (hshort | hcolon)
      · rw [List.length_append, List.length_cons] at hshort
        omega
      · exact hcolon rfl
    have hdigits : (digits.isEmpty = true) = False := by simpa using hne
    unfold parsePort
    rw [if_neg hlen]
    simp only [List.cons_append, List.drop_succ_cons, List.drop_zero, htake, hdrop, hdigits,
      if_false]
    refine Except.bind_eq_ok.2 ⟨port, stoi_ok.2 ⟨hvalue, by omega⟩, ?_⟩
    rw [if_neg (by omega), if_neg (by omega)]
    rfl

/-- The port is read as it is written. -/
theorem parsePort_toDigits {port : ℕ} (hpos : 1 ≤ port) (hle : port ≤ 65535)
    (hrest : ∀ c ∈ rest.head?, c.isDigit = false) :
    parsePort (':' :: Nat.toDigits 10 port ++ rest) = .ok (port, rest) :=
  parsePort_ok.2 ⟨Nat.toDigits 10 port, rfl, Nat.toDigits_ne_nil,
    fun _ hc => Nat.isDigit_of_mem_toDigits (by decide) (by decide) hc, hrest,
    Nat.ofDigitChars_toDigits (by decide) (by decide), hpos, hle⟩

/-! ## The pubkey -/

/-- Digits that make up 32 bytes. -/
theorem isPubkey_decode {k : ℕ} {a : Radix.Alphabet k} (codec : Codec a) {s : List Char}
    (h : a.valid s = true) (hlen : Radix.byteCount k s.length = 32) : IsPubkey (codec.decode s) :=
  ⟨(codec.length_decode s h).trans hlen, codec.byte_decode s⟩

theorem digit_equals : base64Alphabet.digit '=' = false := by decide

/-- Base64 is digits, and perhaps one or two `=` that make the length a multiple of four. -/
theorem isBase64_iff {s : List Char} :
    isBase64 s = true ↔ ∃ body padding, s = body ++ padding ∧ base64Alphabet.valid body = true ∧
      (padding = [] ∨ (padding = ['='] ∨ padding = ['=', '=']) ∧ s.length % 4 = 0) := by
  unfold isBase64
  simp only [Bool.and_eq_true, Bool.or_eq_true, List.isEmpty_iff, decide_eq_true_iff, beq_iff_eq]
  constructor
  · rintro ⟨hbody, hpadding⟩
    exact ⟨_, _, List.takeWhile_append_dropWhile.symm, hbody, hpadding⟩
  · rintro ⟨body, padding, rfl, hbody, hpadding⟩
    have hstop : ∀ c ∈ padding.head?, base64Alphabet.digit c = false := by
      rcases hpadding with rfl | ⟨rfl | rfl, _⟩
      · exact fun c hc => by cases hc
      · exact fun c hc => by cases hc; exact digit_equals
      · exact fun c hc => by cases hc; exact digit_equals
    obtain ⟨htake, hdrop⟩ :=
      List.takeWhile_dropWhile_append (base64Alphabet.valid_iff.1 hbody).1 hstop
    rw [htake, hdrop]
    exact ⟨hbody, hpadding⟩

theorem fromBase64_append {body padding : List Char} (hbody : base64Alphabet.valid body = true)
    (hpadding : ∀ c ∈ padding, c = '=') :
    fromBase64 x (body ++ padding) = x.base64.decode body := by
  have hstop : ∀ c ∈ padding.head?, base64Alphabet.digit c = false := by
    intro c hc
    rw [hpadding c (List.mem_of_mem_head? hc)]
    exact digit_equals
  rw [fromBase64, (List.takeWhile_dropWhile_append (base64Alphabet.valid_iff.1 hbody).1 hstop).1]

theorem isBase64_of_valid {s : List Char} (h : base64Alphabet.valid s = true) : isBase64 s = true :=
  isBase64_iff.2 ⟨s, [], (List.append_nil s).symm, h, Or.inl rfl⟩

theorem fromBase64_of_valid {s : List Char} (h : base64Alphabet.valid s = true) :
    fromBase64 x s = x.base64.decode s := by
  have happ : fromBase64 x (s ++ []) = x.base64.decode s := fromBase64_append h (by simp)
  rwa [List.append_nil] at happ

/-- A text that stands for the pubkey `pk`: hex, base32z, or base64 without the padding. -/
inductive Encodes (x : Oxenc) (pk key : List Char) : Prop
  | hex (h : isHex key = true) (hlen : key.length = 64) (hdecode : x.hex.decode key = pk)
  | base32z (h : isBase32z key = true) (hlen : key.length = 52)
      (hdecode : x.base32z.decode key = pk)
  | base64 (h : base64Alphabet.valid key = true) (hlen : key.length = 43)
      (hdecode : x.base64.decode key = pk)

theorem digit_toUpper_base32z (c : Char) :
    base32zAlphabet.digit c.toUpper = base32zAlphabet.digit c :=
  congrArg (fun c => decide (c ∈ base32zAlphabet.chars)) (Char.toLower_toUpper_eq_toLower c)

theorem Codec.valid_encode {k : ℕ} {a : Radix.Alphabet k} (codec : Codec a) {pk : List Char}
    (h : IsPubkey pk) (hk : Radix.digitCount k 32 * k % 8 < k) :
    a.valid (codec.encode pk) = true :=
  a.valid_iff.2 ⟨codec.digit_encode pk h, by rwa [codec.length_encode pk h]⟩

theorem length_upperBase32z {a : Address} (h : IsPubkey a.pubkey.toList) :
    (a.encodePubkey x .upperBase32z).length = 52 := by
  rw [encodePubkey, List.length_map]
  exact x.base32z.length_encode _ h

theorem encodes_encodePubkey {a : Address} (h : IsPubkey a.pubkey.toList) (enc : Encoding) :
    Encodes x a.pubkey.toList (a.encodePubkey x enc) := by
  cases enc with
  | hex =>
    exact .hex (Codec.valid_encode x.hex h (by decide)) (x.hex.length_encode _ h)
      (x.hex.decode_encode _ h)
  | base32z =>
    exact .base32z (Codec.valid_encode x.base32z h (by decide)) (x.base32z.length_encode _ h)
      (x.base32z.decode_encode _ h)
  | upperBase32z =>
    refine .base32z (base32zAlphabet.valid_iff.2 ⟨fun c hc => ?_, ?_⟩)
      (length_upperBase32z h) ((x.base32z_upper _).trans (x.base32z.decode_encode _ h))
    · obtain ⟨d, hd, rfl⟩ := List.mem_map.1 hc
      rw [digit_toUpper_base32z]
      exact x.base32z.digit_encode _ h d hd
    · rw [length_upperBase32z h]
      decide
  | base64 =>
    have hlen : (x.base64.encode a.pubkey.toList).length = 43 := x.base64.length_encode _ h
    have hpad : toBase64 x a.pubkey.toList = x.base64.encode a.pubkey.toList ++ ['='] := by
      rw [toBase64, hlen]
      rfl
    have hkey : a.encodePubkey x .base64 = x.base64.encode a.pubkey.toList := by
      have hcond : (toBase64 x a.pubkey.toList).length = 44 ∧
          (toBase64 x a.pubkey.toList).getLast? = some '=' := by
        rw [hpad, List.length_append, hlen, List.getLast?_concat]
        exact ⟨rfl, rfl⟩
      rw [encodePubkey, if_pos hcond, hpad, List.take_left' hlen]
    rw [hkey]
    exact .base64 (Codec.valid_encode x.base64 h (by decide)) hlen (x.base64.decode_encode _ h)

/-- What may be given for a pubkey behind a port: base64 only if the address is not for a QR code,
and then with the padding or without. -/
def TcpKey (x : Oxenc) (qr : Bool) (key pk : List Char) : Prop :=
  ∃ body padding, key = body ++ padding ∧ Encodes x pk body ∧ (qr = true → body.length ≠ 43) ∧
    (padding = [] ∨ body.length = 43 ∧ padding = ['='])

theorem Encodes.tcpKey {pk key : List Char} (h : Encodes x pk key)
    (hqr : qr = true → key.length ≠ 43) : TcpKey x qr key pk :=
  ⟨key, [], (List.append_nil key).symm, h, hqr, Or.inl rfl⟩

theorem Encodes.isPubkey {pk key : List Char} (h : Encodes x pk key) : IsPubkey pk := by
  cases h with
  | hex h hlen hdecode => exact hdecode ▸ isPubkey_decode x.hex h (hlen ▸ rfl)
  | base32z h hlen hdecode => exact hdecode ▸ isPubkey_decode x.base32z h (hlen ▸ rfl)
  | base64 h hlen hdecode => exact hdecode ▸ isPubkey_decode x.base64 h (hlen ▸ rfl)

theorem isBase64_unpadded {s : List Char} (h : isBase64 s = true) (hlen : s.length = 43) :
    base64Alphabet.valid s = true := by
  obtain ⟨body, padding, rfl, hbody, rfl | ⟨_, hmod⟩⟩ := isBase64_iff.1 h
  · rwa [List.append_nil]
  · rw [hlen] at hmod
    cases hmod

theorem eq_nil_or_equals {l : List Char} (h : (if l.head? = some '=' then l.drop 1 else l) = []) :
    l = [] ∨ l = ['='] := by
  cases l with
  | nil => exact Or.inl rfl
  | cons c cs =>
    split at h
    · rename_i hc
      rw [List.drop_succ_cons, List.drop_zero] at h
      exact Or.inr (by rw [Option.some.inj hc, h])
    · cases h

/-- The pubkey and nothing behind it. -/
theorem decodePubkey_iff {input pk : List Char} :
    decodePubkey x input qr = .ok (pk, []) ↔ TcpKey x qr input pk := by
  constructor
  · intro h
    unfold decodePubkey at h
    split at h
    · rename_i hkey
      obtain ⟨hpk, hrest⟩ := Prod.mk.inj (Except.ok.inj h)
      have hle := List.drop_eq_nil_iff.1 hrest
      rw [List.take_of_length_le hle] at hkey hpk
      exact Encodes.tcpKey (.hex hkey.2 (le_antisymm hle hkey.1) hpk) fun _ => by omega
    split at h
    · rename_i hkey
      obtain ⟨hpk, hrest⟩ := Prod.mk.inj (Except.ok.inj h)
      have hle := List.drop_eq_nil_iff.1 hrest
      rw [List.take_of_length_le hle] at hkey hpk
      exact Encodes.tcpKey (.base32z hkey.2 (le_antisymm hle hkey.1) hpk) fun _ => by omega
    split at h
    · rename_i hkey
      obtain ⟨hpk, hrest⟩ := Prod.mk.inj (Except.ok.inj h)
      have hlen : (input.take 43).length = 43 := by rw [List.length_take, min_eq_left hkey.2.1]
      have hvalid := isBase64_unpadded hkey.2.2 hlen
      rw [fromBase64_of_valid hvalid] at hpk
      refine ⟨input.take 43, input.drop 43, (List.take_append_drop 43 input).symm,
        .base64 hvalid hlen hpk, fun hq => ?_,
        (eq_nil_or_equals hrest).imp_right fun hpad => ⟨hlen, hpad⟩⟩
      rw [hq] at hkey
      cases hkey.1
    · cases h
  · rintro ⟨body, padding, rfl, hbody, hqr, hpadding⟩
    unfold decodePubkey
    cases hbody with
    | hex h hlen hdecode =>
      obtain rfl : padding = [] := hpadding.resolve_right fun hpad => by omega
      have htake : body.take 64 = body := List.take_of_length_le hlen.le
      rw [List.append_nil, htake, if_pos ⟨hlen.ge, h⟩, List.drop_of_length_le hlen.le, hdecode]
      rfl
    | base32z h hlen hdecode =>
      obtain rfl : padding = [] := hpadding.resolve_right fun hpad => by omega
      have htake : body.take 52 = body := List.take_of_length_le hlen.le
      rw [List.append_nil, if_neg (by omega), htake, if_pos ⟨hlen.ge, h⟩,
        List.drop_of_length_le hlen.le, hdecode]
      rfl
    | base64 h hlen hdecode =>
      have hq : (!qr) = true := by
        cases qr with
        | false => rfl
        | true => exact absurd hlen (hqr rfl)
      have hlength : (body ++ padding).length = 43 ∨ (body ++ padding).length = 44 := by
        rw [List.length_append, hlen]
        rcases hpadding with rfl | ⟨_, rfl⟩
        · exact Or.inl rfl
        · exact Or.inr rfl
      have htake : (body ++ padding).take 43 = body := List.take_left' hlen
      have hdrop : (body ++ padding).drop 43 = padding := List.drop_left' hlen
      rw [if_neg (by omega), if_neg (by omega), htake,
        if_pos ⟨hq, by omega, isBase64_of_valid h⟩, hdrop, fromBase64_of_valid h, hdecode]
      rcases hpadding with rfl | ⟨_, rfl⟩ <;> rfl

/-- What follows the port. -/
theorem parsePubkey_iff {pk : List Char} {expectPubkey : Bool} :
    parsePubkey x addr qr expectPubkey = .ok (pk, rest) ↔
      rest = [] ∧ ((expectPubkey = true ∧ ∃ key, addr = '/' :: key ∧ TcpKey x qr key pk) ∨
        (expectPubkey = false ∧ addr = [] ∧ pk = [])) := by
  cases expectPubkey with
  | false =>
    cases addr with
    | nil =>
      constructor
      · intro h
        cases h
        exact ⟨rfl, Or.inr ⟨rfl, rfl, rfl⟩⟩
      · rintro ⟨rfl, ⟨hf, _⟩ | ⟨_, _, rfl⟩⟩
        · cases hf
        · rfl
    | cons c cs =>
      constructor
      · intro h
        cases h
      · rintro ⟨_, ⟨hf, _⟩ | ⟨_, hnil, _⟩⟩
        · cases hf
        · cases hnil
  | true =>
    rw [parsePubkey, if_pos rfl]
    constructor
    · intro h
      by_cases hlen : addr.length < 1 + encLength (if qr then .base32z else .base64) ∨
          addr.head? ≠ some '/'
      · rw [if_pos hlen] at h
        cases h
      rw [if_neg hlen] at h
      rw [not_or, not_not] at hlen
      obtain ⟨⟨pk', rest'⟩, hdecode, h⟩ := Except.bind_eq_ok.1 h
      dsimp only at h
      split at h
      · rename_i hrest
        cases h
        obtain rfl := List.isEmpty_iff.1 hrest
        refine ⟨rfl, Or.inl ⟨rfl, addr.drop 1, ?_, decodePubkey_iff.1 hdecode⟩⟩
        cases addr with
        | nil => cases hlen.2
        | cons c cs => rw [Option.some.inj hlen.2, List.drop_succ_cons, List.drop_zero]
      · cases h
    · rintro ⟨rfl, ⟨_, key, rfl, hkey⟩ | ⟨hf, _⟩⟩
      · have hlen : ¬ (('/' :: key).length < 1 + encLength (if qr then .base32z else .base64) ∨
            ('/' :: key).head? ≠ some '/') := by
          rintro (hshort | hslash)
          · obtain ⟨body, padding, rfl, hbody, hqr, _⟩ := hkey
            have hle : 43 ≤ body.length ∧ (body.length ≠ 43 → 52 ≤ body.length) := by
              cases hbody with
              | hex _ hlen => omega
              | base32z _ hlen => omega
              | base64 _ hlen => omega
            rw [List.length_cons, List.length_append] at hshort
            cases qr with
            | true =>
              have hne := hqr rfl
              simp only [if_true, encLength] at hshort
              omega
            | false =>
              simp only [Bool.false_eq_true, if_false, encLength] at hshort
              omega
          · exact hslash rfl
        rw [if_neg hlen]
        exact Except.bind_eq_ok.2 ⟨(pk, []), decodePubkey_iff.2 hkey, rfl⟩
      · cases hf

theorem parsePubkey_encodes {pk key : List Char} (h : Encodes x pk key)
    (hqr : qr = true → key.length ≠ 43) : parsePubkey x ('/' :: key) qr true = .ok (pk, []) :=
  parsePubkey_iff.2 ⟨rfl, Or.inl ⟨rfl, key, rfl, h.tcpKey hqr⟩⟩

theorem parsePubkey_ok {pk : List Char} {expectPubkey : Bool}
    (h : parsePubkey x addr qr expectPubkey = .ok (pk, rest)) :
    rest = [] ∧ (expectPubkey = true → IsPubkey pk) ∧ (expectPubkey = false → pk = []) := by
  obtain ⟨hrest, ⟨rfl, _, _, _, _, _, hkey, _⟩ | ⟨rfl, _, hpk⟩⟩ := parsePubkey_iff.1 h
  · exact ⟨hrest, fun _ => hkey.isPubkey, nofun⟩
  · exact ⟨hrest, nofun, fun _ => hpk⟩

theorem parseTcp_ok {port : ℕ} {pk : List Char} {expectPubkey : Bool} :
    parseTcp x addr qr expectPubkey = .ok (host, port, pk, rest) ↔
      ∃ host' rest₁ rest₂, parseHost addr qr = .ok (host', rest₁) ∧
        host = (if qr then host'.map Char.toLower else host') ∧
        parsePort rest₁ = .ok (port, rest₂) ∧
        parsePubkey x rest₂ qr expectPubkey = .ok (pk, rest) := by
  constructor
  · intro h
    obtain ⟨⟨host', rest₁⟩, hhost, h⟩ := Except.bind_eq_ok.1 h
    obtain ⟨⟨port', rest₂⟩, hport, h⟩ := Except.bind_eq_ok.1 h
    obtain ⟨⟨pk', rest₃⟩, hpk, h⟩ := Except.bind_eq_ok.1 h
    cases h
    exact ⟨host', rest₁, rest₂, hhost, rfl, hport, hpk⟩
  · rintro ⟨host', rest₁, rest₂, hhost, rfl, hport, hpk⟩
    exact Except.bind_eq_ok.2
      ⟨_, hhost, Except.bind_eq_ok.2 ⟨_, hport, Except.bind_eq_ok.2 ⟨_, hpk, rfl⟩⟩⟩

/-! ## Paths -/

section Trailing

variable (path key : List Char)

theorem length_path : (path ++ '/' :: key).length - key.length = path.length + 1 := by
  rw [List.length_append, List.length_cons]
  omega

theorem take_path : (path ++ '/' :: key).take
    ((path ++ '/' :: key).length - key.length - 1) = path :=
  List.take_left' (by rw [length_path, Nat.add_sub_cancel])

theorem drop_path : (path ++ '/' :: key).drop ((path ++ '/' :: key).length - key.length) = key := by
  rw [length_path, List.append_cons]
  exact List.drop_left' List.length_append

theorem trailingKey_append (valid : List Char → Bool) :
    trailingKey valid key.length (path ++ '/' :: key) = valid key := by
  have hsep : (path ++ '/' :: key)[(path ++ '/' :: key).length - key.length - 1]? = some '/' := by
    rw [length_path, Nat.add_sub_cancel, List.getElem?_append_right le_rfl, Nat.sub_self]
    rfl
  have hlen : key.length < (path ++ '/' :: key).length := by
    rw [List.length_append, List.length_cons]
    omega
  rw [trailingKey, hsep, drop_path, decide_eq_true hlen]
  rfl

end Trailing

theorem trailingKey_iff {valid : List Char → Bool} {n : ℕ} :
    trailingKey valid n addr = true ↔
      ∃ path key, addr = path ++ '/' :: key ∧ key.length = n ∧ valid key = true := by
  constructor
  · intro h
    rw [trailingKey, Bool.and_eq_true, Bool.and_eq_true, decide_eq_true_iff, beq_iff_eq] at h
    obtain ⟨⟨hlt, hsep⟩, hvalid⟩ := h
    refine ⟨addr.take (addr.length - n - 1), addr.drop (addr.length - n), ?_, ?_, hvalid⟩
    · obtain ⟨hidx, hsep⟩ := List.getElem?_eq_some_iff.1 hsep
      have hdrop := List.drop_eq_getElem_cons hidx
      rw [hsep, show addr.length - n - 1 + 1 = addr.length - n by omega] at hdrop
      rw [← hdrop, List.take_append_drop]
    · rw [List.length_drop]
      omega
  · rintro ⟨path, key, rfl, rfl, hvalid⟩
    rwa [trailingKey_append]

/-- The slash in front of a key is not part of a longer one in an alphabet without slashes. -/
theorem trailingKey_of_slash {k : ℕ} {a : Radix.Alphabet k} (hslash : a.digit '/' = false)
    {path key : List Char} {n : ℕ} (h : key.length < n) :
    trailingKey a.valid n (path ++ '/' :: key) = false := by
  rw [Bool.eq_false_iff]
  intro htrailing
  obtain ⟨path', key', heq, rfl, hvalid⟩ := trailingKey_iff.1 htrailing
  have hkey' : key' <:+ path ++ '/' :: key :=
    ⟨path' ++ ['/'], (List.append_cons path' '/' key').symm.trans heq.symm⟩
  have hsuffix : '/' :: key <:+ key' :=
    List.suffix_of_suffix_length_le (List.suffix_append path _) hkey' h
  have hmem : '/' ∈ key' := hsuffix.subset List.mem_cons_self
  rw [(a.valid_iff.1 hvalid).1 '/' hmem] at hslash
  cases hslash

theorem parseUnix_encodes (path : List Char) {pk key : List Char} (h : Encodes x pk key) :
    parseUnix x (path ++ '/' :: key) true = .ok (path, pk) := by
  unfold parseUnix
  dsimp only
  rw [if_pos rfl]
  cases h with
  | hex h hlen hdecode =>
    have hhex : trailingKey isHex 64 (path ++ '/' :: key) = true :=
      trailingKey_iff.2 ⟨path, key, rfl, hlen, h⟩
    rw [if_pos hhex, ← hlen, take_path, drop_path, hdecode]
    rfl
  | base32z h hlen hdecode =>
    have hhex : trailingKey isHex 64 (path ++ '/' :: key) = false :=
      trailingKey_of_slash (a := hexAlphabet) (by decide) (by omega)
    have hbase32z : trailingKey isBase32z 52 (path ++ '/' :: key) = true :=
      trailingKey_iff.2 ⟨path, key, rfl, hlen, h⟩
    rw [if_neg (Bool.eq_false_iff.1 hhex), if_pos hbase32z, ← hlen, take_path, drop_path, hdecode]
    rfl
  | base64 h hlen hdecode =>
    have hhex : trailingKey isHex 64 (path ++ '/' :: key) = false :=
      trailingKey_of_slash (a := hexAlphabet) (by decide) (by omega)
    have hbase32z : trailingKey isBase32z 52 (path ++ '/' :: key) = false :=
      trailingKey_of_slash (a := base32zAlphabet) (by decide) (by omega)
    have hbase64 : trailingKey isBase64 43 (path ++ '/' :: key) = true :=
      trailingKey_iff.2 ⟨path, key, rfl, hlen, isBase64_of_valid h⟩
    have hlast : (path ++ '/' :: key).getLast? ≠ some '=' := by
      intro heq
      have hmem : '=' ∈ key := by
        rw [List.append_cons, List.getLast?_append_of_ne_nil] at heq
        · exact List.mem_of_getLast? heq
        · rintro rfl
          cases hlen
      exact Bool.false_ne_true (digit_equals.symm.trans ((base64Alphabet.valid_iff.1 h).1 '=' hmem))
    rw [if_neg (Bool.eq_false_iff.1 hhex), if_neg (Bool.eq_false_iff.1 hbase32z), if_neg hlast,
      if_pos hbase64, ← hlen, take_path, drop_path, fromBase64_of_valid h, hdecode]
    rfl

/-- The forms of a key that are documented. -/
def DocumentedKey (key : List Char) : Prop :=
  (isHex key = true ∧ key.length = 64) ∨ (isBase32z key = true ∧ key.length = 52) ∨
    ∃ body, base64Alphabet.valid body = true ∧ body.length = 43 ∧ (key = body ∨ key = body ++ ['='])

/-- Base64 that ends in `=` is padded. -/
theorem isBase64_padded {s : List Char} (h : isBase64 s = true) (hlast : s.getLast? = some '=')
    (hlen : s.length = 44) :
    ∃ body, base64Alphabet.valid body = true ∧
      ((s = body ++ ['='] ∧ body.length = 43) ∨ (s = body ++ ['=', '='] ∧ body.length = 42)) := by
  obtain ⟨body, padding, rfl, hbody, rfl | ⟨rfl | rfl, _⟩⟩ := isBase64_iff.1 h
  · rw [List.append_nil] at hlast
    have hdigit := (base64Alphabet.valid_iff.1 hbody).1 '=' (List.mem_of_getLast? hlast)
    exact absurd (digit_equals.symm.trans hdigit) Bool.false_ne_true
  · exact ⟨body, hbody, Or.inl ⟨rfl, by simpa using hlen⟩⟩
  · exact ⟨body, hbody, Or.inr ⟨rfl, by simpa using hlen⟩⟩

/-- Base64 of 43 characters is not padded. -/
theorem parseUnix_ok {path pk : List Char} (h : parseUnix x addr true = .ok (path, pk)) :
    ∃ key, addr = path ++ '/' :: key ∧ ((DocumentedKey key ∧ IsPubkey pk) ∨
      ∃ body, key = body ++ ['=', '='] ∧ base64Alphabet.valid body = true ∧ body.length = 42 ∧
        pk = x.base64.decode body) := by
  unfold parseUnix at h
  dsimp only at h
  rw [if_pos rfl] at h
  generalize hb64 : (if addr.getLast? = some '=' then 44 else 43) = b64Len at h
  split at h
  · rename_i hkey
    obtain ⟨path', key, rfl, hlen, hvalid⟩ := trailingKey_iff.1 hkey
    rw [← hlen, take_path, drop_path] at h
    cases h
    refine ⟨key, rfl, Or.inl ⟨Or.inl ⟨hvalid, hlen⟩, isPubkey_decode x.hex hvalid ?_⟩⟩
    rw [hlen]
    rfl
  split at h
  · rename_i hkey
    obtain ⟨path', key, rfl, hlen, hvalid⟩ := trailingKey_iff.1 hkey
    rw [← hlen, take_path, drop_path] at h
    cases h
    refine ⟨key, rfl, Or.inl ⟨Or.inr (Or.inl ⟨hvalid, hlen⟩), isPubkey_decode x.base32z hvalid ?_⟩⟩
    rw [hlen]
    rfl
  split at h
  · rename_i hkey
    obtain ⟨path', key, heq, hlen, hvalid⟩ := trailingKey_iff.1 hkey
    rw [← hlen, heq, take_path, drop_path] at h
    cases h
    refine ⟨key, heq, ?_⟩
    rw [← hb64] at hlen
    split at hlen
    · rename_i hlast
      have hlast : key.getLast? = some '=' := by
        rw [heq, List.append_cons, List.getLast?_append_of_ne_nil] at hlast
        · exact hlast
        · rintro rfl
          cases hlen
      obtain ⟨body, hbody, ⟨rfl, hbody'⟩ | ⟨rfl, hbody'⟩⟩ := isBase64_padded hvalid hlast hlen
      · rw [fromBase64_append hbody (by simp)]
        refine Or.inl ⟨Or.inr (Or.inr ⟨body, hbody, hbody', Or.inr rfl⟩),
          isPubkey_decode x.base64 hbody ?_⟩
        rw [hbody']
        rfl
      · rw [fromBase64_append hbody (by simp)]
        exact Or.inr ⟨body, rfl, hbody, hbody', rfl⟩
    · have hbody := isBase64_unpadded hvalid hlen
      rw [fromBase64_of_valid hbody]
      refine Or.inl ⟨Or.inr (Or.inr ⟨key, hbody, hlen, Or.inl rfl⟩),
        isPubkey_decode x.base64 hbody ?_⟩
      rw [hlen]
      rfl
  · cases h

/-! ## Everything behind the protocol -/

theorem parseAddr_tcp_ok {protocol : Proto} {a : Address}
    (hp : ({ protocol } : Address).tcp = true) :
    parseAddr x protocol qr addr = .ok a ↔
      ∃ host port pk, parseTcp x addr qr ({ protocol } : Address).curve = .ok (host, port, pk, []) ∧
        a = { protocol, host := String.ofList host, port, pubkey := String.ofList pk } := by
  unfold parseAddr
  dsimp only
  rw [if_pos hp]
  constructor
  · intro h
    obtain ⟨⟨host, port, pk, rest⟩, htcp, h⟩ := Except.bind_eq_ok.1 h
    dsimp only at h
    split at h
    · rename_i hrest
      cases h
      rw [List.isEmpty_iff.1 hrest] at htcp
      exact ⟨host, port, pk, htcp, rfl⟩
    · cases h
  · rintro ⟨host, port, pk, htcp, rfl⟩
    exact Except.bind_eq_ok.2 ⟨_, htcp, rfl⟩

theorem parseAddr_ipc_ok {protocol : Proto} {a : Address}
    (hp : ({ protocol } : Address).tcp = false) :
    parseAddr x protocol qr addr = .ok a ↔
      ∃ path pk, parseUnix x addr ({ protocol } : Address).curve = .ok (path, pk) ∧
        a = { protocol, socket := String.ofList path, pubkey := String.ofList pk } := by
  unfold parseAddr
  dsimp only
  rw [if_neg (Bool.eq_false_iff.1 hp)]
  constructor
  · intro h
    obtain ⟨⟨path, pk⟩, hunix, h⟩ := Except.bind_eq_ok.1 h
    cases h
    exact ⟨path, pk, hunix, rfl⟩
  · rintro ⟨path, pk, hunix, rfl⟩
    exact Except.bind_eq_ok.2 ⟨_, hunix, rfl⟩

/-! ## What is written -/

theorem toList_toString (n : ℕ) : (toString n).toList = Nat.toDigits 10 n := Nat.toList_repr

/-- The text in front of `://` in a full address. -/
def fullScheme : Proto → List Char
  | .tcp => "tcp".toList
  | .tcpCurve => "curve".toList
  | .ipc => "ipc".toList
  | .ipcCurve => "ipc+curve".toList

theorem colon_notMem_fullScheme (p : Proto) : ':' ∉ fullScheme p := by
  cases p <;> decide

/-- The text behind it. -/
def fullBody (x : Oxenc) (a : Address) (enc : Encoding) : List Char :=
  match a.protocol with
  | .tcp => a.host.toList ++ ':' :: Nat.toDigits 10 a.port
  | .tcpCurve => a.host.toList ++ ':' :: Nat.toDigits 10 a.port ++ '/' :: a.encodePubkey x enc
  | .ipc => a.socket.toList
  | .ipcCurve => a.socket.toList ++ '/' :: a.encodePubkey x enc

theorem toList_fullAddress (x : Oxenc) (a : Address) (enc : Encoding) :
    (a.fullAddress x enc).toList = fullScheme a.protocol ++ "://".toList ++ a.fullBody x enc := by
  obtain ⟨protocol, host, port, socket, pubkey⟩ := a
  cases protocol with
  | tcp =>
    simp only [fullAddress, String.toList_append, toList_toString, List.append_assoc]
    rfl
  | tcpCurve =>
    simp only [fullAddress, fullBody, String.toList_append, toList_toString, String.toList_ofList,
      List.append_assoc]
    rfl
  | ipc =>
    simp only [fullAddress, String.toList_append]
    rfl
  | ipcCurve =>
    simp only [fullAddress, fullBody, String.toList_append, String.toList_ofList, List.append_assoc]
    rfl

end Address

end Control

end OxenMQ
