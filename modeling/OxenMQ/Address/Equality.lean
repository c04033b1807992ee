import OxenMQ.Address.Spec

/-!
# When two addresses are equal

`operator==` compares the fields that the protocol uses, and `std::hash` is that of the full address
with the pubkey in hex.  `eq_iff_fullAddress` says that these agree: two addresses are equal exactly
if they have the same full address.

The fields may have anything in them.  A host with colons in it or a path that ends like one with a
pubkey make no difference, because the full address can be cut from its end: there is no colon in a
port, and no slash in hex.
-/

set_option autoImplicit false

namespace OxenMQ

namespace Control

namespace Address

variable {x : Oxenc} {a b : Address}

/-- A text can be cut at the last place where a character occurs. -/
theorem append_cons_inj {l₁ l₂ t₁ t₂ : List Char} {c : Char} (h₁ : c ∉ t₁) (h₂ : c ∉ t₂)
    (h : l₁ ++ c :: t₁ = l₂ ++ c :: t₂) : l₁ = l₂ ∧ t₁ = t₂ := by
  rcases List.append_eq_append_iff.1 h with ⟨m, rfl, hm⟩ | ⟨m, rfl, hm⟩
  · cases m with
    | nil => exact ⟨(List.append_nil l₁).symm, (List.cons.inj hm).2⟩
    | cons d m =>
      have ht : t₁ = m ++ c :: t₂ := (List.cons.inj hm).2
      exact absurd (ht ▸ List.mem_append_right m List.mem_cons_self) h₁
  · cases m with
    | nil => exact ⟨List.append_nil l₂, (List.cons.inj hm).2.symm⟩
    | cons d m =>
      have ht : t₂ = m ++ c :: t₁ := (List.cons.inj hm).2
      exact absurd (ht ▸ List.mem_append_right m List.mem_cons_self) h₂

theorem colon_notMem_toDigits (n : ℕ) : ':' ∉ Nat.toDigits 10 n := by
  intro h
  have hdigit := Nat.isDigit_of_mem_toDigits (by decide) (by decide) h
  cases hdigit

theorem toDigits_injective : Function.Injective (Nat.toDigits 10) := by
  intro m n h
  have hvalue := congrArg (fun digits => Nat.ofDigitChars 10 digits 0) h
  simpa only [Nat.ofDigitChars_toDigits (b := 10) (by decide) (by decide)] using hvalue

/-- A host and a port. -/
theorem host_port_inj {host host' : List Char} {port port' : ℕ}
    (h : host ++ ':' :: Nat.toDigits 10 port = host' ++ ':' :: Nat.toDigits 10 port') :
    host = host' ∧ port = port' := by
  obtain ⟨hhost, hport⟩ :=
    append_cons_inj (colon_notMem_toDigits port) (colon_notMem_toDigits port') h
  exact ⟨hhost, toDigits_injective hport⟩

theorem fullScheme_injective : Function.Injective fullScheme := by
  intro p q h
  cases p <;> cases q <;> first | rfl | cases h

/-- The full address says which protocol it is for. -/
theorem fullAddress_inj {enc : Encoding} (h : a.fullAddress x enc = b.fullAddress x enc) :
    a.protocol = b.protocol ∧ a.fullBody x enc = b.fullBody x enc := by
  have hlist := congrArg (fun s => splitProtocol (String.toList s)) h
  simp only [toList_fullAddress, splitProtocol_append (colon_notMem_fullScheme _)] at hlist
  obtain ⟨hscheme, hbody⟩ := Prod.mk.inj (Option.some.inj hlist)
  exact ⟨fullScheme_injective hscheme, hbody⟩

/-- `operator==`, by the protocol. -/
theorem eq_iff : a.eq b = true ↔ a.protocol = b.protocol ∧
    (a.tcp = true → a.host = b.host ∧ a.port = b.port) ∧ (a.tcp = false → a.socket = b.socket) ∧
      (a.curve = true → a.pubkey = b.pubkey) := by
  rw [eq]
  cases a.tcp <;> cases a.curve <;> simp [and_assoc]

/-- The fields that are not compared have no influence on the full address. -/
theorem fullAddress_of_eq (h : a.eq b = true) (enc : Encoding) :
    a.fullAddress x enc = b.fullAddress x enc := by
  obtain ⟨hprotocol, htcp, hipc, hcurve⟩ := eq_iff.1 h
  obtain ⟨protocol, host, port, socket, pubkey⟩ := a
  obtain ⟨protocol', host', port', socket', pubkey'⟩ := b
  obtain rfl : protocol = protocol' := hprotocol
  cases protocol with
  | tcp =>
    obtain ⟨rfl, rfl⟩ : host = host' ∧ port = port' := htcp rfl
    rfl
  | tcpCurve =>
    obtain ⟨rfl, rfl⟩ : host = host' ∧ port = port' := htcp rfl
    obtain rfl : pubkey = pubkey' := hcurve rfl
    cases enc <;> rfl
  | ipc =>
    obtain rfl : socket = socket' := hipc rfl
    rfl
  | ipcCurve =>
    obtain rfl : socket = socket' := hipc rfl
    obtain rfl : pubkey = pubkey' := hcurve rfl
    cases enc <;> rfl

/-- `oxenc::to_hex` is injective on strings of bytes, and its codes have no slash in them. -/
structure HexCodes (encode : List Char → List Char) : Prop where
  injective : ∀ s t : List Char, (∀ c ∈ s, c.toNat < 256) → (∀ c ∈ t, c.toNat < 256) →
    encode s = encode t → s = t
  slash : ∀ s, '/' ∉ encode s

theorem eq_of_fullAddress (hhex : HexCodes x.hex.encode)
    (ha : ∀ c ∈ a.pubkey.toList, c.toNat < 256) (hb : ∀ c ∈ b.pubkey.toList, c.toNat < 256)
    (h : a.fullAddress x .hex = b.fullAddress x .hex) : a.eq b = true := by
  obtain ⟨hprotocol, hbody⟩ := fullAddress_inj h
  have hkey : ∀ {l l' : List Char},
      l ++ '/' :: a.encodePubkey x .hex = l' ++ '/' :: b.encodePubkey x .hex →
      l = l' ∧ a.pubkey = b.pubkey := fun heq => by
    obtain ⟨hl, hpk⟩ := append_cons_inj (hhex.slash _) (hhex.slash _) heq
    exact ⟨hl, String.toList_injective (hhex.injective _ _ ha hb hpk)⟩
  obtain ⟨protocol, host, port, socket, pubkey⟩ := a
  obtain ⟨protocol', host', port', socket', pubkey'⟩ := b
  obtain rfl : protocol = protocol' := hprotocol
  refine eq_iff.2 ⟨rfl, ?_⟩
  cases protocol with
  | tcp =>
    obtain ⟨hhost, hport⟩ := host_port_inj hbody
    exact ⟨fun _ => ⟨String.toList_injective hhost, hport⟩, nofun, nofun⟩
  | tcpCurve =>
    obtain ⟨htcp, hpk⟩ := hkey hbody
    obtain ⟨hhost, hport⟩ := host_port_inj htcp
    exact ⟨fun _ => ⟨String.toList_injective hhost, hport⟩, nofun, fun _ => hpk⟩
  | ipc => exact ⟨nofun, fun _ => String.toList_injective hbody, nofun⟩
  | ipcCurve =>
    obtain ⟨hsocket, hpk⟩ := hkey hbody
    exact ⟨nofun, fun _ => String.toList_injective hsocket, fun _ => hpk⟩

/-- `std::hash<oxenmq::address>`, for a hash function of strings. -/
def hash (x : Oxenc) (stringHash : String → ℕ) (a : Address) : ℕ :=
  stringHash (a.fullAddress x .hex)

/-- **Two addresses are equal exactly if they have the same full address**, so that equal addresses
have equal hashes. -/
theorem eq_iff_fullAddress (x : Oxenc) (hhex : HexCodes x.hex.encode)
    (ha : ∀ c ∈ a.pubkey.toList, c.toNat < 256) (hb : ∀ c ∈ b.pubkey.toList, c.toNat < 256) :
    (a.eq b = true ↔ a.fullAddress x .hex = b.fullAddress x .hex) ∧
    ∀ stringHash, a.eq b = true → a.hash x stringHash = b.hash x stringHash :=
  ⟨⟨fun h => fullAddress_of_eq h .hex, eq_of_fullAddress hhex ha hb⟩,
    fun stringHash h => congrArg stringHash (fullAddress_of_eq h .hex)⟩

theorem hexCodes_reference : HexCodes Oxenc.reference.hex.encode where
  injective s t hs ht h := by
    have hread := congrArg hexAlphabet.read h
    have hk : 0 < 4 ∧ 4 ≤ 8 := by decide
    exact (hexAlphabet.read_write hk.1 hk.2 hs).symm.trans
      (hread.trans (hexAlphabet.read_write hk.1 hk.2 ht))
  slash s h := by
    have hdigit : hexAlphabet.digit '/' = false := by decide
    exact Bool.false_ne_true (hdigit.symm.trans (hexAlphabet.digit_write s '/' h))

/-- A path that ends like one with a pubkey, and a path with this pubkey: the path of the first is
the text that the second has behind the protocol. -/
def keyInPath : Address × Address :=
  ({ protocol := .ipc, socket := "/run/socket/6b" },
    { protocol := .ipcCurve, socket := "/run/socket", pubkey := "k" })

theorem eq_iff_fullAddress_keyInPath :
    HexCodes Oxenc.reference.hex.encode ∧
    (keyInPath.1.eq keyInPath.2 = true ↔
      keyInPath.1.fullAddress .reference .hex = keyInPath.2.fullAddress .reference .hex) ∧
    ∀ stringHash, keyInPath.1.eq keyInPath.2 = true →
      keyInPath.1.hash .reference stringHash = keyInPath.2.hash .reference stringHash :=
  ⟨hexCodes_reference, eq_iff_fullAddress .reference hexCodes_reference (by simp [keyInPath])
    (by simp [keyInPath])⟩

end Address

end Control

end OxenMQ
