import OxenMQ.Address.Grammar

/-!
# The constructor with its accesses checked

`Address.parse` takes texts apart without positions.  The source has positions in it: it looks at
single characters with `front()`, `back()` and `operator[]`, and cuts with `substr` and
`remove_prefix`.  `substr` throws `std::out_of_range` if it is asked for something behind the end,
and the others must not be asked.  The functions here, under the names with `checked`, are the same
parser with these accesses as they are in the source, where a bad one is a `Fault`.

`checkedParse_eq` says that there is none, for any text: the two parsers do the same.  So what
escapes from the constructor is what `Address.parse` throws.  That is `std::invalid_argument`, as it
is documented, with one exception: `std::stoi` throws `std::out_of_range` if the port does not fit
into an `int` (`documented_iff`).
-/

set_option autoImplicit false

namespace OxenMQ

namespace Control

namespace Address

variable {x : Oxenc} {qr : Bool} {addr host rest : List Char}

/-! ## Accesses -/

/-- What can go wrong. -/
inductive Fault where
  | exception (e : ParseError)
  /-- The behaviour of an access outside the text is undefined. -/
  | outOfBounds
  deriving DecidableEq, Repr

/-- An exception of the parser. -/
def invalid {α : Type} (what : String) : Except Fault α :=
  throw (.exception (.invalidArgument what))

/-- `operator[]`. -/
def index (s : List Char) (i : ℕ) : Except Fault Char :=
  match s[i]? with
  | some c => return c
  | none => throw .outOfBounds

def front (s : List Char) : Except Fault Char := index s 0

def back (s : List Char) : Except Fault Char :=
  match s.getLast? with
  | some c => return c
  | none => throw .outOfBounds

def removePrefix (s : List Char) (n : ℕ) : Except Fault (List Char) :=
  if n ≤ s.length then return s.drop n else throw .outOfBounds

def substr (s : List Char) (pos n : ℕ) : Except Fault (List Char) :=
  if pos ≤ s.length then return (s.drop pos).take n
  else throw (.exception (.outOfRange "basic_string_view::substr"))

/-- `find_first_not_of`, from a position on. -/
def findFirstNotOf (p : Char → Bool) (s : List Char) (start : ℕ) : Option ℕ :=
  ((s.drop start).findIdx? fun c => !p c).map (start + ·)

/-- `find` of a text. -/
def find (pat : List Char) : List Char → Option ℕ
  | [] => none
  | c :: cs => if pat.isPrefixOf (c :: cs) then some 0 else (find pat cs).map (· + 1)

/-! ## The parser -/

/-- Does the text begin with a key of `n` characters? -/
def leading (valid : List Char → Bool) (n : ℕ) (s : List Char) :
    Except Fault (Option (List Char)) :=
  if n ≤ s.length then do
    let key ← substr s 0 n
    return if valid key then some key else none
  else return none

/-- `decode_pubkey`. -/
def checkedDecodePubkey (x : Oxenc) (input : List Char) (qr : Bool) :
    Except Fault (List Char × List Char) := do
  match ← leading isHex 64 input with
  | some key => return (x.hex.decode key, ← removePrefix input 64)
  | none =>
    match ← leading isBase32z 52 input with
    | some key => return (x.base32z.decode key, ← removePrefix input 52)
    | none =>
      match ← if qr then pure none else leading isBase64 43 input with
      | some key =>
        let rest ← removePrefix input 43
        if rest.isEmpty then return (fromBase64 x key, rest)
        else if (← front rest) = '=' then return (fromBase64 x key, ← removePrefix rest 1)
        else return (fromBase64 x key, rest)
      | none => invalid "No pubkey found"

/-- The closing delimiter of an IPv6 address, and the brackets in place of the dollar signs. -/
def checkedBrackets (host : List Char) (qr : Bool) : Except Fault (List Char) := do
  if qr then
    let host := if (← front host) = '$' then host.set 0 '[' else host
    let host := if (← back host) = '$' then host.set (host.length - 1) ']' else host
    return host
  else return host

/-- The first part of `parse_tcp`. -/
def checkedHost (addr : List Char) (qr : Bool) : Except Fault (List Char × List Char) := do
  let c ← front addr
  if c = '[' ∨ qr ∧ c = '$' then
    match findFirstNotOf ipv6Char addr 1 with
    | none => invalid "Could not find terminating ] while parsing an IPv6 address"
    | some pos =>
      let close ← index addr pos
      if close = ']' ∨ qr ∧ close = '$' then
        let host ← checkedBrackets (← substr addr 0 (pos + 1)) qr
        return (host, ← removePrefix addr (pos + 1))
      else
        let expected := if qr then "$" else "]"
        invalid ("Expected " ++ expected ++ " to close IPv6 address but found " ++ close.toString)
  else
    match addr.findIdx? (· == ':') with
    | none => invalid "Could not determine host (no following ':port' found)"
    | some 0 => invalid "Host cannot be empty"
    | some pos => return (← substr addr 0 pos, ← removePrefix addr pos)

/-- The number in the first `pos` characters, as a port. -/
def checkedNumber (addr : List Char) (pos : ℕ) : Except Fault (ℕ × List Char) := do
  let port ← (stoi (← substr addr 0 pos)).mapError Fault.exception
  if port = 0 then invalid "Could not parse numeric port in address string"
  else if port > 65535 then invalid "Invalid port: port must be in range 1-65535"
  else return (port, ← removePrefix addr pos)

/-- The second part of `parse_tcp`. -/
def checkedPort (addr : List Char) : Except Fault (ℕ × List Char) := do
  if addr.length < 2 then invalid "Could not find :port in address string"
  else if (← index addr 0) ≠ ':' then invalid "Could not find :port in address string"
  else
    let addr ← removePrefix addr 1
    match findFirstNotOf Char.isDigit addr 0 with
    | some 0 => invalid "Could not find numeric port in address string"
    | pos => checkedNumber addr (pos.getD addr.length)

/-- The last part of `parse_tcp`. -/
def checkedPubkey (x : Oxenc) (addr : List Char) (qr expectPubkey : Bool) :
    Except Fault (List Char × List Char) := do
  if expectPubkey then
    if addr.length < 1 + encLength (if qr then .base32z else .base64) then
      invalid "Invalid address: expected /PUBKEY after port"
    else if (← front addr) ≠ '/' then invalid "Invalid address: expected /PUBKEY after port"
    else
      let (pubkey, rest) ← checkedDecodePubkey x (← removePrefix addr 1) qr
      if rest.isEmpty then return (pubkey, rest)
      else invalid "Invalid address: found unexpected trailing data after pubkey"
  else if addr.isEmpty then return ([], addr)
  else invalid "Invalid address: found unexpected trailing data after port"

/-- `parse_tcp`. -/
def checkedTcp (x : Oxenc) (addr : List Char) (qr expectPubkey : Bool) :
    Except Fault (List Char × ℕ × List Char × List Char) := do
  let (host, addr) ← checkedHost addr qr
  let host := if qr then host.map Char.toLower else host
  let (port, addr) ← checkedPort addr
  let (pubkey, addr) ← checkedPubkey x addr qr expectPubkey
  return (host, port, pubkey, addr)

/-- The path and the key, if the text ends in a slash and a key of `n` characters. -/
def checkedTrailing (valid : List Char → Bool) (n : ℕ) (addr : List Char) :
    Except Fault (Option (List Char × List Char)) := do
  if n < addr.length then
    if (← index addr (addr.length - n - 1)) = '/' then
      let key ← substr addr (addr.length - n) addr.length
      if valid key then return some (← substr addr 0 (addr.length - n - 1), key)
      else return none
    else return none
  else return none

def endsInPadding (addr : List Char) : Except Fault Bool := do
  if addr.length > 0 then return (← back addr) = '=' else return false

/-- `parse_unix`. -/
def checkedUnix (x : Oxenc) (addr : List Char) (expectPubkey : Bool) :
    Except Fault (List Char × List Char) := do
  if expectPubkey then
    let b64Len := if ← endsInPadding addr then 44 else 43
    match ← checkedTrailing isHex 64 addr with
    | some (path, key) => return (path, x.hex.decode key)
    | none =>
      match ← checkedTrailing isBase32z 52 addr with
      | some (path, key) => return (path, x.base32z.decode key)
      | none =>
        match ← checkedTrailing isBase64 b64Len addr with
        | some (path, key) => return (path, fromBase64 x key)
        | none =>
          invalid ("icp+curve:// requires a trailing /PUBKEY value, got: " ++ String.ofList addr)
  else return (addr, [])

/-- The constructor, once it knows what kind of address it is. -/
def checkedAddr (x : Oxenc) (protocol : Proto) (qr : Bool) (addr : List Char) :
    Except Fault Address := do
  let a : Address := { protocol }
  if a.tcp then
    let (host, port, pubkey, rest) ← checkedTcp x addr qr a.curve
    if rest.isEmpty then
      return { a with host := String.ofList host, port, pubkey := String.ofList pubkey }
    else invalid ("Invalid trailing garbage '" ++ String.ofList rest ++ "' in address")
  else
    let (socket, pubkey) ← checkedUnix x addr a.curve
    return { a with socket := String.ofList socket, pubkey := String.ofList pubkey }

/-- The constructor from a text. -/
def checkedParse (x : Oxenc) (text : String) : Except Fault Address := do
  match find "://".toList text.toList with
  | none | some 0 => invalid "Invalid address: no protocol found"
  | some protoend =>
    let pro ← substr text.toList 0 protoend
    let addr ← removePrefix text.toList (protoend + 3)
    if addr.isEmpty then invalid "Invalid address: no value specified after protocol"
    else
      match protocolOf (String.ofList pro) with
      | none => invalid ("Invalid protocol '" ++ String.ofList pro ++ "'")
      | some (protocol, qr) =>
        if qr && !addr.all qrChar then
          invalid "Found non-QR-alphanumeric value in QR TCP:// or CURVE:// address"
        else checkedAddr x protocol qr addr

/-! ## Every access is inside -/

/-- What a parser without accesses does. -/
def lift {α : Type} (r : Except ParseError α) : Except Fault α := r.mapError .exception

@[simp]
theorem lift_pure {α : Type} (a : α) : lift (pure a) = pure a := rfl

@[simp]
theorem lift_throw {α : Type} (e : ParseError) :
    lift (throw e : Except ParseError α) = throw (.exception e) := rfl

@[simp]
theorem lift_bind {α β : Type} (r : Except ParseError α) (f : α → Except ParseError β) :
    lift (r >>= f) = lift r >>= fun a => lift (f a) := by
  cases r <;> rfl

theorem lift_ite {α : Type} (p : Prop) [Decidable p] (r r' : Except ParseError α) :
    lift (if p then r else r') = if p then lift r else lift r' := apply_ite lift p r r'

theorem index_append (l : List Char) (c : Char) (l' : List Char) :
    index (l ++ c :: l') l.length = pure c := by
  simp [index]

theorem front_cons (c : Char) (l : List Char) : front (c :: l) = pure c := rfl

theorem substr_append (l l' : List Char) : substr (l ++ l') 0 l.length = pure l := by
  simp [substr]

theorem removePrefix_append (l l' : List Char) : removePrefix (l ++ l') l.length = pure l' := by
  simp [removePrefix]

theorem leading_eq (valid : List Char → Bool) (n : ℕ) (s : List Char) :
    leading valid n s =
      pure (if n ≤ s.length ∧ valid (s.take n) = true then some (s.take n) else none) := by
  rw [leading]
  by_cases hn : n ≤ s.length
  · simp [hn, substr]
  · simp [hn]

theorem checkedDecodePubkey_eq (x : Oxenc) (input : List Char) (qr : Bool) :
    checkedDecodePubkey x input qr = lift (decodePubkey x input qr) := by
  rw [checkedDecodePubkey, decodePubkey, leading_eq, leading_eq, leading_eq]
  by_cases h64 : 64 ≤ input.length ∧ isHex (input.take 64) = true
  · simp [h64, removePrefix]
  · by_cases h52 : 52 ≤ input.length ∧ isBase32z (input.take 52) = true
    · simp [h64, h52, removePrefix]
    · by_cases h43 : 43 ≤ input.length ∧ isBase64 (input.take 43) = true
      · cases qr
        · rcases hrest : input.drop 43 with _ | ⟨c, rest⟩
          · simp [h64, h52, h43, removePrefix, hrest]
          · by_cases hc : c = '=' <;> simp [h64, h52, h43, removePrefix, hrest, front_cons, hc]
        · simp [h64, h52, invalid]
      · cases qr <;> simp [h64, h52, h43, invalid]

/-- Where a text stops to consist of some characters. -/
theorem findIdx?_not (p : Char → Bool) (s : List Char) :
    s.findIdx? (fun c => !p c) =
      if s.dropWhile p = [] then none else some (s.takeWhile p).length := by
  induction s with
  | nil => rfl
  | cons c cs ih =>
    cases hc : p c
    · simp [List.findIdx?_cons, hc]
    · rw [List.findIdx?_cons, ih, List.dropWhile_cons_of_pos hc, List.takeWhile_cons_of_pos hc]
      by_cases hd : cs.dropWhile p = [] <;> simp [hc, hd]

theorem checkedBrackets_eq (c close : Char) (inner : List Char) (qr : Bool) :
    checkedBrackets (c :: inner ++ [close]) qr =
      pure ((if qr ∧ c = '$' then '[' else c) :: inner ++ [if qr ∧ close = '$' then ']' else close]) := by
  have hfront : (if c = '$' then (c :: inner ++ [close]).set 0 '[' else c :: inner ++ [close]) =
      (if c = '$' then '[' else c) :: inner ++ [close] := by
    split <;> rfl
  have hback : ∀ d : Char, back (d :: inner ++ [close]) = pure close := fun d => by
    rw [back, List.getLast?_append_of_ne_nil _ (by simp)]
    rfl
  have hset : ∀ d : Char, (if close = '$' then
      (d :: inner ++ [close]).set ((d :: inner ++ [close]).length - 1) ']'
      else d :: inner ++ [close]) = d :: inner ++ [if close = '$' then ']' else close] :=
        fun d => by
    split
    · rw [List.set_append_right _ _ (by simp)]
      simp
    · rfl
  cases qr
  · simp [checkedBrackets]
  · simp only [checkedBrackets, if_true, List.cons_append, front_cons, pure_bind, true_and]
    simp only [← List.cons_append, hfront, hback, pure_bind, hset]

theorem checkedHost_eq (haddr : addr ≠ []) (qr : Bool) :
    checkedHost addr qr = lift (parseHost addr qr) := by
  obtain ⟨c, tail, rfl⟩ := List.exists_cons_of_ne_nil haddr
  rw [checkedHost, parseHost, front_cons, pure_bind]
  by_cases hc : c = '[' ∨ qr = true ∧ c = '$'
  · rw [if_pos hc, if_pos hc, findFirstNotOf, List.drop_one, List.tail_cons, findIdx?_not]
    have htail := List.takeWhile_append_dropWhile (p := ipv6Char) (l := tail)
    generalize tail.takeWhile ipv6Char = inner, tail.dropWhile ipv6Char = rest at htail ⊢
    rcases rest with _ | ⟨close, rest⟩
    · rfl
    · have hindex := index_append (c :: inner) close rest
      have hsubstr := substr_append (c :: inner ++ [close]) rest
      have hremove := removePrefix_append (c :: inner ++ [close]) rest
      have hlen : (c :: inner ++ [close]).length = 1 + inner.length + 1 := by
        simp [Nat.add_comm]
      rw [List.append_assoc, hlen] at hsubstr hremove
      rw [List.length_cons, Nat.add_comm] at hindex
      subst htail
      simp only [List.cons_append, List.nil_append, reduceCtorEq, if_false, Option.map_some]
        at hindex hsubstr hremove ⊢
      rw [hindex, pure_bind]
      by_cases hclose : close = ']' ∨ qr = true ∧ close = '$'
      · rw [if_pos hclose, if_pos hclose, hsubstr, hremove, pure_bind]
        have hbrackets := checkedBrackets_eq c close inner qr
        simp only [List.cons_append] at hbrackets
        rw [hbrackets]
        rfl
      · rw [if_neg hclose, if_neg hclose]
        rfl
  · rw [if_neg hc, if_neg hc]
    generalize c :: tail = addr
    have hfind := findIdx?_not (· ≠ ':') addr
    simp only [ne_eq, decide_not, Bool.not_not] at hfind
    rw [show (fun d : Char => d == ':') = fun d => decide (d = ':') from rfl, hfind]
    have haddr := List.takeWhile_append_dropWhile (p := fun d => !decide (d = ':')) (l := addr)
    simp only [ne_eq, decide_not]
    generalize addr.takeWhile (fun d => !decide (d = ':')) = host,
      addr.dropWhile (fun d => !decide (d = ':')) = rest at haddr ⊢
    subst haddr
    rcases rest with _ | ⟨d, rest⟩
    · rfl
    · rcases host with _ | ⟨h, host⟩
      · rfl
      · have hsubstr := substr_append (h :: host) (d :: rest)
        have hremove := removePrefix_append (h :: host) (d :: rest)
        simp only [List.cons_append, List.length_cons] at hsubstr hremove
        simp [hsubstr, hremove]

theorem checkedNumber_eq (digits rest : List Char) :
    checkedNumber (digits ++ rest) digits.length = lift (do
      let port ← stoi digits
      if port = 0 then throw (.invalidArgument "Could not parse numeric port in address string")
      else if port > 65535 then
        throw (.invalidArgument "Invalid port: port must be in range 1-65535")
      else return (port, rest)) := by
  simp only [checkedNumber, substr_append, removePrefix_append, pure_bind, lift_bind, lift_ite,
    lift_throw, lift_pure]
  rfl

theorem checkedPort_eq (addr : List Char) : checkedPort addr = lift (parsePort addr) := by
  rw [checkedPort, parsePort]
  rcases addr with _ | ⟨c, _ | ⟨d, tail⟩⟩
  · rfl
  · rfl
  rw [if_neg (by simp), show index (c :: d :: tail) 0 = pure c from rfl, pure_bind]
  by_cases hc : c = ':'
  · rw [if_neg (not_not.2 hc), if_neg (by simp [hc]),
      show removePrefix (c :: d :: tail) 1 = pure (d :: tail) from rfl, pure_bind, List.drop_one,
      List.tail_cons, findFirstNotOf, List.drop_zero, findIdx?_not]
    have haddr := List.takeWhile_append_dropWhile (p := Char.isDigit) (l := d :: tail)
    generalize (d :: tail).takeWhile Char.isDigit = digits,
      (d :: tail).dropWhile Char.isDigit = rest at haddr ⊢
    rcases digits with _ | ⟨e, digits⟩
    · obtain rfl : rest = d :: tail := haddr
      rfl
    · rw [← haddr]
      have hrest := checkedNumber_eq (e :: digits) rest
      rcases rest with _ | ⟨r, rest⟩
      · simpa using hrest
      · simpa [Nat.add_comm] using hrest
  · rw [if_pos hc, if_pos (by simp [hc])]
    rfl

theorem checkedPubkey_eq (x : Oxenc) (addr : List Char) (qr expectPubkey : Bool) :
    checkedPubkey x addr qr expectPubkey = lift (parsePubkey x addr qr expectPubkey) := by
  rw [checkedPubkey, parsePubkey]
  cases expectPubkey
  · by_cases haddr : addr = [] <;> simp [haddr, invalid]
  · simp only [if_true]
    by_cases hlen : addr.length < 1 + encLength (if qr = true then .base32z else .base64)
    · rw [if_pos hlen, if_pos (.inl hlen)]
      rfl
    · rcases addr with _ | ⟨c, addr⟩
      · exact absurd (Nat.succ_le_iff.1 (Nat.le_add_right 1 _)) hlen
      · rw [if_neg hlen, front_cons, pure_bind]
        by_cases hc : c = '/'
        · rw [if_neg (not_not.2 hc), if_neg (not_or.2 ⟨hlen, by simp [hc]⟩),
            show removePrefix (c :: addr) 1 = pure addr from rfl, pure_bind, checkedDecodePubkey_eq,
            lift_bind, List.drop_one, List.tail_cons]
          simp only [lift_ite, lift_pure, lift_throw, invalid]
        · rw [if_pos hc, if_pos (by simp [hc])]
          rfl

theorem checkedTcp_eq (x : Oxenc) (haddr : addr ≠ []) (qr expectPubkey : Bool) :
    checkedTcp x addr qr expectPubkey = lift (parseTcp x addr qr expectPubkey) := by
  simp only [checkedTcp, parseTcp, checkedHost_eq haddr, checkedPort_eq, checkedPubkey_eq,
    lift_bind, lift_pure]

theorem checkedTrailing_eq (valid : List Char → Bool) (n : ℕ) (addr : List Char) :
    checkedTrailing valid n addr = pure (if trailingKey valid n addr = true then
      some (addr.take (addr.length - n - 1), addr.drop (addr.length - n)) else none) := by
  rw [checkedTrailing, trailingKey]
  by_cases hn : n < addr.length
  · obtain ⟨c, hc⟩ : ∃ c, addr[addr.length - n - 1]? = some c :=
      ⟨_, List.getElem?_eq_getElem (by omega)⟩
    have hkey : substr addr (addr.length - n) addr.length = pure (addr.drop (addr.length - n)) := by
      simp only [substr, Nat.sub_le, if_true]
      rw [List.take_of_length_le (by rw [List.length_drop]; exact Nat.sub_le _ _)]
    have hpath : substr addr 0 (addr.length - n - 1) = pure (addr.take (addr.length - n - 1)) := rfl
    rw [if_pos hn, index, hc, hkey, hpath]
    by_cases hslash : c = '/' <;> by_cases hvalid : valid (addr.drop (addr.length - n)) = true <;>
      simp [hn, hslash, hvalid]
  · simp [hn]

theorem endsInPadding_eq (addr : List Char) :
    endsInPadding addr = pure (decide (addr.getLast? = some '=')) := by
  rw [endsInPadding, back]
  rcases hlast : addr.getLast? with _ | c
  · rw [List.getLast?_eq_none_iff.1 hlast]
    rfl
  · have hpos : 0 < addr.length := List.length_pos_of_mem (List.mem_of_getLast? hlast)
    simp [hpos]

theorem checkedUnix_eq (x : Oxenc) (addr : List Char) (expectPubkey : Bool) :
    checkedUnix x addr expectPubkey = lift (parseUnix x addr expectPubkey) := by
  rw [checkedUnix, parseUnix]
  cases expectPubkey
  · rfl
  · simp only [if_true, endsInPadding_eq, checkedTrailing_eq, pure_bind, decide_eq_true_eq,
      lift_ite, lift_pure, lift_throw]
    generalize (if addr.getLast? = some '=' then 44 else 43) = b64Len
    by_cases h64 : trailingKey isHex 64 addr = true
    · simp only [h64, if_true]
    · by_cases h52 : trailingKey isBase32z 52 addr = true
      · simp only [h64, h52, if_true]
        rfl
      · by_cases hb64 : trailingKey isBase64 b64Len addr = true
        · simp only [h64, h52, hb64, if_true]
          rfl
        · simp only [h64, h52, hb64]
          rfl

theorem checkedAddr_eq (x : Oxenc) (protocol : Proto) (qr : Bool) (haddr : addr ≠ []) :
    checkedAddr x protocol qr addr = lift (parseAddr x protocol qr addr) := by
  simp only [checkedAddr, parseAddr, checkedTcp_eq x haddr, checkedUnix_eq, lift_ite, lift_bind,
    lift_pure, lift_throw, invalid]

theorem find_eq (s : List Char) :
    find "://".toList s = (splitProtocol s).map fun r => r.1.length := by
  induction s with
  | nil => rfl
  | cons c cs ih =>
    rw [find, splitProtocol, ih]
    split
    · rfl
    · rw [Option.map_map, Option.map_map]
      rfl

/-- The accesses are all inside: the parser of the source does what `Address.parse` does. -/
theorem checkedParse_eq (x : Oxenc) (text : String) :
    checkedParse x text = lift (parse x text) := by
  rw [checkedParse, parse, find_eq]
  rcases hsplit : splitProtocol text.toList with _ | ⟨pro, addr⟩
  · rfl
  · rcases pro with _ | ⟨p, pro⟩
    · rfl
    · have htext := eq_of_splitProtocol hsplit
      have hpro : substr text.toList 0 (p :: pro).length = pure (p :: pro) := by
        rw [htext, List.append_assoc, substr_append]
      have haddr : removePrefix text.toList ((p :: pro).length + 3) = pure addr := by
        rw [htext, ← removePrefix_append (p :: pro ++ "://".toList) addr, List.length_append]
        rfl
      rcases addr with _ | ⟨c, addr⟩
      · simp only [Option.map_some, List.length_cons] at hpro haddr ⊢
        rw [hpro, haddr]
        rfl
      · simp only [Option.map_some, List.length_cons] at hpro haddr ⊢
        rw [hpro, haddr]
        simp only [pure_bind, List.isEmpty_cons, Bool.false_eq_true, if_false]
        rcases protocolOf (String.ofList (p :: pro)) with _ | ⟨protocol, qr⟩
        · rfl
        · rw [lift_ite, ← checkedAddr_eq x protocol qr (List.cons_ne_nil c addr)]
          rfl

/-! ## What escapes -/

/-- Does something else than what is documented escape? -/
def OutOfRange {α : Type} (r : Except ParseError α) : Prop := ∃ what, r = .error (.outOfRange what)

section

variable {α β : Type} {r : Except ParseError α}

@[simp]
theorem not_outOfRange_pure (a : α) : ¬ OutOfRange (pure a : Except ParseError α) := nofun

@[simp]
theorem not_outOfRange_throw (what : String) :
    ¬ OutOfRange (throw (.invalidArgument what) : Except ParseError α) := nofun

@[simp]
theorem outOfRange_ite {p : Prop} [Decidable p] {r' : Except ParseError α} :
    OutOfRange (if p then r else r') ↔ p ∧ OutOfRange r ∨ ¬ p ∧ OutOfRange r' := by
  split <;> simp [*]

@[simp]
theorem outOfRange_bind {f : α → Except ParseError β} :
    OutOfRange (r >>= f) ↔ OutOfRange r ∨ ∃ a, r = .ok a ∧ OutOfRange (f a) := by
  cases r with
  | error e =>
    refine ⟨fun ⟨what, h⟩ => .inl ⟨what, ?_⟩, ?_⟩
    · cases h
      rfl
    · rintro (⟨what, ⟨⟩⟩ | ⟨_, ⟨⟩, _⟩)
      exact ⟨what, rfl⟩
  | ok a =>
    refine ⟨fun h => .inr ⟨a, rfl, h⟩, ?_⟩
    rintro (⟨_, ⟨⟩⟩ | ⟨_, ⟨⟩, h⟩)
    exact h

end

@[simp]
theorem not_outOfRange_decodePubkey (x : Oxenc) (input : List Char) (qr : Bool) :
    ¬ OutOfRange (decodePubkey x input qr) := by
  simp [decodePubkey]

@[simp]
theorem not_outOfRange_parseHost (addr : List Char) (qr : Bool) :
    ¬ OutOfRange (parseHost addr qr) := by
  rcases addr with _ | ⟨front, tail⟩
  · exact not_outOfRange_throw _
  · rw [parseHost, outOfRange_ite]
    rintro (⟨_, h⟩ | ⟨_, h⟩) <;> revert h
    · rcases tail.dropWhile ipv6Char with _ | ⟨close, rest⟩ <;> simp
    · rcases (front :: tail).dropWhile (· ≠ ':') with _ | ⟨close, rest⟩ <;> simp

@[simp]
theorem not_outOfRange_parsePubkey (x : Oxenc) (addr : List Char) (qr expectPubkey : Bool) :
    ¬ OutOfRange (parsePubkey x addr qr expectPubkey) := by
  simp [parsePubkey]

@[simp]
theorem not_outOfRange_parseUnix (x : Oxenc) (addr : List Char) (expectPubkey : Bool) :
    ¬ OutOfRange (parseUnix x addr expectPubkey) := by
  simp [parseUnix]

/-- The digits of a number that is too large for an `int`, and what follows it. -/
structure HugeNumber (digits tail : List Char) : Prop where
  ne_nil : digits ≠ []
  digit : ∀ c ∈ digits, c.isDigit = true
  stop : ∀ c ∈ tail.head?, c.isDigit = false
  huge : 2 ^ 31 ≤ Nat.ofDigitChars 10 digits 0

@[simp]
theorem outOfRange_stoi {digits : List Char} :
    OutOfRange (stoi digits) ↔ 2 ^ 31 ≤ Nat.ofDigitChars 10 digits 0 := by
  rw [stoi]
  split
  · rename_i hlt
    exact ⟨nofun, fun hge => absurd hlt (not_lt.2 hge)⟩
  · rename_i hge
    exact ⟨fun _ => not_lt.1 hge, fun _ => ⟨_, rfl⟩⟩

theorem outOfRange_parsePort : OutOfRange (parsePort addr) ↔
    ∃ digits tail, addr = ':' :: (digits ++ tail) ∧ HugeNumber digits tail := by
  have hiff : OutOfRange (parsePort addr) ↔ (2 ≤ addr.length ∧ addr.head? = some ':') ∧
      (addr.drop 1).takeWhile Char.isDigit ≠ [] ∧
      2 ^ 31 ≤ Nat.ofDigitChars 10 ((addr.drop 1).takeWhile Char.isDigit) 0 := by
    simp only [parsePort, outOfRange_ite, outOfRange_bind, outOfRange_stoi, not_outOfRange_pure,
      not_outOfRange_throw, and_false, or_false, false_or, exists_false, not_or, not_lt, not_not,
      ne_eq, List.isEmpty_iff]
  rw [hiff]
  constructor
  · rintro ⟨⟨_, hcolon⟩, hne, hhuge⟩
    obtain ⟨tail, rfl⟩ := List.head?_eq_some_iff.1 hcolon
    refine ⟨tail.takeWhile Char.isDigit, tail.dropWhile Char.isDigit, ?_, hne,
      fun c hc => List.mem_takeWhile_imp hc, fun c hc => List.eq_false_of_mem_head?_dropWhile hc,
      hhuge⟩
    rw [List.takeWhile_append_dropWhile]
  · rintro ⟨digits, tail, rfl, h⟩
    have hlen : 0 < digits.length := List.length_pos_iff.2 h.ne_nil
    rw [List.drop_one, List.tail_cons, (List.takeWhile_dropWhile_append h.digit h.stop).1]
    refine ⟨⟨?_, rfl⟩, h.ne_nil, h.huge⟩
    rw [List.length_cons, List.length_append]
    omega

/-- The port does not fit into an `int`. -/
def HugePort (text : String) : Prop :=
  ∃ pro protocol qr hostText host digits tail,
    splitProtocol text.toList = some (pro, hostText ++ ':' :: (digits ++ tail)) ∧
    (String.ofList pro, protocol, qr) ∈ tcpSchemes ∧
    (qr = true → ∀ c ∈ hostText ++ ':' :: (digits ++ tail), qrChar c = true) ∧
    TcpHost qr hostText host ∧ HugeNumber digits tail

theorem outOfRange_parseTcp {curve : Bool} (hqr : qr = true → ∀ c ∈ addr, qrChar c = true) :
    OutOfRange (parseTcp x addr qr curve) ↔
      ∃ hostText host digits tail, addr = hostText ++ ':' :: (digits ++ tail) ∧
        TcpHost qr hostText host ∧ HugeNumber digits tail := by
  have hiff : OutOfRange (parseTcp x addr qr curve) ↔
      ∃ host rest, parseHost addr qr = .ok (host, rest) ∧ OutOfRange (parsePort rest) := by
    simp only [parseTcp, outOfRange_bind, not_outOfRange_parseHost, not_outOfRange_parsePubkey,
      not_outOfRange_pure, and_false, or_false, false_or, exists_false, Prod.exists]
  rw [hiff]
  constructor
  · rintro ⟨host, rest, hhost, hport⟩
    obtain ⟨digits, tail, rfl, hnumber⟩ := outOfRange_parsePort.1 hport
    obtain ⟨hostText, rfl, htext⟩ := (parseHost_iff hqr).1 ⟨host, hhost, rfl⟩
    exact ⟨hostText, _, digits, tail, rfl, htext, hnumber⟩
  · rintro ⟨hostText, host, digits, tail, rfl, htext, hnumber⟩
    obtain ⟨host', hhost, _⟩ := (parseHost_iff hqr).2 ⟨hostText, rfl, htext⟩
    exact ⟨host', _, hhost, outOfRange_parsePort.2 ⟨digits, tail, rfl, hnumber⟩⟩

theorem mem_tcpSchemes {pro : String} {protocol : Proto} (h : protocolOf pro = some (protocol, qr))
    (htcp : ({ protocol } : Address).tcp = true) : (pro, protocol, qr) ∈ tcpSchemes := by
  rw [protocolOf] at h
  repeat' split at h
  all_goals cases h
  all_goals simp_all [tcpSchemes, tcp]

theorem outOfRange_parseAddr {protocol : Proto} : OutOfRange (parseAddr x protocol qr addr) ↔
    ({ protocol } : Address).tcp = true ∧
      OutOfRange (parseTcp x addr qr ({ protocol } : Address).curve) := by
  simp only [parseAddr, outOfRange_ite, outOfRange_bind, not_outOfRange_parseUnix,
    not_outOfRange_pure, not_outOfRange_throw, and_false, or_false, exists_false]

theorem outOfRange_parse (x : Oxenc) (text : String) :
    OutOfRange (parse x text) ↔ HugePort text := by
  constructor
  · intro h
    rcases parse_cases x text with
      ⟨what, herror⟩ | ⟨pro, addr, protocol, qr, hsplit, _, hpro, hqr, hparse⟩
    · rw [herror] at h
      exact absurd h (not_outOfRange_throw what)
    · rw [hparse, outOfRange_parseAddr] at h
      have hchars : qr = true → ∀ c ∈ addr, qrChar c = true := fun hq => List.all_eq_true.1 (hqr hq)
      obtain ⟨hostText, host, digits, tail, rfl, hhost, hnumber⟩ :=
        (outOfRange_parseTcp hchars).1 h.2
      exact ⟨pro, protocol, qr, hostText, host, digits, tail, hsplit, mem_tcpSchemes hpro h.1,
        hchars, hhost, hnumber⟩
  · rintro ⟨pro, protocol, qr, hostText, host, digits, tail, hsplit, hpro, hqr, hhost, hnumber⟩
    obtain ⟨hcolon, hprotocol, htcp⟩ := tcpSchemes_spec hpro
    rw [parse_of_split (eq_of_splitProtocol hsplit) hcolon (by simp) hprotocol
      fun hq => List.all_eq_true.2 (hqr hq), outOfRange_parseAddr]
    exact ⟨htcp, (outOfRange_parseTcp hqr).2 ⟨hostText, host, digits, tail, rfl, hhost, hnumber⟩⟩

/-- **No access is outside, and what is documented escapes unless the port is too large for `int`.**
-/
theorem documented_iff (x : Oxenc) (text : String) :
    checkedParse x text ≠ .error .outOfBounds ∧
      (((∃ a, checkedParse x text = .ok a) ∨
          ∃ what, checkedParse x text = .error (.exception (.invalidArgument what))) ↔
        ¬ HugePort text) := by
  rw [checkedParse_eq, ← outOfRange_parse x]
  rcases parse x text with (what | what) | a
  · exact ⟨nofun, fun _ => not_outOfRange_throw what, fun _ => .inr ⟨what, rfl⟩⟩
  · refine ⟨nofun, ?_, fun h => absurd ⟨what, rfl⟩ h⟩
    rintro (⟨_, ⟨⟩⟩ | ⟨_, ⟨⟩⟩)
  · exact ⟨nofun, fun _ => not_outOfRange_pure a, fun _ => .inl ⟨a, rfl⟩⟩

/-- The smallest port that is too large. -/
theorem outOfRange_hugePort :
    checkedParse .reference "tcp://localhost:2147483648" =
    .error (.exception (.outOfRange "stoi")) := by
  decide +kernel

end Address

end Control

end OxenMQ
