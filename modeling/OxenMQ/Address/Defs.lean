import Mathlib
import OxenMQ.Control.Connect
import OxenMQ.Lib.Radix

/-!
# Addresses

The embedding of `address.cpp`: how the text of an address is read (`Address.parse`, the
constructor) and written (`Address.fullAddress`, `Address.qrAddress`).  A `string_view` is a list of
characters here, and a function that takes pieces off the front of one returns what is left of it.

The pubkey in an address is written in hex, in base32z or in base64.  The encoders and the decoders
are those of the `oxenc` library, and what the parser relies on is stated in `Oxenc`: they are
inverse to each other on 32 bytes, the lengths are as they have to be, and base32z is read in either
case.  What `oxenc` takes for hex, base32z and base64 is what its documentation says (`isHex`,
`isBase32z`, `isBase64`): digits of the alphabet, as many as byte strings have, where base64 may be
padded with `=` to a multiple of four.  `Oxenc.reference` is an implementation.
-/

set_option autoImplicit false

namespace OxenMQ

namespace Control

/-! ## Encodings -/

def hexAlphabet : Radix.Alphabet 4 where
  chars := "0123456789abcdef".toList
  fold := Char.toLower
  length_chars := by decide
  nodup_chars := by decide
  fold_chars := by decide

def base32zAlphabet : Radix.Alphabet 5 where
  chars := "ybndrfg8ejkmcpqxot1uwisza345h769".toList
  fold := Char.toLower
  length_chars := by decide
  nodup_chars := by decide
  fold_chars := by decide

def base64Alphabet : Radix.Alphabet 6 where
  chars := "ABCDEFGHIJKLMNOPQRSTUVWXYZabcdefghijklmnopqrstuvwxyz0123456789+/".toList
  fold := id
  length_chars := by decide
  nodup_chars := by decide
  fold_chars := List.map_id _

/-- 32 bytes. -/
def IsPubkey (pk : List Char) : Prop := pk.length = 32 ∧ ∀ c ∈ pk, c.toNat < 256

/-- An encoder and a decoder for an alphabet, as far as pubkeys are concerned. -/
structure Codec {k : ℕ} (a : Radix.Alphabet k) where
  encode : List Char → List Char
  decode : List Char → List Char
  length_encode : ∀ pk, IsPubkey pk → (encode pk).length = Radix.digitCount k 32
  digit_encode : ∀ pk, IsPubkey pk → ∀ c ∈ encode pk, a.digit c = true
  decode_encode : ∀ pk, IsPubkey pk → decode (encode pk) = pk
  length_decode : ∀ s, a.valid s = true → (decode s).length = Radix.byteCount k s.length
  byte_decode : ∀ s, ∀ c ∈ decode s, c.toNat < 256

structure Oxenc where
  hex : Codec hexAlphabet
  base32z : Codec base32zAlphabet
  /-- Without the padding. -/
  base64 : Codec base64Alphabet
  base32z_upper : ∀ s, base32z.decode (s.map Char.toUpper) = base32z.decode s

/-- Every alphabet has a codec. -/
def Codec.ofAlphabet {k : ℕ} (a : Radix.Alphabet k) (hk : 0 < k) (hk8 : k ≤ 8) : Codec a where
  encode := a.write
  decode := a.read
  length_encode pk hpk := by rw [a.length_write, hpk.1]
  digit_encode pk _ := a.digit_write pk
  decode_encode _ hpk := a.read_write hk hk8 hpk.2
  length_decode s _ := a.length_read s
  byte_decode := a.byte_read

def Oxenc.reference : Oxenc where
  hex := .ofAlphabet hexAlphabet (by decide) (by decide)
  base32z := .ofAlphabet base32zAlphabet (by decide) (by decide)
  base64 := .ofAlphabet base64Alphabet (by decide) (by decide)
  base32z_upper := base32zAlphabet.read_map Char.toLower_toUpper_eq_toLower

/-- `oxenc::is_hex`. -/
def isHex (s : List Char) : Bool := hexAlphabet.valid s

/-- `oxenc::is_base32z`. -/
def isBase32z (s : List Char) : Bool := base32zAlphabet.valid s

/-- `oxenc::is_base64`. -/
def isBase64 (s : List Char) : Bool :=
  let body := s.takeWhile base64Alphabet.digit
  let padding := s.dropWhile base64Alphabet.digit
  base64Alphabet.valid body &&
    (padding.isEmpty || (decide (padding = ['='] ∨ padding = ['=', '=']) && s.length % 4 == 0))

/-- `oxenc::to_base64`, which pads. -/
def toBase64 (x : Oxenc) (s : List Char) : List Char :=
  let digits := x.base64.encode s
  digits ++ List.replicate ((4 - digits.length % 4) % 4) '='

/-- `oxenc::from_base64`, which ignores the padding. -/
def fromBase64 (x : Oxenc) (s : List Char) : List Char :=
  x.base64.decode (s.takeWhile base64Alphabet.digit)

/-- The encodings of a pubkey. -/
inductive Encoding where
  | hex
  | base32z
  /-- Without the padding. -/
  | base64
  /-- `BASE32Z`: base32z in upper case. -/
  | upperBase32z
  deriving DecidableEq, Repr

def encLength : Encoding → ℕ
  | .hex => 64
  | .base64 => 43
  | .base32z => 52
  | .upperBase32z => 52

namespace Address

/-! ## Reading -/

/-- How the constructor fails. -/
inductive ParseError where
  | invalidArgument (what : String)
  | outOfRange (what : String)
  deriving DecidableEq, Repr

/-- `decode_pubkey`: the pubkey at the front of `input`, and what follows it. -/
def decodePubkey (x : Oxenc) (input : List Char) (qr : Bool) :
    Except ParseError (List Char × List Char) :=
  if 64 ≤ input.length ∧ isHex (input.take 64) then
    return (x.hex.decode (input.take 64), input.drop 64)
  else if 52 ≤ input.length ∧ isBase32z (input.take 52) then
    return (x.base32z.decode (input.take 52), input.drop 52)
  else if !qr ∧ 43 ≤ input.length ∧ isBase64 (input.take 43) then
    let rest := input.drop 43
    return (fromBase64 x (input.take 43), if rest.head? = some '=' then rest.drop 1 else rest)
  else throw (.invalidArgument "No pubkey found")

/-- The characters of an IPv6 address. -/
def ipv6Char (c : Char) : Bool := decide (c ∈ ":.1234567890abcdefABCDEF".toList)

/-- The first part of `parse_tcp`: the host, and what follows it.  `addr` is not empty. -/
def parseHost (addr : List Char) (qr : Bool) : Except ParseError (List Char × List Char) :=
  match addr with
  | [] => throw (.invalidArgument "Could not determine host (no following ':port' found)")
  | front :: tail =>
    if front = '[' ∨ qr ∧ front = '$' then
      let inner := tail.takeWhile ipv6Char
      match tail.dropWhile ipv6Char with
      | [] =>
        throw (.invalidArgument "Could not find terminating ] while parsing an IPv6 address")
      | close :: rest =>
        if close = ']' ∨ qr ∧ close = '$' then
          let front := if qr ∧ front = '$' then '[' else front
          let close := if qr ∧ close = '$' then ']' else close
          return (front :: inner ++ [close], rest)
        else
          let expected := if qr then "$" else "]"
          throw (.invalidArgument
            ("Expected " ++ expected ++ " to close IPv6 address but found " ++ close.toString))
    else
      let host := addr.takeWhile (· ≠ ':')
      match addr.dropWhile (· ≠ ':') with
      | [] => throw (.invalidArgument "Could not determine host (no following ':port' found)")
      | rest =>
        if host.isEmpty then throw (.invalidArgument "Host cannot be empty")
        else return (host, rest)

/-- `std::stoi`, on digits. -/
def stoi (digits : List Char) : Except ParseError ℕ :=
  let n := Nat.ofDigitChars 10 digits 0
  if n < 2 ^ 31 then return n else throw (.outOfRange "stoi")

/-- The second part of `parse_tcp`: the port, and what follows it. -/
def parsePort (addr : List Char) : Except ParseError (ℕ × List Char) :=
  if addr.length < 2 ∨ addr.head? ≠ some ':' then
    throw (.invalidArgument "Could not find :port in address string")
  else
    let digits := (addr.drop 1).takeWhile Char.isDigit
    if digits.isEmpty then
      throw (.invalidArgument "Could not find numeric port in address string")
    else do
      let port ← stoi digits
      if port = 0 then
        throw (.invalidArgument "Could not parse numeric port in address string")
      else if port > 65535 then
        throw (.invalidArgument "Invalid port: port must be in range 1-65535")
      else return (port, (addr.drop 1).dropWhile Char.isDigit)

/-- The last part of `parse_tcp`: the pubkey, if there has to be one, and nothing behind it. -/
def parsePubkey (x : Oxenc) (addr : List Char) (qr expectPubkey : Bool) :
    Except ParseError (List Char × List Char) :=
  if expectPubkey then
    if addr.length < 1 + encLength (if qr then .base32z else .base64) ∨ addr.head? ≠ some '/' then
      throw (.invalidArgument "Invalid address: expected /PUBKEY after port")
    else do
      let (pubkey, rest) ← decodePubkey x (addr.drop 1) qr
      if rest.isEmpty then return (pubkey, rest)
      else throw (.invalidArgument "Invalid address: found unexpected trailing data after pubkey")
  else if addr.isEmpty then return ([], addr)
  else throw (.invalidArgument "Invalid address: found unexpected trailing data after port")

/-- `parse_tcp`: the host, the port, the pubkey, and what follows. -/
def parseTcp (x : Oxenc) (addr : List Char) (qr expectPubkey : Bool) :
    Except ParseError (List Char × ℕ × List Char × List Char) := do
  let (host, addr) ← parseHost addr qr
  let host := if qr then host.map Char.toLower else host
  let (port, addr) ← parsePort addr
  let (pubkey, addr) ← parsePubkey x addr qr expectPubkey
  return (host, port, pubkey, addr)

/-- Does `addr` end in a slash and a key of `n` characters? -/
def trailingKey (valid : List Char → Bool) (n : ℕ) (addr : List Char) : Bool :=
  decide (n < addr.length) && addr[addr.length - n - 1]? == some '/' &&
    valid (addr.drop (addr.length - n))

/-- `parse_unix`: the path and the pubkey, which make up everything. -/
def parseUnix (x : Oxenc) (addr : List Char) (expectPubkey : Bool) :
    Except ParseError (List Char × List Char) :=
  let path := fun n => addr.take (addr.length - n - 1)
  let key := fun n => addr.drop (addr.length - n)
  if expectPubkey then
    let b64Len := if addr.getLast? = some '=' then 44 else 43
    if trailingKey isHex 64 addr then return (path 64, x.hex.decode (key 64))
    else if trailingKey isBase32z 52 addr then return (path 52, x.base32z.decode (key 52))
    else if trailingKey isBase64 b64Len addr then return (path b64Len, fromBase64 x (key b64Len))
    else throw (.invalidArgument
      ("icp+curve:// requires a trailing /PUBKEY value, got: " ++ String.ofList addr))
  else return (addr, [])

/-- `find("://")`: the text in front of the first `://`, and the text behind it. -/
def splitProtocol : List Char → Option (List Char × List Char)
  | [] => none
  | c :: cs =>
    if "://".toList.isPrefixOf (c :: cs) then some ([], cs.drop 2)
    else (splitProtocol cs).map fun r => (c :: r.1, r.2)

/-- What the text in front of `://` says: the protocol, and whether the address is for a QR code. -/
def protocolOf (pro : String) : Option (Proto × Bool) :=
  if pro = "tcp" then some (.tcp, false)
  else if pro = "tcp+curve" ∨ pro = "curve" then some (.tcpCurve, false)
  else if pro = "ipc" then some (.ipc, false)
  else if pro = "ipc+curve" then some (.ipcCurve, false)
  else if pro = "TCP" then some (.tcp, true)
  else if pro = "CURVE" then some (.tcpCurve, true)
  else none

/-- The characters that are allowed in an address for a QR code. -/
def qrChar (c : Char) : Bool :=
  c.isUpper || c.isDigit || decide (c ∈ "$:/.-".toList)

/-- The constructor, once it knows what kind of address it is. -/
def parseAddr (x : Oxenc) (protocol : Proto) (qr : Bool) (addr : List Char) :
    Except ParseError Address := do
  let a : Address := { protocol }
  if a.tcp then
    let (host, port, pubkey, rest) ← parseTcp x addr qr a.curve
    if rest.isEmpty then
      return { a with host := String.ofList host, port, pubkey := String.ofList pubkey }
    else
      throw (.invalidArgument
        ("Invalid trailing garbage '" ++ String.ofList rest ++ "' in address"))
  else
    let (socket, pubkey) ← parseUnix x addr a.curve
    return { a with socket := String.ofList socket, pubkey := String.ofList pubkey }

/-- The constructor from a text. -/
def parse (x : Oxenc) (text : String) : Except ParseError Address :=
  match splitProtocol text.toList with
  | none | some ([], _) => throw (.invalidArgument "Invalid address: no protocol found")
  | some (_, []) =>
    throw (.invalidArgument "Invalid address: no value specified after protocol")
  | some (pro, addr) =>
    match protocolOf (String.ofList pro) with
    | none => throw (.invalidArgument ("Invalid protocol '" ++ String.ofList pro ++ "'"))
    | some (protocol, qr) =>
      if qr && !addr.all qrChar then
        throw (.invalidArgument
          "Found non-QR-alphanumeric value in QR TCP:// or CURVE:// address")
      else parseAddr x protocol qr addr

/-! ## Writing -/

def encodePubkey (x : Oxenc) (a : Address) : Encoding → List Char
  | .hex => x.hex.encode a.pubkey.toList
  | .base32z => x.base32z.encode a.pubkey.toList
  | .upperBase32z => (x.base32z.encode a.pubkey.toList).map Char.toUpper
  | .base64 =>
    let pk := toBase64 x a.pubkey.toList
    if pk.length = 44 ∧ pk.getLast? = some '=' then pk.take 43 else pk

def fullAddress (x : Oxenc) (a : Address) (enc : Encoding) : String :=
  let pk := String.ofList (a.encodePubkey x enc)
  match a.protocol with
  | .tcp => "tcp://" ++ a.host ++ ":" ++ toString a.port
  | .tcpCurve => "curve://" ++ a.host ++ ":" ++ toString a.port ++ "/" ++ pk
  | .ipc => "ipc://" ++ a.socket
  | .ipcCurve => "ipc+curve://" ++ a.socket ++ "/" ++ pk

/-- The host in an address for a QR code: in upper case, and with the brackets of an IPv6 address
replaced. -/
def qrHost (host : List Char) : List Char :=
  let host := host.map Char.toUpper
  if host.head? = some '[' ∧ host.getLast? = some ']' then
    '$' :: (host.drop 1).dropLast ++ ['$']
  else host

/-- The text that `qr_address` puts together. -/
def qrText (x : Oxenc) (a : Address) : String :=
  let pro := if a.curve then "CURVE://" else "TCP://"
  let key := if a.curve then "/" ++ String.ofList (a.encodePubkey x .upperBase32z) else ""
  pro ++ String.ofList (qrHost a.host.toList) ++ ":" ++ toString a.port ++ key

/-- `qr_address`, or the text of the `logic_error`. -/
def qrAddress (x : Oxenc) (a : Address) : Except String String :=
  if !a.tcp then throw "Cannot construct a QR-friendly address for a non-TCP address"
  else if a.host = "" then
    throw "Cannot construct a QR-friendly address with an empty TCP host"
  else return a.qrText x

/-- `operator==`. -/
def eq (a b : Address) : Bool :=
  a.protocol == b.protocol && (!a.tcp || (a.host == b.host && a.port == b.port)) &&
    (a.tcp || a.socket == b.socket) && (!a.curve || a.pubkey == b.pubkey)

end Address

end Control

end OxenMQ
