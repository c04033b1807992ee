import OxenMQ.Address.Defs
import OxenMQ.Auth.Listeners
import OxenMQ.Lib.Properties

/-!
# Authentication of incoming connections

When somebody connects to a listening socket, libzmq sends a request to the proxy thread (the ZAP
protocol), which `process_zap_requests` answers.  The request names the domain of the socket, and so
the entry of `bind` with the `AllowFunc` to be asked.  The answer, if it is positive, has the pubkey
in hex as the user id and the authentication level as metadata.  Both are attached to every message
of the connection, and `extract_metadata` reads them.

A request is a list of frames of any number and contents.  An `AllowFunc` may return anything, also
a value that is not one of the enumerators, and something else each time; it is assumed to return.

What is proved about one request is `Answers`, and `listeners_authenticate` puts it together with
where the listeners have their entries.
-/

set_option autoImplicit false

namespace OxenMQ

open Control

/-! ## The answer to a request -/

/-- `to_string` of an authentication level. -/
def authToString (auth : ℤ) : String :=
  if auth = 0 then "denied"
  else if auth = 1 then "none"
  else if auth = 2 then "basic"
  else if auth = 3 then "admin"
  else "(unknown)"

/-- `zmtp_metadata`. -/
def zmtpMetadata (key value : String) : String :=
  String.ofList <|
    [Char.ofNat key.length] ++ key.toList ++
    [24, 16, 8, 0].map (fun i => Char.ofNat ((value.length >>> i) &&& 0xff)) ++ value.toList

/-- `find_last_not_of`. -/
def findLastNotOf (chars s : List Char) : Option ℕ :=
  (s.reverse.findIdx? (· ∉ chars)).map (s.length - 1 - ·)

/-- An IPv4-mapped IPv6 address without its prefix, and any other address as it is. -/
def unmapped (ip : String) : String :=
  if 14 ≤ ip.length ∧ ip.toList.take 7 = "::ffff:".toList ∧
      findLastNotOf "0123456789.".toList ip.toList = some 6 then String.ofList (ip.toList.drop 7)
  else ip

/-- `oxenc::to_hex`. -/
def toHex (x : Oxenc) (s : String) : String := String.ofList (x.hex.encode s.toList)

/-- A request, and what the `AllowFunc`s return if they are called for it: with the address, the
pubkey, and whether it is one of a service node. -/
structure ZapRequest where
  frames : List String
  answer : Callback → String → String → Bool → ℤ

structure ZapReply where
  requestId : String
  statusCode : String
  statusText : String
  userId : String := ""
  metadata : String := ""
  deriving DecidableEq

/-- The frames of the reply. -/
def ZapReply.frames (reply : ZapReply) : List String :=
  ["1.0", reply.requestId, reply.statusCode, reply.statusText, reply.userId, reply.metadata]

namespace ZapRequest

/-- Is this a request for the mechanism of the listener? -/
def mechanism (r : ZapRequest) (curve : Bool) : Bool :=
  if curve then r.frames.length == 7 && r.frames.getD 5 "" == "CURVE"
  else r.frames.length == 6 && r.frames.getD 5 "" == "NULL"

/-- The pubkey of the client. -/
def pubkey (r : ZapRequest) (b : BindData) : String := if b.curve then r.frames.getD 6 "" else ""

/-- What the `AllowFunc` of the listener returns. -/
def auth (r : ZapRequest) (activeServiceNodes : List String) (b : BindData) : ℤ :=
  r.answer b.allow (unmapped (r.frames.getD 3 "")) (r.pubkey b)
    (b.curve && decide (r.pubkey b ∈ activeServiceNodes))

/-- The iteration of `process_zap_requests` for a request.  If the domain cannot be read the source
takes the largest number there is for the place, which no vector has. -/
def reply (x : Oxenc) (bt : BtInteger) (bind : List BindData) (activeServiceNodes : List String)
    (r : ZapRequest) : ZapReply :=
  let id := r.frames.getD 1 ""
  if r.frames.length < 6 ∨ r.frames.getD 0 "" ≠ "1.0" then
    ⟨id, "500", "Internal error: invalid auth request", "", ""⟩
  else
    match (bt.deserialize (r.frames.getD 2 "")).bind (bind[·]?) with
    | none => ⟨id, "400", "Unknown authentication domain: " ++ r.frames.getD 2 "", "", ""⟩
    | some b =>
      if !r.mechanism b.curve then ⟨id, "500", "Invalid authentication request mechanism", "", ""⟩
      else if b.curve ∧ (r.frames.getD 6 "").length ≠ 32 then
        ⟨id, "500", "Invalid public key size for CURVE authentication", "", ""⟩
      else
        let auth := r.auth activeServiceNodes b
        if auth ≤ AuthLevel.denied.toNat ∨ auth > AuthLevel.admin.toNat then
          ⟨id, "400", "Access denied", "", ""⟩
        else
          ⟨id, "200", "", if b.curve then toHex x (r.pubkey b) else "",
            zmtpMetadata "X-AuthLevel" (authToString auth)⟩

end ZapRequest

/-- `process_zap_requests`: what is sent for the requests that have come. -/
def processZapRequests (x : Oxenc) (bt : BtInteger) (bind : List BindData)
    (activeServiceNodes : List String) : List ZapRequest → List (List String)
  | [] => []
  | r :: rs =>
    (r.reply x bt bind activeServiceNodes).frames ::
      processZapRequests x bt bind activeServiceNodes rs

/-! ## What the metadata says -/

theorem zmtpMetadata_eq (key value : String) :
    zmtpMetadata key value = String.ofList (Properties.write key.toList value.toList) := by
  have hbyte : ∀ n i : ℕ, (n >>> i) &&& 0xff = n / 2 ^ i % 256 := fun n i => by
    rw [Nat.shiftRight_eq_div_pow]
    exact Nat.and_two_pow_sub_one_eq_mod _ 8
  have hsize : ∀ n : ℕ, [24, 16, 8, 0].map (fun i => Char.ofNat ((n >>> i) &&& 0xff)) =
      Properties.size n := fun n => by
    simp only [List.map_cons, List.map_nil, hbyte, Properties.size, Radix.digits, List.nil_append,
      List.cons_append, Nat.div_div_eq_div_mul, pow_zero, Nat.div_one]
    rfl
  rw [zmtpMetadata, hsize, Properties.write, String.length_toList, String.length_toList]
  simp only [List.cons_append, List.nil_append, List.append_assoc]

/-- A level is read as it was written. -/
theorem authFromString_authToString (level : AuthLevel) :
    authFromString (authToString level.toNat) = level := by
  cases level <;> rfl

theorem length_authToString (auth : ℤ) : (authToString auth).length < 2 ^ 32 := by
  rw [authToString]
  repeat' split
  all_goals decide

theorem read_zmtpMetadata (auth : ℤ) :
    Properties.read (zmtpMetadata "X-AuthLevel" (authToString auth)).toList =
      some [("X-AuthLevel".toList, (authToString auth).toList)] := by
  have hlength : (authToString auth).toList.length < 2 ^ 32 := by
    rw [String.length_toList]
    exact length_authToString auth
  have hname : "X-AuthLevel".toList.length < 256 := by decide
  have hread := Properties.read_write hname hlength []
  rw [List.append_nil, Properties.read] at hread
  rw [zmtpMetadata_eq, String.toList_ofList, hread]
  rfl

/-! ## Which requests are accepted -/

/-- The frames for the mechanism of a listener and for the credentials, and the pubkey. -/
inductive Credentials : Bool → List String → String → Prop
  | curve (key : String) (h : key.length = 32) : Credentials true ["CURVE", key] key
  | null : Credentials false ["NULL"] ""

namespace ZapRequest

variable {x : Oxenc} {bt : BtInteger} {bind : List BindData} {sns : List String} {r : ZapRequest}
variable {b : BindData} {pubkey : String} {level : AuthLevel}

/-- The request is a good one for the listener with the entry `b`, whose `AllowFunc` gives the
client with this pubkey this level. -/
def Accepted (bt : BtInteger) (bind : List BindData) (sns : List String) (r : ZapRequest)
    (b : BindData) (pubkey : String) (level : AuthLevel) : Prop :=
  ∃ id domain address identity credentials d,
    r.frames = "1.0" :: id :: domain :: address :: identity :: credentials ∧
    bt.deserialize domain = some d ∧ bind[d]? = some b ∧ Credentials b.curve credentials pubkey ∧
    r.answer b.allow (unmapped address) pubkey (b.curve && decide (pubkey ∈ sns)) = level.toNat ∧
    level ≠ .denied

/-- The frames that the source looks for are the ones of the credentials. -/
theorem credentials_iff :
    r.mechanism b.curve = true ∧ ¬ (b.curve = true ∧ (r.frames.getD 6 "").length ≠ 32) ∧
      r.pubkey b = pubkey ↔
    ∃ version id domain address identity credentials,
      r.frames = version :: id :: domain :: address :: identity :: credentials ∧
      Credentials b.curve credentials pubkey := by
  obtain ⟨frames, answer⟩ := r
  obtain ⟨listen, curve, connId, allow⟩ := b
  constructor
  · rintro ⟨hmechanism, hkey, rfl⟩
    cases curve with
    | true =>
      simp only [mechanism, if_true, Bool.and_eq_true, beq_iff_eq] at hmechanism
      obtain ⟨hlength, hcurve⟩ := hmechanism
      match frames, hlength, hcurve, hkey with
      | [_, _, _, _, _, _, key], _, rfl, hkey =>
        have hkey' : key.length = 32 := by simpa using hkey
        exact ⟨_, _, _, _, _, _, rfl, .curve key hkey'⟩
    | false =>
      simp only [mechanism, Bool.false_eq_true, if_false, Bool.and_eq_true,
        beq_iff_eq] at hmechanism
      obtain ⟨hlength, hnull⟩ := hmechanism
      match frames, hlength, hnull with
      | [_, _, _, _, _, _], _, rfl => exact ⟨_, _, _, _, _, _, rfl, .null⟩
  · rintro ⟨version, id, domain, address, identity, credentials, rfl, hcredentials⟩
    dsimp only at hcredentials
    cases hcredentials with
    | curve _ hkey => exact ⟨rfl, fun h => h.2 hkey, rfl⟩
    | null => exact ⟨rfl, nofun, rfl⟩

theorem length_of_mechanism {curve : Bool} (h : r.mechanism curve = true) :
    ¬ r.frames.length < 6 := by
  rw [mechanism] at h
  split at h <;> simp only [Bool.and_eq_true, beq_iff_eq] at h <;> omega

/-- The conditions in the order of the source. -/
theorem accepted_iff_checks :
    r.Accepted bt bind sns b pubkey level ↔
      r.frames.getD 0 "" = "1.0" ∧
      (bt.deserialize (r.frames.getD 2 "")).bind (bind[·]?) = some b ∧
      (r.mechanism b.curve = true ∧ ¬ (b.curve = true ∧ (r.frames.getD 6 "").length ≠ 32) ∧
        r.pubkey b = pubkey) ∧
      r.auth sns b = level.toNat ∧ level ≠ .denied := by
  rw [credentials_iff]
  constructor
  · rintro ⟨id, domain, address, identity, credentials, d, hframes, hdomain, hentry, hcredentials,
      hallow, hlevel⟩
    have hfound := credentials_iff.2 ⟨_, _, _, _, _, _, hframes, hcredentials⟩
    refine ⟨?_, ?_, ⟨_, _, _, _, _, _, hframes, hcredentials⟩, ?_, hlevel⟩
    · rw [hframes]
      rfl
    · rw [hframes]
      exact Option.bind_eq_some_iff.2 ⟨d, hdomain, hentry⟩
    · rw [auth, hfound.2.2, hframes]
      exact hallow
  · rintro ⟨hversion, hbind, ⟨version, id, domain, address, identity, credentials, hframes,
      hcredentials⟩, hauth, hlevel⟩
    have hfound := credentials_iff.2 ⟨_, _, _, _, _, _, hframes, hcredentials⟩
    rw [hframes] at hversion hbind
    obtain rfl : version = "1.0" := hversion
    obtain ⟨d, hdomain, hentry⟩ := Option.bind_eq_some_iff.1 hbind
    rw [auth, hfound.2.2, hframes] at hauth
    exact ⟨id, domain, address, identity, credentials, d, hframes, hdomain, hentry, hcredentials,
      hauth, hlevel⟩

/-- The `AllowFunc` has returned `none`, `basic` or `admin`. -/
theorem level_iff {auth : ℤ} :
    ¬ (auth ≤ AuthLevel.denied.toNat ∨ auth > AuthLevel.admin.toNat) ↔
      ∃ level : AuthLevel, auth = level.toNat ∧ level ≠ .denied := by
  constructor
  · intro h
    have hcases : auth = 1 ∨ auth = 2 ∨ auth = 3 := by
      simp only [AuthLevel.toNat] at h
      omega
    rcases hcases with rfl | rfl | rfl
    · exact ⟨.none, rfl, nofun⟩
    · exact ⟨.basic, rfl, nofun⟩
    · exact ⟨.admin, rfl, nofun⟩
  · rintro ⟨level, rfl, hlevel⟩
    cases level <;> first | exact absurd rfl hlevel | decide

/-- The reply if the request is accepted. -/
theorem Accepted.reply_eq (h : r.Accepted bt bind sns b pubkey level) :
    r.reply x bt bind sns =
      ⟨r.frames.getD 1 "", "200", "", if b.curve then toHex x pubkey else "",
        zmtpMetadata "X-AuthLevel" (authToString level.toNat)⟩ := by
  obtain ⟨hversion, hbind, ⟨hmechanism, hkey, rfl⟩, hauth, hlevel⟩ := accepted_iff_checks.1 h
  have hframes : ¬ (r.frames.length < 6 ∨ r.frames.getD 0 "" ≠ "1.0") := by
    rintro (hshort | hother)
    · exact length_of_mechanism hmechanism hshort
    · exact hother hversion
  have hrange := level_iff.2 ⟨level, hauth, hlevel⟩
  rw [reply]
  dsimp only
  rw [if_neg hframes, hbind]
  dsimp only
  rw [if_neg (by rw [hmechanism]; decide), if_neg hkey, if_neg hrange, hauth]

/-- Every other request is refused. -/
theorem accepted_or_refused (r : ZapRequest) :
    (∃ b pubkey level, r.Accepted bt bind sns b pubkey level) ∨
      (r.reply x bt bind sns).statusCode ≠ "200" ∧ (r.reply x bt bind sns).userId = "" ∧
        (r.reply x bt bind sns).metadata = "" := by
  have hcode : "500" ≠ "200" ∧ "400" ≠ "200" := by decide
  rw [reply]
  dsimp only
  split
  · exact Or.inr ⟨hcode.1, rfl, rfl⟩
  rename_i hframes
  split
  · exact Or.inr ⟨hcode.2, rfl, rfl⟩
  rename_i b hbind
  split
  · exact Or.inr ⟨hcode.1, rfl, rfl⟩
  rename_i hmechanism
  split
  · exact Or.inr ⟨hcode.1, rfl, rfl⟩
  rename_i hkey
  split
  · exact Or.inr ⟨hcode.2, rfl, rfl⟩
  rename_i hrange
  obtain ⟨level, hauth, hlevel⟩ := level_iff.1 hrange
  refine Or.inl ⟨b, r.pubkey b, level,
    accepted_iff_checks.2 ⟨?_, hbind, ⟨?_, hkey, rfl⟩, hauth, hlevel⟩⟩
  · exact not_not.1 fun hversion => hframes (Or.inr hversion)
  · simpa using hmechanism

theorem requestId_reply (r : ZapRequest) :
    (r.reply x bt bind sns).requestId = r.frames.getD 1 "" := by
  rw [reply]
  dsimp only
  repeat' split
  all_goals rfl

end ZapRequest

/-! ## From the reply to the messages -/

/-- The message is one of a connection that was accepted with the reply: libzmq attaches the user id
and the metadata to it. -/
structure ZapReply.Attached (reply : ZapReply) (m : Incoming) : Prop where
  userId : m.userId.getD "" = reply.userId
  metadata : m.xAuthLevel = ((Properties.read reply.metadata.toList).bind fun properties =>
    properties.lookup "X-AuthLevel".toList).map String.ofList

/-- The reply to a request is as it should be: it has the code 200 exactly if the request is a good
one for a listener whose `AllowFunc` lets the client in, it says nothing about the client otherwise,
and of a client who is let in it says the pubkey and the level, for every message to tell. -/
structure ZapReply.Answers {κ : Type} (bt : BtInteger) (cfg : Config κ) (bind : List BindData)
    (sns : List String) (r : ZapRequest) (reply : ZapReply) : Prop where
  accepted : reply.statusCode = "200" ↔ ∃ b pubkey level, r.Accepted bt bind sns b pubkey level
  refused : reply.statusCode ≠ "200" → reply.userId = "" ∧ reply.metadata = ""
  /-- The frames are strings of bytes. -/
  attached : ∀ b pubkey level, r.Accepted bt bind sns b pubkey level →
    (∀ c ∈ pubkey.toList, c.toNat < 256) → ∀ m, reply.Attached m →
      cfg.extractMetadata m = (pubkey, level)

section

variable {κ : Type} {cfg : Config κ} {x : Oxenc} {bt : BtInteger} {bind : List BindData}
variable {sns : List String} {r : ZapRequest} {b : BindData} {pubkey : String} {level : AuthLevel}

theorem extractMetadata_fst (cfg : Config κ) (m : Incoming) :
    (cfg.extractMetadata m).1 =
      if (m.userId.getD "").length = 64 then cfg.fromHex (m.userId.getD "") else "" := by
  rw [Config.extractMetadata]
  cases m.userId with
  | none => rfl
  | some hex => rfl

/-- The pubkey is read as it was written. -/
theorem fst_extractMetadata {credentials : List String}
    (hhex : ∀ s, cfg.fromHex s = String.ofList (x.hex.decode s.toList))
    (hcredentials : Credentials b.curve credentials pubkey)
    (hbytes : ∀ c ∈ pubkey.toList, c.toNat < 256) {m : Incoming}
    (hm : m.userId.getD "" = if b.curve then toHex x pubkey else "") :
    (cfg.extractMetadata m).1 = pubkey := by
  rw [extractMetadata_fst, hm]
  obtain ⟨listen, curve, connId, allow⟩ := b
  dsimp only at hcredentials ⊢
  cases hcredentials with
  | curve _ hkey =>
    have hpk : IsPubkey pubkey.toList := ⟨(String.length_toList ..).trans hkey, hbytes⟩
    have hlength : (toHex x pubkey).length = 64 := by
      rw [toHex, String.length_ofList]
      exact x.hex.length_encode _ hpk
    rw [if_pos rfl, if_pos hlength, hhex, toHex, String.toList_ofList, x.hex.decode_encode _ hpk,
      String.ofList_toList]
  | null => rfl

/-- **The metadata is read back.** -/
theorem ZapRequest.Accepted.extractMetadata_eq
    (hhex : ∀ s, cfg.fromHex s = String.ofList (x.hex.decode s.toList))
    (h : r.Accepted bt bind sns b pubkey level) (hbytes : ∀ c ∈ pubkey.toList, c.toNat < 256)
    {m : Incoming} (hm : (r.reply x bt bind sns).Attached m) :
    cfg.extractMetadata m = (pubkey, level) := by
  obtain ⟨huserId, hmetadata⟩ := hm
  rw [h.reply_eq] at huserId hmetadata
  obtain ⟨_, _, _, _, _, _, _, _, _, hcredentials, _⟩ := h
  refine Prod.ext (fst_extractMetadata hhex hcredentials hbytes huserId) ?_
  have hlevel : m.xAuthLevel = some (authToString level.toNat) := by
    rw [hmetadata, read_zmtpMetadata, Option.bind_some, List.lookup_cons, beq_self_eq_true]
    exact congrArg some (String.ofList_toList ..)
  rw [Config.extractMetadata, hlevel]
  exact authFromString_authToString level

theorem ZapRequest.answers_reply (hhex : ∀ s, cfg.fromHex s = String.ofList (x.hex.decode s.toList))
    (r : ZapRequest) : (r.reply x bt bind sns).Answers bt cfg bind sns r where
  accepted := by
    constructor
    · intro hcode
      rcases r.accepted_or_refused (x := x) with haccepted | hrefused
      · exact haccepted
      · exact absurd hcode hrefused.1
    · rintro ⟨b, pubkey, level, h⟩
      rw [h.reply_eq]
  refused hcode := by
    rcases r.accepted_or_refused (x := x) with ⟨b, pubkey, level, h⟩ | hrefused
    · rw [h.reply_eq] at hcode
      exact absurd rfl hcode
    · exact hrefused.2
  attached _ _ _ h hbytes _ hm := h.extractMetadata_eq hhex hbytes hm

/-- There is one reply to each request. -/
theorem processZapRequests_eq (rs : List ZapRequest) :
    processZapRequests x bt bind sns rs = rs.map fun r => (r.reply x bt bind sns).frames := by
  induction rs with
  | nil => rfl
  | cons r rs ih => rw [processZapRequests, ih, List.map_cons]

end

/-! ## End to end -/

section

variable {κ : Type} {bt : BtInteger} {cfg : Config κ} {l : Listening}

/-- Different listeners have different domains. -/
theorem Listening.Placed.domain_ne (h : l.Placed bt) (hsize : l.conn.bind.length ≤ sizeLimit)
    {id id' : ℤ} {s s' : Listener} (hs : l.listeners.lookup id = some s)
    (hs' : l.listeners.lookup id' = some s') (hne : id ≠ id') : s.domain ≠ s'.domain := by
  intro heq
  obtain ⟨d, hdomain, hentry⟩ := h.entry id s hs
  obtain ⟨d', hdomain', hentry'⟩ := h.entry id' s' hs'
  obtain rfl : d = d' := bt.serialize_inj (lt_sizeLimit hsize hentry) (lt_sizeLimit hsize hentry')
    (hdomain.symm.trans (heq.trans hdomain'))
  have hid : id = id' := congrArg BindData.connId (Option.some.inj (hentry.symm.trans hentry'))
  exact hne hid

/-- A request with the domain of a listener is judged by the entry of the listener. -/
theorem Listening.Placed.entry_of_accepted (h : l.Placed bt)
    (hsize : l.conn.bind.length ≤ sizeLimit) {id : ℤ} {s : Listener}
    (hs : l.listeners.lookup id = some s) {sns : List String} {r : ZapRequest}
    (hdomain : r.frames[2]? = some s.domain) {b : BindData} {pubkey : String} {level : AuthLevel}
    (haccepted : r.Accepted bt l.conn.bind sns b pubkey level) :
    b = ⟨s.address, s.curve, id, s.allow⟩ := by
  obtain ⟨d, hserialize, hentry⟩ := h.entry id s hs
  obtain ⟨_, domain, _, _, _, d', hframes, hread, hentry', _⟩ := haccepted
  rw [hframes] at hdomain
  obtain rfl : domain = s.domain := Option.some.inj hdomain
  rw [hserialize, bt.deserialize_serialize d (lt_sizeLimit hsize hentry)] at hread
  cases hread
  exact Option.some.inj (hentry'.symm.trans hentry)

/-- **Everybody who connects is judged by the listener they connect to**, and has in every message
the pubkey and the level that the `AllowFunc` of this listener was asked about and has returned. -/
theorem listeners_authenticate (x : Oxenc)
    (hhex : ∀ s, cfg.fromHex s = String.ofList (x.hex.decode s.toList)) {es : List ListenEvent}
    (hrun : Transition.run (Listening.step bt cfg) {} es = some l) :
    (∀ id, l.conn.connections.lookup id = some .router → id ≠ l.conn.inprocListenerConnid →
      ∃ s, l.listeners.lookup id = some s) ∧
    (∀ id s, l.listeners.lookup id = some s → ∃ d, s.domain = bt.serialize d ∧
      l.conn.bind[d]? = some ⟨s.address, s.curve, id, s.allow⟩ ∧
      (es.filterMap ListenEvent.call?)[d]? = some ⟨s.address, s.curve, s.allow⟩) ∧
    (∀ id id' s s', l.listeners.lookup id = some s → l.listeners.lookup id' = some s' → id ≠ id' →
      s.domain ≠ s'.domain) ∧
    ∀ (sns : List String) (rs : List ZapRequest),
      (processZapRequests x bt l.conn.bind sns rs).length = rs.length ∧
      ∀ (i : ℕ) (r : ZapRequest), rs[i]? = some r → ∃ reply : ZapReply,
        (processZapRequests x bt l.conn.bind sns rs)[i]? = some ["1.0", r.frames.getD 1 "",
          reply.statusCode, reply.statusText, reply.userId, reply.metadata] ∧
        reply.Answers bt cfg l.conn.bind sns r ∧
        ∀ id s, l.listeners.lookup id = some s → r.frames[2]? = some s.domain →
          ∀ b pubkey level, r.Accepted bt l.conn.bind sns b pubkey level →
            b = ⟨s.address, s.curve, id, s.allow⟩ := by
  have hplaced := Listening.run_placed hrun
  have hsize := Listening.run_size hrun
  refine ⟨fun id hid hne => ?_, fun id s hs => ?_, fun id id' s s' => hplaced.domain_ne hsize,
    fun sns rs => ?_⟩
  · exact Option.isSome_iff_exists.1
      (AList.lookup_isSome.2 ((hplaced.listener id hid).resolve_left hne))
  · obtain ⟨d, hdomain, hentry⟩ := hplaced.entry id s hs
    refine ⟨d, hdomain, hentry, ?_⟩
    rw [← Listening.run_calls hrun, List.getElem?_map, hentry]
    rfl
  · rw [processZapRequests_eq]
    refine ⟨List.length_map _, fun i r hr =>
      ⟨r.reply x bt l.conn.bind sns, ?_, r.answers_reply hhex, ?_⟩⟩
    · rw [List.getElem?_map, hr, Option.map_some, ZapReply.frames, r.requestId_reply]
    · exact fun id s hs hdomain b pubkey level => hplaced.entry_of_accepted hsize hs hdomain

/-- A listener is given before the start, then an address cannot be bound, and another one can. -/
def failedBind : List ListenEvent :=
  [.listen ⟨"tcp://*:5555", true, 7, none⟩, .start fun _ => true,
    .proxy (.bind "tcp://*:5555" false 8 false), .proxy (.bind "tcp://*:5556" false 8 true)]

def hexConfig : Config Unit :=
  { Conn.bareConfig with fromHex := fun s => String.ofList (Oxenc.reference.hex.decode s.toList) }

/-- A client asks for the first listener, and the `AllowFunc` returns `basic`. -/
def curveRequest : ZapRequest where
  frames := ["1.0", "1", BtInteger.reference.serialize 0, "::ffff:192.168.0.1", "", "CURVE",
    "0123456789abcdef0123456789abcdef"]
  answer _ _ _ _ := 2

theorem listeners_authenticate_failedBind :
    ∃ l, Transition.run (Listening.step .reference hexConfig) {} failedBind = some l ∧
      ∃ reply : ZapReply,
        (processZapRequests .reference .reference l.conn.bind [] [curveRequest])[0]? = some ["1.0", "1",
          reply.statusCode, reply.statusText, reply.userId, reply.metadata] ∧
        reply.statusCode = "200" ∧
        ∀ m, reply.Attached m →
          hexConfig.extractMetadata m = ("0123456789abcdef0123456789abcdef", .basic) := by
  obtain ⟨l, hrun, hentry⟩ : ∃ l,
      Transition.run (Listening.step .reference hexConfig) {} failedBind = some l ∧
        l.conn.bind[0]? = some ⟨"tcp://*:5555", true, 2, 7⟩ := ⟨_, rfl, rfl⟩
  have haccepted : curveRequest.Accepted .reference l.conn.bind [] ⟨"tcp://*:5555", true, 2, 7⟩
      "0123456789abcdef0123456789abcdef" .basic :=
    ⟨_, _, _, _, _, 0, rfl, BtInteger.reference.deserialize_serialize 0 (by decide), hentry,
      .curve _ (by decide), rfl, nofun⟩
  obtain ⟨_, _, _, hreplies⟩ := listeners_authenticate .reference (fun _ => rfl) hrun
  obtain ⟨reply, hreply, hanswers, _⟩ := (hreplies [] [curveRequest]).2 0 curveRequest rfl
  exact ⟨l, hrun, reply, hreply, hanswers.accepted.2 ⟨_, _, _, haccepted⟩,
    hanswers.attached _ _ _ haccepted (by simp)⟩

end

end OxenMQ
