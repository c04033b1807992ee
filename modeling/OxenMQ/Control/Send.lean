import OxenMQ.Connections.Defs
import OxenMQ.Control.Wire

/-!
# The `SEND` control message

`build_send` folds the options of a call into a dictionary, one option at a time.  `proxy_send`
takes it apart in one pass over the sorted keys.  The two meet in `SendOption.asked`, which says for
every parameter which of the options decides it.
-/

set_option autoImplicit false

namespace OxenMQ

namespace Control

open SortedDict

/-- An argument of `send` or `request` behind the command. -/
inductive SendOption where
  | string (arg : String)
  | dataParts (parts : List String)
  /-- A `std::optional` without a value. -/
  | unset
  /-- A `std::optional` with a value. -/
  | set (opt : SendOption)
  | hint (connectHint : String)
  | optional (isOptional : Bool)
  | incoming (isIncoming : Bool)
  | outgoing (isOutgoing : Bool)
  | keepAlive (time : ℤ)
  | requestTimeout (time : ℤ)
  | queueFailure (callback : Option Callback)
  | queueFull (callback : Option Callback)
  deriving DecidableEq, Repr

/-! ## Writing -/

/-- `apply_send_option`, on the message parts and the control data. -/
def applySendOption (parts : List String) (controlData : Dict) : SendOption → List String × Dict
  | .string arg => (parts ++ [arg], controlData)
  | .dataParts data => (parts ++ data, controlData)
  | .unset => (parts, controlData)
  | .set opt => applySendOption parts controlData opt
  | .hint connectHint =>
    if connectHint = "" then (parts, controlData)
    else (parts, controlData.insert "hint" (.str connectHint))
  | .optional isOptional => (parts, controlData.insert "optional" (.ofBool isOptional))
  | .incoming isIncoming => (parts, controlData.insert "incoming" (.ofBool isIncoming))
  | .outgoing isOutgoing => (parts, controlData.insert "outgoing" (.ofBool isOutgoing))
  | .keepAlive time =>
    if time ≥ 0 then (parts, controlData.insert "keep_alive" (.int time)) else (parts, controlData)
  | .requestTimeout time =>
    if time ≥ 0 then (parts, controlData.insert "request_timeout" (.int time))
    else (parts, controlData)
  | .queueFailure callback => (parts, controlData.insert "send_fail" (.optPtr callback))
  | .queueFull callback => (parts, controlData.insert "send_full_q" (.optPtr callback))

def buildSend (dest : ConnectionID) (cmd : String) (opts : List SendOption) : Dict :=
  let (parts, controlData) := opts.foldl (fun pc o => applySendOption pc.1 pc.2 o) ([cmd], empty)
  let controlData :=
    if dest.sn then controlData.insert "conn_pubkey" (.str dest.pk)
    else (controlData.insert "conn_id" (.int dest.id)).insert "conn_route" (.str dest.route)
  controlData.insert "send" (.list parts)

/-- The control message of `send`. -/
def send (dest : ConnectionID) (cmd : String) (opts : List SendOption) : Dict :=
  buildSend dest cmd opts

/-- The control message of `request`, with the random tag that it makes. -/
def request (dest : ConnectionID) (cmd : String) (callback : Callback) (replyTag : String)
    (opts : List SendOption) : Dict :=
  let controlData := buildSend dest cmd (.string replyTag :: opts)
  let controlData := controlData.insert "request" (.ofBool true)
  let controlData := controlData.insert "request_callback" (.ptr callback)
  controlData.insert "request_tag" (.str replyTag)

/-! ## Reading -/

open Consumer

/-- The destination that `proxy_send` reads. -/
def decodeDestination : Consumer ConnectionID := do
  let id ← readOr "conn_id" (fun v => some <$> consumeInteger v) none
  if id = some snId then
    throw (.exception "Invalid error: invalid conn_id value (-1)")
  let pk ← readOr "conn_pubkey" (fun v => some <$> consumeString v) none
  match id, pk with
  | some _, some _ =>
    throw (.exception "Internal error: Invalid proxy send command; conn_id and conn_pubkey are exclusive")
  | some id, none => return { id }
  | none, some pk => return { id := snId, pk }
  | none, none =>
    throw (.exception "Internal error: Invalid proxy send command; conn_pubkey or conn_id missing")

/-- The parameters that are only there for a request. -/
def decodeRequest : Consumer (Option Conn.Request) := do
  if ← readOr "request" consumeBool false then
    let callback ← readRequired "request_callback" consumeFunction
      "Internal error: received request without request_callback"
    let tag ← readRequired "request_tag" consumeString
      "Internal error: received request without request_name"
    let timeout ← readOr "request_timeout" consumeUnsigned 15000
    return some { tag, callback, timeout }
  else
    return none

/-- The part of `proxy_send` that takes its message apart. -/
def decodeSend : Consumer Conn.SendRequest := do
  let conn ← decodeDestination
  let route ← readOr "conn_route" consumeString ""
  let hint ← readOr "hint" consumeString ""
  let incoming ← readOr "incoming" consumeBool false
  let keepAlive ← readOr "keep_alive" consumeUnsigned 30000
  let isOptional ← readOr "optional" consumeBool false
  let outgoing ← readOr "outgoing" consumeBool false
  let request ← decodeRequest
  let send ← readRequired "send" consumeList
    "Internal error: Invalid proxy send command; send parts missing"
  let sendFail ← readOr "send_fail" consumeOptFunction none
  let sendFullQ ← readOr "send_full_q" consumeOptFunction none
  return { conn := { conn with route }, hint, keepAlive, isOptional, incoming, outgoing, request,
           send, sendFail, sendFullQ }

/-! ## What a call asks for -/

namespace SendOption

/-- The message parts of an option. -/
@[simp] def parts : SendOption → List String
  | .string arg => [arg]
  | .dataParts data => data
  | .set opt => opt.parts
  | _ => []

@[simp] def hint? : SendOption → Option String
  | .hint connectHint => if connectHint = "" then none else some connectHint
  | .set opt => opt.hint?
  | _ => none

@[simp] def optional? : SendOption → Option Bool
  | .optional isOptional => some isOptional
  | .set opt => opt.optional?
  | _ => none

@[simp] def incoming? : SendOption → Option Bool
  | .incoming isIncoming => some isIncoming
  | .set opt => opt.incoming?
  | _ => none

@[simp] def outgoing? : SendOption → Option Bool
  | .outgoing isOutgoing => some isOutgoing
  | .set opt => opt.outgoing?
  | _ => none

@[simp] def keepAlive? : SendOption → Option ℤ
  | .keepAlive time => if time ≥ 0 then some time else none
  | .set opt => opt.keepAlive?
  | _ => none

@[simp] def requestTimeout? : SendOption → Option ℤ
  | .requestTimeout time => if time ≥ 0 then some time else none
  | .set opt => opt.requestTimeout?
  | _ => none

@[simp] def queueFailure? : SendOption → Option (Option Callback)
  | .queueFailure callback => some callback
  | .set opt => opt.queueFailure?
  | _ => none

@[simp] def queueFull? : SendOption → Option (Option Callback)
  | .queueFull callback => some callback
  | .set opt => opt.queueFull?
  | _ => none

/-- The last effective option of a kind, or else a default. -/
def lastOr {α : Type} (opts : List SendOption) (kind : SendOption → Option α) (dflt : α) : α :=
  (opts.filterMap kind).getLast?.getD dflt

/-- What a call of `send`, or of `request` with a tag and a callback, asks for. -/
def asked (dest : ConnectionID) (cmd : String) (request : Option (String × Callback))
    (opts : List SendOption) : Conn.SendRequest where
  conn := if dest.sn then { id := snId, pk := dest.pk } else { id := dest.id, route := dest.route }
  hint := lastOr opts hint? ""
  keepAlive := lastOr opts keepAlive? 30000
  isOptional := lastOr opts optional? false
  incoming := lastOr opts incoming? false
  outgoing := lastOr opts outgoing? false
  request := request.map fun r =>
    { tag := r.1, callback := r.2, timeout := lastOr opts requestTimeout? 15000 }
  send := cmd :: (request.map Prod.fst).toList ++ opts.flatMap parts
  sendFail := lastOr opts queueFailure? none
  sendFullQ := lastOr opts queueFull? none

/-- What an option writes into the control data. -/
@[simp] def entries : SendOption → List (String × Value)
  | .set opt => opt.entries
  | .hint connectHint => if connectHint = "" then [] else [("hint", .str connectHint)]
  | .optional isOptional => [("optional", .ofBool isOptional)]
  | .incoming isIncoming => [("incoming", .ofBool isIncoming)]
  | .outgoing isOutgoing => [("outgoing", .ofBool isOutgoing)]
  | .keepAlive time => if time ≥ 0 then [("keep_alive", .int time)] else []
  | .requestTimeout time => if time ≥ 0 then [("request_timeout", .int time)] else []
  | .queueFailure callback => [("send_fail", .optPtr callback)]
  | .queueFull callback => [("send_full_q", .optPtr callback)]
  | _ => []

end SendOption

open SendOption

theorem applySendOption_eq (ps : List String) (d : Dict) (o : SendOption) :
    applySendOption ps d o = (ps ++ o.parts, d.insertAll o.entries) := by
  induction o with
  | set opt ih => exact ih
  | hint h => by_cases hh : h = "" <;> simp [applySendOption, hh, insertAll]
  | keepAlive t | requestTimeout t => by_cases ht : t ≥ 0 <;> simp [applySendOption, ht, insertAll]
  | _ => simp [applySendOption, insertAll]

theorem foldl_applySendOption (opts : List SendOption) (ps : List String) (d : Dict) :
    opts.foldl (fun pc o => applySendOption pc.1 pc.2 o) (ps, d)
      = (ps ++ opts.flatMap SendOption.parts, d.insertAll (opts.flatMap SendOption.entries)) := by
  induction opts generalizing ps d with
  | nil => simp [insertAll]
  | cons o opts ih =>
    rw [List.foldl_cons, applySendOption_eq, ih]
    simp [insertAll]

/-- The control data of `build_send`, as what is written one after the other. -/
theorem buildSend_eq (dest : ConnectionID) (cmd : String) (opts : List SendOption) :
    buildSend dest cmd opts =
      let d := empty.insertAll (opts.flatMap SendOption.entries)
      (if dest.sn then d.insert "conn_pubkey" (.str dest.pk)
        else (d.insert "conn_id" (.int dest.id)).insert "conn_route" (.str dest.route)).insert
        "send" (.list (cmd :: opts.flatMap SendOption.parts)) := by
  simp only [buildSend, foldl_applySendOption, List.singleton_append]

/-- The keys that do not come from an option. -/
def reservedKeys : List String :=
  ["conn_id", "conn_pubkey", "conn_route", "request", "request_callback", "request_tag", "send"]

theorem valuesOf_reserved (o : SendOption) : ∀ k ∈ reservedKeys, valuesOf k o.entries = [] := by
  induction o with
  | set opt ih => exact ih
  | hint h => by_cases hh : h = "" <;> simp [reservedKeys, valuesOf, hh]
  | keepAlive t | requestTimeout t => by_cases ht : t ≥ 0 <;> simp [reservedKeys, valuesOf, ht]
  | _ => simp [reservedKeys, valuesOf]

/-- Each kind of option writes under a key of its own. -/
theorem valuesOf_entries :
    (∀ o : SendOption, valuesOf "hint" o.entries = (o.hint?.map Value.str).toList) ∧
    (∀ o : SendOption, valuesOf "incoming" o.entries = (o.incoming?.map Value.ofBool).toList) ∧
    (∀ o : SendOption, valuesOf "keep_alive" o.entries = (o.keepAlive?.map Value.int).toList) ∧
    (∀ o : SendOption, valuesOf "optional" o.entries = (o.optional?.map Value.ofBool).toList) ∧
    (∀ o : SendOption, valuesOf "outgoing" o.entries = (o.outgoing?.map Value.ofBool).toList) ∧
    (∀ o : SendOption,
      valuesOf "request_timeout" o.entries = (o.requestTimeout?.map Value.int).toList) ∧
    (∀ o : SendOption,
      valuesOf "send_fail" o.entries = (o.queueFailure?.map Value.optPtr).toList) ∧
    (∀ o : SendOption,
      valuesOf "send_full_q" o.entries = (o.queueFull?.map Value.optPtr).toList) := by
  simp only [← forall_and]
  intro o
  induction o with
  | set opt ih => exact ih
  | hint h => by_cases hh : h = "" <;> simp [valuesOf, hh]
  | keepAlive t | requestTimeout t => by_cases ht : t ≥ 0 <;> simp [valuesOf, ht]
  | _ => simp [valuesOf]

/-- Negative durations are not written, and the reader accepts the others. -/
theorem consumeUnsigned_of_written {time t : ℤ}
    (h : (if time ≥ 0 then some time else none) = some t) : consumeUnsigned (.int t) = .ok t := by
  obtain ⟨ht, htime⟩ := Option.ite_none_right_eq_some.1 h
  obtain rfl := Option.some.inj htime
  exact if_neg (not_lt.2 ht)

theorem keepAlive?_consumed (o : SendOption) (t : ℤ) (h : o.keepAlive? = some t) :
    consumeUnsigned (.int t) = .ok t := by
  induction o with
  | set opt ih => exact ih h
  | keepAlive time => exact consumeUnsigned_of_written h
  | _ => simp at h

theorem requestTimeout?_consumed (o : SendOption) (t : ℤ) (h : o.requestTimeout? = some t) :
    consumeUnsigned (.int t) = .ok t := by
  induction o with
  | set opt ih => exact ih h
  | requestTimeout time => exact consumeUnsigned_of_written h
  | _ => simp at h

/-! ## The two agree -/

/-- The control message of `send`, or of `request` with a tag and a callback. -/
def message (dest : ConnectionID) (cmd : String) (req : Option (String × Callback))
    (opts : List SendOption) : Dict :=
  match req with
  | none => send dest cmd opts
  | some (replyTag, callback) => request dest cmd callback replyTag opts

section Message

variable {dest : ConnectionID} {cmd : String} {req : Option (String × Callback)}
  {opts : List SendOption} {k : String}

theorem get?_options_reserved (opts : List SendOption) : ∀ k ∈ reservedKeys,
    (empty.insertAll (opts.flatMap SendOption.entries) : Dict).get? k = none := by
  intro k h
  have hnone : ∀ o : SendOption, valuesOf k o.entries
      = (((fun _ => none) o : Option Value).map id).toList := fun o => valuesOf_reserved o k h
  rw [get?_insertAll, valuesOf_flatMap hnone, List.filterMap_none]
  rfl

/-- The values of the other keys come from the options, and the last one counts. -/
theorem get?_buildSend {α : Type} {kind : SendOption → Option α} {enc : α → Value}
    (hk : k ∉ reservedKeys) (h : ∀ o, valuesOf k o.entries = ((kind o).map enc).toList) :
    (buildSend dest cmd opts).get? k = (opts.filterMap kind).getLast?.map enc := by
  have hne : ∀ k' ∈ reservedKeys, k' ≠ k := fun k' hk' heq => hk (heq ▸ hk')
  have hopts : (empty.insertAll (opts.flatMap SendOption.entries) : Dict).get? k
      = (opts.filterMap kind).getLast?.map enc := by
    rw [get?_insertAll, get?_empty, Option.or_none, valuesOf_flatMap h, List.getLast?_map]
  rw [buildSend_eq, get?_insert, if_neg (hne _ (by decide)), ← hopts]
  split
  · rw [get?_insert, if_neg (hne _ (by decide))]
  · rw [get?_insert, if_neg (hne _ (by decide)), get?_insert, if_neg (hne _ (by decide))]

/-- `request` adds three keys, and its tag to the message parts. -/
theorem get?_message (hk : k ∉ ["request", "request_callback", "request_tag"]) :
    (message dest cmd req opts).get? k
      = (buildSend dest cmd ((req.map Prod.fst).toList.map SendOption.string ++ opts)).get? k := by
  simp only [List.mem_cons, List.not_mem_nil, or_false, not_or] at hk
  obtain ⟨hreq, hcb, htag⟩ := hk
  cases req with
  | none => rfl
  | some r =>
    simp only [message, request, get?_insert, Ne.symm hreq, Ne.symm hcb, Ne.symm htag, if_false]
    rfl

theorem get?_message_option {α : Type} {kind : SendOption → Option α} {enc : α → Value}
    (hk : k ∉ reservedKeys) (h : ∀ o, valuesOf k o.entries = ((kind o).map enc).toList) :
    (message dest cmd req opts).get? k = (opts.filterMap kind).getLast?.map enc := by
  have hstr : ∀ arg, kind (.string arg) = none := by
    intro arg
    have harg := h (.string arg)
    cases hkind : kind (.string arg) with
    | none => rfl
    | some a => simp [valuesOf, hkind] at harg
  rw [get?_message (fun hmem => hk (by revert hmem; simp [reservedKeys]; tauto)),
    get?_buildSend hk h]
  cases req <;> simp [hstr]

/-- A parameter that comes from the options. -/
theorem reads_option {α : Type} {k₀ : String} {kind : SendOption → Option α} {enc : α → Value}
    {consume : Value → Except Abort α} (hlt : k₀ < k) (hk : k ∉ reservedKeys)
    (h : ∀ o, valuesOf k o.entries = ((kind o).map enc).toList)
    (hdec : ∀ o a, kind o = some a → consume (enc a) = .ok a) (initial : α) :
    (readOr k consume initial).Reads (message dest cmd req opts) k₀ k
      (.ok (lastOr opts kind initial)) :=
  reads_readOr_last hlt (get?_message_option hk h)
    (fun a ha => let ⟨o, _, ho⟩ := List.mem_filterMap.1 ha; hdec o a ho) initial

theorem get?_buildSend_destination :
    (buildSend dest cmd opts).get? "conn_id" = (if dest.sn then none else some (.int dest.id)) ∧
    (buildSend dest cmd opts).get? "conn_pubkey"
      = (if dest.sn then some (.str dest.pk) else none) ∧
    (buildSend dest cmd opts).get? "conn_route"
      = (if dest.sn then none else some (.str dest.route)) := by
  have hopts := get?_options_reserved opts
  simp only [reservedKeys, List.forall_mem_cons] at hopts
  rw [buildSend_eq]
  cases dest.sn <;> simp [hopts]

theorem get?_message_destination :
    let d := message dest cmd req opts
    d.get? "conn_id" = (if dest.sn then none else some (.int dest.id)) ∧
    d.get? "conn_pubkey" = (if dest.sn then some (.str dest.pk) else none) ∧
    d.get? "conn_route" = (if dest.sn then none else some (.str dest.route)) := by
  obtain ⟨hid, hpk, hroute⟩ := @get?_buildSend_destination dest cmd
    ((req.map Prod.fst).toList.map SendOption.string ++ opts)
  exact ⟨(get?_message (by decide)).trans hid, (get?_message (by decide)).trans hpk,
    (get?_message (by decide)).trans hroute⟩

theorem reads_destination :
    decodeDestination.Reads (message dest cmd req opts) "" "conn_pubkey"
      (.ok (if dest.sn then { id := snId, pk := dest.pk } else { id := dest.id })) := by
  obtain ⟨hid, hpk, -⟩ := @get?_message_destination dest cmd req opts
  cases hsn : dest.sn with
  | true =>
    rw [hsn] at hid hpk
    refine (reads_readOr_none (by decide) hid none).bind ?_
    exact (reads_readOr_some (fun v => some <$> consumeString v) (by decide) hpk rfl none).bind
      (reads_pure le_rfl _)
  | false =>
    rw [hsn] at hid hpk
    have hne : some dest.id ≠ some snId := by simpa [ConnectionID.sn] using hsn
    refine (reads_readOr_some (fun v => some <$> consumeInteger v) (by decide) hid rfl none).bind ?_
    rw [if_neg hne]
    exact (reads_readOr_none (by decide) hpk none).bind (reads_pure le_rfl _)

theorem reads_route :
    (readOr "conn_route" consumeString "").Reads (message dest cmd req opts) "conn_pubkey"
      "conn_route" (.ok (if dest.sn then "" else dest.route)) := by
  obtain ⟨-, -, hroute⟩ := @get?_message_destination dest cmd req opts
  cases hsn : dest.sn with
  | true => rw [hsn] at hroute; exact reads_readOr_none (by decide) hroute ""
  | false => rw [hsn] at hroute; exact reads_readOr_some consumeString (by decide) hroute rfl ""

theorem get?_message_request :
    (message dest cmd req opts).get? "request" = req.map (fun _ => .ofBool true) ∧
    (message dest cmd req opts).get? "request_callback" = req.map (fun r => .ptr r.2) ∧
    (message dest cmd req opts).get? "request_tag" = req.map (fun r => .str r.1) := by
  cases req with
  | none =>
    have hopts := get?_options_reserved opts
    simp only [reservedKeys, List.forall_mem_cons] at hopts
    simp only [message, send, buildSend_eq]
    cases dest.sn <;> simp [hopts]
  | some r => simp [message, request]

/-- The request parameters are read if they are there. -/
theorem reads_request :
    decodeRequest.Reads (message dest cmd req opts) "outgoing" "request_timeout"
      (.ok (req.map fun r =>
        { tag := r.1, callback := r.2, timeout := lastOr opts requestTimeout? 15000 })) := by
  obtain ⟨hrequest, hcallback, htag⟩ := @get?_message_request dest cmd req opts
  cases req with
  | none => exact (reads_readOr_none (by decide) hrequest false).bind (reads_pure (by decide) _)
  | some r =>
    obtain ⟨-, -, -, -, -, htimeout, -, -⟩ := valuesOf_entries
    refine (reads_readOr_some consumeBool (by decide) hrequest rfl false).bind ?_
    refine (reads_readRequired consumeFunction (by decide) hcallback rfl _).bind ?_
    refine (reads_readRequired consumeString (by decide) htag rfl _).bind ?_
    refine (reads_option (by decide) (by decide) htimeout requestTimeout?_consumed 15000).bind ?_
    exact reads_pure le_rfl _

theorem get?_message_send : (message dest cmd req opts).get? "send"
    = some (.list (cmd :: (req.map Prod.fst).toList ++ opts.flatMap SendOption.parts)) := by
  rw [get?_message (by decide), buildSend_eq, get?_insert, if_pos rfl]
  cases req <;> simp

end Message

/-- `proxy_send` decodes from the control message of a call what the call asks for. -/
theorem decodeSend_message (dest : ConnectionID) (cmd : String) (req : Option (String × Callback))
    (opts : List SendOption) :
    decodeSend.get (message dest cmd req opts) = .ok (asked dest cmd req opts) := by
  obtain ⟨hhint, hincoming, hkeep, hoptional, houtgoing, -, hfail, hfull⟩ := valuesOf_entries
  have hbool : ∀ b : Bool, consumeBool (.ofBool b) = .ok b := consumeBool_ofBool
  have hreads : decodeSend.Reads (message dest cmd req opts) "" "send_full_q"
      (.ok (asked dest cmd req opts)) := by
    refine reads_destination.bind (reads_route.bind ?_)
    refine (reads_option (by decide) (by decide) hhint (fun _ _ _ => rfl) "").bind ?_
    refine (reads_option (by decide) (by decide) hincoming (fun _ b _ => hbool b) false).bind ?_
    refine (reads_option (by decide) (by decide) hkeep keepAlive?_consumed 30000).bind ?_
    refine (reads_option (by decide) (by decide) hoptional (fun _ b _ => hbool b) false).bind ?_
    refine (reads_option (by decide) (by decide) houtgoing (fun _ b _ => hbool b) false).bind ?_
    refine reads_request.bind ?_
    refine (reads_readRequired consumeList (by decide) get?_message_send rfl _).bind ?_
    refine (reads_option (by decide) (by decide) hfail (fun _ _ _ => rfl) none).bind ?_
    refine (reads_option (by decide) (by decide) hfull (fun _ _ _ => rfl) none).bind ?_
    rw [asked]
    split <;> exact reads_pure le_rfl _
  exact hreads.get

/-- What `proxy_send` decodes is what a call of `send` or `request` asks for, whatever the options
are and in whichever order they come. -/
theorem decodeSend_eq_asked (dest : ConnectionID) (cmd : String) (opts : List SendOption) :
    decodeSend.get (send dest cmd opts) = .ok (asked dest cmd none opts) ∧
    ∀ callback replyTag, decodeSend.get (request dest cmd callback replyTag opts)
      = .ok (asked dest cmd (some (replyTag, callback)) opts) :=
  ⟨decodeSend_message dest cmd none opts,
    fun callback replyTag => decodeSend_message dest cmd (some (replyTag, callback)) opts⟩

end Control

end OxenMQ
