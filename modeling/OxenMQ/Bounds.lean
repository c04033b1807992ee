import OxenMQ.Workers.Message

/-!
# Messages from remotes are read within their bounds

The frames of a message are read by position, and how many there are is up to the remote.  The
functions of `OxenMQ.Connections.Incoming` read a frame that is not there as the empty string, as
no C++ program may.  This file has them a second time, as they are in the source: a frame is read
where the source reads it, and reading beyond the last frame, or taking a larger size from a smaller
one, is a failure.

`Conn.checkedReceive_eq` says that there is no failure, for any message in any state, and that the
result is the one the rest of the development is about.  The reply tag of a request is read much
later, by the worker that runs it; that it is there is known from the check made when the message
arrived (`Sys.Origins.exists_loadCommand`).
-/

set_option autoImplicit false

namespace OxenMQ

variable {κ : Type}

/-! ## Reading frames -/

/-- `parts[i]`. -/
def frame (parts : List String) (i : ℕ) : Option String := parts[i]?

/-- `parts.back()`. -/
def back (parts : List String) : Option String := parts.getLast?

/-- The frames from `parts.begin() + i` to the end, with `parts.size() - i` places reserved. -/
def framesFrom (parts : List String) (i : ℕ) : Option (List String) :=
  if i ≤ parts.length then some (parts.drop i) else none

theorem frame_eq {parts : List String} {i : ℕ} (h : i < parts.length) :
    frame parts i = some (parts.getD i "") := by
  rw [frame, List.getD_eq_getElem?_getD, List.getElem?_eq_getElem h, Option.getD_some]

theorem framesFrom_eq {parts : List String} {i : ℕ} (h : i ≤ parts.length) :
    framesFrom parts i = some (parts.drop i) := if_pos h

theorem exists_back {parts : List String} (h : 0 < parts.length) : ∃ last, back parts = some last :=
  ⟨_, List.getLast?_eq_some_getLast (List.ne_nil_of_length_pos h)⟩

namespace Conn

variable {c c' : Conn}

/-! ## Builtins -/

/-- The `REPLY` branch of `proxy_handle_builtin`. -/
def checkedReply (c : Conn) (router : Bool) (parts : List String) : Option Conn :=
  let tagPos := 1 + router.toNat
  if parts.length ≤ tagPos then some c
  else do
    let tag ← frame parts tagPos
    match c.pendingRequests.lookup tag with
    | some _ =>
      let data ← framesFrom parts (tagPos + 1)
      return c.answerRequest tag true data
    | none => return c

/-- The branch of `proxy_handle_builtin` for error codes. -/
def checkedErrorResponse (c : Conn) (router : Bool) (cmd : String) (parts : List String) :
    Option Conn :=
  let incoming := router.toNat
  if parts.length = 1 + incoming ∧ cmd = "UNKNOWNCOMMAND" then some c
  else if parts.length = 3 + incoming then do
    let second ← frame parts (1 + incoming)
    if second = "REPLY" then
      let tag ← frame parts (2 + incoming)
      return c.answerRequest tag false [cmd]
    else
      -- the command and the address of the peer are logged
      let _ ← frame parts (1 + incoming)
      let _ ← back parts
      return c
  else if parts.length > 1 + incoming then do
    let _ ← frame parts (1 + incoming)
    let _ ← back parts
    return c
  else do
    let _ ← back parts
    return c

/-- The route and the command of a message. -/
def checkedHead (router : Bool) (parts : List String) : Option (String × String) :=
  if router then do
    let route ← frame parts 0
    let cmd ← frame parts 1
    return (route, cmd)
  else do
    let cmd ← frame parts 0
    return ("", cmd)

/-- `proxy_handle_builtin`. -/
def checkedHandleBuiltin (c : Conn) (connId : ℤ) (router : Bool) (parts : List String) :
    Option (Except Abort (Conn × Bool)) :=
  let incoming := router.toNat
  if parts.length < 1 + incoming then some (.ok (c, true))
  else do
    let (route, cmd) ← checkedHead router parts
    -- the address of the peer is logged here, and in the branches below
    let _ ← back parts
    if cmd = "REPLY" then (c.checkedReply router parts).map fun c => .ok (c, true)
    else if cmd = "HI" then
      return .ok
        (if router then { c with wire := c.wire ++ [(connId, [route, "HELLO"])] } else c, true)
    else if cmd = "HELLO" then return .ok (if router then c else c.handleHello connId, true)
    else if cmd = "BYE" then
      if router then return .ok (c, true)
      else return (c.proxyCloseConnection 0 connId).map fun c => (c, true)
    else if isErrorResponse cmd then
      (c.checkedErrorResponse router cmd parts).map fun c => .ok (c, true)
    else return .ok (c, false)

theorem checkedReply_eq (c : Conn) (router : Bool) (parts : List String) :
    c.checkedReply router parts = some (c.handleReply router parts) := by
  unfold checkedReply handleReply
  dsimp only
  split
  · rfl
  · rename_i hlen
    rw [frame_eq (by omega), Option.bind_eq_bind, Option.bind_some]
    split
    · rw [framesFrom_eq (by omega)]
      rfl
    · rename_i hnone
      rw [answerRequest, hnone]
      rfl

theorem checkedErrorResponse_eq (c : Conn) {router : Bool} (cmd : String) {parts : List String}
    (h : 1 + router.toNat ≤ parts.length) :
    c.checkedErrorResponse router cmd parts = some (c.handleErrorResponse router cmd parts) := by
  obtain ⟨last, hback⟩ := exists_back (show 0 < parts.length by omega)
  unfold checkedErrorResponse handleErrorResponse
  dsimp only
  split
  · rename_i hplain
    rw [if_neg (by omega)]
  · split
    · rename_i hthree
      rw [frame_eq (by omega), Option.bind_eq_bind, Option.bind_some, frame_eq (by omega)]
      by_cases hreply : parts.getD (1 + router.toNat) "" = "REPLY"
      · rw [if_pos hreply, if_pos ⟨hthree, hreply⟩]
        rfl
      · rw [if_neg hreply, if_neg (fun hand => hreply hand.2), hback]
        rfl
    · rename_i hthree
      have hnot : ¬ (parts.length = 3 + router.toNat ∧
          parts.getD (1 + router.toNat) "" = "REPLY") := fun hand => hthree hand.1
      rw [if_neg hnot, hback]
      split
      · rw [frame_eq (by omega)]
        rfl
      · rfl

theorem checkedHead_eq {router : Bool} {parts : List String}
    (h : 1 + router.toNat ≤ parts.length) :
    checkedHead router parts =
      some (if router then parts.getD 0 "" else "", parts.getD router.toNat "") := by
  unfold checkedHead
  cases router with
  | true =>
    rw [Bool.toNat_true] at h
    rw [if_pos rfl, frame_eq (by omega), frame_eq (by omega)]
    rfl
  | false =>
    rw [Bool.toNat_false] at h
    rw [if_neg Bool.false_ne_true, frame_eq (by omega)]
    rfl

/-- No frame that is not there is read for a builtin. -/
theorem checkedHandleBuiltin_eq (c : Conn) (connId : ℤ) (router : Bool) (parts : List String) :
    c.checkedHandleBuiltin connId router parts =
      some (c.proxyHandleBuiltin connId router parts) := by
  unfold checkedHandleBuiltin proxyHandleBuiltin
  dsimp only
  split
  · rfl
  · rename_i hlen
    rw [Nat.not_lt] at hlen
    obtain ⟨last, hback⟩ := exists_back (show 0 < parts.length by omega)
    rw [checkedHead_eq hlen, hback, checkedReply_eq]
    simp only [Option.bind_eq_bind, Option.bind_some, Option.map_some, Option.pure_def,
      checkedErrorResponse_eq c _ hlen]
    cases router <;> split_ifs <;> rfl

/-! ## Commands -/

/-- The temporary peer of `proxy_to_worker`: the route is the first frame, and the metadata are
those of the last one. -/
def checkedIncomingPeer (cfg : Config κ) (c : Conn) (connId : ℤ) (m : Incoming) :
    Option PeerInfo := do
  let route ← frame m.parts 0
  if connId = c.inprocListenerConnid then
    return { connId := connId, route := route, authLevel := .admin, pubkey := cfg.pubkey,
             serviceNode := cfg.pubkey ∈ c.activeServiceNodes }
  else
    let _ ← back m.parts
    let (pubkey, authLevel) := cfg.extractMetadata m
    return { connId := connId, route := route, authLevel := authLevel, pubkey := pubkey,
             serviceNode := decide (pubkey.length = 32) &&
               decide (pubkey ∈ c.activeServiceNodes) }

/-- The rest of the search for the peer reads no frames. -/
def checkedFindPeer (cfg : Config κ) (c : Conn) (pos : ℕ) (connId : ℤ) (router : Bool)
    (m : Incoming) : Option (Except Abort (Conn × Option (PeerInfo × String))) :=
  if router then
    (checkedIncomingPeer cfg c connId m).map fun _ => findPeer cfg c pos connId router m
  else some (findPeer cfg c pos connId router m)

/-- `proxy_check_auth`: the frames of the rejection, if there is one.  The reply tag is
`data.front()`. -/
def checkedCheckAuth (cfg : Config κ) (peer : PeerInfo) (router : Bool) (cmd : String)
    (catCall : Option (κ × Command)) (data : List String) : Option (Option (List String)) :=
  match cfg.rejection peer catCall data with
  | none => some none
  | some code => do
    let body ←
      match catCall with
      | some (_, callback) =>
        if callback.isRequest && !data.isEmpty then
          (frame data 0).map fun tag => [code, "REPLY", tag]
        else some [code, cmd]
      | none => some [code, cmd]
    return some (if router then peer.route :: body else body)

/-- The part of `proxy_to_worker` after the search for the peer. -/
def checkedDispatch (cfg : Config κ) (c : Conn) (connId : ℤ) (router : Bool) (m : Incoming)
    (peer : PeerInfo) (route : String) : Option (Conn × Option (Arrival κ)) := do
  let commandPartIndex := router.toNat
  let cmd ← frame m.parts commandPartIndex
  let dataParts ← framesFrom m.parts (commandPartIndex + 1)
  let (command, catCall) := cfg.getCommand cmd
  let part ← frame m.parts commandPartIndex
  let verdict ← checkedCheckAuth cfg peer router part catCall dataParts
  match verdict, catCall with
  | some frames, _ => return ({ c with wire := c.wire ++ [(connId, frames)] }, none)
  | none, some (cat, callback) =>
    -- the address of the peer is read off the frame of the command
    let _ ← frame m.parts commandPartIndex
    let access : Access := ⟨peer.authLevel, peer.serviceNode, cfg.localServiceNode⟩
    let conn : ConnectionID := ⟨if peer.serviceNode then snId else connId, peer.pubkey, route⟩
    return (c, some ⟨cat, command, dataParts, callback, conn, access, m.getPeerAddress⟩)
  | none, none => return (c, none)

/-- `proxy_to_worker` up to the choice of a worker. -/
def checkedArrival (cfg : Config κ) (c : Conn) (pos : ℕ) (connId : ℤ) (router : Bool)
    (m : Incoming) : Option (Except Abort (Conn × Option (Arrival κ))) := do
  let found ← checkedFindPeer cfg c pos connId router m
  match found with
  | .error e => return .error e
  | .ok (c, none) => return .ok (c, none)
  | .ok (c, some (peer, route)) =>
    (checkedDispatch cfg c connId router m peer route).map Except.ok

/-- A message from a remote. -/
def checkedReceive (cfg : Config κ) (c : Conn) (env : Env) (immediate : Bool) (connId : ℤ)
    (router : Bool) (m : Incoming) : Option (Except Abort (Conn × Option (Arrival κ))) := do
  let builtin ← c.checkedHandleBuiltin connId router m.parts
  match builtin with
  | .error e => return .error e
  | .ok (c, true) => return .ok (c, none)
  | .ok (c, false) =>
    let result ← checkedArrival cfg c env.pos connId router m
    return result.map fun (c, arr) =>
      if arr.isSome && immediate && !router then (c.pumpActivity env.now connId, arr) else (c, arr)

theorem checkedIncomingPeer_eq {cfg : Config κ} {connId : ℤ} {m : Incoming}
    (h : 0 < m.parts.length) :
    checkedIncomingPeer cfg c connId m = some (incomingPeer cfg c connId m) := by
  obtain ⟨last, hback⟩ := exists_back h
  unfold checkedIncomingPeer incomingPeer
  rw [frame_eq h, hback]
  dsimp only [Option.bind_eq_bind, Option.bind_some]
  split <;> rfl

theorem checkedFindPeer_eq {cfg : Config κ} {pos : ℕ} {connId : ℤ} {router : Bool} {m : Incoming}
    (h : 0 < m.parts.length) :
    checkedFindPeer cfg c pos connId router m = some (findPeer cfg c pos connId router m) := by
  unfold checkedFindPeer
  rw [checkedIncomingPeer_eq h]
  split <;> rfl

theorem checkedCheckAuth_eq (cfg : Config κ) (peer : PeerInfo) (router : Bool) (cmd : String)
    (catCall : Option (κ × Command)) (data : List String) :
    checkedCheckAuth cfg peer router cmd catCall data =
      some ((cfg.rejection peer catCall data).map fun code =>
        rejectionParts peer router code cmd catCall data) := by
  unfold checkedCheckAuth rejectionParts
  cases cfg.rejection peer catCall data with
  | none => rfl
  | some code =>
    rcases catCall with _ | ⟨cat, callback⟩
    · rfl
    · cases data with
      | nil => simp
      | cons tag data => cases hreq : callback.isRequest <;> simp [frame, hreq]

theorem checkedArrival_eq {cfg : Config κ} {pos : ℕ} {connId : ℤ} {router : Bool} {m : Incoming}
    (h : 1 + router.toNat ≤ m.parts.length) :
    checkedArrival cfg c pos connId router m = some (arrival cfg c pos connId router m) := by
  unfold checkedArrival arrival
  rw [checkedFindPeer_eq (by omega)]
  rcases findPeer cfg c pos connId router m with e | ⟨c₁, _ | ⟨peer, route⟩⟩
  · rfl
  · rfl
  · have hcmd : frame m.parts router.toNat = some (m.parts.getD router.toNat "") :=
      frame_eq (by omega)
    have hdata : framesFrom m.parts (router.toNat + 1) =
        some (m.parts.drop (router.toNat + 1)) := framesFrom_eq (by omega)
    simp only [checkedDispatch, hcmd, hdata, checkedCheckAuth_eq, Option.bind_eq_bind,
      Option.bind_some]
    rcases cfg.getCommand (m.parts.getD router.toNat "") with ⟨command, catCall⟩
    generalize m.parts.drop (router.toNat + 1) = data
    cases hcode : cfg.rejection peer catCall data with
    | some code => simp [Bind.bind, Except.bind, Pure.pure, Except.pure, hcode]
    | none => cases catCall <;> simp [Bind.bind, Except.bind, Pure.pure, Except.pure, hcode]

/-- **No message makes the proxy read beyond its frames.** -/
theorem checkedReceive_eq (cfg : Config κ) (c : Conn) (env : Env) (immediate : Bool) (connId : ℤ)
    (router : Bool) (m : Incoming) :
    checkedReceive cfg c env immediate connId router m =
      some (receive cfg c env immediate connId router m) := by
  unfold checkedReceive receive
  rw [checkedHandleBuiltin_eq]
  rcases hb : c.proxyHandleBuiltin connId router m.parts with e | ⟨c₁, handled⟩
  · rfl
  cases handled with
  | true => rfl
  | false =>
    -- a message without a command has been dealt with already
    have hlen : 1 + router.toNat ≤ m.parts.length := by
      by_contra hshort
      rw [proxyHandleBuiltin, if_pos (by omega)] at hb
      cases hb
    simp only [Option.bind_eq_bind, Option.bind_some, checkedArrival_eq hlen, Except.ok_bind]
    rcases arrival cfg c₁ env.pos connId router m with e | ⟨c₂, arr⟩
    · rfl
    · cases hpump : arr.isSome && immediate && !router <;>
        simp [Bind.bind, Except.bind, Pure.pure, Except.pure, Except.map, hpump]

end Conn

/-! ## The reply tag -/

namespace Sys

variable [DecidableEq κ] [Fintype κ] {cfg : PoolConfig κ} {conf : Config κ} {s s' : Sys κ}
  {f : Worker → Phase}

/-- A worker that is about to call the callback of a command has been loaded with a command that
has arrived. -/
theorem Origins.exists_loadCommand (h : s.Origins conf f) (hinv : s.Inv cfg f) {w : Worker}
    (hs : s.workerReceive w = some s') {callback : Command}
    (hcall : s.nextCallback w = some callback) :
    ∃ r a, s.pool.runInfo w = some (RunInfo.loadCommand r a) ∧ Arrives conf a ∧
      a.callback = callback := by
  obtain ⟨p, _, _, _, ⟨run, threads, hbegins, hrun, hphase, _⟩ | ⟨hbegins, _⟩⟩ :=
    hinv.workerReceive hs
  · rw [nextCallback, if_pos hbegins, hrun, Option.bind_some] at hcall
    rcases h.beginJob hrun hphase threads with ⟨hnone, _⟩ | ⟨r, a, rfl, ha, ha', _⟩
    · rw [hnone] at hcall
      cases hcall
    · exact ⟨r, a, hrun, ha, Option.some.inj (ha'.symm.trans hcall)⟩
  · rw [nextCallback, if_neg (by rw [hbegins]; exact Bool.false_ne_true)] at hcall
    cases hcall

/-- **Nothing is read out of range.**  Neither by the proxy, of any message in any state, nor by a
worker: when it calls the callback of a request, however long after the message has arrived, the
reply tag is there. -/
theorem reads_in_range (cfg : PoolConfig κ) (conf : Config κ) (es : List (PoolEvent κ))
    (hes : ∀ a, .command a ∈ es → Arrives conf a) :
    (∀ c env immediate connId router m,
      Conn.checkedReceive conf c env immediate connId router m =
        some (Conn.receive conf c env immediate connId router m)) ∧
    ∀ p ∈ Transition.steps (Sys.step cfg) (init cfg) es, ∀ w callback, p.2 = .receive w →
      p.1.nextCallback w = some callback → callback.isRequest = true →
      ∃ run tag, p.1.pool.runInfo w = some run ∧ frame run.dataParts 0 = some tag := by
  refine ⟨Conn.checkedReceive_eq conf, ?_⟩
  rintro ⟨s, e⟩ hp w callback rfl hcall hreq
  obtain ⟨pre, post, t, rfl, hpre, ht⟩ := Transition.exists_of_mem_steps hp
  obtain ⟨f, hinv, h⟩ := origins_of_run (fun a ha => hes a (List.mem_append_left _ ha)) hpre
  obtain ⟨r, a, hrun, ha, rfl⟩ := h.exists_loadCommand hinv (step_receive ht) hcall
  refine ⟨_, a.message.replyTag, hrun, ?_⟩
  show frame a.dataParts 0 = _
  rw [ha.dataParts hreq]
  rfl

/-- A request arrives and a worker takes it. -/
theorem reads_in_range_request :
    (∀ c env immediate connId router m,
      Conn.checkedReceive talkConfig c env immediate connId router m =
        some (Conn.receive talkConfig c env immediate connId router m)) ∧
    ∃ s, (s, .receive (.untagged 0)) ∈ Transition.steps (Sys.step smallConfig) (init smallConfig)
        [.command askArrival, .receive (.untagged 0)] ∧
      s.nextCallback (.untagged 0) = some askArrival.callback ∧
      ∃ run tag, s.pool.runInfo (.untagged 0) = some run ∧ frame run.dataParts 0 = some tag := by
  obtain ⟨hproxy, hworker⟩ := reads_in_range smallConfig talkConfig
    [.command askArrival, .receive (.untagged 0)] (by
      intro a ha
      simp only [List.mem_cons, PoolEvent.command.injEq, reduceCtorEq, List.not_mem_nil,
        or_false] at ha
      exact ha ▸ arrives_ask)
  have hmem : ∃ s, (s, .receive (.untagged 0)) ∈
      Transition.steps (Sys.step smallConfig) (init smallConfig)
        [.command askArrival, .receive (.untagged 0)] ∧
      s.nextCallback (.untagged 0) = some askArrival.callback :=
    ⟨_, List.mem_cons_of_mem _ List.mem_cons_self, rfl⟩
  obtain ⟨s, hs, hcall⟩ := hmem
  exact ⟨hproxy, s, hs, hcall, hworker _ hs _ _ rfl hcall rfl⟩

end Sys

end OxenMQ
