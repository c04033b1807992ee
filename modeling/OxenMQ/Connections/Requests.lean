import OxenMQ.Connections.Changes

/-!
# A request's callback is called exactly once

Seen from one request, the proxy is a small machine: the request waits under its tag until
something hits it, and then exactly one job with its callback is scheduled.  What can hit it is a
`REPLY` with its tag, an error response with its tag, or a cleanup after its deadline.  `Track` is
the state of this machine for one tag, and `Track.next` is its step.

`Conn.step_track` shows that, for every tag, the proxy does to the request table and to the
scheduled jobs exactly what this machine does, whatever else the event is about.  From there on the
handlers play no role any more, and `Conn.request_fate` reads off the machine what has become of a
request at any later moment.
-/

set_option autoImplicit false

namespace OxenMQ

variable {κ : Type}

/-! ## What can hit a waiting request -/

/-- The answer an event brings to a request that waits under `tag` until `deadline`: whether it
succeeded, and the data for the callback. -/
def ConnEvent.answer (tag : String) (deadline : ℤ) : ConnEvent → Option (Bool × List String)
  | .message _ _ _ router m =>
    let incoming := router.toNat
    let cmd := m.parts.getD incoming ""
    if cmd = "REPLY" then
      if 1 + incoming < m.parts.length ∧ m.parts.getD (1 + incoming) "" = tag then
        some (true, m.parts.drop (2 + incoming))
      else none
    else if isErrorResponse cmd = true ∧ m.parts.length = 3 + incoming ∧
        m.parts.getD (1 + incoming) "" = "REPLY" ∧ m.parts.getD (2 + incoming) "" = tag then
      some (false, [cmd])
    else none
  | .cleanup env => if deadline < env.now then some (false, ["TIMEOUT"]) else none
  | _ => none

/-- The first answer among a list of events. -/
def firstAnswer (tag : String) (deadline : ℤ) (es : List ConnEvent) :
    Option (Bool × List String) :=
  es.findSome? (ConnEvent.answer tag deadline)

/-- The tag of the request an event makes. -/
def ConnEvent.requestTag : ConnEvent → Option String
  | .send _ r => r.request.map Conn.Request.tag
  | _ => none

/-! ## One request as a machine -/

/-- What there is of a request: its entry in the table, and the jobs scheduled for it. -/
structure Track where
  entry : Option PendingRequest
  jobs : List Closure
  deriving DecidableEq

/-- What an answer, if there is one, does to a request that waits. -/
def Track.settle (tag : String) (r : PendingRequest) (t : Track) :
    Option (Bool × List String) → Track
  | none => t
  | some (success, data) => ⟨none, t.jobs ++ [.reply tag r.callback success data]⟩

def Track.next (tag : String) (t : Track) (e : ConnEvent) : Track :=
  match t.entry with
  | none => t
  | some r => t.settle tag r (e.answer tag r.deadline)

/-- A request that has been answered is past being hit. -/
theorem Track.foldl_next_none (tag : String) (jobs : List Closure) (es : List ConnEvent) :
    es.foldl (Track.next tag) ⟨none, jobs⟩ = ⟨none, jobs⟩ := by
  induction es with
  | nil => rfl
  | cons e es ih => exact ih

/-- A request that waits ends with its first answer. -/
theorem Track.foldl_next (tag : String) (r : PendingRequest) (es : List ConnEvent) :
    es.foldl (Track.next tag) ⟨some r, []⟩ =
      Track.settle tag r ⟨some r, []⟩ (firstAnswer tag r.deadline es) := by
  induction es with
  | nil => rfl
  | cons e es ih =>
    rw [List.foldl_cons, Track.next, firstAnswer, List.findSome?_cons]
    dsimp only
    cases e.answer tag r.deadline with
    | none => exact ih
    | some a => exact Track.foldl_next_none tag _ es

/-- Is this the job of the request with this tag? -/
def Closure.isReplyTo (tag : String) : Closure → Bool
  | .reply t _ _ _ => t == tag
  | _ => false

theorem isReplyTo_of_isReply {body : Closure} (h : body.isReply = false) (tag : String) :
    body.isReplyTo tag = false := by
  cases body with
  | reply => cases h
  | connectSuccess | connectFailure | queueFailure | queueFull => rfl

namespace Conn

/-- The jobs that have been scheduled for a request. -/
def replyJobs (c : Conn) (tag : String) : List Closure :=
  (c.scheduled.map Scheduled.body).filter (Closure.isReplyTo tag)

/-- What the proxy has of a request. -/
def track (c : Conn) (tag : String) : Track := ⟨c.pendingRequests.lookup tag, c.replyJobs tag⟩

variable {c c' : Conn}

/-! ## Handlers that have nothing to do with requests -/

/-- No request is touched. -/
def Quiet (c c' : Conn) : Prop := ∀ tag, c'.track tag = c.track tag

theorem Quiet.refl (c : Conn) : c.Quiet c := fun _ => rfl

theorem Quiet.trans {a b d : Conn} (h : a.Quiet b) (h' : b.Quiet d) : a.Quiet d :=
  fun tag => (h' tag).trans (h tag)

/-- Tables that agree on the requests and the jobs. -/
theorem Quiet.of_eq (hp : c'.pendingRequests = c.pendingRequests)
    (hs : c'.scheduled = c.scheduled) : c.Quiet c' := fun tag => by
  unfold track replyJobs
  rw [hp, hs]

/-- A job that is not a request's is scheduled. -/
theorem Quiet.of_append {job : Scheduled} (hp : c'.pendingRequests = c.pendingRequests)
    (hs : c'.scheduled = c.scheduled ++ [job]) (hjob : ∀ tag, job.body.isReplyTo tag = false) :
    c.Quiet c' := fun tag => by
  unfold track replyJobs
  rw [hp, hs, List.map_append, List.filter_append, List.map_singleton,
    List.filter_cons_of_neg (by rw [hjob tag]; exact Bool.false_ne_true), List.filter_nil,
    List.append_nil]

/-- Most changes leave the requests alone. -/
theorem Change.quiet {cfg : Config κ} {ev : ConnEvent} {o : Option ℤ} (h : Change cfg ev o c c')
    (hev : ev.onRequests = false) : c.Quiet c' := by
  cases h with
  | write | touch | drop | dropDead | bye | index | openSn | allocate | connectRemote | bind
  | addPeer | active | flags => exact .of_eq rfl rfl
  | report _ _ hreply => exact .of_append rfl rfl (isReplyTo_of_isReply hreply)
  | connectFail | hello | timeOut => exact .of_append rfl rfl fun _ => rfl
  | record _ _ hrequests | settle _ _ hrequests =>
    rw [hev] at hrequests
    cases hrequests

theorem Changes.quiet {cfg : Config κ} {ev : ConnEvent} {o : Option ℤ} (h : Changes cfg ev o c c')
    (hev : ev.onRequests = false) : c.Quiet c' :=
  h.induction (P := fun s => c.Quiet s) (fun _ _ _ hs h => hs.trans (h.quiet hev)) (.refl c)

/-- The loop that sends a message does to the tables what connecting to a service node does. -/
theorem sendLoop_quiet {env : Env} {r : SendRequest} {fuel n : ℕ} {conn : ConnectionID}
    {turn : Turn} (h : sendLoop env r fuel n conn c = .ok (c', turn)) : c.Quiet c' := by
  obtain ⟨o, hchanges⟩ : ∃ o, Changes bareConfig
      (.connectSn env { pubkey := conn.pk, keepAlive := r.keepAlive }) o c c' :=
    sendLoop_changes rfl rfl rfl h
  exact hchanges.quiet rfl

theorem reportFailure_quiet {env : Env} {callback nosend : Option Callback} {turn : Turn}
    (h : c.reportFailure env callback turn = .ok (c', nosend)) : c.Quiet c' :=
  (reportFailure_changes h : Changes bareConfig .allocate none c c').quiet rfl

theorem reportUnsent_quiet {env : Env} {nosend noqueue : Option Callback}
    (h : c.reportUnsent env nosend noqueue = .ok c') : c.Quiet c' :=
  (reportUnsent_changes h : Changes bareConfig .allocate none c c').quiet rfl

theorem findPeer_quiet {cfg : Config κ} {pos : ℕ} {connId : ℤ} {router : Bool} {m : Incoming}
    {found : Option (PeerInfo × String)}
    (h : findPeer cfg c pos connId router m = .ok (c', found)) : c.Quiet c' := by
  rcases findPeer_cases h with rfl | ⟨_, _, _, rfl⟩ | ⟨_, _, _, _, _, _, rfl⟩
  · exact .refl c'
  · exact .of_eq rfl rfl
  · exact .of_eq rfl rfl

theorem handleHello_quiet (c : Conn) (connId : ℤ) : c.Quiet (c.handleHello connId) := by
  rcases handleHello_cases c connId with hsame | ⟨_, _, _, _, _, hdone⟩
  · rw [hsame]
    exact .refl c
  · rw [hdone]
    exact .of_append rfl rfl fun _ => rfl

/-! ## Handlers that answer requests -/

/-- A request is taken out of the table and its callback scheduled; the other requests do not
notice. -/
theorem track_settled {tag' : String} (callback : Callback) {success : Bool} {data : List String}
    {viaReply : Bool} (hp : c'.pendingRequests = c.pendingRequests.erase tag')
    (hs : c'.scheduled = c.scheduled ++ [⟨.reply tag' callback success data, viaReply⟩])
    (tag : String) :
    c'.track tag = if tag = tag' then
        ⟨none, c.replyJobs tag ++ [.reply tag callback success data]⟩
      else c.track tag := by
  unfold track replyJobs
  rw [hp, hs, List.map_append, List.filter_append, List.map_singleton]
  split
  · rename_i htag
    subst htag
    rw [AList.lookup_erase, List.filter_cons_of_pos (by simp [Closure.isReplyTo]), List.filter_nil]
  · rename_i htag
    rw [AList.lookup_erase_ne htag, List.filter_cons_of_neg, List.filter_nil, List.append_nil]
    simpa [Closure.isReplyTo] using Ne.symm htag

theorem track_next_of_none {tag : String} (h : c.pendingRequests.lookup tag = none)
    (e : ConnEvent) : (c.track tag).next tag e = c.track tag := by
  unfold track Track.next
  rw [h]

theorem track_next_of_some {tag : String} {r : PendingRequest}
    (h : c.pendingRequests.lookup tag = some r) (e : ConnEvent) :
    (c.track tag).next tag e = (c.track tag).settle tag r (e.answer tag r.deadline) := by
  unfold track Track.next
  rw [h]

/-- An event that answers no request leaves the machine alone. -/
theorem track_next_quiet {tag : String} {e : ConnEvent}
    (h : ∀ deadline, e.answer tag deadline = none) :
    (c.track tag).next tag e = c.track tag := by
  cases hr : c.pendingRequests.lookup tag with
  | none => exact track_next_of_none hr e
  | some r => rw [track_next_of_some hr, h, Track.settle]

/-- A `REPLY` or an error with the tag `tag'` is an event that answers the request `tag'`, if it
is pending, and no other. -/
theorem track_answerRequest {tag' : String} {success : Bool} {data : List String} {tag : String}
    {e : ConnEvent}
    (h : ∀ deadline, e.answer tag deadline = if tag = tag' then some (success, data) else none) :
    (c.answerRequest tag' success data).track tag = (c.track tag).next tag e := by
  unfold answerRequest
  split
  · rename_i r hr
    rw [track_settled (c := c) r.callback rfl rfl]
    split
    · rename_i htag
      rw [track_next_of_some (htag ▸ hr), h, if_pos htag]
      rfl
    · rename_i htag
      refine (track_next_quiet fun d => ?_).symm
      rw [h, if_neg htag]
  · rename_i hr
    by_cases htag : tag = tag'
    · rw [track_next_of_none (htag ▸ hr)]
    · refine (track_next_quiet fun d => ?_).symm
      rw [h, if_neg htag]

theorem track_handleReply {env : Env} {immediate : Bool} {connId : ℤ} {router : Bool}
    {m : Incoming} (hcmd : m.parts.getD router.toNat "" = "REPLY") (tag : String) :
    (c.handleReply router m.parts).track tag =
      (c.track tag).next tag (.message env immediate connId router m) := by
  unfold handleReply
  dsimp only
  split
  · refine (track_next_quiet fun d => ?_).symm
    rw [ConnEvent.answer]
    rw [if_pos hcmd, if_neg fun h => by omega]
  · refine track_answerRequest fun d => ?_
    rw [ConnEvent.answer]
    rw [if_pos hcmd]
    have hlen : 1 + router.toNat < m.parts.length := by omega
    by_cases htag : tag = m.parts.getD (1 + router.toNat) ""
    · rw [if_pos ⟨hlen, htag.symm⟩, if_pos htag,
        show 1 + router.toNat + 1 = 2 + router.toNat by omega]
    · rw [if_neg fun h => htag h.2.symm, if_neg htag]

theorem track_handleErrorResponse {env : Env} {immediate : Bool} {connId : ℤ} {router : Bool}
    {m : Incoming} (hreply : m.parts.getD router.toNat "" ≠ "REPLY")
    (herr : isErrorResponse (m.parts.getD router.toNat "") = true) (tag : String) :
    (c.handleErrorResponse router (m.parts.getD router.toNat "") m.parts).track tag =
      (c.track tag).next tag (.message env immediate connId router m) := by
  unfold handleErrorResponse
  dsimp only
  split
  · rename_i hform
    refine track_answerRequest fun d => ?_
    rw [ConnEvent.answer]
    rw [if_neg hreply]
    by_cases htag : tag = m.parts.getD (2 + router.toNat) ""
    · rw [if_pos ⟨herr, hform.1, hform.2, htag.symm⟩, if_pos htag]
    · rw [if_neg fun h => htag h.2.2.2.symm, if_neg htag]
  · rename_i hform
    refine (track_next_quiet fun d => ?_).symm
    rw [ConnEvent.answer]
    rw [if_neg hreply, if_neg fun h => hform ⟨h.2.1, h.2.2.1⟩]

/-- A message that is neither a `REPLY` nor an error answers no request. -/
theorem answer_message_eq_none {env : Env} {immediate : Bool} {connId : ℤ} {router : Bool}
    {m : Incoming} (hreply : m.parts.getD router.toNat "" ≠ "REPLY")
    (herr : ¬ isErrorResponse (m.parts.getD router.toNat "") = true) (tag : String) (deadline : ℤ) :
    (ConnEvent.message env immediate connId router m).answer tag deadline = none := by
  rw [ConnEvent.answer]
  rw [if_neg hreply, if_neg fun h => herr h.1]

/-- **The builtins do to a request what the machine does.** -/
theorem track_proxyHandleBuiltin {env : Env} {immediate : Bool} {connId : ℤ} {router handled : Bool}
    {m : Incoming} (h : c.proxyHandleBuiltin connId router m.parts = .ok (c', handled))
    (tag : String) :
    c'.track tag = (c.track tag).next tag (.message env immediate connId router m) := by
  unfold proxyHandleBuiltin at h
  dsimp only at h
  split at h
  · rename_i hlen
    cases h
    have hcmd : m.parts.getD router.toNat "" = "" := by
      rw [List.getD_eq_getElem?_getD, List.getElem?_eq_none (by omega)]
      rfl
    refine (track_next_quiet fun d => answer_message_eq_none ?_ ?_ tag d).symm
    · rw [hcmd]; decide
    · rw [hcmd]; decide
  split at h
  · rename_i hcmd
    cases h
    exact track_handleReply hcmd tag
  rename_i hreply
  -- the other builtins are not error codes
  have hquiet : ∀ {s : String}, m.parts.getD router.toNat "" = s → isErrorResponse s = false →
      c.Quiet c' → c'.track tag =
        (c.track tag).next tag (.message env immediate connId router m) := by
    intro s hs herr hq
    rw [hq tag]
    refine (track_next_quiet fun d => answer_message_eq_none hreply ?_ tag d).symm
    rw [hs, herr]
    exact Bool.false_ne_true
  split at h
  · refine hquiet ‹_› (by decide) ?_
    cases h
    split
    · exact .of_eq rfl rfl
    · exact .refl c
  split at h
  · refine hquiet ‹_› (by decide) ?_
    cases h
    split
    · exact .refl c
    · exact handleHello_quiet c connId
  split at h
  · refine hquiet ‹_› (by decide) ?_
    split at h
    · cases h
      exact .refl c
    · obtain ⟨c₁, hclose, h⟩ := Except.bind_eq_ok.1 h
      cases h
      rw [proxyCloseConnection_ok hclose]
      exact .of_eq rfl rfl
  split at h
  · cases h
    exact track_handleErrorResponse hreply ‹_› tag
  · cases h
    exact (track_next_quiet fun d => answer_message_eq_none hreply ‹_› tag d).symm

theorem track_receive {cfg : Config κ} {env : Env} {immediate : Bool} {connId : ℤ} {router : Bool}
    {m : Incoming} {arr : Option (Arrival κ)}
    (h : receive cfg c env immediate connId router m = .ok (c', arr)) (tag : String) :
    c'.track tag = (c.track tag).next tag (.message env immediate connId router m) := by
  rcases receive_cases h with ⟨hb, _⟩ | ⟨hb, c₁, harr, hc'⟩
  · exact track_proxyHandleBuiltin hb tag
  · rw [← track_proxyHandleBuiltin hb tag]
    obtain ⟨c₂, found, wire, hfind, rfl⟩ := arrival_cases harr
    have hq : c.Quiet c' := by
      refine (findPeer_quiet hfind).trans ?_
      rcases hc' with rfl | rfl
      · exact .of_eq rfl rfl
      · exact .of_eq rfl rfl
    exact hq tag

/-! ## The cleanup timer -/

/-- The requests that are timed out are those in the list. -/
theorem track_foldlM_timeOutRequest {env : Env}
    {late : List (Sigma fun _ : String => PendingRequest)} (hkeys : late.NodupKeys)
    (h : late.foldlM (timeOutRequest env) c = .ok c') (tag : String) :
    c'.track tag =
      match late.dlookup tag with
      | none => c.track tag
      | some r => (c.track tag).settle tag r (some (false, ["TIMEOUT"])) := by
  induction late generalizing c with
  | nil => cases h; rfl
  | cons e late ih =>
    obtain ⟨tag', r⟩ := e
    obtain ⟨hnot, hkeys⟩ := List.nodupKeys_cons.1 hkeys
    obtain ⟨c₁, he, h⟩ := Except.bind_eq_ok.1 h
    obtain ⟨_, rfl⟩ := timeOutRequest_ok he
    rw [ih hkeys h, track_settled (c := c) r.callback rfl rfl]
    by_cases htag : tag = tag'
    · subst htag
      rw [List.dlookup_cons_eq, List.dlookup_eq_none.2 hnot, if_pos rfl]
      rfl
    · rw [List.dlookup_cons_ne _ _ htag, if_neg htag]

theorem foldlM_timeOutConnect_quiet {env : Env} {late : List PendingConnect}
    (h : late.foldlM (timeOutConnect env) c = .ok c') : c.Quiet c' := by
  refine Except.foldlM_induction (P := fun s => c.Quiet s) (fun s pc s' hs hpc => ?_) (.refl c) h
  obtain ⟨_, rfl⟩ := timeOutConnect_ok hpc
  exact hs.trans (.of_append rfl rfl fun _ => rfl)

theorem track_proxyConnCleanup {closeLinger : ℤ} {env : Env}
    (h : c.proxyConnCleanup closeLinger env = .ok c') (tag : String) :
    c'.track tag = (c.track tag).next tag (.cleanup env) := by
  obtain ⟨c₁, c₂, hidle, hconnects, hrequests⟩ := proxyConnCleanup_cases h
  have hq₁ : c.Quiet c₁ := by
    rw [proxyExpireIdlePeers_ok hidle]
    exact .of_eq rfl rfl
  have hq : c.Quiet c₂ := hq₁.trans (foldlM_timeOutConnect_quiet hconnects)
  have hkeys := c₂.pendingRequests.nodupKeys
  rw [← hq tag, track_foldlM_timeOutRequest (hkeys.sublist List.filter_sublist) hrequests,
    List.dlookup_filter hkeys]
  change (match (c₂.pendingRequests.lookup tag).filter fun r => decide (r.deadline < env.now) with
    | none => c₂.track tag
    | some r => (c₂.track tag).settle tag r (some (false, ["TIMEOUT"]))) = _
  cases hr : c₂.pendingRequests.lookup tag with
  | none => rw [track_next_of_none hr, Option.filter_none]
  | some r =>
    rw [track_next_of_some hr, ConnEvent.answer, Option.filter_some]
    by_cases hlate : r.deadline < env.now
    · rw [if_pos (decide_eq_true hlate), if_pos hlate]
    · rw [if_neg (by rwa [decide_eq_true_eq]), if_neg hlate]
      rfl

/-! ## Making a request -/

/-- Does `proxy_send` get the message out? -/
def sends (c : Conn) (env : Env) (r : SendRequest) : Bool :=
  match sendLoop env r (c.peers.length + 2) 0 r.conn c with
  | .ok (_, turn) => turn.isSent
  | .error _ => false

theorem track_recordRequest_of_ne {env : Env} {sent : Bool} {q : Option Request} {tag : String}
    (h : q.map Request.tag ≠ some tag) (hrecord : c.recordRequest env sent q = .ok c') :
    c'.track tag = c.track tag := by
  unfold recordRequest at hrecord
  split at hrecord
  · cases hrecord
    rfl
  · rename_i q
    have hne : tag ≠ q.tag := fun he => h (congrArg some he.symm)
    split at hrecord
    · split at hrecord
      · cases hrecord
        rfl
      · cases hrecord
        unfold track replyJobs
        dsimp only
        rw [AList.lookup_insert_ne hne]
    · obtain ⟨_, rfl⟩ := job_ok.1 hrecord
      unfold track replyJobs
      dsimp only
      rw [List.map_append, List.filter_append, List.map_singleton, List.filter_cons_of_neg,
        List.filter_nil, List.append_nil]
      simpa [Closure.isReplyTo] using Ne.symm hne

/-- A new request waits, or it has failed at once. -/
theorem track_recordRequest {env : Env} {sent : Bool} {q : Request}
    (h : c.pendingRequests.lookup q.tag = none)
    (hrecord : c.recordRequest env sent (some q) = .ok c') :
    c'.track q.tag =
      if sent then ⟨some ⟨timeAfter env.now q.timeout, q.callback⟩, c.replyJobs q.tag⟩
      else ⟨none, c.replyJobs q.tag ++ [.reply q.tag q.callback false ["TIMEOUT"]]⟩ := by
  unfold recordRequest at hrecord
  dsimp only at hrecord
  cases sent with
  | true =>
    rw [if_pos rfl, if_neg (AList.lookup_eq_none.1 h)] at hrecord
    cases hrecord
    unfold track replyJobs
    dsimp only
    rw [if_pos rfl, AList.lookup_insert]
  | false =>
    obtain ⟨_, rfl⟩ := job_ok.1 hrecord
    unfold track replyJobs
    dsimp only
    rw [h, List.map_append, List.filter_append, List.map_singleton,
      List.filter_cons_of_pos (by simp [Closure.isReplyTo]), List.filter_nil]
    rfl

/-- `proxy_send` does nothing to requests but to record its own. -/
theorem track_proxySend {env : Env} {r : SendRequest} (h : c.proxySend env r = .ok c') :
    ∃ c₁ c₂, c.Quiet c₁ ∧ c₁.recordRequest env (c.sends env r) r.request = .ok c₂ ∧
      c₂.Quiet c' := by
  obtain ⟨c₁, turn, c₂, nosend, c₃, hloop, hfailure, hrecord, hend⟩ := proxySend_cases h
  have hsends : c.sends env r = turn.isSent := by
    unfold sends
    rw [hloop]
  rw [← hsends] at hrecord
  refine ⟨c₂, c₃, (sendLoop_quiet hloop).trans (reportFailure_quiet hfailure), hrecord, ?_⟩
  split at hend
  · rw [hend]
    exact .refl c₃
  · exact reportUnsent_quiet hend

/-! ## The proxy and the machine -/

/-- **Whatever happens, it does to a request that it does not make what the machine does.** -/
theorem step_track (cfg : Config κ) {e : ConnEvent} (hstep : step cfg c e = some c') {tag : String}
    (htag : e.requestTag ≠ some tag) : c'.track tag = (c.track tag).next tag e := by
  cases e with
  | send env r =>
    obtain ⟨c₁, c₂, hbefore, hrecord, hafter⟩ := track_proxySend (Except.toOption_eq_some.1 hstep)
    rw [hafter tag, track_recordRequest_of_ne htag hrecord, hbefore tag,
      track_next_quiet fun _ => rfl]
  | message env immediate connId router m =>
    rw [step] at hstep
    split at hstep
    · obtain ⟨⟨c₁, arr⟩, hok, rfl⟩ := Option.map_eq_some_iff.1 hstep
      exact track_receive (Except.toOption_eq_some.1 hok) tag
    · cases hstep
  | cleanup env => exact track_proxyConnCleanup (Except.toOption_eq_some.1 hstep) tag
  | allocate | connectRemote | connectSn | disconnect | setActiveSns | updateActiveSns | bind
  | setFlags =>
    obtain ⟨o, hchanges⟩ := step_changes hstep
    rw [hchanges.quiet rfl tag, track_next_quiet fun _ => rfl]

/-- Over a run that does not make the request, the machine runs along. -/
theorem run_track (cfg : Config κ) {es : List ConnEvent}
    (hrun : Transition.run (step cfg) c es = some c') {tag : String}
    (htag : tag ∉ es.filterMap ConnEvent.requestTag) :
    c'.track tag = es.foldl (Track.next tag) (c.track tag) := by
  induction es generalizing c with
  | nil => cases hrun; rfl
  | cons e es ih =>
    obtain ⟨c₁, hstep, hrun⟩ := Transition.run_cons_eq_some.1 hrun
    have hnot : ∀ e' ∈ e :: es, e'.requestTag ≠ some tag := fun e' he' h =>
      htag (List.mem_filterMap.2 ⟨e', he', h⟩)
    have hrest : tag ∉ es.filterMap ConnEvent.requestTag := fun h => by
      obtain ⟨e', he', h⟩ := List.mem_filterMap.1 h
      exact hnot e' (List.mem_cons_of_mem _ he') h
    rw [ih hrun hrest, step_track cfg hstep (hnot e (List.mem_cons_self ..)), List.foldl_cons]

/-! ## What becomes of a request -/

/-- The request waits: it is stored under its tag and no job has been scheduled for it. -/
def Waiting (c : Conn) (q : Request) (deadline : ℤ) : Prop :=
  c.pendingRequests.lookup q.tag = some ⟨deadline, q.callback⟩ ∧ c.replyJobs q.tag = []

/-- The request is over: it is not stored, and the one job that has been scheduled for it calls its
callback with these arguments. -/
def Answered (c : Conn) (q : Request) (success : Bool) (data : List String) : Prop :=
  q.tag ∉ c.pendingRequests ∧ c.replyJobs q.tag = [.reply q.tag q.callback success data]

/-- How a request ends that was made at the time `now`, given the events since: with the first
answer, or with a timeout at once if it could not be sent. -/
def outcome (q : Request) (now : ℤ) (sent : Bool) (since : List ConnEvent) :
    Option (Bool × List String) :=
  if sent then firstAnswer q.tag (timeAfter now q.timeout) since else some (false, ["TIMEOUT"])

theorem track_of_outcome {q : Request} {now : ℤ} {sent : Bool} {since : List ConnEvent}
    {t : Track}
    (h : t = if sent then ⟨some ⟨timeAfter now q.timeout, q.callback⟩, []⟩
      else ⟨none, [.reply q.tag q.callback false ["TIMEOUT"]]⟩) :
    since.foldl (Track.next q.tag) t =
      match outcome q now sent since with
      | none => ⟨some ⟨timeAfter now q.timeout, q.callback⟩, []⟩
      | some (success, data) => ⟨none, [.reply q.tag q.callback success data]⟩ := by
  subst h
  unfold outcome
  split
  · rw [Track.foldl_next]
    cases firstAnswer q.tag (timeAfter now q.timeout) since with
    | none => rfl
    | some a => rfl
  · rw [Track.foldl_next_none]

/-- **A request's callback is called exactly once.**  At every moment after a request was made, it
waits or it has been answered; and it has been answered by what hit it first. -/
theorem request_fate (cfg : Config κ) (pre post : List ConnEvent) (env : Env) {r : SendRequest}
    {q : Request} (hq : r.request = some q)
    (htags : ((pre ++ .send env r :: post).filterMap ConnEvent.requestTag).Nodup)
    (hrun : Transition.run (step cfg) start (pre ++ .send env r :: post) = some c) :
    ∃ c₀, Transition.run (step cfg) start pre = some c₀ ∧
      Xor (c.Waiting q (timeAfter env.now q.timeout)) (∃ success data, c.Answered q success data) ∧
      ∀ success data, c.Answered q success data ↔
        outcome q env.now (c₀.sends env r) post = some (success, data) := by
  obtain ⟨c₀, hpre, hrun⟩ := Transition.run_append_eq_some.1 hrun
  obtain ⟨c₁, hsend, hpost⟩ := Transition.run_cons_eq_some.1 hrun
  refine ⟨c₀, hpre, ?_⟩
  -- the tag is used by this request only
  have htag : (ConnEvent.send env r).requestTag = some q.tag := congrArg (Option.map _) hq
  rw [List.filterMap_append, List.filterMap_cons_some htag, List.nodup_append] at htags
  obtain ⟨_, hnodup, hdisj⟩ := htags
  have hpre' : q.tag ∉ pre.filterMap ConnEvent.requestTag := fun h =>
    hdisj _ h _ (List.mem_cons_self ..) rfl
  have hpost' := (List.nodup_cons.1 hnodup).1
  -- before it was made there was no trace of it
  have h₀ : c₀.track q.tag = ⟨none, []⟩ := by
    rw [run_track cfg hpre hpre']
    exact Track.foldl_next_none q.tag [] pre
  -- making it starts the machine
  obtain ⟨c₂, c₃, hbefore, hrecord, hafter⟩ := track_proxySend (Except.toOption_eq_some.1 hsend)
  have h₂ := (hbefore q.tag).trans h₀
  have h₁ : c₁.track q.tag = if c₀.sends env r
      then ⟨some ⟨timeAfter env.now q.timeout, q.callback⟩, []⟩
      else ⟨none, [.reply q.tag q.callback false ["TIMEOUT"]]⟩ := by
    have hentry : c₂.pendingRequests.lookup q.tag = none := congrArg Track.entry h₂
    have hjobs : c₂.replyJobs q.tag = [] := congrArg Track.jobs h₂
    rw [hq] at hrecord
    rw [hafter q.tag, track_recordRequest hentry hrecord, hjobs]
    rfl
  have hc : c.track q.tag = _ := (run_track cfg hpost hpost').trans (track_of_outcome h₁)
  have hentry : c.pendingRequests.lookup q.tag = _ := congrArg Track.entry hc
  have hjobs : c.replyJobs q.tag = _ := congrArg Track.jobs hc
  unfold Waiting Answered
  rw [← AList.lookup_eq_none, hentry, hjobs]
  cases outcome q env.now (c₀.sends env r) post with
  | none => simp [Xor]
  | some a => simp [Xor, Prod.ext_iff, eq_comm]

/-- A request to a remote we have connected to. -/
def askRequest : Request := { tag := "tag", callback := 7 }

def askPrefix : List ConnEvent :=
  [.allocate,
    .connectRemote {} { connId := 2, onConnect := 0, onFailure := 1, remote := "tcp://a" }]

def askSend : SendRequest :=
  { conn := .ofId 2, request := some askRequest, send := ["cat.ask", "tag"] }

/-- The remote replies, then replies again, and then the request would have timed out. -/
def askEvents : List ConnEvent :=
  [.message {} false 2 false { parts := ["REPLY", "tag", "yes"] },
    .message {} false 2 false { parts := ["REPLY", "tag", "no"] },
    .cleanup { now := 20000000000 }]

theorem request_fate_reply :
    ∃ c, Transition.run (step bareConfig) start (askPrefix ++ .send {} askSend :: askEvents) =
      some c ∧ c.Answered askRequest true ["yes"] := by
  obtain ⟨c, hc⟩ := Option.isSome_iff_exists.1 (by decide +kernel :
    (Transition.run (step bareConfig) start (askPrefix ++ .send {} askSend :: askEvents)).isSome)
  refine ⟨c, hc, ?_⟩
  obtain ⟨c₀, h₀, _, hanswered⟩ := request_fate bareConfig askPrefix askEvents {}
    (r := askSend) (q := askRequest) rfl (by decide) hc
  rw [hanswered]
  cases h₀
  decide +kernel

end Conn

end OxenMQ
