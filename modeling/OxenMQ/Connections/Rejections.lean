import OxenMQ.Connections.Changes

/-!
# Rejected requests

A request whose command the remote may not invoke is answered with an error code.  The code comes
in one of two forms: with `REPLY` and the tag of the request, or with the name of the command.  The
requester hands the code to the callback of the request in the first form, and only logs the second.

Which form the server uses depends on what it has registered under the name of the command.
`rejection_answers_iff` follows a request from one proxy to the other and back: the requester
learns the code exactly if the name stands for a request command.  An unknown command, and one that
is registered without being a request command, leave the request to run into its timeout.
-/

set_option autoImplicit false

namespace OxenMQ

variable {κ : Type}

/-- The name stands for a registered request command. -/
def Config.ResolvesToRequest (cfg : Config κ) (cmd : String) : Prop :=
  ∃ cat callback, (cfg.getCommand cmd).2 = some (cat, callback) ∧ callback.isRequest = true

/-- What arrives at the other end of a connection.  A listening socket takes the route it is to
send to off the message, and the one at the other end puts the `route` of the sender in front. -/
def transmit (router : Bool) (route : String) (frames : List String) : List String :=
  if router then frames.tail else route :: frames

/-- The codes documented for a request that is rejected. -/
def rejectionCodes : List String :=
  ["UNKNOWNCOMMAND", "FORBIDDEN", "FORBIDDEN_SN", "NOT_A_SERVICE_NODE"]

namespace Conn

variable {c c' : Conn}

/-! ## The server -/

/-- A message with a reply tag is rejected with one of the documented codes. -/
theorem mem_rejectionCodes {cfg : Config κ} {peer : PeerInfo} {catCall : Option (κ × Command)}
    {tag code : String} {data : List String}
    (h : cfg.rejection peer catCall (tag :: data) = some code) : code ∈ rejectionCodes := by
  unfold Config.rejection at h
  split at h
  · cases h
    decide
  · simp only [List.isEmpty_cons, Bool.and_false, Bool.false_eq_true, if_false] at h
    split_ifs at h <;> cases h <;> decide

theorem isErrorResponse_of_mem {code : String} (h : code ∈ rejectionCodes) :
    isErrorResponse code = true := by
  simp only [rejectionCodes, List.mem_cons, List.not_mem_nil, or_false] at h
  rcases h with rfl | rfl | rfl | rfl <;> decide

/-- The sender of a message on a listening socket is answered on the route it used. -/
theorem findPeer_route {cfg : Config κ} {pos : ℕ} {connId : ℤ} {m : Incoming} {peer : PeerInfo}
    {route : String} (h : findPeer cfg c pos connId true m = .ok (c', some (peer, route))) :
    peer.route = m.parts.getD 0 "" := by
  unfold findPeer at h
  rw [if_pos rfl] at h
  dsimp only at h
  split at h
  · obtain ⟨cid, _, h⟩ := Except.bind_eq_ok.1 h
    split at h
    · rename_i k known hfind
      cases h
      have hknown := List.find?_some hfind
      simp only [Bool.and_eq_true, beq_iff_eq] at hknown
      exact hknown.2.trans (incomingPeer_route cfg c connId m)
    · cases h
      exact incomingPeer_route cfg c connId m
  · cases h
    exact incomingPeer_route cfg c connId m

/-- The body of a rejection: with the tag if the requester named a request command. -/
theorem rejectionParts_eq (cfg : Config κ) (peer : PeerInfo) (router : Bool) (code cmd tag : String)
    (data : List String) :
    (cfg.ResolvesToRequest cmd ∧
      rejectionParts peer router code cmd (cfg.getCommand cmd).2 (tag :: data) =
        (if router then [peer.route] else []) ++ [code, "REPLY", tag]) ∨
    (¬ cfg.ResolvesToRequest cmd ∧
      rejectionParts peer router code cmd (cfg.getCommand cmd).2 (tag :: data) =
        (if router then [peer.route] else []) ++ [code, cmd]) := by
  unfold Config.ResolvesToRequest rejectionParts
  rcases (cfg.getCommand cmd).2 with _ | ⟨cat, callback⟩
  · refine Or.inr ⟨by simp, ?_⟩
    cases router <;> rfl
  · cases hreq : callback.isRequest with
    | true =>
      refine Or.inl ⟨⟨cat, callback, rfl, hreq⟩, ?_⟩
      cases router <;> simp [hreq]
    | false =>
      refine Or.inr ⟨?_, ?_⟩
      · rintro ⟨cat', callback', heq, hreq'⟩
        cases heq
        rw [hreq] at hreq'
        cases hreq'
      · cases router <;> simp [hreq]

/-! ## The requester -/

/-- The callback of the request is scheduled with the rejection code, and nothing else happens to
the requests. -/
structure Rejected (c c' : Conn) (tag : String) (r : PendingRequest) (code : String) : Prop where
  scheduled : c'.scheduled = c.scheduled ++ [⟨.reply tag r.callback false [code], true⟩]
  answered : c'.pendingRequests.lookup tag = none
  others : ∀ tag' ≠ tag, c'.pendingRequests.lookup tag' = c.pendingRequests.lookup tag'

/-- An error code is recognised on either kind of socket. -/
theorem proxyHandleBuiltin_errorResponse {connId : ℤ} {router : Bool} {route code : String}
    {rest : List String} (hcode : code ∈ rejectionCodes) :
    c.proxyHandleBuiltin connId router ((if router then [route] else []) ++ code :: rest) =
      .ok (c.handleErrorResponse router code ((if router then [route] else []) ++ code :: rest),
        true) := by
  have herror := isErrorResponse_of_mem hcode
  simp only [rejectionCodes, List.mem_cons, List.not_mem_nil, or_false] at hcode
  cases router <;> rcases hcode with rfl | rfl | rfl | rfl <;>
    simp [proxyHandleBuiltin, herror, pure, Except.pure]

/-- The form with the tag answers the request. -/
theorem handleErrorResponse_tagged {router : Bool} {route code tag : String} {r : PendingRequest}
    (hr : c.pendingRequests.lookup tag = some r) :
    c.Rejected (c.handleErrorResponse router code
      ((if router then [route] else []) ++ [code, "REPLY", tag])) tag r code := by
  have hanswer : c.handleErrorResponse router code
      ((if router then [route] else []) ++ [code, "REPLY", tag]) =
      c.answerRequest tag false [code] := by
    cases router <;> simp [handleErrorResponse]
  rw [hanswer, answerRequest, hr]
  refine ⟨rfl, AList.lookup_erase _ _, fun tag' hne => AList.lookup_erase_ne hne⟩

/-- The form with the name of the command is only logged. -/
theorem handleErrorResponse_named {router : Bool} {route code cmd : String} :
    c.handleErrorResponse router code ((if router then [route] else []) ++ [code, cmd]) = c := by
  cases router <;> simp [handleErrorResponse]

/-! ## There and back -/

/-- **A rejection reaches the requester exactly if the command is a registered request command.**
The request is `cmd` with `tag` and `data`, the server has found the peer it came from and rejects
it with `code`, and the request is pending when the frames get back. -/
theorem rejection_answers_iff {cfg : Config κ} {server server' client : Conn} {pos : ℕ}
    {connId : ℤ} {router : Bool} {m : Incoming} {clientRoute cmd tag code : String}
    {data : List String} {peer : PeerInfo} {route : String} {r : PendingRequest}
    (hm : m.parts = (if router then [clientRoute] else []) ++ cmd :: tag :: data)
    (hfind : findPeer cfg server pos connId router m = .ok (server', some (peer, route)))
    (hcode : cfg.rejection peer (cfg.getCommand cmd).2 (tag :: data) = some code)
    (hr : client.pendingRequests.lookup tag = some r) (clientConn : ℤ) (serverRoute : String) :
    ∃ frames client', arrival cfg server pos connId router m =
        .ok ({ server' with wire := server'.wire ++ [(connId, frames)] }, none) ∧
      (router = true → frames.head? = some clientRoute) ∧ code ∈ rejectionCodes ∧
      client.proxyHandleBuiltin clientConn (!router) (transmit router serverRoute frames) =
        .ok (client', true) ∧
      (client.Rejected client' tag r code ↔ cfg.ResolvesToRequest cmd) := by
  have hcmd : m.parts.getD router.toNat "" = cmd := by
    cases router <;> simp [hm]
  have hdata : m.parts.drop (router.toNat + 1) = tag :: data := by
    cases router <;> simp [hm]
  have hmem := mem_rejectionCodes hcode
  -- the route of the server is there exactly when the route of the client is not
  have htransmit : ∀ body, transmit router serverRoute
      ((if router then [peer.route] else []) ++ body) =
      (if !router then [serverRoute] else []) ++ body := by
    cases router <;> simp [transmit]
  have hhandled : ∃ client', client.proxyHandleBuiltin clientConn (!router)
        (transmit router serverRoute
          (rejectionParts peer router code cmd (cfg.getCommand cmd).2 (tag :: data))) =
        .ok (client', true) ∧ (client.Rejected client' tag r code ↔ cfg.ResolvesToRequest cmd) := by
    rcases rejectionParts_eq cfg peer router code cmd tag data with
      ⟨hres, hparts⟩ | ⟨hres, hparts⟩
    · rw [hparts, htransmit, proxyHandleBuiltin_errorResponse hmem]
      exact ⟨_, rfl, iff_of_true (handleErrorResponse_tagged hr) hres⟩
    · rw [hparts, htransmit, proxyHandleBuiltin_errorResponse hmem, handleErrorResponse_named]
      refine ⟨client, rfl, iff_of_false (fun hrejected => ?_) hres⟩
      have hscheduled := hrejected.scheduled
      simp at hscheduled
  obtain ⟨client', hhandled, hiff⟩ := hhandled
  refine ⟨_, client', ?_, ?_, hmem, hhandled, hiff⟩
  · refine Except.bind_eq_ok.2 ⟨_, hfind, ?_⟩
    dsimp only
    rw [hcmd, hdata, hcode]
    rfl
  · rintro rfl
    have hroute : peer.route = clientRoute := by
      rw [findPeer_route hfind, hm]
      rfl
    simp [rejectionParts, hroute]

/-- A server with one request command, for administrators. -/
def adminConfig : Config Unit :=
  { bareConfig with
    categories := fun name => if name = "admin" then some () else none
    access := fun _ => { auth := .admin }
    commands := fun _ name => if name = "ask" then some ⟨0, true⟩ else none }

/-- What the server receives from a requester that calls itself `client`. -/
def asking (cmd : String) : Incoming := { parts := ["client", cmd, "tag"] }

/-- A requester that has connected to the server and is waiting for its answer. -/
def waitingRun (cmd : String) : List ConnEvent :=
  [.allocate,
   .connectRemote {} { connId := 2, onConnect := 0, onFailure := 1, remote := "tcp://a" },
   .send {} { conn := .ofId 2, request := some ⟨"tag", 7, 15000⟩, send := [cmd, "tag"] }]

/-- One who is not an administrator is told so. -/
theorem rejection_answers_forbidden : ∃ server client client' frames,
    Transition.run (step adminConfig) start [.bind "tcp://a" true 0 true] = some server ∧
    Transition.run (step bareConfig) start (waitingRun "admin.ask") = some client ∧
    arrival adminConfig server 0 2 true (asking "admin.ask") =
      .ok ({ server with wire := server.wire ++ [(2, frames)] }, none) ∧
    frames.head? = some "client" ∧
    client.proxyHandleBuiltin 2 false (transmit true "" frames) = .ok (client', true) ∧
    client.Rejected client' "tag" ⟨timeAfter 0 15000, 7⟩ "FORBIDDEN" := by
  have hclient : ∃ client, Transition.run (step bareConfig) start (waitingRun "admin.ask") =
      some client ∧ client.pendingRequests.lookup "tag" = some ⟨timeAfter 0 15000, 7⟩ :=
    ⟨_, rfl, rfl⟩
  have hfind : ∃ peer route, findPeer adminConfig (start.proxyBind "tcp://a" true 0 true) 0 2 true
      (asking "admin.ask") = .ok (start.proxyBind "tcp://a" true 0 true, some (peer, route)) ∧
      adminConfig.rejection peer (adminConfig.getCommand "admin.ask").2 ["tag"] =
        some "FORBIDDEN" := ⟨_, _, rfl, by decide⟩
  obtain ⟨client, hrun, hr⟩ := hclient
  obtain ⟨peer, route, hfind, hcode⟩ := hfind
  obtain ⟨frames, client', hframes, hroute, _, hhandled, hrejected⟩ :=
    rejection_answers_iff rfl hfind hcode hr 2 ""
  exact ⟨_, client, client', frames, rfl, hrun, hframes, hroute rfl, hhandled,
    hrejected.2 ⟨(), ⟨0, true⟩, by decide, rfl⟩⟩

/-- The answer to a command that the server does not know is lost on the requester: the server
sends it, the requester receives it, and the request is still pending. -/
theorem unknownCommand_not_answered :
    (∃ server, Transition.run (step adminConfig) start
        [.bind "tcp://a" true 0 true, .message {} true 2 true (asking "no.such")] = some server ∧
      server.wire = [(2, ["client", "UNKNOWNCOMMAND", "no.such"])]) ∧
    ∃ client, Transition.run (step bareConfig) start (waitingRun "no.such" ++
        [.message {} true 2 false { parts := ["UNKNOWNCOMMAND", "no.such"] }]) = some client ∧
      client.scheduled = [] ∧ client.pendingRequests.lookup "tag" = some ⟨timeAfter 0 15000, 7⟩ :=
  ⟨⟨_, rfl, rfl⟩, _, rfl, rfl, rfl⟩

end Conn

end OxenMQ
