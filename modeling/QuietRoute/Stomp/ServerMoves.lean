import QuietRoute.Stomp.FrameRoundTrip
import QuietRoute.Stomp.StompServer

/-! What the operations of the server do to its two maps, to the posted callbacks and to the count
of ids, and what they all preserve. -/
namespace QuietRoute
namespace StompServer

open StompFrame

variable {Session : Type} [DecidableEq Session] {ids : IdGenerator} {unspecified : Unspecified}
  {server server' : StompServer Session} {allowed : Connection → Prop}

/-- What one operation can do. Only connections with `allowed` are closed without a callback. -/
inductive Move (ids : IdGenerator) (allowed : Connection → Prop) (server : StompServer Session) :
    StompServer Session → Prop
  | idle (n : ℕ) (written : List (Session × SessionAction)) :
      Move ids allowed server {server with generated := server.generated+n, written := written}
  | opened (wsSession : Session) (hnew : server.connections.find wsSession = none) :
      Move ids allowed server {server with
        sessions := server.sessions.set (ids.nth server.generated) wsSession
        connections := server.connections.set wsSession ⟨ids.nth server.generated,.kPending⟩
        generated := server.generated+1}
  | closed (wsSession : Session) (connection : Connection)
      (written : List (Session × SessionAction))
      (hfind : server.connections.find wsSession = some connection)
      (hallowed : allowed connection) :
      Move ids allowed server {server with
        sessions := server.sessions.erase connection.id
        connections := server.connections.erase wsSession
        written := written}
  | joined (wsSession : Session) (connection : Connection)
      (written : List (Session × SessionAction))
      (hfind : server.connections.find wsSession = some connection)
      (hpending : connection.status = .kPending) :
      Move ids allowed server {server with
        connections := server.connections.set wsSession {connection with status := .kConnected}
        posted := server.posted ++ [.onClientConnect .kOk connection.id]
        written := written}
  | requested (wsSession : Session) (connection : Connection) (destination requestId message : Bytes)
      (hfind : server.connections.find wsSession = some connection)
      (hconnected : connection.status = .kConnected) :
      Move ids allowed server {server with
        posted := server.posted ++
          [.onClientMessage .kOk connection.id destination requestId message]}
  | left (wsSession : Session) (connection : Connection) (ec : StompServerError)
      (hfind : server.connections.find wsSession = some connection)
      (hconnected : connection.status = .kConnected) :
      Move ids allowed server {server with
        sessions := server.sessions.erase connection.id
        connections := server.connections.erase wsSession
        posted := server.posted ++ [.onClientDisconnect ec connection.id]}
  | ended (ec : StompServerError) :
      Move ids allowed server {server with posted := server.posted ++ [.onDisconnect ec]}

theorem move_stay : Move ids allowed server server := Move.idle 0 server.written

theorem move_write (wsSession : Session) (action : SessionAction) :
    Move ids allowed server (server.write wsSession action) := Move.idle 0 _

theorem closeConnection_move {wsSession : Session} {connection : Connection}
    (hfind : server.connections.find wsSession = some connection) (hallowed : allowed connection)
    (error : StompServerError) : Move ids allowed server
      (server.closeConnection unspecified connection wsSession error) := by
  rw [closeConnection]
  split_ifs
  · exact Move.closed wsSession connection _ hfind hallowed
  · exact Move.closed wsSession connection _ hfind hallowed

theorem connected_frame_ok (ids : IdGenerator) (n : ℕ) : ∃ response, assemble unspecified
    .kConnected ⟨[(.kVersion,ascii "1.2"),(.kSession,ids.nth n)],by simp⟩ [] = (.kOk,response) := by
  refine ⟨_,(LegalComponents.of_headers (by decide) ?_ (by simp [requiredHeaders]) (by simp) (by simp)
    (by simp)).assemble_eq⟩
  intro h hmem
  simp only [List.mem_cons,List.not_mem_nil,or_false] at hmem
  rcases hmem with rfl | rfl
  · exact ⟨by decide,by decide +kernel,by decide +kernel⟩
  · exact ⟨by simp,ids.nth_ne_nil n,ids.newLine_not_mem_nth n⟩

/-- The two maps are inverse to each other, their ids were drawn, and clients with requests have
completed their handshake. -/
structure Consistent (ids : IdGenerator) (server : StompServer Session) : Prop where
  sessions_iff : ∀ id wsSession, server.sessions.find id = some wsSession ↔
    ∃ connection, server.connections.find wsSession = some connection ∧ connection.id = id
  drawn : ∀ wsSession connection, server.connections.find wsSession = some connection →
    ∃ n < server.generated, connection.id = ids.nth n
  requests_drawn : ∀ ec id destination requestId message,
    .onClientMessage ec id destination requestId message ∈ server.posted →
      ∃ n < server.generated, id = ids.nth n
  requests_not_pending : ∀ ec id destination requestId message,
    .onClientMessage ec id destination requestId message ∈ server.posted →
      ∀ wsSession connection, server.connections.find wsSession = some connection →
        connection.id = id → connection.status ≠ .kPending

theorem handleStomp_cases (hserver : Consistent ids server) {w : Session} {c : Connection}
    (hfind : server.connections.find w = some c) (frame : StompFrame) :
    (∃ error, error ≠ .kUndefinedError ∧ server.handleStomp unspecified w c frame =
      server.closeConnection unspecified c w error) ∨
    frame.getHeaderValue .kAcceptVersion = kVersion ∧ frame.getHeaderValue .kHost = server.kHost ∧
      c.status = .kPending ∧ ∃ headers, server.handleStomp unspecified w c frame = {server with
        connections := server.connections.set w {c with status := .kConnected}
        written := server.written ++
          [(w,.send (assemble unspecified .kConnected headers []).2.plain)]
        posted := server.posted ++ [.onClientConnect .kOk c.id]} := by
  rw [handleStomp]
  split_ifs with hversion hhost hpending
  · exact Or.inl ⟨_,by decide,rfl⟩
  · exact Or.inl ⟨_,by decide,rfl⟩
  · exact Or.inl ⟨_,by decide,rfl⟩
  · obtain ⟨n,-,hid⟩ := hserver.drawn w c hfind
    obtain ⟨response,hresponse⟩ := @connected_frame_ok unspecified ids n
    simp only [← hid] at hresponse
    refine Or.inr ⟨not_not.mp hversion,not_not.mp hhost,not_not.mp hpending,
      ⟨[(.kVersion,ascii "1.2"),(.kSession,c.id)],by simp⟩,?_⟩
    simp only [hresponse,ne_eq,not_true,if_false]
    rfl

theorem handleStomp_move (hserver : Consistent ids server) {wsSession : Session}
    {connection : Connection} {frame : StompFrame}
    (hfind : server.connections.find wsSession = some connection) (hallowed : allowed connection) :
    Move ids allowed server
      (server.handleStomp unspecified wsSession connection frame) := by
  obtain ⟨error,-,hclose⟩ | ⟨-,-,hpending,headers,hjoin⟩ :=
    @handleStomp_cases _ _ ids unspecified server hserver wsSession connection hfind frame
  · rw [hclose]
    exact closeConnection_move hfind hallowed error
  · rw [hjoin]
    exact Move.joined wsSession connection _ hfind hpending

theorem handleSend_move {wsSession : Session} {connection : Connection} {frame : StompFrame}
    (hfind : server.connections.find wsSession = some connection)
    (hallowed : connection.status ≠ .kConnected → allowed connection) :
    Move ids allowed server (server.handleSend unspecified wsSession connection frame) := by
  rw [handleSend]
  split_ifs with hconnected
  · exact closeConnection_move hfind (hallowed hconnected) _
  · exact Move.requested wsSession connection _ _ _ hfind (not_not.mp hconnected)

/-- A message that a connected client may send without being disconnected for it. -/
def KeepsProtocol (unspecified : Unspecified) (server : StompServer Session) (ec : Bool)
    (wsSession : Session) (msg : Bytes) : Prop :=
  ∀ connection, server.connections.find wsSession = some connection →
    connection.status = .kConnected → ec = true ∨
      ∃ frame, ofString unspecified.uninitialised msg = some (.kOk,frame) ∧ frame.command = .kSend

theorem keepsProtocol_of_pending {ec : Bool} {wsSession : Session} {msg : Bytes}
    (h : (server.connections.find wsSession).map Connection.status = some .kPending) :
    KeepsProtocol unspecified server ec wsSession msg := by
  intro connection hfind hconnected
  rw [hfind,Option.map_some,hconnected] at h
  cases h

theorem onWsSessionMessage_cases {ec : Bool} {w : Session} {msg : Bytes}
    (h : server.onWsSessionMessage unspecified ec w msg = some server') :
    server.connections.find w = none ∧ server' = server.write w .close ∨
    ∃ c, server.connections.find w = some c ∧ (ec = true ∧ server' = server ∨
      ec = false ∧ ∃ error frame, ofString unspecified.uninitialised msg = some (error,frame) ∧
        (error = .kOk ∧ frame.command = .kStomp ∧
            server' = server.handleStomp unspecified w c frame ∨
          error = .kOk ∧ frame.command = .kSend ∧
            server' = server.handleSend unspecified w c frame ∨
          (error ≠ .kOk ∨ frame.command ≠ .kStomp ∧ frame.command ≠ .kSend) ∧
            ∃ what, what ≠ .kUndefinedError ∧
              server' = server.closeConnection unspecified c w what)) := by
  rw [onWsSessionMessage] at h
  cases hfind : server.connections.find w with
  | none =>
    simp only [hfind,Option.some.injEq] at h
    exact Or.inl ⟨rfl,h.symm⟩
  | some c =>
    simp only [hfind] at h
    refine Or.inr ⟨c,rfl,?_⟩
    cases ec with
    | true => exact Or.inl ⟨rfl,(Option.some.inj h).symm⟩
    | false =>
      simp only [Bool.false_eq_true,if_false,Option.bind_eq_bind,Option.bind_eq_some_iff] at h
      obtain ⟨⟨error,frame⟩,hframe,h⟩ := h
      refine Or.inr ⟨rfl,error,frame,hframe,?_⟩
      simp only at h
      split_ifs at h with herror
      · exact Or.inr (Or.inr ⟨Or.inl herror,_,by decide,(Option.some.inj h).symm⟩)
      · have hok : error = .kOk := not_not.mp herror
        split at h
        · rename_i hstomp
          exact Or.inl ⟨hok,hstomp,(Option.some.inj h).symm⟩
        · rename_i hsend
          exact Or.inr (Or.inl ⟨hok,hsend,(Option.some.inj h).symm⟩)
        · rename_i hstomp hsend
          exact Or.inr (Or.inr ⟨Or.inr ⟨hstomp,hsend⟩,_,by decide,(Option.some.inj h).symm⟩)

theorem onWsSessionMessage_move (hserver : Consistent ids server) {ec : Bool} {wsSession : Session}
    {msg : Bytes} (hkeeps : KeepsProtocol unspecified server ec wsSession msg)
    (h : server.onWsSessionMessage unspecified ec wsSession msg = some server') :
    Move ids (fun connection => connection.status ≠ .kConnected) server server' := by
  obtain ⟨-,rfl⟩ | ⟨connection,hfind,⟨-,rfl⟩ | ⟨rfl,error,frame,hframe,hcases⟩⟩ :=
    onWsSessionMessage_cases h
  · exact move_write wsSession .close
  · exact move_stay
  · have hviolates : error ≠ .kOk ∨ frame.command ≠ .kSend → connection.status ≠ .kConnected := by
      intro hbad hconnected
      obtain hec | ⟨frame',hsend,hcommand⟩ := hkeeps connection hfind hconnected
      · cases hec
      · rw [hframe] at hsend
        obtain ⟨rfl,rfl⟩ := Prod.mk.inj (Option.some.inj hsend)
        exact hbad.elim (fun h => h rfl) (fun h => h hcommand)
    rcases hcases with ⟨-,hcommand,rfl⟩ | ⟨-,-,rfl⟩ | ⟨hbad,what,-,rfl⟩
    · exact handleStomp_move hserver hfind (hviolates (Or.inr (by simp [hcommand])))
    · exact handleSend_move hfind id
    · exact closeConnection_move hfind (hviolates (hbad.imp_right And.right)) what

theorem handleStomp_connected {wsSession : Session} {connection : Connection} {frame : StompFrame}
    (hconnected : connection.status = .kConnected) : ∃ error,
      server.handleStomp unspecified wsSession connection frame =
        server.closeConnection unspecified connection wsSession error := by
  have hpending : connection.status ≠ .kPending := by simp [hconnected]
  rw [handleStomp]
  split_ifs
  · exact ⟨_,rfl⟩
  · exact ⟨_,rfl⟩
  · exact ⟨_,rfl⟩

theorem onWsSessionMessage_violation {ec : Bool} {wsSession : Session} {msg : Bytes}
    (hviolates : ¬KeepsProtocol unspecified server ec wsSession msg)
    (h : server.onWsSessionMessage unspecified ec wsSession msg = some server') :
    ∃ connection error, server.connections.find wsSession = some connection ∧
      connection.status = .kConnected ∧
        server' = server.closeConnection unspecified connection wsSession error := by
  simp only [KeepsProtocol,not_forall,not_or,not_exists,not_and] at hviolates
  obtain ⟨connection,hfind,hconnected,hec,hsend⟩ := hviolates
  obtain ⟨hnone,-⟩ | ⟨c,hfind',⟨htrue,-⟩ | ⟨-,error,frame,hframe,hcases⟩⟩ :=
    onWsSessionMessage_cases h
  · rw [hnone] at hfind
    cases hfind
  · exact absurd htrue hec
  · obtain rfl : c = connection := Option.some.inj (hfind'.symm.trans hfind)
    rcases hcases with ⟨-,-,rfl⟩ | ⟨hok,hcommand,-⟩ | ⟨-,what,-,rfl⟩
    · obtain ⟨what,hclose⟩ := @handleStomp_connected Session _ unspecified server wsSession c
        frame hconnected
      exact ⟨c,what,hfind,hconnected,hclose⟩
    · exact absurd hcommand (hsend frame (by rw [hframe,hok]))
    · exact ⟨c,what,hfind,hconnected,rfl⟩

theorem onWsSessionConnect_move {wsSession : Session}
    (hnew : server.connections.find wsSession = none) (ec : Bool) :
    Move ids allowed server (server.onWsSessionConnect ids ec wsSession) := by
  cases ec with
  | true => exact move_write wsSession .close
  | false => exact Move.opened wsSession hnew

theorem onWsSessionDisconnect_move (ec : Bool) (wsSession : Session) :
    Move ids (fun connection => connection.status ≠ .kConnected) server
      (server.onWsSessionDisconnect ec wsSession) := by
  rw [onWsSessionDisconnect]
  cases hfind : server.connections.find wsSession with
  | none => exact move_stay
  | some connection =>
    simp only
    split_ifs with hconnected hec
    · exact Move.left wsSession connection _ hfind hconnected
    · exact Move.left wsSession connection _ hfind hconnected
    · exact Move.closed wsSession connection server.written hfind hconnected

/-- A message to a client is written to its session if that is connected; a session without a
connection is closed. -/
theorem send_cases (connectionId destination messageContent userRequestId : Bytes) : ∃ n actions,
    (server.send ids unspecified connectionId destination messageContent userRequestId).2 =
      {server with generated := server.generated+n, written := server.written ++ actions} ∧
    (actions = [] ∨ ∃ w, server.sessions.find connectionId = some w ∧
      (server.connections.find w = none ∧ actions = [(w,.close)] ∨
        ∃ c headers, server.connections.find w = some c ∧ c.status = .kConnected ∧
          actions = [(w,.send (assemble unspecified .kSend headers messageContent).2.plain)])) := by
  rw [send]
  cases hsession : server.sessions.find connectionId with
  | none => exact ⟨0,[],by simp,Or.inl rfl⟩
  | some w =>
    cases hfind : server.connections.find w with
    | none =>
      simp only [hfind]
      exact ⟨0,_,rfl,Or.inr ⟨w,rfl,Or.inl ⟨hfind,rfl⟩⟩⟩
    | some c =>
      simp only [hfind]
      by_cases hconnected : c.status = .kConnected
      · rw [if_neg (not_not.mpr hconnected)]
        by_cases hid : userRequestId = []
        · simp only [hid,if_true,generateId,apply_ite Prod.snd]
          split
          · exact ⟨1,[],by simp,Or.inl rfl⟩
          · exact ⟨1,_,rfl,Or.inr ⟨w,rfl,Or.inr ⟨c,_,hfind,hconnected,rfl⟩⟩⟩
        · simp only [hid,if_false,apply_ite Prod.snd]
          split
          · exact ⟨0,[],by simp,Or.inl rfl⟩
          · exact ⟨0,_,rfl,Or.inr ⟨w,rfl,Or.inr ⟨c,_,hfind,hconnected,rfl⟩⟩⟩
      · rw [if_pos hconnected]
        exact ⟨0,[],by simp,Or.inl rfl⟩

theorem send_eq (connectionId destination messageContent userRequestId : Bytes) : ∃ n written,
    (server.send ids unspecified connectionId destination messageContent userRequestId).2 =
      {server with generated := server.generated+n, written := written} := by
  obtain ⟨n,actions,hsend,-⟩ := @send_cases _ _ ids unspecified server connectionId destination
    messageContent userRequestId
  exact ⟨n,_,hsend⟩

theorem closeConnection_posted (connection : Connection) (wsSession : Session)
    (error : StompServerError) :
    (server.closeConnection unspecified connection wsSession error).posted = server.posted := by
  rw [closeConnection]
  split_ifs <;> rfl

theorem closeConnection_connections (connection : Connection) (wsSession : Session)
    (error : StompServerError) :
    (server.closeConnection unspecified connection wsSession error).connections =
      server.connections.erase wsSession := by
  rw [closeConnection]
  split_ifs <;> rfl

theorem close_cases (hserver : Consistent ids server) (connectionId : Bytes) :
    (server.close unspecified connectionId = server ∧
      ∀ wsSession connection, server.connections.find wsSession = some connection →
        connection.id ≠ connectionId) ∨
    ∃ wsSession connection, server.connections.find wsSession = some connection ∧
      connection.id = connectionId ∧ server.close unspecified connectionId =
        server.closeConnection unspecified connection wsSession .kUndefinedError := by
  rw [close]
  cases hsession : server.sessions.find connectionId with
  | none =>
    left
    refine ⟨rfl,?_⟩
    intro wsSession connection hfind hid
    have hsome := (hserver.sessions_iff connectionId wsSession).mpr ⟨connection,hfind,hid⟩
    rw [hsession] at hsome
    cases hsome
  | some wsSession =>
    right
    obtain ⟨connection,hfind,hid⟩ := (hserver.sessions_iff connectionId wsSession).mp hsession
    exact ⟨wsSession,connection,hfind,hid,by simp only [hfind]⟩

/-! Every move keeps a server consistent. -/

theorem Consistent.session_unique (hserver : Consistent ids server) {w w' : Session}
    {c c' : Connection} (hfind : server.connections.find w = some c)
    (hfind' : server.connections.find w' = some c') (hid : c.id = c'.id) : w = w' := by
  have hw := (hserver.sessions_iff c.id w).mpr ⟨c,hfind,rfl⟩
  have hw' := (hserver.sessions_iff c.id w').mpr ⟨c',hfind',hid.symm⟩
  exact Option.some.inj (hw.symm.trans hw')

theorem find_erase_iff {w w' : Session} {c : Connection} :
    (server.connections.erase w).find w' = some c ↔
      w ≠ w' ∧ server.connections.find w' = some c := by
  rw [UnorderedMap.find_erase]
  by_cases heq : w = w' <;> simp [heq]

theorem find_set_iff {w w' : Session} {c c' : Connection} :
    (server.connections.set w c).find w' = some c' ↔
      w = w' ∧ c = c' ∨ w ≠ w' ∧ server.connections.find w' = some c' := by
  rw [UnorderedMap.find_set]
  by_cases heq : w = w' <;> simp [heq]

theorem Consistent.erase (hserver : Consistent ids server) {w : Session} {c : Connection}
    (hfind : server.connections.find w = some c) (written : List (Session × SessionAction)) :
    Consistent ids {server with
      sessions := server.sessions.erase c.id
      connections := server.connections.erase w
      written := written} := by
  constructor
  · intro id w'
    simp only [UnorderedMap.find_erase (m := server.sessions),find_erase_iff]
    constructor
    · intro hsome
      have hne : c.id ≠ id := fun heq => by simp [heq] at hsome
      rw [if_neg hne] at hsome
      obtain ⟨c',hfind',hid⟩ := (hserver.sessions_iff id w').mp hsome
      refine ⟨c',⟨?_,hfind'⟩,hid⟩
      rintro rfl
      rw [hfind] at hfind'
      exact hne (by rw [Option.some.inj hfind',hid])
    · rintro ⟨c',⟨hne,hfind'⟩,hid⟩
      have hne' : c.id ≠ id := fun heq =>
        hne (hserver.session_unique hfind hfind' (heq.trans hid.symm))
      rw [if_neg hne']
      exact (hserver.sessions_iff id w').mpr ⟨c',hfind',hid⟩
  · intro w' c' hfind'
    exact hserver.drawn w' c' (find_erase_iff.mp hfind').2
  · exact hserver.requests_drawn
  · intro ec id destination requestId message hmem w' c' hfind'
    exact hserver.requests_not_pending ec id destination requestId message hmem w' c'
      (find_erase_iff.mp hfind').2

theorem Consistent.generate (hserver : Consistent ids server) (n : ℕ)
    (written : List (Session × SessionAction)) :
    Consistent ids {server with generated := server.generated+n, written := written} where
  sessions_iff := hserver.sessions_iff
  drawn := by
    intro w c hfind
    obtain ⟨m,hm,hid⟩ := hserver.drawn w c hfind
    exact ⟨m,Nat.lt_add_right n hm,hid⟩
  requests_drawn := by
    intro ec id destination requestId message hmem
    obtain ⟨m,hm,hid⟩ := hserver.requests_drawn ec id destination requestId message hmem
    exact ⟨m,Nat.lt_add_right n hm,hid⟩
  requests_not_pending := hserver.requests_not_pending

/-- The callbacks that may be posted: a request of a connected client, or no request. -/
theorem Consistent.post (hserver : Consistent ids server) {callback : Callback}
    (hrequest : ∀ ec id destination requestId message,
      callback = .onClientMessage ec id destination requestId message →
        ∃ w c, server.connections.find w = some c ∧ c.id = id ∧ c.status = .kConnected) :
    Consistent ids (server.post callback) where
  sessions_iff := hserver.sessions_iff
  drawn := hserver.drawn
  requests_drawn := by
    intro ec id destination requestId message hmem
    cases List.mem_append.mp hmem with
    | inl hold => exact hserver.requests_drawn ec id destination requestId message hold
    | inr hnew =>
      obtain ⟨w,c,hfind,rfl,-⟩ := hrequest ec id destination requestId message
        (List.mem_singleton.mp hnew).symm
      exact hserver.drawn w c hfind
  requests_not_pending := by
    intro ec id destination requestId message hmem w' c' hfind' hid'
    cases List.mem_append.mp hmem with
    | inl hold =>
      exact hserver.requests_not_pending ec id destination requestId message hold w' c' hfind' hid'
    | inr hnew =>
      obtain ⟨w,c,hfind,hid,hconnected⟩ := hrequest ec id destination requestId message
        (List.mem_singleton.mp hnew).symm
      obtain rfl := hserver.session_unique hfind hfind' (hid.trans hid'.symm)
      have hsame : c = c' := Option.some.inj (hfind.symm.trans hfind')
      rw [← hsame,hconnected]
      decide

theorem Consistent.dequeue (hserver : Consistent ids server) {callback : Callback}
    {rest : List Callback} (hposted : server.posted = callback::rest) :
    Consistent ids {server with posted := rest} where
  sessions_iff := hserver.sessions_iff
  drawn := hserver.drawn
  requests_drawn := by
    intro ec id destination requestId message hmem
    exact hserver.requests_drawn ec id destination requestId message
      (hposted ▸ List.mem_cons_of_mem callback hmem)
  requests_not_pending := by
    intro ec id destination requestId message hmem
    exact hserver.requests_not_pending ec id destination requestId message
      (hposted ▸ List.mem_cons_of_mem callback hmem)

theorem Consistent.connect (hserver : Consistent ids server) {w : Session} {c : Connection}
    (hfind : server.connections.find w = some c) : Consistent ids {server with
      connections := server.connections.set w {c with status := .kConnected}} := by
  constructor
  · intro id w'
    rw [hserver.sessions_iff id w']
    constructor
    · rintro ⟨c',hfind',hid⟩
      by_cases heq : w = w'
      · rw [← heq,hfind] at hfind'
        rw [← Option.some.inj hfind'] at hid
        exact ⟨_,find_set_iff.mpr (Or.inl ⟨heq,rfl⟩),hid⟩
      · exact ⟨c',find_set_iff.mpr (Or.inr ⟨heq,hfind'⟩),hid⟩
    · rintro ⟨c',hfind',hid⟩
      cases find_set_iff.mp hfind' with
      | inl hnew => exact ⟨c,hnew.1 ▸ hfind,by rw [← hid,← hnew.2]⟩
      | inr hold => exact ⟨c',hold.2,hid⟩
  · intro w' c' hfind'
    cases find_set_iff.mp hfind' with
    | inl hnew =>
      rw [← hnew.2]
      exact hserver.drawn w c hfind
    | inr hold => exact hserver.drawn w' c' hold.2
  · exact hserver.requests_drawn
  · intro ec id destination requestId message hmem w' c' hfind' hid
    cases find_set_iff.mp hfind' with
    | inl hnew => simp [← hnew.2]
    | inr hold =>
      exact hserver.requests_not_pending ec id destination requestId message hmem w' c' hold.2 hid

theorem Consistent.nth_fresh (hserver : Consistent ids server) {w : Session} {c : Connection}
    (hfind : server.connections.find w = some c) : c.id ≠ ids.nth server.generated := by
  obtain ⟨n,hn,hid⟩ := hserver.drawn w c hfind
  intro heq
  have hsame := ids.nth_injective (hid.symm.trans heq)
  omega

theorem Consistent.announce (hserver : Consistent ids server) {w : Session}
    (hnew : server.connections.find w = none) : Consistent ids {server with
      sessions := server.sessions.set (ids.nth server.generated) w
      connections := server.connections.set w ⟨ids.nth server.generated,.kPending⟩
      generated := server.generated+1} := by
  constructor
  · intro id w'
    simp only [UnorderedMap.find_set (m := server.sessions)]
    by_cases hid : ids.nth server.generated = id
    · rw [if_pos hid,Option.some.injEq]
      constructor
      · intro heq
        exact ⟨_,find_set_iff.mpr (Or.inl ⟨heq,rfl⟩),hid⟩
      · rintro ⟨c',hfind',hid'⟩
        cases find_set_iff.mp hfind' with
        | inl hnew' => exact hnew'.1
        | inr hold => exact absurd (hid'.trans hid.symm) (hserver.nth_fresh hold.2)
    · rw [if_neg hid,hserver.sessions_iff id w']
      constructor
      · rintro ⟨c',hfind',hid'⟩
        refine ⟨c',find_set_iff.mpr (Or.inr ⟨?_,hfind'⟩),hid'⟩
        rintro rfl
        rw [hnew] at hfind'
        cases hfind'
      · rintro ⟨c',hfind',hid'⟩
        cases find_set_iff.mp hfind' with
        | inl hnew' => exact absurd (by rw [← hid',← hnew'.2]) hid
        | inr hold => exact ⟨c',hold.2,hid'⟩
  · intro w' c' hfind'
    cases find_set_iff.mp hfind' with
    | inl hnew' => exact ⟨server.generated,Nat.lt_succ_self _,by rw [← hnew'.2]⟩
    | inr hold =>
      obtain ⟨n,hn,hid⟩ := hserver.drawn w' c' hold.2
      exact ⟨n,Nat.lt_succ_of_lt hn,hid⟩
  · intro ec id destination requestId message hmem
    obtain ⟨n,hn,hid⟩ := hserver.requests_drawn ec id destination requestId message hmem
    exact ⟨n,Nat.lt_succ_of_lt hn,hid⟩
  · intro ec id destination requestId message hmem w' c' hfind' hid'
    cases find_set_iff.mp hfind' with
    | inl hnew' =>
      obtain ⟨n,hn,hid⟩ := hserver.requests_drawn ec id destination requestId message hmem
      rw [← hnew'.2,hid] at hid'
      have hsame := ids.nth_injective hid'
      omega
    | inr hold =>
      exact hserver.requests_not_pending ec id destination requestId message hmem w' c' hold.2 hid'

theorem Move.consistent (hmove : Move ids allowed server server') (hserver : Consistent ids server) :
    Consistent ids server' := by
  cases hmove with
  | idle n written => exact hserver.generate n written
  | opened w hnew => exact hserver.announce hnew
  | closed w c written hfind => exact hserver.erase hfind written
  | joined w c written hfind =>
    have hconnect := (hserver.connect hfind).generate 0 written
    exact hconnect.post (by simp)
  | requested w c destination requestId message hfind hconnected =>
    apply hserver.post
    intro ec id destination' requestId' message' heq
    cases heq
    exact ⟨w,c,hfind,rfl,hconnected⟩
  | left w c ec hfind => exact (hserver.erase hfind server.written).post (by simp)
  | ended ec => exact hserver.post (by simp)

theorem started_consistent (ids : IdGenerator) (kHost : Bytes) :
    Consistent ids (started kHost : StompServer Session) := by
  constructor <;> simp [started]

/-! The ids of connected clients. -/

def connectedIds (server : StompServer Session) : Finset Bytes :=
  ((server.connections.entries.filter fun e => e.2.status = .kConnected).map
    fun e => e.2.id).toFinset

theorem mem_connectedIds {id : Bytes} : id ∈ server.connectedIds ↔
    ∃ w c, server.connections.find w = some c ∧ c.status = .kConnected ∧ c.id = id := by
  simp only [connectedIds,List.mem_toFinset,List.mem_map,List.mem_filter,decide_eq_true_eq,
    Prod.exists,UnorderedMap.find_eq_some_iff,and_assoc]

theorem connectedIds_announce {w : Session} {id : Bytes}
    (hnew : server.connections.find w = none)
    (h : server'.connections = server.connections.set w ⟨id,.kPending⟩) :
    server'.connectedIds = server.connectedIds := by
  ext id'
  rw [mem_connectedIds,mem_connectedIds,h]
  constructor
  · rintro ⟨w',c',hfind',hconnected,hid⟩
    cases find_set_iff.mp hfind' with
    | inl hpending =>
      rw [← hpending.2] at hconnected
      cases hconnected
    | inr hold => exact ⟨w',c',hold.2,hconnected,hid⟩
  · rintro ⟨w',c',hfind',hconnected,hid⟩
    refine ⟨w',c',find_set_iff.mpr (Or.inr ⟨?_,hfind'⟩),hconnected,hid⟩
    rintro rfl
    rw [hnew] at hfind'
    cases hfind'

theorem connectedIds_connect {w : Session} {c : Connection}
    (hfind : server.connections.find w = some c)
    (h : server'.connections = server.connections.set w {c with status := .kConnected}) :
    server'.connectedIds = insert c.id server.connectedIds := by
  ext id
  rw [mem_connectedIds,Finset.mem_insert,mem_connectedIds,h]
  constructor
  · rintro ⟨w',c',hfind',hconnected,hid⟩
    cases find_set_iff.mp hfind' with
    | inl hnew => exact Or.inl (by rw [← hid,← hnew.2])
    | inr hold => exact Or.inr ⟨w',c',hold.2,hconnected,hid⟩
  · rintro (rfl | ⟨w',c',hfind',hconnected,hid⟩)
    · exact ⟨w,_,find_set_iff.mpr (Or.inl ⟨rfl,rfl⟩),rfl,rfl⟩
    · by_cases heq : w = w'
      · rw [← heq,hfind] at hfind'
        rw [← Option.some.inj hfind'] at hid
        exact ⟨w,_,find_set_iff.mpr (Or.inl ⟨rfl,rfl⟩),rfl,hid⟩
      · exact ⟨w',c',find_set_iff.mpr (Or.inr ⟨heq,hfind'⟩),hconnected,hid⟩

theorem connectedIds_erase (hserver : Consistent ids server) {w : Session} {c : Connection}
    (hfind : server.connections.find w = some c)
    (h : server'.connections = server.connections.erase w) :
    server'.connectedIds = server.connectedIds.erase c.id := by
  ext id
  rw [mem_connectedIds,Finset.mem_erase,mem_connectedIds,h]
  constructor
  · rintro ⟨w',c',hfind',hconnected,hid⟩
    obtain ⟨hne,hold⟩ := find_erase_iff.mp hfind'
    refine ⟨?_,w',c',hold,hconnected,hid⟩
    intro heq
    exact hne (hserver.session_unique hfind hold (heq.symm.trans hid.symm))
  · rintro ⟨hne,w',c',hfind',hconnected,hid⟩
    refine ⟨w',c',find_erase_iff.mpr ⟨?_,hfind'⟩,hconnected,hid⟩
    rintro rfl
    rw [hfind] at hfind'
    exact hne (by rw [Option.some.inj hfind',hid])

theorem connectedIds_closeConnection (hserver : Consistent ids server) {w : Session} {c : Connection}
    (hfind : server.connections.find w = some c) (error : StompServerError) :
    (server.closeConnection unspecified c w error).connectedIds = server.connectedIds.erase c.id :=
  connectedIds_erase hserver hfind (closeConnection_connections c w error)

theorem connectedIds_close (hserver : Consistent ids server) (connectionId : Bytes) :
    (server.close unspecified connectionId).connectedIds =
      server.connectedIds.erase connectionId := by
  cases close_cases hserver connectionId with
  | inl hnobody =>
    rw [hnobody.1,Finset.erase_eq_of_notMem]
    intro hmem
    obtain ⟨w,c,hfind,-,hid⟩ := mem_connectedIds.mp hmem
    exact hnobody.2 w c hfind hid
  | inr hsome =>
    obtain ⟨w,c,hfind,hid,hclose⟩ := hsome
    rw [hclose,← hid]
    exact connectedIds_closeConnection hserver hfind .kUndefinedError

theorem close_posted (hserver : Consistent ids server) (connectionId : Bytes) :
    (server.close unspecified connectionId).posted = server.posted := by
  cases close_cases hserver connectionId with
  | inl hnobody => rw [hnobody.1]
  | inr hsome =>
    obtain ⟨w,c,-,-,hclose⟩ := hsome
    rw [hclose]
    exact closeConnection_posted c w .kUndefinedError

theorem close_consistent (hserver : Consistent ids server) (connectionId : Bytes) :
    Consistent ids (server.close unspecified connectionId) := by
  cases close_cases hserver connectionId with
  | inl hnobody =>
    rw [hnobody.1]
    exact hserver
  | inr hsome =>
    obtain ⟨w,c,hfind,-,hclose⟩ := hsome
    have hmove : Move ids (fun _ => True) server
        (server.closeConnection unspecified c w .kUndefinedError) :=
      closeConnection_move hfind trivial _
    rw [hclose]
    exact hmove.consistent hserver

theorem id_not_mem_connectedIds (hserver : Consistent ids server) {w : Session} {c : Connection}
    (hfind : server.connections.find w = some c) (hstatus : c.status ≠ .kConnected) :
    c.id ∉ server.connectedIds := by
  intro hmem
  obtain ⟨w',c',hfind',hconnected,hid⟩ := mem_connectedIds.mp hmem
  obtain rfl := hserver.session_unique hfind' hfind hid
  rw [hfind] at hfind'
  rw [Option.some.inj hfind'] at hstatus
  exact hstatus hconnected

end StompServer
end QuietRoute
