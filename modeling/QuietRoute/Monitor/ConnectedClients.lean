import QuietRoute.Monitor.NetworkMonitor
import QuietRoute.Protocol.DeferredRegistry
import QuietRoute.Stomp.ServerMoves

/-! The clients that the monitor takes to be connected, against those that the server has connected:
the two are a registry and its observer. -/
namespace QuietRoute

open DeferredRegistry StompServer

variable {Session : Type} [DecidableEq Session] {ids : IdGenerator} {libs : Libraries}
  {server server' : StompServer Session} {monitor monitor' : NetworkMonitor Session}

def Callback.notice : Callback → Notice Bytes
  | .onClientConnect _ id => .joined id
  | .onClientMessage _ id _ _ _ => .requested id
  | .onClientDisconnect _ id => .left id
  | .onDisconnect _ => .other

/-- The server as a registry of which an observer has seen some clients. -/
def registryOf (server : StompServer Session) (clients : Finset Bytes) : Registry Bytes :=
  ⟨server.connectedIds,clients,server.posted.map Callback.notice⟩

omit [DecidableEq Session] in
theorem step_stay {clients : Finset Bytes} (hids : server'.connectedIds = server.connectedIds)
    (hposted : server'.posted = server.posted) :
    Registry.Step (registryOf server clients) (registryOf server' clients) := by
  have hsame : registryOf server' clients = registryOf server clients := by
    rw [registryOf,registryOf,hids,hposted]
  rw [hsame]
  exact Registry.Step.stay _

omit [DecidableEq Session] in
theorem step_post {clients members : Finset Bytes} {callback : Callback}
    (hids : server'.connectedIds = members) (hposted : server'.posted = server.posted ++ [callback])
    (hstep : Registry.Step (registryOf server clients)
      ⟨members,clients,(registryOf server clients).notices ++ [callback.notice]⟩) :
    Registry.Step (registryOf server clients) (registryOf server' clients) := by
  have hpost : registryOf server' clients =
      ⟨members,clients,(registryOf server clients).notices ++ [callback.notice]⟩ := by
    rw [registryOf,registryOf,hids,hposted,List.map_append]
    rfl
  rw [hpost]
  exact hstep

theorem requested_not_mem (hserver : Consistent ids server) {w : Session} {c : Connection}
    (hfind : server.connections.find w = some c) (hpending : c.status = .kPending) :
    .requested c.id ∉ server.posted.map Callback.notice := by
  intro hmem
  obtain ⟨callback,hposted,hnotice⟩ := List.mem_map.mp hmem
  cases callback with
  | onClientMessage ec id destination requestId message =>
    have hid : c.id = id := (Notice.requested.inj hnotice).symm
    exact hserver.requests_not_pending ec id destination requestId message hposted w c hfind hid
      hpending
  | onClientConnect ec id => cases hnotice
  | onClientDisconnect ec id => cases hnotice
  | onDisconnect ec => cases hnotice

/-- The moves of a server that closes no connected client on its own are steps of the registry. -/
theorem move_refines (hserver : Consistent ids server)
    (hmove : Move ids (fun connection => connection.status ≠ .kConnected) server server')
    (clients : Finset Bytes) :
    Registry.Step (registryOf server clients) (registryOf server' clients) := by
  cases hmove with
  | idle n written => exact Registry.Step.stay _
  | opened w hnew => exact step_stay (connectedIds_announce hnew rfl) rfl
  | closed w c written hfind hstatus =>
    have hnot := Finset.erase_eq_of_notMem (id_not_mem_connectedIds hserver hfind hstatus)
    exact step_stay ((connectedIds_erase hserver hfind rfl).trans hnot) rfl
  | joined w c written hfind hpending =>
    apply step_post (connectedIds_connect hfind rfl) rfl
    exact Registry.Step.join _ c.id (requested_not_mem hserver hfind hpending)
  | requested w c destination requestId message hfind hconnected =>
    exact step_post rfl rfl (Registry.Step.request _ c.id)
  | left w c ec hfind hconnected =>
    exact step_post (connectedIds_erase hserver hfind rfl) rfl (Registry.Step.leave _ c.id)
  | ended ec => exact step_post rfl rfl (Registry.Step.note _)

namespace NetworkMonitor

def registry (monitor : NetworkMonitor Session) : Registry Bytes :=
  registryOf monitor.server monitor.connectedClients

/-- The server is consistent, and the queue leads from the known clients to the connected ones. -/
structure Tracks (ids : IdGenerator) (monitor : NetworkMonitor Session) : Prop where
  consistent : Consistent ids monitor.server
  inSync : InSync monitor.registry

theorem Tracks.known_eq (h : monitor.Tracks ids) (hposted : monitor.server.posted = []) :
    monitor.connectedClients = monitor.server.connectedIds := by
  apply h.inSync.seen_eq
  rw [registry,registryOf,hposted,List.map_nil]

/-- No connected client sends anything but requests. -/
def StaysInProtocol (monitor : NetworkMonitor Session) : Event Session → Prop
  | .sessionMessage unspecified ec wsSession msg =>
    monitor.server.KeepsProtocol unspecified ec wsSession msg
  | _ => True

theorem onQuietRouteClientMessage_cases {unspecified : Unspecified}
    {connectionId destination requestId message : Bytes}
    (h : monitor.onQuietRouteClientMessage libs unspecified connectionId destination requestId
      message = some monitor') :
    (monitor'.server = monitor.server.close unspecified connectionId ∧
      monitor'.connectedClients = monitor.connectedClients.erase connectionId) ∨
    ∃ n written, monitor'.server =
        {monitor.server with generated := monitor.server.generated+n, written := written} ∧
      monitor'.connectedClients = monitor.connectedClients := by
  rw [onQuietRouteClientMessage] at h
  split_ifs at h with hdestination
  · left
    rw [← Option.some.inj h]
    exact ⟨rfl,rfl⟩
  · cases hrequest : parseRequest libs message with
    | none =>
      left
      simp only [hrequest,Option.some.injEq] at h
      rw [← h]
      exact ⟨rfl,rfl⟩
    | some stations =>
      right
      simp only [hrequest,Option.bind_eq_bind,Option.bind_eq_some_iff] at h
      obtain ⟨travelRoute,-,travelRouteText,-,h⟩ := h
      obtain ⟨n,written,hsend⟩ := @send_eq Session _ libs.ids unspecified monitor.server
        connectionId quietRouteDestination travelRouteText requestId
      rw [← Option.some.inj h]
      exact ⟨n,written,hsend,rfl⟩

/-- Executing a callback is reading its notice, or dismissing the client that it is about. -/
theorem handle_tracks {unspecified : Unspecified} {callback : Callback} {rest : List Callback}
    (h : monitor.Tracks libs.ids) (hposted : monitor.server.posted = callback::rest)
    (hhandle : (monitor.dequeue rest).handle libs unspecified callback = some monitor') :
    monitor'.Tracks libs.ids := by
  have hserver : Consistent libs.ids (monitor.dequeue rest).server := h.consistent.dequeue hposted
  have hnotices : monitor.registry.notices = callback.notice::rest.map Callback.notice := by
    rw [registry,registryOf,hposted,List.map_cons]
  have hread := h.inSync.step (Registry.Step.read monitor.registry _ _ hnotices)
  cases callback with
  | onClientConnect ec id =>
    rw [← Option.some.inj hhandle]
    exact ⟨hserver,hread⟩
  | onClientDisconnect ec id =>
    rw [← Option.some.inj hhandle]
    exact ⟨hserver,hread⟩
  | onDisconnect ec =>
    rw [← Option.some.inj hhandle]
    exact ⟨hserver,hread⟩
  | onClientMessage ec id destination requestId message =>
    cases onQuietRouteClientMessage_cases hhandle with
    | inl hdismiss =>
      have hstep := h.inSync.step (Registry.Step.dismiss monitor.registry id _ hnotices)
      have hregistry : monitor'.registry = ⟨monitor.server.connectedIds.erase id,
          monitor.connectedClients.erase id,rest.map Callback.notice⟩ := by
        rw [registry,registryOf,hdismiss.1,hdismiss.2,connectedIds_close hserver,
          close_posted hserver]
        rfl
      refine ⟨?_,?_⟩
      · rw [hdismiss.1]
        exact close_consistent hserver id
      · rw [hregistry]
        exact hstep
    | inr hanswer =>
      obtain ⟨n,written,hanswer,hclients⟩ := hanswer
      have hregistry : monitor'.registry = ⟨monitor.server.connectedIds,monitor.connectedClients,
          rest.map Callback.notice⟩ := by
        rw [registry,registryOf,hanswer,hclients]
        rfl
      refine ⟨?_,?_⟩
      · rw [hanswer]
        exact hserver.generate n written
      · rw [hregistry]
        exact hread

theorem move_tracks (h : monitor.Tracks libs.ids)
    (hmove : Move libs.ids (fun connection => connection.status ≠ .kConnected) monitor.server server) :
    Tracks libs.ids {monitor with server := server} :=
  ⟨hmove.consistent h.consistent,
    h.inSync.step (move_refines h.consistent hmove monitor.connectedClients)⟩

theorem onNetworkEventsMessage_tracks (h : monitor.Tracks libs.ids) (msg : Bytes) :
    (monitor.onNetworkEventsMessage libs msg).Tracks libs.ids := by
  rw [onNetworkEventsMessage]
  split
  · exact ⟨h.consistent,h.inSync⟩
  · exact ⟨h.consistent,h.inSync⟩

theorem step_tracks {event : Event Session} (h : monitor.Tracks libs.ids)
    (hannounces : monitor.Announces event) (hprotocol : monitor.StaysInProtocol event)
    (hstep : monitor.step libs event = some monitor') : monitor'.Tracks libs.ids := by
  cases event with
  | sessionConnect ec wsSession =>
    rw [← Option.some.inj hstep]
    exact move_tracks h (onWsSessionConnect_move hannounces ec)
  | sessionMessage unspecified ec wsSession msg =>
    obtain ⟨server,hserver,rfl⟩ := Option.map_eq_some_iff.mp hstep
    exact move_tracks h (onWsSessionMessage_move h.consistent hprotocol hserver)
  | sessionDisconnect ec wsSession =>
    rw [← Option.some.inj hstep]
    exact move_tracks h (onWsSessionDisconnect_move ec wsSession)
  | serverDisconnect ec =>
    rw [← Option.some.inj hstep]
    exact move_tracks h (Move.ended _)
  | networkEvents msg =>
    rw [← Option.some.inj hstep]
    exact onNetworkEventsMessage_tracks h msg
  | execute unspecified =>
    rw [step] at hstep
    cases hposted : monitor.server.posted with
    | nil => simp [hposted] at hstep
    | cons callback rest =>
      simp only [hposted] at hstep
      exact handle_tracks h hposted hstep

theorem reaches_tracks (h : Reaches libs StaysInProtocol monitor) : monitor.Tracks libs.ids := by
  induction h with
  | started kHost network config =>
    exact ⟨started_consistent libs.ids kHost,⟨rfl,List.Pairwise.nil⟩⟩
  | step h hannounces hcondition hstep ih => exact step_tracks ih hannounces hcondition hstep

/-- As long as connected clients send nothing but requests, a monitor with nothing left to execute
knows the clients that the server has connected. -/
theorem connectedClients_eq (h : Reaches libs StaysInProtocol monitor)
    (hposted : monitor.server.posted = []) :
    monitor.connectedClients = monitor.server.connectedIds :=
  (reaches_tracks h).known_eq hposted

/-- Once everything is executed, one message that breaks the protocol is enough to go wrong. -/
theorem violation_forgotten {unspecified : Unspecified} {ec : Bool} {wsSession : Session} {msg : Bytes}
    (h : monitor.Tracks libs.ids) (hposted : monitor.server.posted = [])
    (hviolates : ¬monitor.server.KeepsProtocol unspecified ec wsSession msg)
    (hstep : monitor.step libs (.sessionMessage unspecified ec wsSession msg) = some monitor') :
    monitor'.server.posted = [] ∧ monitor'.connectedClients ≠ monitor'.server.connectedIds := by
  obtain ⟨server,hserver,rfl⟩ := Option.map_eq_some_iff.mp hstep
  obtain ⟨connection,error,hfind,hconnected,rfl⟩ := onWsSessionMessage_violation hviolates hserver
  have hmem : connection.id ∈ monitor.server.connectedIds :=
    mem_connectedIds.mpr ⟨wsSession,connection,hfind,hconnected,rfl⟩
  refine ⟨(closeConnection_posted _ _ _).trans hposted,?_⟩
  rw [connectedIds_closeConnection h.consistent hfind,h.known_eq hposted]
  intro heq
  exact Finset.notMem_erase connection.id monitor.server.connectedIds (heq ▸ hmem)

/-! A run of a few events. -/

theorem Reaches.after {condition : NetworkMonitor Session → Event Session → Prop}
    (h : Reaches libs condition monitor) (event : Event Session)
    (hannounces : monitor.Announces event) (hcondition : condition monitor event) :
    Reaches libs condition ((monitor.step libs event).getD monitor) := by
  cases hstep : monitor.step libs event with
  | none => exact h
  | some monitor' => exact h.step hannounces hcondition hstep

theorem Reaches.mono {condition condition' : NetworkMonitor Session → Event Session → Prop}
    (h : Reaches libs condition monitor)
    (hmono : ∀ monitor event, condition monitor event → condition' monitor event) :
    Reaches libs condition' monitor := by
  induction h with
  | started kHost network config => exact Reaches.started kHost network config
  | step h hannounces hcondition hstep ih => exact ih.step hannounces (hmono _ _ hcondition) hstep

def decodingNothing : Libraries where
  std := .simple
  json := ⟨fun _ => none,fun _ => none⟩
  parseDatetime := fun _ => false
  ids := .simple

def atStart : NetworkMonitor ℕ := started (ascii "localhost") .empty ⟨1/10,1/10,20⟩

def atConnect : NetworkMonitor ℕ :=
  (atStart.step decodingNothing (.sessionConnect false 0)).getD atStart

def atHandshake : NetworkMonitor ℕ :=
  (atConnect.step decodingNothing (.sessionMessage 0 false 0
    (ascii "STOMP\naccept-version:1.2\nhost:localhost\n\n\x00"))).getD atConnect

/-- A client has connected, has completed the handshake, and is known. -/
def atKnown : NetworkMonitor ℕ := (atHandshake.step decodingNothing (.execute 0)).getD atHandshake

theorem reaches_atKnown : Reaches decodingNothing StaysInProtocol atKnown := by
  have hstart : Reaches decodingNothing StaysInProtocol atStart := Reaches.started _ _ _
  have hconnect := hstart.after (.sessionConnect false 0) rfl trivial
  have hhandshake := hconnect.after (.sessionMessage 0 false 0
    (ascii "STOMP\naccept-version:1.2\nhost:localhost\n\n\x00")) trivial
    (keepsProtocol_of_pending (by decide +kernel))
  exact hhandshake.after (.execute 0) trivial trivial

theorem connectedClients_atKnown :
    atKnown.connectedClients = {[97]} ∧ atKnown.connectedClients = atKnown.server.connectedIds :=
  ⟨by decide +kernel,connectedClients_eq reaches_atKnown (by decide +kernel)⟩

/-- A connected client that sends no STOMP frame is disconnected and stays known. -/
theorem client_stays_known : ¬∀ (libs : Libraries) (monitor : NetworkMonitor ℕ),
    Reaches libs (fun _ _ => True) monitor → monitor.server.posted = [] →
      monitor.connectedClients = monitor.server.connectedIds := by
  intro hknown
  have hreaches : Reaches decodingNothing (fun _ _ => True) atKnown :=
    reaches_atKnown.mono fun _ _ _ => trivial
  have hviolation := hreaches.after (.sessionMessage 0 false 0 (ascii "invalid stomp frame"))
    trivial trivial
  have hsame := hknown decodingNothing _ hviolation (by decide +kernel)
  revert hsame
  decide +kernel

end NetworkMonitor
end QuietRoute
