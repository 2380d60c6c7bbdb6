import QuietRoute.Monitor.QuietReplies

/-! The server inside a monitor. A run of the monitor is a run of its server in which the handlers of the
monitor are the user, and the callbacks are executed in the order in which they were posted. -/
namespace QuietRoute

open StompFrame Typestate

variable {Session : Type} [DecidableEq Session]

namespace StompServer

variable {ids : IdGenerator} {unspecified : Unspecified} {server server' : StompServer Session}
  {past : List Callback}

/-- The server with the callbacks that were already executed. -/
def remember (past : List Callback) (server : StompServer Session) : StompServer Session :=
  {server with posted := past ++ server.posted}

omit [DecidableEq Session] in
@[simp] theorem remember_kHost : (server.remember past).kHost = server.kHost := rfl

omit [DecidableEq Session] in
@[simp] theorem remember_connections : (server.remember past).connections = server.connections := rfl

omit [DecidableEq Session] in
@[simp] theorem remember_sessions : (server.remember past).sessions = server.sessions := rfl

omit [DecidableEq Session] in
@[simp] theorem remember_generateId : (server.remember past).generateId ids =
    ((server.generateId ids).1,(server.generateId ids).2.remember past) := rfl

omit [DecidableEq Session] in
@[simp] theorem remember_post (callback : Callback) :
    (server.remember past).post callback = (server.post callback).remember past := by
  simp [remember,post]

theorem closeConnection_remember (c : Connection) (w : Session) (error : StompServerError) :
    (server.remember past).closeConnection unspecified c w error =
      (server.closeConnection unspecified c w error).remember past := by
  rw [closeConnection,closeConnection]
  split_ifs <;> rfl

theorem handleStomp_remember (w : Session) (c : Connection) (frame : StompFrame) :
    (server.remember past).handleStomp unspecified w c frame =
      (server.handleStomp unspecified w c frame).remember past := by
  simp only [handleStomp,closeConnection_remember,remember_kHost]
  split_ifs
  · rfl
  · rfl
  · rfl
  · rfl
  · simp [remember,post,write]

theorem handleSend_remember (w : Session) (c : Connection) (frame : StompFrame) :
    (server.remember past).handleSend unspecified w c frame =
      (server.handleSend unspecified w c frame).remember past := by
  simp only [handleSend,closeConnection_remember,remember_post]
  split_ifs <;> rfl

theorem onWsSessionMessage_remember (ec : Bool) (w : Session) (msg : Bytes) :
    (server.remember past).onWsSessionMessage unspecified ec w msg =
      (server.onWsSessionMessage unspecified ec w msg).map (remember past) := by
  simp only [onWsSessionMessage,remember_connections]
  cases server.connections.find w with
  | none => rfl
  | some c =>
    cases ec with
    | true => rfl
    | false =>
      cases ofString unspecified.uninitialised msg with
      | none => rfl
      | some read =>
        obtain ⟨error,frame⟩ := read
        simp only [bind,Option.bind_some,pure,Bool.false_eq_true,if_false]
        split_ifs
        · exact congrArg some (closeConnection_remember c w _)
        · cases frame.command with
          | kStomp => exact congrArg some (handleStomp_remember w c frame)
          | kSend => exact congrArg some (handleSend_remember w c frame)
          | _ => exact congrArg some (closeConnection_remember c w _)

theorem onWsSessionConnect_remember (ec : Bool) (w : Session) :
    (server.remember past).onWsSessionConnect ids ec w =
      (server.onWsSessionConnect ids ec w).remember past := by
  rw [onWsSessionConnect,onWsSessionConnect]
  split_ifs <;> rfl

theorem onWsSessionDisconnect_remember (ec : Bool) (w : Session) :
    (server.remember past).onWsSessionDisconnect ec w =
      (server.onWsSessionDisconnect ec w).remember past := by
  simp only [onWsSessionDisconnect,remember_connections]
  cases server.connections.find w with
  | none => rfl
  | some c =>
    by_cases hconnected : c.status = .kConnected
    · simp [hconnected,remember,post]
    · simp [hconnected,remember]

theorem send_remember (connectionId destination messageContent userRequestId : Bytes) :
    (server.remember past).send ids unspecified connectionId destination messageContent userRequestId =
      ((server.send ids unspecified connectionId destination messageContent userRequestId).1,
        (server.send ids unspecified connectionId destination messageContent userRequestId).2.remember
          past) := by
  simp only [send,remember_sessions,remember_generateId]
  cases server.sessions.find connectionId with
  | none => rfl
  | some w =>
    simp only [remember_connections]
    cases server.connections.find w with
    | none => rfl
    | some c =>
      by_cases hconnected : c.status = .kConnected
      · by_cases hrequest : userRequestId = []
        · simp only [hconnected,hrequest,ne_eq,not_true,if_true,if_false]
          generalize assemble unspecified .kSend _ messageContent = assembled
          by_cases hok : assembled.1 = .kOk
          · simp only [hok,not_true,if_false]
            rfl
          · simp only [hok,not_false_eq_true,if_true]
        · simp only [hconnected,hrequest,ne_eq,not_true,if_false]
          generalize assemble unspecified .kSend _ messageContent = assembled
          by_cases hok : assembled.1 = .kOk
          · simp only [hok,not_true,if_false]
            rfl
          · simp only [hok,not_false_eq_true,if_true]
      · simp [hconnected]

theorem close_remember (connectionId : Bytes) :
    (server.remember past).close unspecified connectionId =
      (server.close unspecified connectionId).remember past := by
  simp only [close,remember_sessions]
  cases server.sessions.find connectionId with
  | none => rfl
  | some w =>
    simp only [remember_connections]
    cases server.connections.find w with
    | none => rfl
    | some c => exact closeConnection_remember c w _

theorem perform_remember (past : List Callback) (event : ServerEvent Session) :
    (server.remember past).perform ids event = (server.perform ids event).map (remember past) := by
  cases event with
  | sessionConnect ec w => exact congrArg some (onWsSessionConnect_remember ec w)
  | sessionMessage u ec w msg => exact onWsSessionMessage_remember ec w msg
  | sessionDisconnect ec w => exact congrArg some (onWsSessionDisconnect_remember ec w)
  | send u connectionId destination messageContent userRequestId =>
    exact congrArg (some ∘ Prod.snd)
      (send_remember connectionId destination messageContent userRequestId)
  | close u connectionId => exact congrArg some (close_remember connectionId)
  | stop => rfl
  | serverDisconnect ec => exact congrArg some (remember_post _)

theorem run_remember (past : List Callback) (events : List (ServerEvent Session)) :
    (server.remember past).run ids events = (server.run ids events).map (remember past) := by
  induction events generalizing server with
  | nil => rfl
  | cons event events ih =>
    rw [← List.singleton_append,run_append,run_append,run_singleton,run_singleton,perform_remember]
    cases server.perform ids event with
    | none => rfl
    | some next => exact ih

end StompServer

/-- What an event of a monitor is for its server, if it comes from outside. -/
def Event.socketEvent? : Event Session → Option (ServerEvent Session)
  | .sessionConnect ec wsSession => some (.sessionConnect ec wsSession)
  | .sessionMessage unspecified ec wsSession msg => some (.sessionMessage unspecified ec wsSession msg)
  | .sessionDisconnect ec wsSession => some (.sessionDisconnect ec wsSession)
  | .serverDisconnect ec => some (.serverDisconnect ec)
  | .networkEvents _ => none
  | .execute _ => none

namespace NetworkMonitor

variable (libs : Libraries)

/-- The text of the quiet route that a message asks for, on the network as it is. -/
def routeText (monitor : NetworkMonitor Session) (message : Bytes) : Option Bytes := do
  let (startStationId,endStationId) ← parseRequest libs message
  let travelRoute ← monitor.network.getQuietTravelRoute libs.std startStationId endStationId
    monitor.config.quietRouteMaxSlowdownPc monitor.config.quietRouteMinQuietnessPc
    monitor.config.quietRouteMaxNPaths
  libs.json.dump travelRoute.toJson

def asks (unspecified : Unspecified) (monitor : NetworkMonitor Session) :
    Callback → Option (ServerEvent Session)
  | .onClientMessage _ id destination requestId message =>
    if destination ≠ quietRouteDestination ∨ (parseRequest libs message).isNone then
      some (.close unspecified id)
    else (monitor.routeText libs message).map
      fun text => .send unspecified id quietRouteDestination text requestId
  | _ => none

/-- What a step is for the server. -/
def serverEvent? (monitor : NetworkMonitor Session) : Event Session → Option (ServerEvent Session)
  | .execute unspecified => monitor.server.posted.head?.bind (monitor.asks libs unspecified)
  | event => event.socketEvent?

def executes? (monitor : NetworkMonitor Session) : Event Session → Option Callback
  | .execute _ => monitor.server.posted.head?
  | _ => none

def run (monitor : NetworkMonitor Session) (events : List (Event Session)) :
    Option (NetworkMonitor Session) := events.foldlM (step libs) monitor

/-- What a run is for the server, and the callbacks that it executes. -/
def serverEvents (monitor : NetworkMonitor Session) : List (Event Session) → List (ServerEvent Session)
  | [] => []
  | event::events => (monitor.serverEvent? libs event).toList ++
    ((monitor.step libs event).map fun next => next.serverEvents events).getD []

def executed (monitor : NetworkMonitor Session) : List (Event Session) → List Callback
  | [] => []
  | event::events => (monitor.executes? event).toList ++
    ((monitor.step libs event).map fun next => next.executed events).getD []

variable {libs} {monitor monitor' : NetworkMonitor Session} {event : Event Session}
  {events : List (Event Session)} {unspecified : Unspecified}

omit [DecidableEq Session] in
theorem routeText_dequeue (rest : List Callback) :
    (monitor.dequeue rest).routeText libs = monitor.routeText libs := rfl

omit [DecidableEq Session] in
theorem asks_dequeue (rest : List Callback) :
    (monitor.dequeue rest).asks libs unspecified = monitor.asks libs unspecified := rfl

theorem handle_message {ec : StompServerError} {id destination requestId message : Bytes}
    (h : monitor.handle libs unspecified (.onClientMessage ec id destination requestId message) =
      some monitor') :
    (monitor.asks libs unspecified (.onClientMessage ec id destination requestId message) =
        some (.close unspecified id) ∧ monitor'.server = monitor.server.close unspecified id) ∨
      ∃ text, destination = quietRouteDestination ∧ monitor.routeText libs message = some text ∧
        monitor.asks libs unspecified (.onClientMessage ec id destination requestId message) =
          some (.send unspecified id quietRouteDestination text requestId) ∧
        monitor'.server =
          (monitor.server.send libs.ids unspecified id quietRouteDestination text requestId).2 := by
  simp only [handle,onQuietRouteClientMessage] at h
  split_ifs at h with hdestination
  · rw [asks,if_pos (Or.inl hdestination),← Option.some.inj h]
    exact Or.inl ⟨rfl,rfl⟩
  · cases hparse : parseRequest libs message with
    | none =>
      simp only [hparse,Option.some.injEq] at h
      rw [asks,if_pos (Or.inr (by rw [hparse]; rfl)),← h]
      exact Or.inl ⟨rfl,rfl⟩
    | some stations =>
      simp only [hparse,bind,Option.bind_eq_some_iff,pure,Option.some.injEq] at h
      obtain ⟨route,hroute,text,htext,rfl⟩ := h
      have hanswer : monitor.routeText libs message = some text := by
        simp [routeText,hparse,hroute,htext]
      rw [asks,if_neg (by simp [hdestination,hparse]),hanswer]
      exact Or.inr ⟨text,not_not.mp hdestination,rfl,rfl,rfl⟩

theorem handle_asks {callback : Callback} (h : monitor.handle libs unspecified callback = some monitor') :
    monitor.server.run libs.ids (monitor.asks libs unspecified callback).toList =
      some monitor'.server := by
  cases callback with
  | onClientConnect | onClientDisconnect | onDisconnect =>
    rw [← Option.some.inj h]
    rfl
  | onClientMessage ec id destination requestId message =>
    rcases handle_message h with ⟨hasks,hserver⟩ | ⟨text,-,-,hasks,hserver⟩ <;> rw [hasks,hserver] <;> rfl

theorem step_socketEvent {e : ServerEvent Session} (hevent : event.socketEvent? = some e)
    (h : monitor.step libs event = some monitor') :
    monitor.server.perform libs.ids e = some monitor'.server := by
  cases event with
  | sessionMessage u ec w msg =>
    obtain ⟨server,hserver,rfl⟩ := Option.map_eq_some_iff.mp h
    rw [← Option.some.inj hevent]
    exact hserver
  | sessionConnect | sessionDisconnect | serverDisconnect =>
    rw [← Option.some.inj hevent,← Option.some.inj h]
    rfl
  | networkEvents msg => cases hevent
  | execute u => cases hevent

/-- One step, on the server that remembers what was executed. -/
theorem step_server (past : List Callback) (h : monitor.step libs event = some monitor') :
    (monitor.server.remember past).run libs.ids (monitor.serverEvent? libs event).toList =
      some (monitor'.server.remember (past ++ (monitor.executes? event).toList)) := by
  have houtside : ∀ e, event.socketEvent? = some e →
      (monitor.server.remember past).run libs.ids [e] = some (monitor'.server.remember (past ++ [])) := by
    intro e hevent
    rw [StompServer.run_singleton,StompServer.perform_remember,step_socketEvent hevent h,List.append_nil]
    rfl
  cases event with
  | sessionConnect | sessionMessage | sessionDisconnect | serverDisconnect => exact houtside _ rfl
  | networkEvents msg =>
    have hserver : monitor'.server = monitor.server := by
      rw [← Option.some.inj h,onNetworkEventsMessage]
      split <;> rfl
    rw [hserver,show monitor.executes? (.networkEvents msg : Event Session) = none from rfl,
      Option.toList_none,List.append_nil]
    rfl
  | execute u =>
    rw [step] at h
    split at h
    · cases h
    · rename_i callback rest hposted
      have hremember : monitor.server.remember past =
          (monitor.dequeue rest).server.remember (past ++ [callback]) := by
        simp [StompServer.remember,dequeue,hposted]
      rw [serverEvent?,executes?,hposted,List.head?_cons,Option.bind_some,Option.toList_some,hremember,
        StompServer.run_remember]
      exact congrArg (Option.map _) (handle_asks h)

theorem run_cons (event : Event Session) (events : List (Event Session)) :
    monitor.run libs (event::events) = (monitor.step libs event).bind fun next => next.run libs events :=
  List.foldlM_cons

theorem run_append (events events' : List (Event Session)) : monitor.run libs (events ++ events') =
    (monitor.run libs events).bind fun mid => mid.run libs events' := List.foldlM_append

theorem serverEvents_append {mid : NetworkMonitor Session} (h : monitor.run libs events = some mid)
    (events' : List (Event Session)) : monitor.serverEvents libs (events ++ events') =
      monitor.serverEvents libs events ++ mid.serverEvents libs events' := by
  induction events generalizing monitor with
  | nil =>
    obtain rfl : monitor = mid := Option.some.inj h
    rfl
  | cons event events ih =>
    rw [run_cons,Option.bind_eq_some_iff] at h
    obtain ⟨next,hstep,hrun⟩ := h
    simp only [List.cons_append,serverEvents,hstep,Option.map_some,Option.getD_some,ih hrun,
      List.append_assoc]

theorem run_server (past : List Callback) (h : monitor.run libs events = some monitor') :
    (monitor.server.remember past).run libs.ids (monitor.serverEvents libs events) =
      some (monitor'.server.remember (past ++ monitor.executed libs events)) := by
  induction events generalizing monitor past with
  | nil =>
    obtain rfl : monitor = monitor' := Option.some.inj h
    rw [executed,List.append_nil]
    rfl
  | cons event events ih =>
    rw [run_cons,Option.bind_eq_some_iff] at h
    obtain ⟨next,hstep,hrun⟩ := h
    rw [serverEvents,executed,hstep,StompServer.run_append,step_server past hstep,Option.bind_some]
    simp only [Option.map_some,Option.getD_some]
    rw [ih _ hrun,List.append_assoc]

omit [DecidableEq Session] in
theorem session?_of_asks {callback : Callback} {e : ServerEvent Session}
    (h : monitor.asks libs unspecified callback = some e) : e.session? = none := by
  cases callback with
  | onClientConnect | onClientDisconnect | onDisconnect => cases h
  | onClientMessage ec id destination requestId message =>
    rw [asks] at h
    split_ifs at h
    · rw [← Option.some.inj h]
      rfl
    · obtain ⟨text,-,rfl⟩ := Option.map_eq_some_iff.mp h
      rfl

theorem filter_serverEvents (h : monitor.run libs events = some monitor') :
    (monitor.serverEvents libs events).filter (fun e => e.session?.isSome) =
      (events.filterMap Event.socketEvent?).filter fun e => e.session?.isSome := by
  induction events generalizing monitor with
  | nil => rfl
  | cons event events ih =>
    rw [run_cons,Option.bind_eq_some_iff] at h
    obtain ⟨next,hstep,hrun⟩ := h
    rw [serverEvents,hstep,List.filter_append,Option.map_some,Option.getD_some,ih hrun]
    cases event with
    | sessionConnect | sessionMessage | sessionDisconnect | serverDisconnect =>
      rw [List.filterMap_cons_some (by rfl),← List.singleton_append,List.filter_append]
      rfl
    | networkEvents msg => rfl
    | execute u =>
      rw [List.filterMap_cons_none (by rfl)]
      refine congrArg (· ++ _) (List.filter_eq_nil_iff.mpr fun e hmem => ?_)
      obtain ⟨callback,-,hasks⟩ := Option.bind_eq_some_iff.mp (Option.mem_toList.mp hmem)
      simp [session?_of_asks hasks]

end NetworkMonitor

omit [DecidableEq Session] in
theorem StompServer.announcedFirst_filter (events : List (ServerEvent Session)) :
    AnnouncedFirst (events.filter fun e => e.session?.isSome) ↔ AnnouncedFirst events := by
  rw [AnnouncedFirst,AnnouncedFirst,List.pairwise_filter]
  refine ⟨fun h => h.imp ?_,fun h => h.imp fun hab _ _ => hab⟩
  intro earlier later hboth w hannounced hsession
  refine hboth ?_ ?_ w hannounced hsession
  · rw [hsession]
    rfl
  · rw [session?_of_announced? hannounced]
    rfl

omit [DecidableEq Session] in
theorem StompServer.announcedFirst_congr {events events' : List (ServerEvent Session)}
    (h : (events.filter fun e => e.session?.isSome) = events'.filter fun e => e.session?.isSome) :
    AnnouncedFirst events ↔ AnnouncedFirst events' := by
  rw [← announcedFirst_filter,h,announcedFirst_filter]

namespace NetworkMonitor

variable {libs : Libraries} {monitor monitor' : NetworkMonitor Session} {events : List (Event Session)}
  {kHost : Bytes} {network : TransportNetwork} {config : NetworkMonitorConfig}

/-- A run of the monitor, as one of its server. -/
structure Refines (libs : Libraries) (kHost : Bytes) (events : List (ServerEvent Session))
    (executed : List Callback) (monitor : NetworkMonitor Session) : Prop where
  run : (StompServer.started kHost).run libs.ids events = some (monitor.server.remember executed)
  announcedFirst : StompServer.AnnouncedFirst events
  handlers : ∀ id, CallbackOrder (actionsOf (executed.filterMap Callback.client?) id)
  frames : ∀ w, FrameOrder (monitor.server.framesTo w)
  closes : ∀ w, SilentAfterClose (actionsOf monitor.server.written w)

/-- In every run of the monitor its server keeps the order of frames and callbacks, and the handlers are
called in that order too: a client joins, sends messages and leaves. -/
theorem refines_of_run (libs : Libraries) (kHost : Bytes) (network : TransportNetwork)
    (config : NetworkMonitorConfig) (events : List (Event Session))
    (hfirst : StompServer.AnnouncedFirst (events.filterMap Event.socketEvent?))
    (h : (started kHost network config).run libs events = some monitor) :
    Refines libs kHost ((started kHost network config).serverEvents libs events)
      ((started kHost network config).executed libs events) monitor := by
  have hrun := run_server [] h
  have hannounced := (StompServer.announcedFirst_congr (filter_serverEvents h)).mpr hfirst
  rw [List.nil_append] at hrun
  obtain ⟨hrunning,writes,calls,horderly⟩ := StompServer.run_orderly hannounced hrun
  refine ⟨hrun,hannounced,fun id => ?_,?_,?_⟩
  · obtain ⟨n,hall⟩ := (callProtocol_posted (horderly.posted id)).callbackOrder
    refine ⟨n,List.IsPrefix.trans ?_ hall⟩
    rw [StompServer.remember,List.filterMap_append,actionsOf_append]
    exact List.prefix_append _ _
  · exact fun w => (frameProtocol_run (horderly.written w)).1.frameOrder
  · exact fun w => (frameProtocol_run (horderly.written w)).2.1

/-- A client connects, and is dismissed for a message that is no request. -/
def dismissal : List (Event ℕ) :=
  [.sessionConnect false 0,
    .sessionMessage 0 false 0 (ascii "STOMP\naccept-version:1.2\nhost:localhost\n\n\x00"),.execute 0,
    .sessionMessage 0 false 0 (ascii "SEND\ndestination:/quiet-route\n\nhello\x00"),.execute 0]

theorem dismissal_isSome : (atStart.run decodingNothing dismissal).isSome := by decide +kernel

theorem refines_dismissal : ∃ monitor, atStart.run decodingNothing dismissal = some monitor ∧
    Refines decodingNothing (ascii "localhost") (atStart.serverEvents decodingNothing dismissal)
      (atStart.executed decodingNothing dismissal) monitor := by
  obtain ⟨monitor,hrun⟩ := Option.isSome_iff_exists.mp dismissal_isSome
  exact ⟨monitor,hrun,refines_of_run decodingNothing (ascii "localhost") .empty ⟨1/10,1/10,20⟩ dismissal
    (by decide +kernel) hrun⟩

end NetworkMonitor
end QuietRoute
