import QuietRoute.Monitor.ConnectedClients
import QuietRoute.Monitor.RouteJson
import QuietRoute.Stomp.ServerOrder
import QuietRoute.Stomp.ServerReplies
import Mathlib.Data.FinEnum
import Mathlib.Logic.Equiv.List

/-! The requests of all clients and the replies to them, over whole runs of the monitor. -/
namespace QuietRoute

open StompFrame NetworkMonitor

/-- A `SEND` frame that a connected client has sent. -/
structure Request (Session : Type) where
  session : Session
  connectionId : Bytes
  frame : StompFrame

structure Moment (Session : Type) where
  before : NetworkMonitor Session
  event : Event Session
  after : NetworkMonitor Session

def Callback.isMessage : Callback → Bool
  | .onClientMessage _ _ _ _ _ => true
  | _ => false

def sendFrame? {Session : Type} : Session × SessionAction → Option (Session × Bytes)
  | (wsSession,.send text) => if commandOf text = .kSend then some (wsSession,text) else none
  | (_,.close) => none

variable {Session : Type}

namespace Request

def callback (request : Request Session) : Callback :=
  .onClientMessage .kOk request.connectionId (request.frame.getHeaderValue .kDestination)
    (request.frame.getHeaderValue .kId) request.frame.body

/-- The request asks for a quiet route: its body is a JSON object that names the two stations. -/
def Asks (libs : Libraries) (request : Request Session) (startStationId endStationId : Id) : Prop :=
  request.frame.getHeaderValue .kDestination = ascii "/quiet-route" ∧
    ∃ value, libs.json.parse request.frame.body = some value ∧
      value.HasMember (ascii "start_station_id") (.string startStationId) ∧
      value.HasMember (ascii "end_station_id") (.string endStationId)

/-- The connection that a request came over. -/
def Has [DecidableEq Session] (request : Request Session) (server : StompServer Session)
    (connection : Connection) : Prop :=
  server.connections.find request.session = some connection ∧ connection.id = request.connectionId

def IsOpen [DecidableEq Session] (request : Request Session) (server : StompServer Session) : Prop :=
  ∃ connection, request.Has server connection ∧ connection.status = .kConnected

end Request

namespace Moment

def written (moment : Moment Session) : List (Session × SessionAction) :=
  moment.after.server.written.drop moment.before.server.written.length

def replies (moment : Moment Session) : List (Session × Bytes) := moment.written.filterMap sendFrame?

def executed? (moment : Moment Session) : Option Callback :=
  match moment.event, moment.before.server.posted with
  | .execute _, callback::_ => if callback.isMessage then some callback else none
  | _, _ => none

def request? [DecidableEq Session] (moment : Moment Session) : Option (Request Session) :=
  match moment.event with
  | .sessionMessage unspecified false wsSession msg => do
    let connection ← moment.before.server.connections.find wsSession
    let (error,frame) ← ofString unspecified.uninitialised msg
    if connection.status = .kConnected ∧ error = .kOk ∧ frame.command = .kSend then
      return ⟨wsSession,connection.id,frame⟩
    else none
  | _ => none

end Moment

structure IsReply (libs : Libraries) (request : Request Session) (moment : Moment Session)
    (route : TravelRoute) (reply : StompFrame) : Prop where
  command_eq : reply.command = .kSend
  destination_eq : reply.getHeaderValue .kDestination = quietRouteDestination
  id_eq : ∀ id, request.frame.headers.find .kId = some id → reply.getHeaderValue .kId = id
  id_fresh : request.frame.headers.find .kId = none → reply.getHeaderValue .kId ≠ [] ∧
    ∃ n, moment.before.server.generated ≤ n ∧ n < moment.after.server.generated ∧
      reply.getHeaderValue .kId = libs.ids.nth n
  body_decodes : libs.json.parse reply.body >>= TravelRoute.fromJson = some route

section

variable [DecidableEq Session]

/-- A step leaves no connection of a request, and closes the one there was. -/
structure Closes (request : Request Session) (moment : Moment Session) : Prop where
  forgotten : moment.after.server.sessions.find request.connectionId = none
  gone : ∀ connection, ¬request.Has moment.after.server connection
  closed : ∀ connection, request.Has moment.before.server connection →
    moment.written = [(request.session,.close)]

/-- What a step does about a request. The text of the route is one that fits into memory. -/
structure Answered (libs : Libraries) (request : Request Session) (moment : Moment Session) : Prop where
  replied : ∀ startStationId endStationId, request.Asks libs startStationId endStationId →
      request.IsOpen moment.before.server → ∃ route body,
        moment.before.network.getQuietTravelRoute libs.std startStationId endStationId
          moment.before.config.quietRouteMaxSlowdownPc moment.before.config.quietRouteMinQuietnessPc
          moment.before.config.quietRouteMaxNPaths = some route ∧
        libs.json.dump route.toJson = some body ∧
        (body.length < 2^64 → ∃ text, moment.replies = [(request.session,text)] ∧
          ∀ uninitialised, ∃ reply, ofString uninitialised text = some (.kOk,reply) ∧
            IsReply libs request moment route reply)
  ownSession : ∀ e ∈ moment.replies, e.1 = request.session
  dropped : ∀ startStationId endStationId, request.Asks libs startStationId endStationId →
    ¬request.IsOpen moment.before.server → moment.replies = []
  refused : (∀ startStationId endStationId, ¬request.Asks libs startStationId endStationId) →
    moment.replies = [] ∧ Closes request moment

/-- The moments of a run, and the monitor that it leads to. -/
inductive Runs (libs : Libraries) (start : NetworkMonitor Session) :
    List (Moment Session) → NetworkMonitor Session → Prop
  | refl : Runs libs start [] start
  | step {moments : List (Moment Session)} {monitor monitor' : NetworkMonitor Session}
      {event : Event Session} (h : Runs libs start moments monitor)
      (hannounces : monitor.Announces event) (hstep : monitor.step libs event = some monitor') :
      Runs libs start (moments ++ [⟨monitor,event,monitor'⟩]) monitor'

def requests (moments : List (Moment Session)) : List (Request Session) :=
  moments.filterMap Moment.request?

def executions (moments : List (Moment Session)) : List (Moment Session) :=
  moments.filter fun moment => moment.executed?.isSome

/-- The requests in their order, with the steps that execute their callbacks. -/
def served (moments : List (Moment Session)) : List (Request Session × Moment Session) :=
  (requests moments).zip (executions moments)

def waiting (monitor : NetworkMonitor Session) : List Callback :=
  monitor.server.posted.filter Callback.isMessage

/-- Every request is served once, first come first served, and nothing else is replied to. -/
structure Correlated (libs : Libraries) (moments : List (Moment Session))
    (monitor : NetworkMonitor Session) : Prop where
  fifo : (requests moments).map Request.callback =
    (executions moments).filterMap Moment.executed? ++ waiting monitor
  answered : ∀ p ∈ served moments, Answered libs p.1 p.2
  nothingElse : moments.flatMap Moment.replies = (served moments).flatMap fun p => p.2.replies
  inOrder : ∀ wsSession, (moments.flatMap Moment.replies).filter (fun e => e.1 = wsSession) =
    ((served moments).filter fun p => p.1.session = wsSession).flatMap fun p => p.2.replies
  returns : ∀ unspecified callback rest, monitor.server.posted = callback::rest →
    (∀ request : Request Session, callback = request.callback → ∀ startStationId endStationId,
      request.Asks libs startStationId endStationId →
        (monitor.network.getQuietTravelRoute libs.std startStationId endStationId
          monitor.config.quietRouteMaxSlowdownPc monitor.config.quietRouteMinQuietnessPc
          monitor.config.quietRouteMaxNPaths).isSome) →
    (monitor.step libs (.execute unspecified)).isSome

/-! One step. -/

variable {libs : Libraries} {monitor monitor' : NetworkMonitor Session} {event : Event Session}
  {ids : IdGenerator} {server server' : StompServer Session} {request : Request Session}
  {serverEvent : ServerEvent Session}

/-- The id of a request belongs to its session, and its header stays on its line. -/
structure Bound (ids : IdGenerator) (server : StompServer Session) (request : Request Session) :
    Prop where
  drawn : ∃ n < server.generated, request.connectionId = ids.nth n
  session_eq : ∀ w c, server.connections.find w = some c → c.id = request.connectionId →
    w = request.session
  read : ∃ uninitialised text, ofString uninitialised text = some (.kOk,request.frame)

theorem Bound.change (h : Bound ids server request)
    (hchange : StompServer.Change ids serverEvent server server') : Bound ids server' request := by
  obtain ⟨n,hn,hid⟩ := h.drawn
  refine ⟨⟨n,hn.trans_le hchange.generated_le,hid⟩,fun w c hfind heq => ?_,h.read⟩
  rcases hchange.connection_cases hfind with ⟨c',hold,hsame⟩ | rfl
  · exact h.session_eq w c' hold (hsame.trans heq)
  · exact absurd (ids.nth_injective (heq.trans hid)) (Nat.ne_of_gt hn)

theorem Bound.of_eq (h : Bound ids server request)
    (hconnections : server'.connections = server.connections)
    (hgenerated : server.generated ≤ server'.generated) : Bound ids server' request := by
  obtain ⟨n,hn,hid⟩ := h.drawn
  refine ⟨⟨n,hn.trans_le hgenerated,hid⟩,?_,h.read⟩
  rw [hconnections]
  exact h.session_eq

structure Progress (libs : Libraries) (moment : Moment Session) : Prop where
  consistent : StompServer.Consistent libs.ids moment.after.server
  names : moment.after.network.Names ValidUtf8
  queue : waiting moment.before ++ (moment.request?.map Request.callback).toList =
    moment.executed?.toList ++ waiting moment.after
  silent : moment.executed? = none → moment.replies = []
  bound : ∀ request, Bound libs.ids moment.before.server request →
    Bound libs.ids moment.after.server request
  received : ∀ request, moment.request? = some request → Bound libs.ids moment.after.server request
  answered : ∀ request : Request Session, moment.executed? = some request.callback →
    Bound libs.ids moment.before.server request → Answered libs request moment

omit [DecidableEq Session] in
theorem written_of_append {before after : NetworkMonitor Session}
    {actions : List (Session × SessionAction)}
    (h : after.server.written = before.server.written ++ actions) :
    Moment.written ⟨before,event,after⟩ = actions := by
  rw [Moment.written,h,List.drop_left]

omit [DecidableEq Session] in
theorem replies_of_written_eq {before after : NetworkMonitor Session}
    (h : after.server.written = before.server.written) :
    Moment.replies ⟨before,event,after⟩ = [] := by
  rw [Moment.replies,written_of_append (h.trans (List.append_nil _).symm),List.filterMap_nil]

theorem StompServer.Change.silent_written (hchange : StompServer.Change ids serverEvent server server')
    {w : Session} (hsession : serverEvent.session? = some w) : ∃ actions,
      server'.written = server.written ++ actions ∧ actions.filterMap sendFrame? = [] := by
  cases hchange with
  | silent n => exact ⟨[],by simp⟩
  | refused w' => exact ⟨_,rfl,rfl⟩
  | entered w' => exact ⟨[],by simp⟩
  | dropped w' c frames hfind hframes =>
    refine ⟨_,rfl,?_⟩
    rcases hframes with rfl | ⟨text,rfl,htext⟩
    · rfl
    · simp [sendFrame?,htext]
  | accepted w' c frame text hfind hpending hdelivers hhandshake htext =>
    exact ⟨_,rfl,by simp [sendFrame?,htext]⟩
  | heard w' c => exact ⟨[],by simp [StompServer.post]⟩
  | lost w' c => exact ⟨[],by simp⟩
  | sent w' c text n hfind hconnected htext hnone =>
    rw [hsession] at hnone
    cases hnone
  | stopped => exact ⟨_,rfl,by simp [List.filterMap_map,Function.comp_def,sendFrame?]⟩
  | ended ec => exact ⟨[],by simp [StompServer.post]⟩

theorem StompServer.Change.posted_messages (hchange : StompServer.Change ids serverEvent server server') :
    server'.posted.filter Callback.isMessage = server.posted.filter Callback.isMessage ∨
      ∃ w c frame, server.connections.find w = some c ∧ c.status = .kConnected ∧
        serverEvent.Delivers w frame ∧ frame.command = .kSend := by
  cases hchange with
  | heard w c frame hfind hconnected hdelivers hcommand =>
    exact Or.inr ⟨w,c,frame,hfind,hconnected,hdelivers,hcommand⟩
  | accepted w c => exact Or.inl (by simp [Callback.isMessage])
  | lost w c ec =>
    refine Or.inl ?_
    by_cases hconnected : c.status = .kConnected
    · simp [hconnected,Callback.isMessage]
    · simp [hconnected]
  | ended ec => exact Or.inl (by simp [StompServer.post,Callback.isMessage])
  | silent n => exact Or.inl rfl
  | refused w => exact Or.inl rfl
  | entered w => exact Or.inl rfl
  | dropped w c => exact Or.inl rfl
  | sent w c => exact Or.inl rfl
  | stopped => exact Or.inl rfl

/-- An event of a session that is no request. -/
theorem progress_of_change (hserver : StompServer.Consistent libs.ids monitor.server)
    (hnames : monitor.network.Names ValidUtf8)
    (hchange : StompServer.Change libs.ids serverEvent monitor.server server') {w : Session}
    (hsession : serverEvent.session? = some w)
    (hunheard : ∀ w c frame, monitor.server.connections.find w = some c → c.status = .kConnected →
      serverEvent.Delivers w frame → frame.command ≠ .kSend)
    (hrequest : Moment.request? ⟨monitor,event,{monitor with server := server'}⟩ = none)
    (hexecuted : Moment.executed? ⟨monitor,event,{monitor with server := server'}⟩ = none) :
    Progress libs ⟨monitor,event,{monitor with server := server'}⟩ := by
  refine ⟨hchange.consistent hserver,hnames,?_,fun _ => ?_,fun r hr => hr.change hchange,?_,?_⟩
  · rw [hrequest,hexecuted,Option.map_none,Option.toList_none,List.append_nil,List.nil_append]
    rcases hchange.posted_messages with hsame | ⟨w,c,frame,hfind,hconnected,hdelivers,hcommand⟩
    · exact hsame.symm
    · exact absurd hcommand (hunheard w c frame hfind hconnected hdelivers)
  · obtain ⟨actions,hwritten,hsilent⟩ := hchange.silent_written hsession
    rw [Moment.replies,written_of_append hwritten,hsilent]
  · intro r hr
    rw [hrequest] at hr
    cases hr
  · intro r hr
    rw [hexecuted] at hr
    cases hr

/-- A step that is no request and executes none, and that leaves the sessions alone. -/
theorem progress_of_eq (hserver : StompServer.Consistent libs.ids monitor'.server)
    (hnames : monitor'.network.Names ValidUtf8)
    (hrequest : Moment.request? ⟨monitor,event,monitor'⟩ = none)
    (hexecuted : Moment.executed? ⟨monitor,event,monitor'⟩ = none)
    (hwaiting : waiting monitor' = waiting monitor)
    (hconnections : monitor'.server.connections = monitor.server.connections)
    (hgenerated : monitor'.server.generated = monitor.server.generated)
    (hwritten : monitor'.server.written = monitor.server.written) :
    Progress libs ⟨monitor,event,monitor'⟩ := by
  refine ⟨hserver,hnames,?_,fun _ => replies_of_written_eq hwritten,
    fun r hr => hr.of_eq hconnections hgenerated.ge,fun r hr => ?_,fun r hr => ?_⟩
  · rw [hrequest,hexecuted,Option.map_none,Option.toList_none,List.append_nil,List.nil_append]
    exact hwaiting.symm
  · rw [hrequest] at hr
    cases hr
  · rw [hexecuted] at hr
    cases hr

theorem request?_eq_some {after : NetworkMonitor Session} :
    Moment.request? ⟨monitor,event,after⟩ = some request ↔ ∃ unspecified msg connection,
      event = .sessionMessage unspecified false request.session msg ∧
        request.Has monitor.server connection ∧ connection.status = .kConnected ∧
          ofString unspecified.uninitialised msg = some (.kOk,request.frame) ∧
            request.frame.command = .kSend := by
  obtain ⟨session,connectionId,frame⟩ := request
  constructor
  · intro hrequest
    rw [Moment.request?] at hrequest
    split at hrequest
    · rename_i unspecified w msg hevent
      simp only [Option.bind_eq_bind,Option.bind_eq_some_iff] at hrequest
      obtain ⟨connection,hfind,⟨error,frame'⟩,hframe,hrequest⟩ := hrequest
      split_ifs at hrequest with hheard
      obtain ⟨hconnected,rfl,hcommand⟩ := hheard
      obtain ⟨rfl,rfl,rfl⟩ := Request.mk.inj (Option.some.inj hrequest)
      exact ⟨unspecified,msg,connection,hevent,⟨hfind,rfl⟩,hconnected,hframe,hcommand⟩
    · cases hrequest
  · rintro ⟨unspecified,msg,connection,rfl,⟨hfind,rfl⟩,hconnected,hframe,hcommand⟩
    simp only at hfind hframe hcommand
    simp only [Moment.request?,hfind,hframe,Option.bind_eq_bind,Option.bind_some]
    rw [if_pos ⟨hconnected,trivial,hcommand⟩]
    rfl

theorem progress_sessionMessage {unspecified : Unspecified} {ec : Bool} {w : Session} {msg : Bytes}
    (hserver : StompServer.Consistent libs.ids monitor.server) (hnames : monitor.network.Names ValidUtf8)
    (hstep : monitor.server.onWsSessionMessage unspecified ec w msg = some server') :
    Progress libs ⟨monitor,.sessionMessage unspecified ec w msg,{monitor with server := server'}⟩ := by
  have hchange := StompServer.onWsSessionMessage_change hserver hstep
  cases hrequest : Moment.request? ⟨monitor,.sessionMessage unspecified ec w msg,
      {monitor with server := server'}⟩ with
  | none =>
    refine progress_of_change hserver hnames hchange rfl ?_ hrequest rfl
    rintro w' c frame hfind hconnected ⟨u,text,hevent,hframe⟩ hcommand
    cases hevent
    have hsome := (@request?_eq_some Session _ monitor _ ⟨w,c.id,frame⟩
      {monitor with server := server'}).mpr
      ⟨unspecified,msg,c,rfl,⟨hfind,rfl⟩,hconnected,hframe,hcommand⟩
    rw [hrequest] at hsome
    cases hsome
  | some r =>
    obtain ⟨u,text,c,hevent,⟨hfind,hid⟩,hconnected,hframe,hcommand⟩ := request?_eq_some.mp hrequest
    cases hevent
    -- the request is queued and nothing else happens
    have hpost : server' = monitor.server.post r.callback := by
      rw [StompServer.onWsSessionMessage] at hstep
      simp only [hfind,hframe,hcommand,Bool.false_eq_true,if_false,Option.bind_eq_bind,
        Option.bind_some,ne_eq,not_true,StompServer.handleSend,hconnected] at hstep
      rw [Request.callback,← hid]
      exact (Option.some.inj hstep).symm
    subst hpost
    refine ⟨hchange.consistent hserver,hnames,?_,fun _ => ?_,fun r hr => hr.change hchange,?_,?_⟩
    · have hqueued : [r.callback].filter Callback.isMessage = [r.callback] := rfl
      rw [hrequest]
      simp [waiting,StompServer.post,Moment.executed?,List.filter_append,hqueued]
    · exact replies_of_written_eq rfl
    · intro r' hr'
      obtain rfl : r = r' := Option.some.inj (hrequest.symm.trans hr')
      obtain ⟨n,hn,hdrawn⟩ := hserver.drawn _ c hfind
      refine ⟨⟨n,hn,hid ▸ hdrawn⟩,fun w' c' hfind' hid' => ?_,_,msg,hframe⟩
      exact hserver.session_unique hfind' hfind (hid'.trans hid.symm)
    · intro r' hr'
      cases hr'

theorem handle_other {unspecified : Unspecified} {callback : Callback}
    (hother : callback.isMessage = false)
    (h : monitor.handle libs unspecified callback = some monitor') :
    monitor'.server = monitor.server := by
  cases callback with
  | onClientMessage => cases hother
  | onClientConnect | onClientDisconnect | onDisconnect =>
    obtain rfl := Option.some.inj h
    rfl

theorem handle_network {unspecified : Unspecified} {callback : Callback}
    (h : monitor.handle libs unspecified callback = some monitor') :
    monitor'.network = monitor.network := by
  cases callback with
  | onClientMessage ec id destination requestId message =>
    rw [handle,onQuietRouteClientMessage] at h
    split_ifs at h with hdestination
    · obtain rfl := Option.some.inj h
      rfl
    · cases hrequest : parseRequest libs message with
      | none =>
        simp only [hrequest] at h
        obtain rfl := Option.some.inj h
        rfl
      | some stations =>
        simp only [hrequest,Option.bind_eq_bind,Option.bind_eq_some_iff] at h
        obtain ⟨route,-,body,-,h⟩ := h
        obtain rfl := Option.some.inj h
        rfl
  | onClientConnect | onClientDisconnect | onDisconnect =>
    obtain rfl := Option.some.inj h
    rfl

theorem parseRequest_eq_some_iff {message : Bytes} {startStationId endStationId : Id} :
    parseRequest libs message = some (startStationId,endStationId) ↔ ∃ value,
      libs.json.parse message = some value ∧
        value.HasMember (ascii "start_station_id") (.string startStationId) ∧
        value.HasMember (ascii "end_station_id") (.string endStationId) := by
  simp only [← Json.stringAt_eq_some_iff,parseRequest,Option.bind_eq_bind,Option.bind_eq_some_iff,
    Option.pure_def,Option.some.injEq,Prod.mk.injEq]
  constructor
  · rintro ⟨value,hvalue,A,hstart,B,hend,rfl,rfl⟩
    exact ⟨value,hvalue,hstart,hend⟩
  · rintro ⟨value,hvalue,hstart,hend⟩
    exact ⟨value,hvalue,_,hstart,_,hend,rfl,rfl⟩

omit [DecidableEq Session] in
theorem Request.asks_iff {startStationId endStationId : Id} :
    request.Asks libs startStationId endStationId ↔
      request.frame.getHeaderValue .kDestination = quietRouteDestination ∧
        parseRequest libs request.frame.body = some (startStationId,endStationId) :=
  and_congr_right fun _ => parseRequest_eq_some_iff.symm

theorem handle_callback {unspecified : Unspecified}
    (h : monitor.handle libs unspecified request.callback = some monitor') :
    ((∀ startStationId endStationId, ¬request.Asks libs startStationId endStationId) ∧
        monitor'.server = monitor.server.close unspecified request.connectionId) ∨
      ∃ startStationId endStationId route body,
        (∀ A B, request.Asks libs A B ↔ A = startStationId ∧ B = endStationId) ∧
        monitor.network.getQuietTravelRoute libs.std startStationId endStationId
          monitor.config.quietRouteMaxSlowdownPc monitor.config.quietRouteMinQuietnessPc
          monitor.config.quietRouteMaxNPaths = some route ∧
        libs.json.dump route.toJson = some body ∧
        monitor'.server = (monitor.server.send libs.ids unspecified request.connectionId
          quietRouteDestination body (request.frame.getHeaderValue .kId)).2 := by
  rw [Request.callback,handle,onQuietRouteClientMessage] at h
  simp only [Request.asks_iff]
  split_ifs at h with hdestination
  · obtain rfl := Option.some.inj h
    exact Or.inl ⟨fun _ _ hasks => hdestination hasks.1,rfl⟩
  · cases hrequest : parseRequest libs request.frame.body with
    | none =>
      simp only [hrequest] at h
      obtain rfl := Option.some.inj h
      exact Or.inl ⟨by simp,rfl⟩
    | some stations =>
      simp only [hrequest,Option.bind_eq_bind,Option.bind_eq_some_iff] at h
      obtain ⟨route,hroute,body,hbody,h⟩ := h
      obtain rfl := Option.some.inj h
      refine Or.inr ⟨stations.1,stations.2,route,body,fun A B => ?_,hroute,hbody,rfl⟩
      simp [not_not.mp hdestination,Prod.ext_iff,eq_comm]

theorem header_of_read {uninitialised : ℕ} {text : Bytes} {frame : StompFrame}
    (h : ofString uninitialised text = some (.kOk,frame)) {header : StompHeader} {value : Bytes}
    (hvalue : frame.headers.find header = some value) : value ≠ [] ∧ newLine ∉ value := by
  obtain ⟨command,hs,body,hread,rfl⟩ := ofString_ok_iff.mp h
  rw [frameOf,find_addHeaders_empty,firstValue] at hvalue
  obtain ⟨e,he,rfl⟩ := Option.map_eq_some_iff.mp hvalue
  have hvalid := hread.headers_valid e (List.mem_of_find?_eq_some he)
  exact ⟨hvalid.value_ne_nil,hvalid.value_line⟩

theorem isReply_frameOf {moment : Moment Session} {route : TravelRoute} {body text : Bytes}
    {value : Json} (hbound : Bound libs.ids moment.before.server request)
    (hgenerated : moment.after.server.generated = moment.before.server.generated+
      (moment.before.server.replyId libs.ids (request.frame.getHeaderValue .kId)).2)
    (hparse : libs.json.parse body = some value) (hsame : route.toJson.Same value)
    (unspecified : Unspecified) :
    IsReply libs request moment route (frameOf text .kSend (unspecified.arrange (messageHeaders
      (moment.before.server.replyId libs.ids (request.frame.getHeaderValue .kId)).1
        quietRouteDestination body)).entries body) := by
  have hheader : ∀ header, (frameOf text .kSend (unspecified.arrange (messageHeaders
      (moment.before.server.replyId libs.ids (request.frame.getHeaderValue .kId)).1
        quietRouteDestination body)).entries body).getHeaderValue header =
      ((messageHeaders (moment.before.server.replyId libs.ids
        (request.frame.getHeaderValue .kId)).1 quietRouteDestination body).find header).getD [] := by
    intro header
    rw [← unspecified.find_arrange]
    exact congrArg (Option.getD · []) ((holds_frameOf text).2.1 header)
  obtain ⟨u,msg,hread⟩ := hbound.read
  refine ⟨rfl,hheader .kDestination,fun id hid => ?_,fun hnone => ?_,?_⟩
  · have hvalue : request.frame.getHeaderValue .kId = id := by rw [getHeaderValue,hid,Option.getD_some]
    rw [hheader .kId,hvalue]
    show (moment.before.server.replyId libs.ids id).1 = id
    rw [StompServer.replyId,if_neg (header_of_read hread hid).1]
  · have hvalue : request.frame.getHeaderValue .kId = [] := by rw [getHeaderValue,hnone,Option.getD_none]
    rw [hheader .kId,hvalue]
    rw [hvalue] at hgenerated
    refine ⟨StompServer.replyId_ne_nil [],moment.before.server.generated,le_rfl,?_,rfl⟩
    rw [hgenerated]
    exact Nat.lt_succ_self _
  · show libs.json.parse body >>= TravelRoute.fromJson = some route
    rw [hparse]
    exact TravelRoute.fromJson_same hsame

theorem closes_of_close {moment : Moment Session} {unspecified : Unspecified} {rest : List Callback}
    (hserver : StompServer.Consistent libs.ids moment.before.server)
    (hposted : moment.before.server.posted = request.callback::rest)
    (hbound : Bound libs.ids moment.before.server request)
    (hafter : moment.after.server =
      (moment.before.dequeue rest).server.close unspecified request.connectionId) :
    moment.replies = [] ∧ Closes request moment := by
  have hconsistent : StompServer.Consistent libs.ids (moment.before.dequeue rest).server :=
    hserver.dequeue hposted
  rcases StompServer.close_cases hconsistent request.connectionId with
    ⟨hsame,hnobody⟩ | ⟨w,c,hfind,hid,hclosed⟩
  · rw [hsame] at hafter
    have hwritten : moment.after.server.written = moment.before.server.written := by
      rw [hafter]
      rfl
    refine ⟨replies_of_written_eq hwritten,?_,?_,?_⟩
    · rw [hafter]
      by_contra hsome
      obtain ⟨w,hw⟩ := Option.ne_none_iff_exists'.mp hsome
      obtain ⟨c,hfind,hid⟩ := (hconsistent.sessions_iff _ w).mp hw
      exact hnobody w c hfind hid
    · rintro c ⟨hfind,hid⟩
      rw [hafter] at hfind
      exact hnobody _ c hfind hid
    · rintro c ⟨hfind,hid⟩
      exact absurd hid (hnobody _ c hfind)
  · obtain rfl : w = request.session := hbound.session_eq w c hfind hid
    rw [hclosed] at hafter
    have hwritten : moment.written = [(request.session,.close)] :=
      written_of_append (congrArg StompServer.written hafter)
    refine ⟨by rw [Moment.replies,hwritten]; rfl,?_,?_,fun _ _ => hwritten⟩
    · rw [hafter,← hid]
      exact (UnorderedMap.find_erase _ _ _).trans (if_pos rfl)
    · rintro c' ⟨hfind',-⟩
      rw [hafter] at hfind'
      exact absurd rfl (StompServer.find_erase_iff.mp hfind').1

theorem replies_of_open {moment : Moment Session} {unspecified : Unspecified} {rest : List Callback}
    {route : TravelRoute} {body : Bytes} {value : Json}
    (hserver : StompServer.Consistent libs.ids (moment.before.dequeue rest).server)
    (hbound : Bound libs.ids moment.before.server request)
    (hopen : request.IsOpen moment.before.server) (hparse : libs.json.parse body = some value)
    (hsame : route.toJson.Same value) (hfits : body.length < 2^64)
    (hsend : moment.after.server = ((moment.before.dequeue rest).server.send libs.ids unspecified
      request.connectionId quietRouteDestination body (request.frame.getHeaderValue .kId)).2) :
    ∃ text, moment.replies = [(request.session,text)] ∧
      ∀ uninitialised, ∃ reply, ofString uninitialised text = some (.kOk,reply) ∧
        IsReply libs request moment route reply := by
  obtain ⟨c,⟨hfind,hid⟩,hconnected⟩ := hopen
  obtain ⟨u,msg,hread⟩ := hbound.read
  have hline : newLine ∉ request.frame.getHeaderValue .kId := by
    rw [getHeaderValue]
    cases hvalue : request.frame.headers.find .kId with
    | none => exact List.not_mem_nil
    | some value => exact (header_of_read hread hvalue).2
  rw [StompServer.send_of_connected ((hserver.sessions_iff _ _).mpr ⟨c,hfind,hid⟩) hfind
    hconnected hline (by decide +kernel) (by decide +kernel) hfits] at hsend
  have hwritten : moment.written = [(request.session,
      .send (plainText .kSend (unspecified.arrange (messageHeaders (moment.before.server.replyId
        libs.ids (request.frame.getHeaderValue .kId)).1 quietRouteDestination body)) body))] :=
    written_of_append (congrArg StompServer.written hsend)
  have hreplies := congrArg (List.filterMap sendFrame?) hwritten
  rw [List.filterMap_cons,sendFrame?,commandOf_plainText,if_pos rfl,List.filterMap_nil] at hreplies
  have hlegal := messageHeaders_legal (@StompServer.replyId_ne_nil Session libs.ids
    moment.before.server (request.frame.getHeaderValue .kId))
    (StompServer.newLine_not_mem_replyId hline) (by decide +kernel : quietRouteDestination ≠ [])
    (by decide +kernel) hfits
  have hreads := fun u => @LegalComponents.ofString_eq u _ _ _ (hlegal.arrange unspecified) 0
  simp only [List.replicate_zero,List.append_nil] at hreads
  have hgenerated : moment.after.server.generated = moment.before.server.generated+
      (moment.before.server.replyId libs.ids (request.frame.getHeaderValue .kId)).2 := by
    rw [hsend]
    rfl
  exact ⟨_,hreplies,fun u => ⟨_,hreads u,isReply_frameOf hbound hgenerated hparse hsame unspecified⟩⟩

theorem ownSession_of_send {moment : Moment Session} {unspecified : Unspecified} {rest : List Callback}
    {destination body requestId : Bytes}
    (hserver : StompServer.Consistent libs.ids (moment.before.dequeue rest).server)
    (hbound : Bound libs.ids moment.before.server request)
    (hsend : moment.after.server = ((moment.before.dequeue rest).server.send libs.ids unspecified
      request.connectionId destination body requestId).2) :
    ∀ e ∈ moment.replies, e.1 = request.session := by
  intro e he
  obtain ⟨actions,hwritten,hown⟩ := @StompServer.send_written Session _ libs.ids unspecified
    (moment.before.dequeue rest).server request.connectionId destination body requestId
  rw [← hsend] at hwritten
  have hactions : moment.written = actions := written_of_append hwritten
  rw [Moment.replies,hactions,List.mem_filterMap] at he
  obtain ⟨⟨w,action⟩,hmem,hsome⟩ := he
  obtain ⟨c,hfind,hid⟩ := (hserver.sessions_iff _ _).mp (hown _ hmem)
  have hw : w = request.session := hbound.session_eq w c hfind hid
  cases action with
  | close => cases hsome
  | send text =>
    rw [sendFrame?] at hsome
    split_ifs at hsome
    rw [← Option.some.inj hsome]
    exact hw

theorem answered_of_handle (hjson : libs.json.KeepsRoutes) {unspecified : Unspecified}
    {rest : List Callback}
    (hserver : StompServer.Consistent libs.ids monitor.server) (hnames : monitor.network.Names ValidUtf8)
    (hposted : monitor.server.posted = request.callback::rest)
    (hbound : Bound libs.ids monitor.server request)
    (hhandle : (monitor.dequeue rest).handle libs unspecified request.callback = some monitor') :
    Answered libs request ⟨monitor,.execute unspecified,monitor'⟩ := by
  rcases handle_callback hhandle with
    ⟨hnone,hclose⟩ | ⟨A,B,route,body,hasks_iff,hroute,hdump,hsend⟩
  · obtain ⟨hreplies,hcloses⟩ := @closes_of_close Session _ libs request
      ⟨monitor,.execute unspecified,monitor'⟩ unspecified rest hserver hposted hbound hclose
    refine ⟨fun A B hasks => absurd hasks (hnone A B),?_,fun A B hasks => absurd hasks (hnone A B),
      fun _ => ⟨hreplies,hcloses⟩⟩
    rw [hreplies]
    exact fun e he => absurd he List.not_mem_nil
  · have hconsistent : StompServer.Consistent libs.ids (monitor.dequeue rest).server :=
      hserver.dequeue hposted
    refine ⟨fun A' B' hasks hopen => ?_,?_,fun _ _ _ hclosed => ?_,fun hnone => ?_⟩
    · obtain ⟨rfl,rfl⟩ := (hasks_iff A' B').mp hasks
      obtain ⟨body',value,hdump',hparse,hsame⟩ :=
        hjson route (hnames.getQuietTravelRoute ⟨[],rfl⟩ hroute)
      obtain rfl : body = body' := Option.some.inj (hdump.symm.trans hdump')
      exact ⟨route,body,hroute,hdump,fun hfits =>
        replies_of_open hconsistent hbound hopen hparse hsame hfits hsend⟩
    · exact ownSession_of_send hconsistent hbound hsend
    · rw [StompServer.send_of_not_connected hconsistent ?_] at hsend
      · exact replies_of_written_eq (by rw [hsend]; rfl)
      · intro w c hfind hid hconnected
        obtain rfl : w = request.session := hbound.session_eq w c hfind hid
        exact hclosed ⟨c,⟨hfind,hid⟩,hconnected⟩
    · exact absurd ((hasks_iff A B).mpr ⟨rfl,rfl⟩) (hnone A B)

omit [DecidableEq Session] in
theorem executed?_execute {unspecified : Unspecified} {callback : Callback} {rest : List Callback}
    (hposted : monitor.server.posted = callback::rest) :
    Moment.executed? ⟨monitor,.execute unspecified,monitor'⟩ =
      if callback.isMessage then some callback else none := by
  simp only [Moment.executed?,hposted]

theorem queue_execute {unspecified : Unspecified} {callback : Callback} {rest : List Callback}
    (hposted : monitor.server.posted = callback::rest) (hrest : monitor'.server.posted = rest) :
    waiting monitor ++ (Option.map Request.callback
        (Moment.request? ⟨monitor,.execute unspecified,monitor'⟩)).toList =
      (Moment.executed? ⟨monitor,.execute unspecified,monitor'⟩).toList ++ waiting monitor' := by
  rw [executed?_execute hposted,waiting,waiting,hposted,hrest,List.filter_cons]
  split_ifs <;> exact List.append_nil _

theorem progress_message (hjson : libs.json.KeepsRoutes) {unspecified : Unspecified}
    {ec : StompServerError} {id destination requestId message : Bytes} {rest : List Callback}
    (hserver : StompServer.Consistent libs.ids monitor.server)
    (hnames : monitor.network.Names ValidUtf8)
    (hposted : monitor.server.posted = .onClientMessage ec id destination requestId message::rest)
    (hhandle : (monitor.dequeue rest).handle libs unspecified
      (.onClientMessage ec id destination requestId message) = some monitor') :
    Progress libs ⟨monitor,.execute unspecified,monitor'⟩ := by
  have hconsistent : StompServer.Consistent libs.ids (monitor.dequeue rest).server :=
    hserver.dequeue hposted
  have hnames' : monitor'.network.Names ValidUtf8 := by
    rw [handle_network hhandle]
    exact hnames
  have hexecuted : Moment.executed? ⟨monitor,.execute unspecified,monitor'⟩ =
      some (.onClientMessage ec id destination requestId message) := executed?_execute hposted
  have hanswered : ∀ request : Request Session,
      Moment.executed? ⟨monitor,.execute unspecified,monitor'⟩ = some request.callback →
        Bound libs.ids monitor.server request →
          Answered libs request ⟨monitor,.execute unspecified,monitor'⟩ := by
    intro r hr hbound
    have hcallback := Option.some.inj (hexecuted.symm.trans hr)
    rw [hcallback] at hposted hhandle
    exact answered_of_handle hjson hserver hnames hposted hbound hhandle
  have hsilent : Moment.executed? ⟨monitor,.execute unspecified,monitor'⟩ = none →
      Moment.replies ⟨monitor,.execute unspecified,monitor'⟩ = [] := by
    intro hnone
    rw [hexecuted] at hnone
    cases hnone
  have hreceived : ∀ request : Request Session,
      Moment.request? ⟨monitor,.execute unspecified,monitor'⟩ = some request →
        Bound libs.ids monitor'.server request := fun request hrequest => by cases hrequest
  rcases onQuietRouteClientMessage_cases hhandle with ⟨hclose,-⟩ | ⟨n,written,hsend,-⟩
  · have hchange : StompServer.Change libs.ids (.close unspecified id)
        (monitor.dequeue rest).server monitor'.server :=
      hclose ▸ StompServer.close_change hconsistent id
    have hdequeued : ∀ r, Bound libs.ids monitor.server r →
        Bound libs.ids (monitor.dequeue rest).server r := fun r hr => hr.of_eq rfl le_rfl
    exact ⟨hchange.consistent hconsistent,hnames',
      queue_execute hposted (by rw [hclose,StompServer.close_posted hconsistent]; rfl),hsilent,
      fun r hr => (hdequeued r hr).change hchange,hreceived,hanswered⟩
  · exact ⟨hsend ▸ hconsistent.generate n written,hnames',
      queue_execute hposted (by rw [hsend]; rfl),hsilent,
      fun r hr => hr.of_eq (by rw [hsend]; rfl) (by rw [hsend]; exact Nat.le_add_right _ n),
      hreceived,hanswered⟩

theorem progress_execute (hjson : libs.json.KeepsRoutes) {unspecified : Unspecified} {callback : Callback}
    {rest : List Callback} (hserver : StompServer.Consistent libs.ids monitor.server)
    (hnames : monitor.network.Names ValidUtf8) (hposted : monitor.server.posted = callback::rest)
    (hhandle : (monitor.dequeue rest).handle libs unspecified callback = some monitor') :
    Progress libs ⟨monitor,.execute unspecified,monitor'⟩ := by
  cases hmessage : callback.isMessage with
  | true =>
    cases callback with
    | onClientMessage => exact progress_message hjson hserver hnames hposted hhandle
    | onClientConnect | onClientDisconnect | onDisconnect => cases hmessage
  | false =>
    have hsame := handle_other hmessage hhandle
    have hconsistent : StompServer.Consistent libs.ids (monitor.dequeue rest).server :=
      hserver.dequeue hposted
    have hnames' : monitor'.network.Names ValidUtf8 := by
      rw [handle_network hhandle]
      exact hnames
    have hexecuted : Moment.executed? ⟨monitor,.execute unspecified,monitor'⟩ = none := by
      rw [executed?_execute hposted,hmessage,if_neg Bool.false_ne_true]
    refine progress_of_eq (hsame ▸ hconsistent) hnames' rfl hexecuted ?_ ?_ ?_ ?_
    · rw [waiting,waiting,hsame,hposted,List.filter_cons_of_neg (by simp [hmessage])]
      rfl
    · rw [hsame]
      rfl
    · rw [hsame]
      rfl
    · rw [hsame]
      rfl

theorem progress_step (hjson : libs.json.KeepsRoutes)
    (hserver : StompServer.Consistent libs.ids monitor.server) (hnames : monitor.network.Names ValidUtf8)
    (hannounces : monitor.Announces event) (hstep : monitor.step libs event = some monitor') :
    Progress libs ⟨monitor,event,monitor'⟩ := by
  cases event with
  | sessionConnect ec w =>
    obtain rfl := Option.some.inj hstep
    refine progress_of_change hserver hnames (StompServer.onWsSessionConnect_change hannounces ec) rfl
      ?_ rfl rfl
    rintro w' c frame - - ⟨u,msg,hevent,-⟩
    cases hevent
  | sessionMessage unspecified ec w msg =>
    obtain ⟨server,hserver',rfl⟩ := Option.map_eq_some_iff.mp hstep
    exact progress_sessionMessage hserver hnames hserver'
  | sessionDisconnect ec w =>
    obtain rfl := Option.some.inj hstep
    refine progress_of_change hserver hnames (StompServer.onWsSessionDisconnect_change ec w) rfl
      ?_ rfl rfl
    rintro w' c frame - - ⟨u,msg,hevent,-⟩
    cases hevent
  | serverDisconnect ec =>
    obtain rfl := Option.some.inj hstep
    have hchange : StompServer.Change libs.ids (.serverDisconnect ec) monitor.server
        (monitor.server.onWsDisconnect ec) := StompServer.Change.ended _
    refine progress_of_eq (hchange.consistent hserver) hnames rfl rfl ?_ rfl rfl rfl
    simp [waiting,StompServer.onWsDisconnect,StompServer.post,Callback.isMessage]
  | networkEvents msg =>
    obtain rfl := Option.some.inj hstep
    have hsame : (monitor.onNetworkEventsMessage libs msg).server = monitor.server := by
      rw [onNetworkEventsMessage]
      split <;> rfl
    have hnames' : (monitor.onNetworkEventsMessage libs msg).network.Names ValidUtf8 := by
      rw [onNetworkEventsMessage]
      split
      · exact hnames
      · exact hnames.recordPassengerEvent _
    refine progress_of_eq (hsame ▸ hserver) hnames' rfl rfl ?_ ?_ ?_ ?_
    · rw [waiting,waiting,hsame]
    · rw [hsame]
    · rw [hsame]
    · rw [hsame]
  | execute unspecified =>
    rw [step] at hstep
    cases hposted : monitor.server.posted with
    | nil => simp [hposted] at hstep
    | cons callback rest =>
      simp only [hposted] at hstep
      exact progress_execute hjson hserver hnames hposted hstep

/-! Whole runs. -/

theorem zip_concat_left {α β : Type} {as : List α} {bs : List β} (a : α)
    (h : bs.length ≤ as.length) : (as ++ [a]).zip bs = as.zip bs := by
  induction as generalizing bs with
  | nil =>
    obtain rfl := List.length_eq_zero_iff.mp (Nat.le_zero.mp h)
    rfl
  | cons a' as ih =>
    cases bs with
    | nil => rfl
    | cons b bs =>
      rw [List.cons_append,List.zip_cons_cons,List.zip_cons_cons,ih (Nat.le_of_succ_le_succ h)]

theorem zip_concat_right {α β : Type} {as : List α} {bs : List β} {a : α} (b : β)
    (h : as[bs.length]? = some a) : as.zip (bs ++ [b]) = as.zip bs ++ [(a,b)] := by
  induction as generalizing bs with
  | nil => simp at h
  | cons a' as ih =>
    cases bs with
    | nil =>
      obtain rfl : a' = a := by simpa using h
      simp
    | cons b' bs =>
      rw [List.cons_append,List.zip_cons_cons,List.zip_cons_cons,List.cons_append,ih (by simpa using h)]

structure Serving (libs : Libraries) (moments : List (Moment Session))
    (monitor : NetworkMonitor Session) : Prop where
  consistent : StompServer.Consistent libs.ids monitor.server
  names : monitor.network.Names ValidUtf8
  fifo : (requests moments).map Request.callback =
    (executions moments).filterMap Moment.executed? ++ waiting monitor
  bound : ∀ request ∈ requests moments, Bound libs.ids monitor.server request
  answered : ∀ p ∈ served moments, Answered libs p.1 p.2
  nothingElse : moments.flatMap Moment.replies = (served moments).flatMap fun p => p.2.replies

variable {moments : List (Moment Session)} {start : NetworkMonitor Session}

omit [DecidableEq Session] in
theorem length_executed : ((executions moments).filterMap Moment.executed?).length =
    (executions moments).length := by
  rw [List.filterMap_length_eq_length]
  exact fun moment hmoment => (List.mem_filter.mp hmoment).2

theorem requests_concat (moments : List (Moment Session)) (moment : Moment Session) :
    requests (moments ++ [moment]) = requests moments ++ moment.request?.toList := by
  rw [requests,List.filterMap_append,List.filterMap_cons,List.filterMap_nil]
  cases moment.request? <;> rfl

omit [DecidableEq Session] in
theorem executions_concat (moments : List (Moment Session)) (moment : Moment Session) :
    executions (moments ++ [moment]) =
      executions moments ++ if moment.executed?.isSome then [moment] else [] := by
  rw [executions,List.filter_append,List.filter_singleton]
  cases moment.executed?.isSome <;> rfl

/-- The next callback of a request to be executed is that of the first request not yet served. -/
theorem Serving.next (h : Serving libs moments monitor) {callback : Callback} {rest : List Callback}
    (hwaiting : waiting monitor = callback::rest) : ∃ request,
      (requests moments)[(executions moments).length]? = some request ∧
        request.callback = callback := by
  have hget : ((requests moments).map Request.callback)[(executions moments).length]? =
      some callback := by
    rw [h.fifo,hwaiting,← length_executed,List.getElem?_append_right le_rfl,Nat.sub_self]
    rfl
  rwa [List.getElem?_map,Option.map_eq_some_iff] at hget

theorem Serving.length_le (h : Serving libs moments monitor) :
    (executions moments).length ≤ (requests moments).length := by
  have hlength := congrArg List.length h.fifo
  rw [List.length_map,List.length_append,length_executed] at hlength
  exact hlength ▸ Nat.le_add_right _ _

theorem Serving.receive (h : Serving libs moments monitor)
    (hprogress : Progress libs ⟨monitor,event,monitor'⟩)
    (hnone : Moment.executed? ⟨monitor,event,monitor'⟩ = none) :
    Serving libs (moments ++ [⟨monitor,event,monitor'⟩]) monitor' := by
  have hexecutions : executions (moments ++ [⟨monitor,event,monitor'⟩]) = executions moments := by
    rw [executions_concat,hnone,Option.isSome_none,if_neg Bool.false_ne_true,List.append_nil]
  have hserved : served (moments ++ [⟨monitor,event,monitor'⟩]) = served moments := by
    rw [served,served,hexecutions,requests_concat]
    cases Moment.request? ⟨monitor,event,monitor'⟩ with
    | none => rw [Option.toList_none,List.append_nil]
    | some request => exact zip_concat_left request h.length_le
  have hqueue := hprogress.queue
  rw [hnone,Option.toList_none,List.nil_append] at hqueue
  refine ⟨hprogress.consistent,hprogress.names,?_,?_,?_,?_⟩
  · rw [hexecutions,requests_concat,List.map_append,h.fifo,List.append_assoc,← hqueue]
    cases Moment.request? ⟨monitor,event,monitor'⟩ <;> rfl
  · intro request hrequest
    rw [requests_concat,List.mem_append,Option.mem_toList] at hrequest
    rcases hrequest with hold | hnew
    · exact hprogress.bound request (h.bound request hold)
    · exact hprogress.received request hnew
  · rw [hserved]
    exact h.answered
  · rw [List.flatMap_append,List.flatMap_singleton,hprogress.silent hnone,List.append_nil,hserved]
    exact h.nothingElse

theorem Serving.serve (h : Serving libs moments monitor)
    (hprogress : Progress libs ⟨monitor,event,monitor'⟩) {callback : Callback}
    (hsome : Moment.executed? ⟨monitor,event,monitor'⟩ = some callback) :
    Serving libs (moments ++ [⟨monitor,event,monitor'⟩]) monitor' := by
  have hrequest : Moment.request? ⟨monitor,event,monitor'⟩ = none := by
    cases event with
    | execute unspecified => rfl
    | _ => cases hsome
  have hexecutions : executions (moments ++ [⟨monitor,event,monitor'⟩]) =
      executions moments ++ [⟨monitor,event,monitor'⟩] := by
    rw [executions_concat,hsome,Option.isSome_some,if_pos rfl]
  have hrequests : requests (moments ++ [⟨monitor,event,monitor'⟩]) = requests moments := by
    rw [requests_concat,hrequest,Option.toList_none,List.append_nil]
  have hqueue := hprogress.queue
  rw [hrequest,hsome,Option.map_none,Option.toList_none,List.append_nil,Option.toList_some] at hqueue
  obtain ⟨request,hget,rfl⟩ := h.next hqueue
  have hbound := h.bound request (List.mem_of_getElem? hget)
  have hserved : served (moments ++ [⟨monitor,event,monitor'⟩]) =
      served moments ++ [(request,⟨monitor,event,monitor'⟩)] := by
    rw [served,hexecutions,hrequests]
    exact zip_concat_right _ hget
  refine ⟨hprogress.consistent,hprogress.names,?_,?_,?_,?_⟩
  · rw [hrequests,hexecutions,List.filterMap_append,h.fifo,hqueue,List.append_assoc,
      List.filterMap_cons_some hsome,List.filterMap_nil]
  · rw [hrequests]
    exact fun r hr => hprogress.bound r (h.bound r hr)
  · intro p hp
    rw [hserved,List.mem_append] at hp
    rcases hp with hold | hnew
    · exact h.answered p hold
    · rw [List.mem_singleton.mp hnew]
      exact hprogress.answered request hsome hbound
  · rw [List.flatMap_append,hserved,List.flatMap_append,h.nothingElse,List.flatMap_singleton,
      List.flatMap_singleton]

theorem serving_of_run (hjson : libs.json.KeepsRoutes) {kHost : Bytes} {network : TransportNetwork}
    {config : NetworkMonitorConfig} (hnames : network.Names ValidUtf8)
    (hrun : Runs libs (started kHost network config) moments monitor) :
    Serving libs moments monitor := by
  induction hrun with
  | refl =>
    exact ⟨StompServer.started_consistent libs.ids kHost,hnames,rfl,
      fun r hr => absurd hr List.not_mem_nil,fun p hp => absurd hp List.not_mem_nil,rfl⟩
  | step hrun hannounces hstep ih =>
    have hprogress := progress_step hjson ih.consistent ih.names hannounces hstep
    cases hexecuted : Moment.executed? _ with
    | none => exact ih.receive hprogress hexecuted
    | some callback => exact ih.serve hprogress hexecuted

theorem handle_returns (hjson : libs.json.KeepsRoutes) (hnames : monitor.network.Names ValidUtf8)
    (unspecified : Unspecified) (hroute : ∀ startStationId endStationId,
      request.Asks libs startStationId endStationId →
        (monitor.network.getQuietTravelRoute libs.std startStationId endStationId
          monitor.config.quietRouteMaxSlowdownPc monitor.config.quietRouteMinQuietnessPc
          monitor.config.quietRouteMaxNPaths).isSome) :
    (monitor.handle libs unspecified request.callback).isSome := by
  rw [Request.callback,handle,onQuietRouteClientMessage]
  split_ifs with hdestination
  · rfl
  · cases hrequest : parseRequest libs request.frame.body with
    | none => rfl
    | some stations =>
      obtain ⟨route,hsome⟩ := Option.isSome_iff_exists.mp <|
        hroute stations.1 stations.2 (Request.asks_iff.mpr ⟨not_not.mp hdestination,hrequest⟩)
      obtain ⟨body,value,hdump,-⟩ := hjson route (hnames.getQuietTravelRoute ⟨[],rfl⟩ hsome)
      simp only [hsome,hdump,Option.bind_eq_bind,Option.bind_some]
      rfl

theorem filter_flatMap_own {α β : Type} {f : α → List β} {p : α → Bool} {q : β → Bool} {as : List α}
    (h : ∀ a ∈ as, ∀ b ∈ f a, q b = p a) : (as.flatMap f).filter q = (as.filter p).flatMap f := by
  induction as with
  | nil => rfl
  | cons a as ih =>
    have hrest := ih fun a' ha' => h a' (List.mem_cons_of_mem _ ha')
    have hfirst := h a List.mem_cons_self
    rw [List.flatMap_cons,List.filter_append,hrest]
    cases hp : p a with
    | true =>
      rw [List.filter_cons_of_pos hp,List.flatMap_cons,
        List.filter_eq_self.mpr fun b hb => (hfirst b hb).trans hp]
    | false =>
      have hnone : (f a).filter q = [] :=
        List.filter_eq_nil_iff.mpr fun b hb => by simp [hfirst b hb,hp]
      rw [List.filter_cons_of_neg (by simp [hp]),hnone,List.nil_append]

/-- In every run from a monitor whose network has valid ids, each request is answered once, on its own
session, by the route that is the quiet one at that moment, in the order in which they came. -/
theorem correlated_of_run (libs : Libraries) (hjson : libs.json.KeepsRoutes) (kHost : Bytes)
    (network : TransportNetwork) (config : NetworkMonitorConfig) (hnames : network.Names ValidUtf8)
    (hrun : Runs libs (started kHost network config) moments monitor) :
    Correlated libs moments monitor := by
  have hserving := serving_of_run hjson hnames hrun
  refine ⟨hserving.fifo,hserving.answered,hserving.nothingElse,fun wsSession => ?_,?_⟩
  · rw [hserving.nothingElse]
    apply filter_flatMap_own
    intro p hp e he
    rw [(hserving.answered p hp).ownSession e he]
  · intro unspecified callback rest hposted hroute
    rw [NetworkMonitor.step]
    simp only [hposted]
    cases hmessage : callback.isMessage with
    | false => cases callback <;> first | rfl | cases hmessage
    | true =>
      have hwaiting : waiting monitor = callback::rest.filter Callback.isMessage := by
        rw [waiting,hposted,List.filter_cons_of_pos hmessage]
      obtain ⟨request,-,rfl⟩ := hserving.next hwaiting
      have hnetwork : (monitor.dequeue rest).network.Names ValidUtf8 := hserving.names
      exact handle_returns hjson hnetwork unspecified fun A B => hroute request rfl A B

/-! A run in which one client asks for a route. -/

theorem runs_of_foldlM {events : List (Event Session)} (hrun : Runs libs start moments monitor)
    (hevents : ∀ event ∈ events, ∀ monitor : NetworkMonitor Session, monitor.Announces event)
    (hsome : events.foldlM (NetworkMonitor.step libs) monitor = some monitor') :
    ∃ moments', Runs libs start (moments ++ moments') monitor' ∧
      moments'.map Moment.event = events := by
  induction events generalizing moments monitor with
  | nil =>
    obtain rfl := Option.some.inj hsome
    exact ⟨[],by rwa [List.append_nil],rfl⟩
  | cons event events ih =>
    rw [List.foldlM_cons,Option.bind_eq_bind,Option.bind_eq_some_iff] at hsome
    obtain ⟨next,hnext,hsome⟩ := hsome
    have hfirst := hrun.step (hevents event List.mem_cons_self monitor) hnext
    obtain ⟨moments',hruns,hmap⟩ := ih hfirst (fun e he => hevents e (List.mem_cons_of_mem _ he)) hsome
    exact ⟨⟨monitor,event,next⟩::moments',by rwa [List.append_assoc] at hruns,by
      rw [List.map_cons,hmap]⟩

end

def smallNetwork : TransportNetwork :=
  TransportNetwork.networkOf [.addStation ⟨ascii "A",[]⟩,.addStation ⟨ascii "B",[]⟩,
    .addLine ⟨ascii "L",[],[⟨ascii "R",[],ascii "L",ascii "A",ascii "B",[ascii "A",ascii "B"]⟩]⟩]

theorem smallNetwork_names : smallNetwork.Names ValidUtf8 := by
  have hvalid : ∀ id ∈ [ascii "A",ascii "B",ascii "L",ascii "R"], ValidUtf8 id := by
    intro id hid
    simp only [List.mem_cons,List.not_mem_nil,or_false] at hid
    rcases hid with rfl | rfl | rfl | rfl
    · exact ⟨['A'],by decide +kernel⟩
    · exact ⟨['B'],by decide +kernel⟩
    · exact ⟨['L'],by decide +kernel⟩
    · exact ⟨['R'],by decide +kernel⟩
  have hkeys : smallNetwork.stations.entries.map Prod.fst = [ascii "A",ascii "B"] := by decide +kernel
  have hknown : ∀ id, (smallNetwork.getStation id).isSome → id ∈ [ascii "A",ascii "B"] := by
    intro id hid
    rw [← hkeys]
    by_contra hnot
    rw [TransportNetwork.getStation,(UnorderedMap.find_eq_none_iff _).mpr hnot] at hid
    cases hid
  have hedges : ∀ id ∈ [ascii "A",ascii "B"], ∀ edge ∈ smallNetwork.edgesFrom id,
      edge.nextStop ∈ [ascii "A",ascii "B"] ∧ edge.route.line = ascii "L" ∧
        edge.route.id = ascii "R" := by decide +kernel
  have hstation : ∀ id ∈ [ascii "A",ascii "B"], ValidUtf8 id :=
    fun id hid => hvalid id (List.mem_append_left [ascii "L",ascii "R"] hid)
  refine ⟨fun id hid => hstation id (hknown id hid),fun id edge hedge => ?_⟩
  have hsome : (smallNetwork.getStation id).isSome := by
    cases hstation : smallNetwork.getStation id with
    | none =>
      rw [TransportNetwork.edgesFrom,hstation] at hedge
      exact absurd hedge List.not_mem_nil
    | some node => rfl
  obtain ⟨hnext,hline,hroute⟩ := hedges id (hknown id hsome) edge hedge
  exact ⟨hstation _ hnext,hline ▸ hvalid _ (by simp),hroute ▸ hvalid _ (by simp)⟩

def requestText : Bytes :=
  ascii "\x7b\"start_station_id\"" ++ ascii ":\"A\"," ++ ascii "\"end_station_id\":\"B\"\x7d"

def smallRoute : TravelRoute :=
  ⟨ascii "A",ascii "B",0,[⟨ascii "A",ascii "B",ascii "L",ascii "R",0⟩]⟩

def smallRouteText : Bytes :=
  ascii "\x7b\"end_station_id\"" ++ ascii ":\"B\"," ++ ascii "\"start_station_id\":\"A\"," ++
    ascii "\"steps\":[\x7b\"end_station_id\":\"B\"," ++ ascii "\"line_id\":\"L\",\"route_id\":\"R\"," ++
    ascii "\"start_station_id\":\"A\"," ++ ascii "\"travel_time\":0\x7d]," ++
    ascii "\"total_travel_time\":0\x7d"

theorem smallTexts_begin : smallRouteText[0]? = some 123 ∧ requestText[0]? = some 123 ∧
    smallRouteText[2]? = some 101 ∧ requestText[2]? = some 115 := by decide +kernel

instance : Countable TravelStep := by
  apply Function.Injective.countable (f := fun step : TravelStep =>
    (step.startStationId,step.endStationId,step.lineId,step.routeId,step.travelTime))
  rintro ⟨⟩ ⟨⟩ h
  simpa using h

instance : Countable TravelRoute := by
  apply Function.Injective.countable (f := fun route : TravelRoute =>
    (route.startStationId,route.endStationId,route.totalTravelTime,route.steps))
  rintro ⟨⟩ ⟨⟩ h
  simpa using h

/-- A text for every route, the one that is written for `smallRoute` among them. -/
noncomputable def textOf (route : TravelRoute) : Bytes :=
  if route = smallRoute then smallRouteText
  else List.replicate ((exists_injective_nat TravelRoute).choose route) 0

theorem textOf_injective : Function.Injective textOf := by
  have hother : ∀ n, smallRouteText ≠ List.replicate n 0 := by
    intro n heq
    have hmem := List.mem_of_getElem? smallTexts_begin.1
    rw [heq] at hmem
    exact absurd (List.eq_of_mem_replicate hmem) (by decide)
  intro route route' h
  rw [textOf,textOf] at h
  split_ifs at h with hroute hroute' hroute'
  · rw [hroute,hroute']
  · exact absurd h (hother _)
  · exact absurd h.symm (hother _)
  · refine (exists_injective_nat TravelRoute).choose_spec ?_
    simpa using congrArg List.length h

/-- A JSON library that reads the request and keeps all routes. -/
noncomputable def smallJson : JsonLibrary where
  parse text :=
    if text = requestText then some (.object [(ascii "start_station_id",.string (ascii "A")),
      (ascii "end_station_id",.string (ascii "B"))])
    else
      have := Classical.propDecidable (∃ route, textOf route = text)
      if h : ∃ route, textOf route = text then some h.choose.toJson else none
  dump value := (TravelRoute.fromJson value).map textOf

theorem smallJson_keepsRoutes : smallJson.KeepsRoutes := by
  intro route _
  have hrequest : textOf route ≠ requestText := by
    rw [textOf]
    split_ifs
    · intro heq
      have hthird := smallTexts_begin.2.2.1
      rw [heq,smallTexts_begin.2.2.2] at hthird
      exact absurd hthird (by decide)
    · intro heq
      have hmem := List.mem_of_getElem? smallTexts_begin.2.1
      rw [← heq] at hmem
      exact absurd (List.eq_of_mem_replicate hmem) (by decide)
  have hexists : ∃ route', textOf route' = textOf route := ⟨route,rfl⟩
  refine ⟨textOf route,route.toJson,?_,?_,Json.Same.refl _⟩
  · show (TravelRoute.fromJson route.toJson).map textOf = _
    rw [TravelRoute.fromJson_same (Json.Same.refl _),Option.map_some]
  · show (if textOf route = requestText then _ else _) = _
    rw [if_neg hrequest]
    simp only [dif_pos hexists]
    rw [textOf_injective hexists.choose_spec]

noncomputable def smallLibraries : Libraries := ⟨.simple,smallJson,fun _ => false,.simple⟩

def asking : List (Event ℕ) :=
  [.sessionMessage 0 false 0 (ascii "STOMP\naccept-version:1.2\nhost:localhost\n\n\x00"),.execute 0,
    .sessionMessage 0 false 0 (ascii "SEND\nid:7\ndestination:/quiet-route\n\n" ++ requestText ++ [0]),
    .execute 0]

/-- What it is answered, under the id of its request. -/
def replyText : Bytes :=
  ascii "SEND\nid:7\ndestination:/quiet-route\ncontent-type:application/json\n" ++
    ascii "content-length:" ++ decimal smallRouteText.length ++ ascii "\n\n" ++ smallRouteText ++ [0]

theorem correlated_asking : ∃ moments monitor,
    moments.map Moment.event = .sessionConnect false 0::asking ∧
      Correlated smallLibraries moments monitor ∧
        monitor.server.written.filterMap sendFrame? = [(0,replyText)] := by
  have hreplies : ((started (ascii "localhost") smallNetwork ⟨1/10,1/10,3⟩ : NetworkMonitor ℕ).step
      smallLibraries (.sessionConnect false 0) >>= fun monitor =>
        asking.foldlM (NetworkMonitor.step smallLibraries) monitor).map
          (fun monitor => monitor.server.written.filterMap sendFrame?) = some [(0,replyText)] := by
    decide +kernel
  obtain ⟨monitor,hmonitor,hwritten⟩ := Option.map_eq_some_iff.mp hreplies
  rw [Option.bind_eq_bind,Option.bind_eq_some_iff] at hmonitor
  obtain ⟨first,hfirst,hmonitor⟩ := hmonitor
  have hannounces : (started (ascii "localhost") smallNetwork ⟨1/10,1/10,3⟩).Announces
      (.sessionConnect false 0) := rfl
  have hconnect := Runs.refl.step hannounces hfirst
  obtain ⟨moments,hruns,hmap⟩ := runs_of_foldlM hconnect (by
    intro event hevent monitor
    simp only [asking,List.mem_cons,List.not_mem_nil,or_false] at hevent
    rcases hevent with rfl | rfl | rfl | rfl <;> trivial) hmonitor
  refine ⟨_,monitor,?_,correlated_of_run smallLibraries smallJson_keepsRoutes (ascii "localhost")
    smallNetwork ⟨1/10,1/10,3⟩ smallNetwork_names hruns,hwritten⟩
  rw [List.nil_append,List.map_append,hmap]
  rfl

end QuietRoute
