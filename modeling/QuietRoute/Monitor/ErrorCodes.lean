import QuietRoute.Monitor.ConnectedClients
import QuietRoute.Stomp.StompClient

/-! The monitor with its STOMP client, and the error code that its handlers leave behind. A refused
subscription is the one failure whose code is overwritten. -/
namespace QuietRoute

inductive NetworkHandler
  | onNetworkEventsConnect | onNetworkEventsDisconnect | onSubscribe | onNetworkEventsMessage
  deriving DecidableEq

structure WholeMonitor (Session : Type) extends NetworkMonitor Session where
  client : StompClient NetworkHandler

/-- What happens to it. The events of the server are those of its part without a client. -/
inductive WholeEvent (Session : Type)
  | server (event : Event Session)
  | completed (unspecified : Unspecified) (idx : ℕ) (ec : Bool)
  | message (unspecified : Unspecified) (msg : Bytes)
  | disconnected (ec : Bool)
  | execute (unspecified : Unspecified)

/-- A call of one of the handlers that can detect a failure. -/
inductive Invocation
  | onNetworkEventsConnect (unspecified : Unspecified) (ec : StompClientError)
  | onSubscribe (ec : StompClientError) (subscriptionId : Bytes)
  | onNetworkEventsMessage (ec : StompClientError) (msg : Bytes)
  | onQuietRouteClientMessage (unspecified : Unspecified) (ec : StompServerError)
      (connectionId destination requestId message : Bytes)

namespace WholeMonitor

variable {Session : Type}

def subscriptionDestination : Bytes := ascii "/passengers"

/-- Record a failure of the client, which is closed, and stop the server. -/
def giveUp (monitor : WholeMonitor Session) (error : NetworkMonitorError) : WholeMonitor Session :=
  {monitor with
    lastErrorCode := error
    client := monitor.client.close none
    server := monitor.server.stop}

def onNetworkEventsConnect (ids : IdGenerator) (unspecified : Unspecified)
    (monitor : WholeMonitor Session) (ec : StompClientError) : WholeMonitor Session :=
  if ec ≠ .kOk then monitor.giveUp .kCouldNotConnectToStompClient
  else
    let (id,client) := monitor.client.subscribe ids unspecified subscriptionDestination
      (some .onSubscribe) (some .onNetworkEventsMessage)
    let monitor := {monitor with client := client}
    -- this branch does not return
    let monitor := if id = [] then monitor.giveUp .kCouldNotSubscribeToPassengerEvents else monitor
    {monitor with lastErrorCode := .kOk}

def onNetworkEventsDisconnect (monitor : WholeMonitor Session) (_ec : StompClientError) :
    WholeMonitor Session := {monitor with lastErrorCode := .kStompClientDisconnected}

def onSubscribe (monitor : WholeMonitor Session) (ec : StompClientError) (_subscriptionId : Bytes) :
    WholeMonitor Session :=
  let monitor := if ec ≠ .kOk then
      {monitor with lastErrorCode := .kCouldNotSubscribeToPassengerEvents}
    else monitor
  -- neither does this one
  {monitor with lastErrorCode := .kOk}

variable [DecidableEq Session] (libs : Libraries)

/-- `none` when the handler leaves by an exception. -/
def invoke (monitor : WholeMonitor Session) : Invocation → Option (WholeMonitor Session)
  | .onNetworkEventsConnect unspecified ec =>
    some (monitor.onNetworkEventsConnect libs.ids unspecified ec)
  | .onSubscribe ec subscriptionId => some (monitor.onSubscribe ec subscriptionId)
  | .onNetworkEventsMessage _ msg =>
    some {monitor with toNetworkMonitor := monitor.toNetworkMonitor.onNetworkEventsMessage libs msg}
  | .onQuietRouteClientMessage unspecified _ connectionId destination requestId message =>
    (monitor.toNetworkMonitor.onQuietRouteClientMessage libs unspecified connectionId destination
      requestId message).map fun handled => {monitor with toNetworkMonitor := handled}

/-- Each call gets to the handler that was set for it. -/
def handle (unspecified : Unspecified) (monitor : WholeMonitor Session) :
    ClientCall NetworkHandler → Option (WholeMonitor Session)
  | .onConnect _ ec => monitor.invoke libs (.onNetworkEventsConnect unspecified ec)
  | .onSubscribe _ ec subscriptionId => monitor.invoke libs (.onSubscribe ec subscriptionId)
  | .onSubscriptionMessage _ ec msg => monitor.invoke libs (.onNetworkEventsMessage ec msg)
  | .onDisconnect _ ec => some (monitor.onNetworkEventsDisconnect ec)
  | _ => none

def performClient (monitor : WholeMonitor Session) (event : ClientEvent NetworkHandler) :
    Option (WholeMonitor Session) :=
  (monitor.client.perform libs.ids event).map fun client => {monitor with client := client}

/-- `none` when the event is impossible or leaves by an exception. Messages about the network come
from the client only. -/
def step (monitor : WholeMonitor Session) : WholeEvent Session → Option (WholeMonitor Session)
  | .server (.networkEvents _) => none
  | .server event =>
    (monitor.toNetworkMonitor.step libs event).map
      fun handled => {monitor with toNetworkMonitor := handled}
  | .completed unspecified idx ec => monitor.performClient libs (.completed unspecified idx ec)
  | .message unspecified msg => monitor.performClient libs (.message unspecified msg)
  | .disconnected ec => monitor.performClient libs (.disconnected ec)
  | .execute unspecified =>
    match monitor.client.posted with
    | [] => none
    | call::rest =>
      {monitor with client := {monitor.client with posted := rest}}.handle libs unspecified call

def configured (kHost url username password : Bytes) (network : TransportNetwork)
    (config : NetworkMonitorConfig) : WholeMonitor Session :=
  ⟨.started kHost network config,(StompClient.created url).connect username password
    (some .onNetworkEventsConnect) none (some .onNetworkEventsDisconnect)⟩

def Announces (monitor : WholeMonitor Session) : WholeEvent Session → Prop
  | .server event => monitor.toNetworkMonitor.Announces event
  | _ => True

inductive Reaches : WholeMonitor Session → Prop
  | configured (kHost url username password : Bytes) (network : TransportNetwork)
      (config : NetworkMonitorConfig) :
      Reaches (configured kHost url username password network config)
  | step {monitor monitor' : WholeMonitor Session} {event : WholeEvent Session}
      (h : Reaches monitor) (hannounces : monitor.Announces event)
      (hstep : monitor.step libs event = some monitor') : Reaches monitor'

inductive Detects (monitor : WholeMonitor Session) : Invocation → NetworkMonitorError → Prop
  | notConnected {unspecified : Unspecified} {ec : StompClientError} (hec : ec ≠ .kOk) :
      Detects monitor (.onNetworkEventsConnect unspecified ec) .kCouldNotConnectToStompClient
  | notStarted {unspecified : Unspecified}
      (hid : (monitor.client.subscribe libs.ids unspecified subscriptionDestination
        (some .onSubscribe) (some .onNetworkEventsMessage)).1 = []) :
      Detects monitor (.onNetworkEventsConnect unspecified .kOk)
        .kCouldNotSubscribeToPassengerEvents
  | refused {ec : StompClientError} {subscriptionId : Bytes} (hec : ec ≠ .kOk) :
      Detects monitor (.onSubscribe ec subscriptionId) .kCouldNotSubscribeToPassengerEvents
  | notParsed {ec : StompClientError} {msg : Bytes}
      (hparse : libs.json.parse msg >>= PassengerEvent.fromJson libs.parseDatetime = none) :
      Detects monitor (.onNetworkEventsMessage ec msg) .kCouldNotParsePassengerEvent
  | notRecorded {ec : StompClientError} {msg : Bytes} {event : PassengerEvent}
      (hparse : libs.json.parse msg >>= PassengerEvent.fromJson libs.parseDatetime = some event)
      (hstation : monitor.network.getStation event.stationId = none) :
      Detects monitor (.onNetworkEventsMessage ec msg) .kCouldNotRecordPassengerEvent
  | notRequested {unspecified : Unspecified} {ec : StompServerError}
      {connectionId requestId message : Bytes}
      (hparse : NetworkMonitor.parseRequest libs message = none) :
      Detects monitor (.onQuietRouteClientMessage unspecified ec connectionId
        NetworkMonitor.quietRouteDestination requestId message) .kCouldNotParseQuietRouteRequest

end WholeMonitor

def Invocation.Supported : Invocation → Prop
  | onQuietRouteClientMessage _ _ _ destination _ _ =>
    destination = NetworkMonitor.quietRouteDestination
  | _ => True

namespace WholeMonitor

variable {Session : Type} [DecidableEq Session] {libs : Libraries} {monitor : WholeMonitor Session}
  {call : Invocation}

/-- The code after a handler is that of the failure it detected, or tells that there was none. -/
structure Reports (libs : Libraries) (monitor : WholeMonitor Session) (call : Invocation) : Prop where
  failed : ∀ code, Detects libs monitor call code →
    ∃ monitor', monitor.invoke libs call = some monitor' ∧ monitor'.lastErrorCode = code
  succeeded : (∀ code, ¬Detects libs monitor call code) → call.Supported →
    ∀ monitor', monitor.invoke libs call = some monitor' → monitor'.lastErrorCode = .kOk

/-! The subscription to the passenger events can always be started. -/

theorem subscribe_ne_nil (client : StompClient NetworkHandler) (ids : IdGenerator)
    (unspecified : Unspecified) (onSubscribe onMessage : Option NetworkHandler) :
    (client.subscribe ids unspecified subscriptionDestination onSubscribe onMessage).1 ≠ [] := by
  have hid := ids.nth_ne_nil client.generated
  have hline := ids.newLine_not_mem_nth client.generated
  have hlegal : LegalComponents .kSubscribe ⟨[(.kId,ids.nth client.generated),
      (.kDestination,subscriptionDestination),(.kAck,ascii "auto"),
      (.kReceipt,ids.nth client.generated)],by simp⟩ [] := by
    refine .of_headers (by decide) ?_ (by simp [requiredHeaders]) (by simp) (by simp) (by simp)
    intro h hmem
    simp only [List.mem_cons,List.not_mem_nil,or_false] at hmem
    rcases hmem with rfl | rfl | rfl | rfl
    · exact ⟨by simp,hid,hline⟩
    · exact ⟨by simp,by decide +kernel,by decide +kernel⟩
    · exact ⟨by simp,by decide +kernel,by decide +kernel⟩
    · exact ⟨by simp,hid,hline⟩
  simp only [StompClient.subscribe,StompClient.generateId,hlegal.assemble_eq,ne_eq,not_true,if_false]
  exact hid

/-! The handlers. -/

theorem reports_onNetworkEventsConnect (unspecified : Unspecified) (ec : StompClientError) :
    Reports libs monitor (.onNetworkEventsConnect unspecified ec) := by
  constructor
  · intro code hdetects
    refine ⟨_,rfl,?_⟩
    cases hdetects with
    | notConnected hec => simp [onNetworkEventsConnect,hec,giveUp]
    | notStarted hid => exact absurd hid (subscribe_ne_nil _ _ _ _ _)
  · intro hnone _ monitor' h
    have hec : ec = .kOk := by
      by_contra hec
      exact hnone _ (.notConnected hec)
    rw [← Option.some.inj h,hec]
    simp [onNetworkEventsConnect]

theorem reports_onSubscribe_iff {ec : StompClientError} {subscriptionId : Bytes} :
    Reports libs monitor (.onSubscribe ec subscriptionId) ↔ ec = .kOk := by
  constructor
  · intro hreports
    by_contra hec
    obtain ⟨monitor',h,hcode⟩ := hreports.failed _ (.refused hec)
    rw [← Option.some.inj h] at hcode
    cases hcode
  · rintro rfl
    constructor
    · intro code hdetects
      cases hdetects with
      | refused hec => exact absurd rfl hec
    · intro _ _ monitor' h
      rw [← Option.some.inj h]
      rfl

theorem reports_onNetworkEventsMessage (ec : StompClientError) (msg : Bytes) :
    Reports libs monitor (.onNetworkEventsMessage ec msg) := by
  constructor
  · intro code hdetects
    refine ⟨_,rfl,?_⟩
    cases hdetects with
    | notParsed hparse => simp [NetworkMonitor.onNetworkEventsMessage,hparse]
    | notRecorded hparse hstation =>
      simp [NetworkMonitor.onNetworkEventsMessage,hparse,TransportNetwork.recordPassengerEvent,hstation]
  · intro hnone _ monitor' h
    rw [← Option.some.inj h]
    cases hparse : libs.json.parse msg >>= PassengerEvent.fromJson libs.parseDatetime with
    | none => exact absurd (.notParsed hparse) (hnone _)
    | some event =>
      cases hstation : monitor.network.getStation event.stationId with
      | none => exact absurd (.notRecorded hparse hstation) (hnone _)
      | some node =>
        simp [NetworkMonitor.onNetworkEventsMessage,hparse,TransportNetwork.recordPassengerEvent,
          hstation]

theorem reports_onQuietRouteClientMessage (unspecified : Unspecified) (ec : StompServerError)
    (connectionId destination requestId message : Bytes) : Reports libs monitor
      (.onQuietRouteClientMessage unspecified ec connectionId destination requestId message) := by
  constructor
  · intro code hdetects
    cases hdetects with
    | notRequested hparse =>
      have hfailed : monitor.toNetworkMonitor.onQuietRouteClientMessage libs unspecified connectionId
          NetworkMonitor.quietRouteDestination requestId message =
            some ({monitor.toNetworkMonitor with
              lastErrorCode := .kCouldNotParseQuietRouteRequest}.dismiss unspecified connectionId) := by
        simp [NetworkMonitor.onQuietRouteClientMessage,hparse]
      exact ⟨_,congrArg (Option.map _) hfailed,rfl⟩
  · rintro hnone rfl monitor' h
    obtain ⟨handled,hhandled,rfl⟩ := Option.map_eq_some_iff.mp h
    rw [NetworkMonitor.onQuietRouteClientMessage,if_neg (not_not.mpr rfl)] at hhandled
    cases hparse : NetworkMonitor.parseRequest libs message with
    | none => exact absurd (.notRequested hparse) (hnone _)
    | some stations =>
      simp only [hparse,Option.bind_eq_bind,Option.bind_eq_some_iff] at hhandled
      obtain ⟨travelRoute,-,travelRouteText,-,hreturn⟩ := hhandled
      rw [← Option.some.inj hreturn]

/-- The code after a handler is right exactly if the handler is not told that the subscription
failed. -/
theorem reports_iff (libs : Libraries) (monitor : WholeMonitor Session) (call : Invocation) :
    Reports libs monitor call ↔
      ∀ ec subscriptionId, call = .onSubscribe ec subscriptionId → ec = .kOk := by
  cases call with
  | onNetworkEventsConnect u ec => simp [reports_onNetworkEventsConnect]
  | onSubscribe ec subscriptionId => simp [reports_onSubscribe_iff]
  | onNetworkEventsMessage ec msg => simp [reports_onNetworkEventsMessage]
  | onQuietRouteClientMessage u ec connectionId destination requestId message =>
    simp [reports_onQuietRouteClientMessage]

/-- The client is accepted, but its SUBSCRIBE frame is not written. -/
def refusedEvents : List (WholeEvent ℕ) :=
  [.completed 0 0 false,.completed 0 0 false,.message 0 (ascii "CONNECTED\nversion:1.2\n\n\x00"),
    .execute 0,.completed 0 0 true]

def refusedMonitor : Option (WholeMonitor ℕ) := refusedEvents.foldlM (step NetworkMonitor.decodingNothing)
  (configured (ascii "localhost") (ascii "tube") (ascii "u") (ascii "p") .empty ⟨1/10,1/10,20⟩)

theorem reaches_foldlM {monitor' : WholeMonitor Session} {events : List (WholeEvent Session)}
    (h : Reaches libs monitor) (hclient : ∀ event ∈ events, ∀ e, event ≠ .server e)
    (hrun : events.foldlM (step libs) monitor = some monitor') : Reaches libs monitor' := by
  induction events generalizing monitor with
  | nil =>
    rw [← Option.some.inj hrun]
    exact h
  | cons event events ih =>
    rw [List.foldlM_cons,Option.bind_eq_bind,Option.bind_eq_some_iff] at hrun
    obtain ⟨next,hstep,hrest⟩ := hrun
    have hannounces : monitor.Announces event := by
      cases event with
      | server e => exact absurd rfl (hclient _ List.mem_cons_self e)
      | _ => trivial
    exact ih (h.step hannounces hstep) (fun e he => hclient e (List.mem_cons_of_mem _ he)) hrest

/-- Its handler is told, and reports a success. -/
theorem refused_unreported : ∃ monitor : WholeMonitor ℕ,
    Reaches NetworkMonitor.decodingNothing monitor ∧
    monitor.client.posted = [.onSubscribe .onSubscribe .kCouldNotSendSubscribeFrame []] ∧
    ¬Reports NetworkMonitor.decodingNothing monitor
      (.onSubscribe .kCouldNotSendSubscribeFrame []) := by
  have hposted : refusedMonitor.map (·.client.posted) =
      some [.onSubscribe .onSubscribe .kCouldNotSendSubscribeFrame []] := by decide +kernel
  obtain ⟨monitor,hrun,hcalls⟩ := Option.map_eq_some_iff.mp hposted
  refine ⟨monitor,reaches_foldlM (.configured _ _ _ _ _ _) ?_ hrun,hcalls,?_⟩
  · simp [refusedEvents]
  · rw [reports_onSubscribe_iff]
    decide

end WholeMonitor
end QuietRoute
