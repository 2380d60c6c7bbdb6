import QuietRoute.Monitor.ErrorCodes
import QuietRoute.Monitor.PassengerEvents
import QuietRoute.Monitor.QuietReplies
import QuietRoute.Network.Recounts
import QuietRoute.Stomp.ClientRuns

/-! The passenger counts over whole runs of the monitor with its client. A count is the initial one
and what the messages of the subscription have added, whatever else happens in between. -/
namespace QuietRoute

open StompFrame NetworkMonitor

namespace TransportNetwork

/-- `std::abs` as a `size_t`. It is undefined for the least number, which has no absolute value. -/
def absSize (n : Int32) : ℕ := (n.abs.toInt % 2^64).toNat

theorem absSize_eq {n : Int32} (h : n ≠ Int32.minValue) : absSize n = n.toInt.natAbs := by
  have hvec : n.toBitVec ≠ BitVec.intMin 32 := fun heq => h (Int32.toBitVec_inj.mp heq)
  have habs : n.abs.toInt = n.toInt.natAbs := BitVec.toInt_abs_eq_natAbs_of_ne_intMin hvec
  have hlt := n.toInt_lt
  have hle := n.le_toInt
  rw [absSize,habs]
  omega

/-- The body of the loop over `passengerCounts`: as many events as passengers, in one direction. -/
def recordPassengers (nw : TransportNetwork) (stationId : Id) (passengerCount : Int32) :
    TransportNetwork :=
  let type := if passengerCount > 0 then PassengerEventType.enter else .exit
  (fun nw => (nw.recordPassengerEvent ⟨stationId,type⟩).2)^[absSize passengerCount] nw

/-- The loop itself, with the entries of the map in the order of the iteration. -/
def recordCrowding (nw : TransportNetwork) (passengerCounts : List (Id × Int32)) : TransportNetwork :=
  passengerCounts.foldl (fun nw entry => nw.recordPassengers entry.1 entry.2) nw

theorem iterate_recordPassengerEvent (nw : TransportNetwork) (event : PassengerEvent) (n : ℕ) :
    (fun nw => (recordPassengerEvent nw event).2)^[n] nw =
      nw.recount fun S => if event.stationId = S then n*event.type.change else 0 := by
  induction n with
  | zero => exact (recount_zero fun S => by simp).symm
  | succ n ih =>
    rw [Function.iterate_succ_apply',ih,recordPassengerEvent_eq,recount_recount]
    congr 1
    funext S
    split_ifs
    · push_cast
      ring
    · rfl

theorem recordPassengers_eq (nw : TransportNetwork) (stationId : Id) {passengerCount : Int32}
    (h : passengerCount ≠ Int32.minValue) : nw.recordPassengers stationId passengerCount =
      nw.recount fun S => if stationId = S then passengerCount.toInt else 0 := by
  rw [recordPassengers,iterate_recordPassengerEvent,absSize_eq h]
  congr 1
  funext S
  refine if_congr Iff.rfl ?_ rfl
  have hpositive : passengerCount > 0 ↔ 0 < passengerCount.toInt := Int32.lt_iff_toInt_lt
  split_ifs with hpos
  · have hcount := hpositive.mp hpos
    simp only [PassengerEventType.change]
    omega
  · have hcount := mt hpositive.mpr hpos
    simp only [PassengerEventType.change]
    omega

def passengersFor (passengerCounts : List (Id × Int32)) (S : Id) : ℤ :=
  (passengerCounts.map fun entry => if entry.1 = S then entry.2.toInt else 0).sum

theorem recordCrowding_eq (nw : TransportNetwork) {passengerCounts : List (Id × Int32)}
    (h : ∀ entry ∈ passengerCounts, entry.2 ≠ Int32.minValue) :
    nw.recordCrowding passengerCounts = nw.recount (passengersFor passengerCounts) := by
  induction passengerCounts generalizing nw with
  | nil => exact (recount_zero fun S => rfl).symm
  | cons entry passengerCounts ih =>
    rw [recordCrowding,List.foldl_cons,← recordCrowding,
      ih _ fun e he => h e (List.mem_cons_of_mem entry he),
      recordPassengers_eq _ _ (h entry List.mem_cons_self),recount_recount]
    rfl

end TransportNetwork

/-! The messages of the subscription. -/

/-- The message that a handler of a subscription is called with. -/
def ClientCall.feed? {Handler : Type} : ClientCall Handler → Option Bytes
  | .onSubscriptionMessage _ _ message => some message
  | _ => none

namespace StompClient

variable {Handler : Type} {ids : IdGenerator} {unspecified : Unspecified}
  {client client' : StompClient Handler}

/-- What a message from the server brings for a subscription, which is empty when the frame is for
another destination. -/
def feeds? (client : StompClient Handler) (unspecified : Unspecified) (msg : Bytes) : Option Bytes := do
  let (error,frame) ← ofString unspecified.uninitialised msg
  if error = .kOk ∧ frame.command = .kMessage then
    let subscription ← client.subscriptions.find (frame.getHeaderValue .kSubscription)
    let _ ← subscription.onMessage
    if frame.getHeaderValue .kDestination ≠ subscription.destination then return []
    else return frame.body
  else none

def waiting (client : StompClient Handler) : List Bytes := client.posted.filterMap ClientCall.feed?

theorem waiting_post {handler : Option Handler} {call : Handler → ClientCall Handler}
    (hcall : ∀ h, (call h).feed? = none) : (client.post handler call).waiting = client.waiting := by
  cases handler with
  | none => simp [post,waiting]
  | some h => simp [post,waiting,hcall]

theorem waiting_complete (client : StompClient Handler) (ec : Bool) (completion : Completion Handler) :
    (client.complete unspecified ec completion).waiting = client.waiting := by
  cases completion with
  | connect =>
    simp only [complete,onWsConnect]
    split_ifs
    · exact waiting_post fun _ => rfl
    · exact waiting_post fun _ => rfl
    · rfl
  | stomp =>
    simp only [complete,onWsSendStomp]
    split_ifs
    · exact waiting_post fun _ => rfl
    · rfl
  | subscribe subscriptionId subscription =>
    simp only [complete,onWsSendSubscribe]
    split_ifs
    · exact waiting_post fun _ => rfl
    · rfl
  | send requestId onSend => exact waiting_post fun _ => rfl
  | close onClose => exact waiting_post fun _ => rfl

theorem waiting_message {msg : Bytes} (h : client.onWsMessage unspecified msg = some client') :
    client'.waiting = client.waiting ++ (client.feeds? unspecified msg).toList := by
  simp only [onWsMessage,bind,Option.bind_eq_some_iff,pure,Prod.exists] at h
  obtain ⟨error,frame,hread,h⟩ := h
  simp only [feeds?,hread,bind,Option.bind_some,pure]
  split_ifs at h with herror
  · rw [← Option.some.inj h,if_neg fun hboth => herror hboth.1,waiting_post fun _ => rfl]
    exact (List.append_nil _).symm
  · obtain rfl := Option.some.inj h
    rw [handleFrame]
    cases hcommand : frame.command with
    | kMessage =>
      rw [if_pos ⟨not_not.mp herror,rfl⟩]
      simp only [handleSubscriptionMessage]
      cases client.subscriptions.find (frame.getHeaderValue .kSubscription) with
      | none => exact (List.append_nil _).symm
      | some subscription =>
        simp only [Option.bind_some]
        cases hhandler : subscription.onMessage with
        | none => split_ifs <;> simp [post,waiting]
        | some handler =>
          split_ifs <;> simp [post,waiting,ClientCall.feed?]
    | kReceipt =>
      simp only [handleSubscriptionReceipt]
      split
      · simp
      · rw [waiting_post fun _ => rfl]
        simp
    | kConnected =>
      simp only [handleConnected]
      rw [waiting_post fun _ => rfl]
      simp
    | kSend =>
      simp only [handleMessage]
      rw [waiting_post fun _ => rfl]
      simp
    | _ => simp

theorem waiting_subscribe (client : StompClient Handler) (destination : Bytes)
    (onSubscribe onMessage : Option Handler) :
    (client.subscribe ids unspecified destination onSubscribe onMessage).2.waiting =
      client.waiting := by
  rcases client.subscribe_cases ids unspecified destination onSubscribe onMessage with
    hfailed | ⟨frame,hsent⟩
  · rw [hfailed]
    rfl
  · rw [hsent]
    rfl

end StompClient

/-! Runs of the whole monitor. -/

namespace WholeMonitor

variable {Session : Type} [DecidableEq Session] (libs : Libraries)

omit [DecidableEq Session] in
def setNetworkCrowding (monitor : WholeMonitor Session) (passengerCounts : List (Id × Int32)) :
    WholeMonitor Session := {monitor with network := monitor.network.recordCrowding passengerCounts}

def run (monitor : WholeMonitor Session) (events : List (WholeEvent Session)) :
    Option (WholeMonitor Session) := events.foldlM (step libs) monitor

def along {β : Type} (see : WholeMonitor Session → WholeEvent Session → Option β)
    (monitor : WholeMonitor Session) : List (WholeEvent Session) → List β
  | [] => []
  | event::events => (see monitor event).toList ++
    ((monitor.step libs event).map fun next => next.along see events).getD []

/-- What a message from the server brings for the subscription. -/
def brings? (monitor : WholeMonitor Session) : WholeEvent Session → Option Bytes
  | .message unspecified msg => monitor.client.feeds? unspecified msg
  | _ => none

/-- The message about passengers that a step hands to the handler. -/
def hears? (monitor : WholeMonitor Session) : WholeEvent Session → Option Bytes
  | .execute _ => monitor.client.posted.head?.bind ClientCall.feed?
  | _ => none

def brought (monitor : WholeMonitor Session) (events : List (WholeEvent Session)) : List Bytes :=
  monitor.along libs brings? events

def heard (monitor : WholeMonitor Session) (events : List (WholeEvent Session)) : List Bytes :=
  monitor.along libs hears? events

def changeBy (messages : List Bytes) (S : Id) : ℤ := (messages.map fun msg => changeOf libs msg S).sum

variable {libs} {monitor monitor' : WholeMonitor Session} {event : WholeEvent Session}
  {events : List (WholeEvent Session)} {brought heard : List Bytes}

/-- The network counts what was heard, and what has come waits until it is heard. -/
structure Counts (libs : Libraries) (monitor monitor' : WholeMonitor Session)
    (brought heard : List Bytes) : Prop where
  network_eq : monitor'.network = monitor.network.recount (changeBy libs heard)
  waiting_eq : monitor.client.waiting ++ brought = heard ++ monitor'.client.waiting

omit [DecidableEq Session] in
theorem Counts.trans {next : WholeMonitor Session} {more later : List Bytes}
    (h : Counts libs monitor next brought heard) (h' : Counts libs next monitor' more later) :
    Counts libs monitor monitor' (brought ++ more) (heard ++ later) where
  network_eq := by
    rw [h'.network_eq,h.network_eq,TransportNetwork.recount_recount]
    congr 1
    funext S
    simp [changeBy]
  waiting_eq := by
    rw [← List.append_assoc,h.waiting_eq,List.append_assoc,h'.waiting_eq,List.append_assoc]

omit [DecidableEq Session] in
theorem counts_of_same (hnetwork : monitor'.network = monitor.network)
    (hwaiting : monitor'.client.waiting = monitor.client.waiting) :
    Counts libs monitor monitor' [] [] where
  network_eq := by
    rw [hnetwork]
    exact (TransportNetwork.recount_zero fun S => rfl).symm
  waiting_eq := by rw [hwaiting,List.append_nil,List.nil_append]

omit [DecidableEq Session] in
theorem network_message (monitor : NetworkMonitor Session) (msg : Bytes) :
    (monitor.onNetworkEventsMessage libs msg).network =
      monitor.network.recount (changeBy libs [msg]) := by
  rw [NetworkMonitor.onNetworkEventsMessage,fromJson_eq_decodeEvent]
  cases hdecode : decodeEvent libs msg with
  | none => exact (TransportNetwork.recount_zero fun S => by simp [changeBy,changeOf,hdecode]).symm
  | some decoded =>
    obtain ⟨S',type⟩ := decoded
    refine (TransportNetwork.recordPassengerEvent_eq _ _).trans ?_
    congr 1
    funext S
    simp only [changeBy,changeOf,hdecode,List.map_cons,List.map_nil,List.sum_cons,List.sum_nil,add_zero,
      eventOf]
    by_cases htype : type = ascii "in" <;> simp [htype,PassengerEventType.change]

theorem network_server {e : Event Session} (hevents : ∀ msg, e ≠ .networkEvents msg)
    {before after : NetworkMonitor Session} (h : before.step libs e = some after) :
    after.network = before.network := by
  cases e with
  | sessionConnect ec wsSession | sessionDisconnect ec wsSession | serverDisconnect ec =>
    obtain rfl := Option.some.inj h
    rfl
  | sessionMessage unspecified ec wsSession msg =>
    obtain ⟨server,-,rfl⟩ := Option.map_eq_some_iff.mp h
    rfl
  | networkEvents msg => exact absurd rfl (hevents msg)
  | execute unspecified =>
    rw [NetworkMonitor.step] at h
    split at h
    · cases h
    · have hnetwork := handle_network h
      exact hnetwork

theorem counts_handle {unspecified : Unspecified} {call : ClientCall NetworkHandler}
    (h : monitor.handle libs unspecified call = some monitor') :
    monitor'.network = monitor.network.recount (changeBy libs call.feed?.toList) ∧
      monitor'.client.waiting = monitor.client.waiting := by
  have hsame : monitor.network = monitor.network.recount (changeBy libs []) :=
    (TransportNetwork.recount_zero fun S => rfl).symm
  cases call with
  | onConnect handler ec =>
    obtain rfl := Option.some.inj h
    refine ⟨?_,?_⟩
    · simp only [onNetworkEventsConnect]
      split_ifs <;> exact hsame
    · have hsubscribe : (monitor.client.subscribe libs.ids unspecified subscriptionDestination
          (some .onSubscribe) (some .onNetworkEventsMessage)).2.waiting = monitor.client.waiting :=
        monitor.client.waiting_subscribe _ _ _
      simp only [onNetworkEventsConnect]
      split_ifs
      · rfl
      · exact hsubscribe
      · exact hsubscribe
  | onSubscribe handler ec subscriptionId =>
    obtain rfl := Option.some.inj h
    simp only [onSubscribe]
    split_ifs <;> exact ⟨hsame,rfl⟩
  | onSubscriptionMessage handler ec msg =>
    obtain rfl := Option.some.inj h
    exact ⟨network_message _ msg,rfl⟩
  | onDisconnect handler ec =>
    obtain rfl := Option.some.inj h
    exact ⟨hsame,rfl⟩
  | _ => cases h

theorem counts_step (h : monitor.step libs event = some monitor') :
    Counts libs monitor monitor' (monitor.brings? event).toList (monitor.hears? event).toList := by
  cases event with
  | server e =>
    cases e with
    | networkEvents msg => cases h
    | sessionConnect | sessionMessage | sessionDisconnect | serverDisconnect | execute =>
      simp only [step] at h
      obtain ⟨handled,hhandled,rfl⟩ := Option.map_eq_some_iff.mp h
      exact counts_of_same (network_server (by simp) hhandled) rfl
  | completed unspecified idx ec =>
    obtain ⟨client,hclient,rfl⟩ := Option.map_eq_some_iff.mp h
    obtain ⟨completion,-,rfl⟩ := Option.map_eq_some_iff.mp hclient
    exact counts_of_same rfl (StompClient.waiting_complete _ ec completion)
  | message unspecified msg =>
    obtain ⟨client,hclient,rfl⟩ := Option.map_eq_some_iff.mp h
    refine ⟨(TransportNetwork.recount_zero fun S => rfl).symm,?_⟩
    exact (StompClient.waiting_message hclient).symm
  | disconnected ec =>
    rw [step,performClient] at h
    obtain ⟨client,hclient,rfl⟩ := Option.map_eq_some_iff.mp h
    rw [← Option.some.inj hclient]
    exact counts_of_same rfl (StompClient.waiting_post fun _ => rfl)
  | execute unspecified =>
    rw [step] at h
    split at h
    · cases h
    · rename_i call rest hposted
      obtain ⟨hnetwork,hwaiting⟩ := counts_handle h
      have hheard : monitor.hears? (.execute unspecified) = call.feed? := by
        rw [hears?,hposted]
        rfl
      have hfirst : monitor.client.waiting = call.feed?.toList ++ rest.filterMap ClientCall.feed? := by
        rw [StompClient.waiting,hposted]
        cases hfeed : call.feed? <;> simp [hfeed]
      refine ⟨by rw [hheard]; exact hnetwork,?_⟩
      rw [hheard,hwaiting,hfirst]
      exact List.append_nil _

theorem counts_of_run (h : monitor.run libs events = some monitor') :
    Counts libs monitor monitor' (monitor.brought libs events) (monitor.heard libs events) := by
  induction events generalizing monitor with
  | nil =>
    rw [← Option.some.inj h]
    exact counts_of_same rfl rfl
  | cons event events ih =>
    obtain ⟨next,hstep,hrest⟩ := Option.bind_eq_some_iff.mp h
    have hrun := (counts_step hstep).trans (ih hrest)
    simp only [WholeMonitor.brought,WholeMonitor.heard,along,hstep,Option.map_some,Option.getD_some]
    exact hrun

structure Ledger (libs : Libraries) (start : WholeMonitor Session) (passengerCounts : List (Id × Int32))
    (events : List (WholeEvent Session)) (monitor : WholeMonitor Session) : Prop where
  brought_eq : start.client.waiting ++ (start.setNetworkCrowding passengerCounts).brought libs events =
    (start.setNetworkCrowding passengerCounts).heard libs events ++ monitor.client.waiting
  passengers_eq : ∀ S, monitor.network.getPassengerCount S = (start.network.getPassengerCount S).map
    (· + (TransportNetwork.passengersFor passengerCounts S +
      changeBy libs ((start.setNetworkCrowding passengerCounts).heard libs events) S))
  serving_eq : ∀ S,
    monitor.network.getRoutesServingStation S = start.network.getRoutesServingStation S
  times_eq : ∀ stationA stationB,
    monitor.network.getTravelTime stationA stationB = start.network.getTravelTime stationA stationB
  routeTimes_eq : ∀ line route stationA stationB,
    monitor.network.getRouteTravelTime line route stationA stationB =
      start.network.getRouteTravelTime line route stationA stationB
  fastest_eq : ∀ stationA stationB, monitor.network.getFastestTravelRoute libs.std stationA stationB =
    start.network.getFastestTravelRoute libs.std stationA stationB
  candidates_eq : ∀ stationA stationB maxSlowdownPc maxNPaths,
    monitor.network.getFastestTravelRoutes libs.std stationA stationB maxSlowdownPc maxNPaths =
      start.network.getFastestTravelRoutes libs.std stationA stationB maxSlowdownPc maxNPaths

/-- In every run the counts are those there were, those that were set, and what the handler has heard.
What came for the subscription is heard in its order, each message once, and nothing else changes. -/
theorem ledger_of_run (libs : Libraries) (start monitor : WholeMonitor Session)
    (passengerCounts : List (Id × Int32)) (events : List (WholeEvent Session))
    (hcounts : ∀ entry ∈ passengerCounts, entry.2 ≠ Int32.minValue)
    (h : (start.setNetworkCrowding passengerCounts).run libs events = some monitor) :
    Ledger libs start passengerCounts events monitor := by
  have hrun := counts_of_run h
  have hnetwork : monitor.network = start.network.recount fun S =>
      TransportNetwork.passengersFor passengerCounts S +
        changeBy libs ((start.setNetworkCrowding passengerCounts).heard libs events) S := by
    rw [hrun.network_eq,setNetworkCrowding,TransportNetwork.recordCrowding_eq _ hcounts,
      TransportNetwork.recount_recount]
  refine ⟨hrun.waiting_eq,fun S => ?_,?_,?_,?_,?_,?_⟩
  · rw [hnetwork,TransportNetwork.getPassengerCount_recount]
  all_goals
    intros
    rw [hnetwork]
    simp

/-- A client that was accepted and has subscribed hears of bodies, one after the other. -/
def hearing (bodies : List Bytes) : List (WholeEvent ℕ) :=
  [.completed 0 0 false,.completed 0 0 false,.message 0 (ascii "CONNECTED\nversion:1.2\n\n\x00"),
    .execute 0,.completed 0 0 false] ++ bodies.flatMap fun body =>
      [.message 0 (ascii "MESSAGE\nsubscription:a\nmessage-id:1\ndestination:/passengers\n\n" ++
        body ++ [0]),.execute 0]

def atA : WholeMonitor ℕ := configured (ascii "localhost") (ascii "tube") (ascii "u") (ascii "p")
  (TransportNetwork.empty.addStation ⟨ascii "A",[]⟩).2 ⟨1/10,1/10,20⟩

/-- Three passengers are at `A`, and one leaves. -/
theorem ledger_hearing : ∃ monitor,
    (atA.setNetworkCrowding [(ascii "A",3)]).run decodingBoarding (hearing [boarding]) = some monitor ∧
      Ledger decodingBoarding atA [(ascii "A",3)] (hearing [boarding]) monitor ∧
      monitor.network.getPassengerCount (ascii "A") = some 2 := by
  have hcount : ((atA.setNetworkCrowding [(ascii "A",3)]).run decodingBoarding (hearing [boarding])).map
      (·.network.getPassengerCount (ascii "A")) = some (some 2) := by decide +kernel
  obtain ⟨monitor,hrun,htwo⟩ := Option.map_eq_some_iff.mp hcount
  exact ⟨monitor,hrun,ledger_of_run _ atA monitor _ _ (by decide) hrun,htwo⟩

/-- The order in which passengers are heard of does not matter, nor what happens in between. -/
theorem network_of_perm (libs : Libraries) (start start' monitor monitor' : WholeMonitor Session)
    (events events' : List (WholeEvent Session)) (hnetwork : start.network = start'.network)
    (h : start.run libs events = some monitor) (h' : start'.run libs events' = some monitor')
    (hheard : (start.heard libs events).Perm (start'.heard libs events')) :
    monitor.network = monitor'.network := by
  rw [(counts_of_run h).network_eq,(counts_of_run h').network_eq,hnetwork]
  congr 1
  funext S
  exact (hheard.map fun msg => changeOf libs msg S).sum_eq

def eventText (station type : String) : Bytes :=
  ascii "\x7b\"datetime\":\"2020-11-01T07:18:50Z\",\"passenger_event\":\"" ++ ascii type ++
    ascii "\",\"station_id\":\"" ++ ascii station ++ ascii "\"\x7d"

/-- A JSON library that can read of somebody who enters at `A`, and of somebody who leaves at `B`. -/
def decodingBoth : Libraries where
  std := .simple
  json := ⟨fun text => ([("A","in"),("B","out")].find? fun e => text = eventText e.1 e.2).map fun e =>
      .object [(ascii "datetime",.string (ascii "2020-11-01T07:18:50Z")),
        (ascii "passenger_event",.string (ascii e.2)),(ascii "station_id",.string (ascii e.1))],
    fun _ => none⟩
  parseDatetime text := text = ascii "2020-11-01T07:18:50"
  ids := .simple

def atBoth : WholeMonitor ℕ := configured (ascii "localhost") (ascii "tube") (ascii "u") (ascii "p")
  ((TransportNetwork.empty.addStation ⟨ascii "A",[]⟩).2.addStation ⟨ascii "B",[]⟩).2 ⟨1/10,1/10,20⟩

/-- The two are heard of in either order. -/
theorem network_hearing : ∃ monitor monitor',
    atBoth.run decodingBoth (hearing [eventText "A" "in",eventText "B" "out"]) = some monitor ∧
      atBoth.run decodingBoth (hearing [eventText "B" "out",eventText "A" "in"]) = some monitor' ∧
      monitor.network = monitor'.network ∧ monitor.network.getPassengerCount (ascii "A") = some 1 ∧
        monitor.network.getPassengerCount (ascii "B") = some (-1) := by
  have hcounts : (atBoth.run decodingBoth (hearing [eventText "A" "in",eventText "B" "out"])).map
      (fun monitor => (monitor.network.getPassengerCount (ascii "A"),
        monitor.network.getPassengerCount (ascii "B"))) = some (some 1,some (-1)) := by decide +kernel
  have hsome : (atBoth.run decodingBoth
      (hearing [eventText "B" "out",eventText "A" "in"])).isSome := by decide +kernel
  have hheard : (atBoth.heard decodingBoth (hearing [eventText "A" "in",eventText "B" "out"])).Perm
      (atBoth.heard decodingBoth (hearing [eventText "B" "out",eventText "A" "in"])) := by
    decide +kernel
  obtain ⟨monitor,hrun,hboth⟩ := Option.map_eq_some_iff.mp hcounts
  obtain ⟨monitor',hrun'⟩ := Option.isSome_iff_exists.mp hsome
  obtain ⟨hA,hB⟩ := Prod.mk.inj hboth
  exact ⟨monitor,monitor',hrun,hrun',network_of_perm _ _ _ _ _ _ _ rfl hrun hrun' hheard,hA,hB⟩

end WholeMonitor
end QuietRoute
