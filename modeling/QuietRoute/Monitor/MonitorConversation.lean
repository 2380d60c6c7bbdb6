import QuietRoute.Monitor.Consultations
import QuietRoute.Stomp.Conversation

/-! A client in conversation with the monitor: what it hears are the quiet routes that it has asked
for. -/
namespace QuietRoute

open Reporting StompServer NetworkMonitor

variable {Handler Session : Type} [DecidableEq Session]

/-- Messages of the session reach the monitor from the client only. -/
def monitorEvent? (w : Session) : Event Session ⊕ Arrival → Option (Event Session)
  | .inl (.sessionMessage unspecified ec wsSession msg) =>
    if wsSession = w then none else some (.sessionMessage unspecified ec wsSession msg)
  | .inl event => some event
  | .inr (unspecified,msg) => some (.sessionMessage unspecified false w msg)

def monitorEnd (libs : Libraries) (w : Session) :
    Machine (NetworkMonitor Session) (Event Session ⊕ Arrival) Bytes where
  step monitor input := do
    let event ← monitorEvent? w input
    let monitor' ← monitor.step libs event
    return (monitor',startedWrites monitor.server monitor'.server w)

variable {libs : Libraries} {ids : IdGenerator} {kHost id : Bytes} {w : Session}
  {network : TransportNetwork} {config : NetworkMonitorConfig} {client client' : StompClient Handler}
  {monitor monitor' : NetworkMonitor Session} {sent : List Bytes} {events : List (Event Session)}
  {before : List (ServerEvent Session)} {past : List Callback}

theorem serverEvents_arrival (h : monitor.run libs events = some monitor') :
    (monitor.serverEvents libs events).filterMap (ServerEvent.arrival? w) =
      (events.filterMap Event.socketEvent?).filterMap (ServerEvent.arrival? w) := by
  have hfilter : ∀ events : List (ServerEvent Session),
      (events.filter fun e => e.session?.isSome).filterMap (ServerEvent.arrival? w) =
        events.filterMap (ServerEvent.arrival? w) := by
    intro events
    rw [List.filterMap_filter]
    refine List.filterMap_congr fun e _ => ?_
    cases e <;> rfl
  rw [← hfilter,filter_serverEvents h,hfilter]

theorem monitorEvents_arrivals (inputs : List (Event Session ⊕ Arrival)) :
    ((inputs.filterMap (monitorEvent? w)).filterMap Event.socketEvent?).filterMap
      (ServerEvent.arrival? w) = arrivals inputs := by
  rw [List.filterMap_filterMap,List.filterMap_filterMap,arrivals]
  refine List.filterMap_congr fun input _ => ?_
  rcases input with event | ⟨u,msg⟩
  · cases event with
    | sessionMessage u ec w' msg =>
      by_cases heq : w' = w
      · simp [monitorEvent?,heq]
      · cases ec <;> simp [monitorEvent?,Event.socketEvent?,ServerEvent.arrival?,heq]
    | sessionConnect | sessionDisconnect | serverDisconnect | networkEvents | execute => rfl
  · simp [monitorEvent?,Event.socketEvent?,ServerEvent.arrival?]

theorem announcedFirst_run (h : monitor.run libs events = some monitor')
    (hfirst : AnnouncedFirst (before ++ events.filterMap Event.socketEvent?)) :
    AnnouncedFirst (before ++ monitor.serverEvents libs events) := by
  refine (announcedFirst_congr ?_).mpr hfirst
  rw [List.filter_append,filter_serverEvents h,List.filter_append]

/-- A run of the end is one of the monitor, which writes what its server writes to the session. -/
theorem monitorEnd_run {inputs : List (Event Session ⊕ Arrival)}
    (hknows : Knows libs.ids w id before (monitor.server.remember past))
    (hfirst : AnnouncedFirst
      (before ++ (inputs.filterMap (monitorEvent? w)).filterMap Event.socketEvent?))
    (h : (monitorEnd libs w).run monitor inputs = some (monitor',sent)) :
    monitor.run libs (inputs.filterMap (monitorEvent? w)) = some monitor' ∧
      startedWrites monitor.server monitor'.server w = sent := by
  refine Machine.run_induction (motive := fun inputs monitor' sent => AnnouncedFirst
      (before ++ (inputs.filterMap (monitorEvent? w)).filterMap Event.socketEvent?) →
    monitor.run libs (inputs.filterMap (monitorEvent? w)) = some monitor' ∧
      startedWrites monitor.server monitor'.server w = sent) ?_ ?_ h hfirst
  · exact fun _ => ⟨rfl,startedWrites_eq (List.append_nil _).symm w⟩
  rintro inputs input mid monitor' sent now - ih hstep hfirst
  simp only [monitorEnd,bind,Option.bind_eq_some_iff,pure,Option.some.injEq,Prod.mk.injEq] at hstep
  obtain ⟨event,hevent,next,hperform,rfl,rfl⟩ := hstep
  have hevents : (inputs ++ [input]).filterMap (monitorEvent? w) =
      inputs.filterMap (monitorEvent? w) ++ [event] := by
    rw [List.filterMap_append,List.filterMap_cons_some hevent,List.filterMap_nil]
  rw [hevents] at hfirst ⊢
  obtain ⟨hrun,hsent⟩ := ih (by
    rw [List.filterMap_append,← List.append_assoc] at hfirst
    exact hfirst.left)
  have hboth : monitor.run libs (inputs.filterMap (monitorEvent? w) ++ [event]) = some next := by
    rw [NetworkMonitor.run_append,hrun,Option.bind_some,NetworkMonitor.run_cons,hperform]
    rfl
  have hannounced := announcedFirst_run hboth hfirst
  rw [serverEvents_append hrun,NetworkMonitor.serverEvents,hperform,← List.append_assoc] at hannounced
  simp only [Option.map_some,Option.getD_some,NetworkMonitor.serverEvents,List.append_nil] at hannounced
  obtain ⟨hmid,hwritten⟩ := hknows.run hannounced.left (run_server past hrun)
  obtain ⟨-,hwritten'⟩ := hmid.run hannounced (step_server _ hperform)
  exact ⟨hboth,(startedWrites_trans hwritten hwritten').trans (congrArg (· ++ _) hsent)⟩

/-! The whole conversation. -/

def monitorEvents {α : Type} (w : Session) (log : List (α ⊕ (Event Session ⊕ Arrival))) :
    List (Event Session) := (log.filterMap Sum.getRight?).filterMap (monitorEvent? w)

structure ConverseMonitor (libs : Libraries) (ids : IdGenerator) (kHost : Bytes)
    (network : TransportNetwork) (config : NetworkMonitorConfig) (w : Session) (id : Bytes)
    (earlier : List (Event Session))
    (client : StompClient Handler) (monitor : NetworkMonitor Session)
    (events : List (LinkEvent (ClientEvent Handler) (Event Session) Unspecified))
    (l : Link (StompClient Handler) (NetworkMonitor Session) Bytes Bytes)
    (log : List ((ClientEvent Handler ⊕ Arrival) ⊕ (Event Session ⊕ Arrival))) : Prop where
  opens : (NetworkMonitor.started kHost network config).run libs
    (earlier ++ [Event.sessionConnect false w]) = some monitor
  session_eq : monitor.server.sessions.find id = some w
  run : ((clientEnd ids).link (monitorEnd libs w)).run ⟨client,monitor,[],[]⟩ events = some (l,log)
  first : AnnouncedFirst
    ((earlier ++ [Event.sessionConnect false w] ++ monitorEvents w log).filterMap Event.socketEvent?)
  connect : ∀ event ∈ clientEvents log, event.isConnect = false
  client_plain : ∀ event ∈ clientEvents log, event.Plain
  fits : ∀ m ∈ monitor.monitors libs (monitorEvents w log), m.Fits libs

structure Consulted (libs : Libraries) (ids : IdGenerator) (w : Session) (client : StompClient Handler)
    (monitor : NetworkMonitor Session)
    (events : List (LinkEvent (ClientEvent Handler) (Event Session) Unspecified))
    (l : Link (StompClient Handler) (NetworkMonitor Session) Bytes Bytes)
    (log : List ((ClientEvent Handler ⊕ Arrival) ⊕ (Event Session ⊕ Arrival)))
    (consultations : List (Consultation Session)) : Prop where
  right : ∀ consultation ∈ consultations, consultation.Right libs
  monitors : (consultations.map Consultation.monitor).Sublist
    (monitor.monitors libs (monitorEvents w log))
  requests : (consultations.map Consultation.request).Sublist (client.letters ids (clientEvents log))
  requests_first : .loseRight ∉ events →
    consultations.map Consultation.request <+: client.letters ids (clientEvents log)
  replies : ∃ letters, l.left.heard = client.heard ++ client.hearsOf letters ∧
    letters.Sublist (consultations.map Consultation.reply) ∧
    (.loseLeft ∉ events → letters ++ lettersIn l.leftward = consultations.map Consultation.reply)
  settled : .loseRight ∉ events → l.rightward = [] → l.right.server.posted = [] →
    l.right.server.IsMember w →
      consultations.map Consultation.request = client.letters ids (clientEvents log)

variable {earlier : List (Event Session)} {client₀ : StompClient Handler}
  {monitor₀ : NetworkMonitor Session}
  {linkEvents : List (LinkEvent (ClientEvent Handler) (Event Session) Unspecified)}
  {l : Link (StompClient Handler) (NetworkMonitor Session) Bytes Bytes}
  {log : List ((ClientEvent Handler ⊕ Arrival) ⊕ (Event Session ⊕ Arrival))}

theorem ConverseMonitor.opened (h : ConverseMonitor libs ids kHost network config w id earlier client₀
    monitor₀ linkEvents l log) : ∃ before past, Opens libs.ids kHost w id before
      (monitor₀.server.remember past) ∧ AnnouncedFirst (before ++ [.sessionConnect false w] ++
        (monitorEvents w log).filterMap Event.socketEvent?) := by
  have hopen := h.opens
  rw [NetworkMonitor.run_append,Option.bind_eq_some_iff] at hopen
  obtain ⟨mid,hmid,hlast⟩ := hopen
  rw [NetworkMonitor.run_cons,Option.bind_eq_some_iff] at hlast
  obtain ⟨next,hstep,hnext⟩ := hlast
  have hserver := run_server [] h.opens
  rw [serverEvents_append hmid,NetworkMonitor.serverEvents,hstep] at hserver
  refine ⟨_,_,⟨hserver,h.session_eq⟩,?_⟩
  refine (announcedFirst_congr ?_).mpr h.first
  simp only [List.filterMap_append,List.filter_append,filter_serverEvents hmid]
  rfl

theorem ConverseMonitor.ends (h : ConverseMonitor libs ids kHost network config w id earlier client₀
    monitor₀ linkEvents l log) : ∃ before past consultations,
      Untouched libs.ids w id (monitor₀.server.remember past) ∧
      Ends ids libs.ids w id before client₀ l.left (monitor₀.server.remember past)
        (l.right.server.remember (past ++ monitor₀.executed libs (monitorEvents w log)))
        (clientEvents log) (monitor₀.serverEvents libs (monitorEvents w log)) l.rightward l.leftward
        (.loseRight ∉ linkEvents) (.loseLeft ∉ linkEvents) ∧
      Answers libs (monitor₀.server.IsMember w) (l.right.server.IsMember w)
        (monitor₀.monitors libs (monitorEvents w log))
        ((monitor₀.executed libs (monitorEvents w log)).filterMap (Callback.letterFrom? id))
        ((monitor₀.server.remember past).letters libs.ids id
          (monitor₀.serverEvents libs (monitorEvents w log))) consultations := by
  obtain ⟨before,past,hopens,hfirst⟩ := h.opened
  obtain ⟨sentRight,sentLeft,hlinked⟩ := Machine.link_run h.run
  have hknows := hopens.knows hfirst.left
  obtain ⟨hclient,calls,hwrites,hcalls⟩ := clientEnd_run h.client_plain h.connect hlinked.left_run
  obtain ⟨hmonitor,hsent⟩ := monitorEnd_run hknows hfirst hlinked.right_run
  have harrivals := monitorEvents_arrivals (w := w) (log.filterMap Sum.getRight?)
  rw [← serverEvents_arrival hmonitor] at harrivals
  have hannounced := announcedFirst_run hmonitor hfirst
  have hserver := run_server past hmonitor
  obtain ⟨hplain,consultations,hanswers⟩ := consultations_of_run
    ⟨hknows,posted_plain hfirst.left.once hopens.run⟩ hannounced h.fits hmonitor
  refine ⟨_,past,consultations,hopens.untouched hfirst.left,⟨hclient,hserver,h.connect,
    servesSession_of_run hknows hannounced hplain hserver,⟨calls,hwrites,?_⟩,?_⟩,hanswers⟩
  · rw [monitorEvents,harrivals,hcalls]
    exact hlinked.rightward
  · rw [clientEvents,clientEvents_arrivals]
    exact hsent ▸ hlinked.leftward

/-- Whatever is lost on the way, what a client hears are answers to letters that it has sent, in their
order, each with the quiet route of its moment; and without losses the letters are all answered as soon
as the monitor has nothing left to execute, unless it has closed the connection. -/
theorem consulted_of_converse (h : ConverseMonitor libs ids kHost network config w id earlier client₀
    monitor₀ linkEvents l log) :
    ∃ consultations, Consulted libs ids w client₀ monitor₀ linkEvents l log consultations := by
  obtain ⟨before,past,consultations,huntouched,hends,hanswers⟩ := h.ends
  obtain ⟨hsublist,hlossless⟩ := hends.toServer huntouched.heardFrom_eq
  have hheard : (l.right.server.remember (past ++ monitor₀.executed libs (monitorEvents w log))).heardFrom
      id = (monitor₀.executed libs (monitorEvents w log)).filterMap (Callback.letterFrom? id) ++
        l.right.server.posted.filterMap (Callback.letterFrom? id) := by
    have hpast := huntouched.heardFrom_eq
    rw [heardFrom,remember,List.filterMap_append,List.append_eq_nil_iff] at hpast
    rw [heardFrom,remember,List.filterMap_append,List.filterMap_append,hpast.1,List.nil_append]
  have hinit : consultations.map Consultation.request <+:
      (l.right.server.remember (past ++ monitor₀.executed libs (monitorEvents w log))).heardFrom id := by
    rw [hheard]
    exact hanswers.requests.isPrefix.trans (List.prefix_append _ _)
  obtain ⟨letters,hletters,hsub,hall⟩ := hends.toClient
  rw [← hanswers.replies_eq] at hsub hall
  refine ⟨consultations,hanswers.right,hanswers.monitors,hinit.sublist.trans hsublist,
    fun hlost => hinit.trans (hlossless hlost).1,⟨letters,hletters,hsub,hall⟩,?_⟩
  intro hlost hrightward hposted hmember
  have hfinal := (hlossless hlost).2 hmember
  rw [hheard,hposted,hrightward] at hfinal
  rw [hanswers.requests.all hmember]
  simpa [lettersIn] using hfinal

/-! A conversation in which the client asks for the way from `A` to `B`. -/

def oneRouteJson : JsonLibrary where
  parse text :=
    if text = requestText then some (.object [(ascii "start_station_id",.string (ascii "A")),
      (ascii "end_station_id",.string (ascii "B"))])
    else none
  dump value := (TravelRoute.fromJson value).bind fun route =>
    if route = smallRoute then some smallRouteText else none

def oneRouteLibraries : Libraries := ⟨.simple,oneRouteJson,fun _ => false,.simple⟩

omit [DecidableEq Session] in
theorem fits_oneRoute (monitor : NetworkMonitor Session) : monitor.Fits oneRouteLibraries := by
  intro message text htext
  simp only [routeText,bind,Option.bind_eq_some_iff,Prod.exists] at htext
  obtain ⟨start,finish,-,route,-,hdump⟩ := htext
  obtain ⟨route',-,hdump⟩ := Option.bind_eq_some_iff.mp hdump
  split_ifs at hdump
  rw [← Option.some.inj hdump]
  decide +kernel

def askingMonitor : NetworkMonitor ℕ :=
  {(NetworkMonitor.started (ascii "localhost") smallNetwork ⟨1/10,1/10,3⟩ : NetworkMonitor ℕ) with
    server := (StompServer.started (ascii "localhost")).onWsSessionConnect .simple false 0}

def askingEvents : List (LinkEvent (ClientEvent ℕ) (Event ℕ) Unspecified) :=
  [.left (.completed 0 0 false),.arriveRight 0,.right (.execute 0),.arriveLeft 0,
    .left (.send 0 quietRouteDestination requestText none),.arriveRight 0,.right (.execute 0),
    .arriveLeft 0]

theorem askingEvents_run : ∃ r ∈ ((clientEnd .simple).link (monitorEnd oneRouteLibraries 0)).run
      ⟨talkClient,askingMonitor,[],[]⟩ askingEvents,
    AnnouncedFirst (([] ++ [Event.sessionConnect false 0] ++ monitorEvents 0 r.2).filterMap
        Event.socketEvent?) ∧
      (∀ event ∈ clientEvents r.2, event.isConnect = false) ∧
      (∀ event ∈ clientEvents r.2, event.Plain) ∧
        r.1.left.heard = [(quietRouteDestination,smallRouteText)] := by decide +kernel

theorem consulted_askingEvents : ∃ l log consultations, Consulted oneRouteLibraries .simple 0 talkClient
    askingMonitor askingEvents l log consultations ∧
      l.left.heard = [(quietRouteDestination,smallRouteText)] := by
  obtain ⟨⟨l,log⟩,hrun,hfirst,hconnect,hplain,hheard⟩ := askingEvents_run
  have hconverse : ConverseMonitor oneRouteLibraries .simple (ascii "localhost") smallNetwork
      ⟨1/10,1/10,3⟩ 0 (ascii "a") [] talkClient askingMonitor askingEvents l log :=
    ⟨rfl,by decide +kernel,hrun,hfirst,hconnect,hplain,fun m _ => fits_oneRoute m⟩
  obtain ⟨consultations,hconsulted⟩ := consulted_of_converse hconverse
  exact ⟨l,log,consultations,hconsulted,hheard⟩

end QuietRoute
