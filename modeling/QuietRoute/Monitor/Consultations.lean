import QuietRoute.Monitor.MonitorRuns
import QuietRoute.Stomp.ServerLetters

/-! What a run of the monitor is for one of its clients: which of its letters are answered, in which
order, and by which routes. -/
namespace QuietRoute

open StompFrame Reporting StompServer NetworkMonitor

variable {Session : Type} [DecidableEq Session]

def Callback.Plain : Callback → Prop
  | .onClientMessage _ _ _ requestId _ => newLine ∉ requestId
  | _ => True

/-- A letter that the monitor has answered, with the monitor as it was. -/
structure Consultation (Session : Type) where
  monitor : NetworkMonitor Session
  request : Letter
  reply : Letter

structure Consultation.Right (libs : Libraries) (consultation : Consultation Session) : Prop where
  asked : consultation.request.destination = quietRouteDestination
  answered : consultation.monitor.routeText libs consultation.request.content =
    some consultation.reply.content
  destination_eq : consultation.reply.destination = quietRouteDestination
  requestId_eq : consultation.request.requestId ≠ [] →
    consultation.reply.requestId = consultation.request.requestId

namespace NetworkMonitor

/-- All texts of routes are as long as the machine can count. -/
def Fits (libs : Libraries) (monitor : NetworkMonitor Session) : Prop :=
  ∀ message text, monitor.routeText libs message = some text → text.length < 2^64

/-- The monitors of a run, each before its event. -/
def monitors (libs : Libraries) (monitor : NetworkMonitor Session) :
    List (Event Session) → List (NetworkMonitor Session)
  | [] => []
  | event::events =>
    monitor::((monitor.step libs event).map fun next => next.monitors libs events).getD []

def consulted? (id : Bytes) (monitor : NetworkMonitor Session) (event : Event Session) : Option Letter :=
  (monitor.executes? event).bind (Callback.letterFrom? id)

end NetworkMonitor

variable {libs : Libraries} {ids : IdGenerator} {unspecified : Unspecified} {kHost id : Bytes}
  {w : Session} {server server' : StompServer Session} {monitor monitor' : NetworkMonitor Session}
  {serverEvent : ServerEvent Session} {event : Event Session} {events : List (Event Session)}
  {before : List (ServerEvent Session)} {past : List Callback}

theorem newLine_not_mem_value {u : ℕ} {text : Bytes} {frame : StompFrame}
    (hread : ofString u text = some (.kOk,frame)) (header : StompHeader) :
    newLine ∉ frame.getHeaderValue header := by
  rw [getHeaderValue]
  cases hfind : frame.headers.find header with
  | none => simp
  | some value => exact (header_of_read hread hfind).2

theorem StompServer.Change.plain (hchange : Change ids serverEvent server server')
    (h : ∀ callback ∈ server.posted, callback.Plain) : ∀ callback ∈ server'.posted, callback.Plain := by
  have hmore : ∀ callbacks : List Callback, (∀ callback ∈ callbacks, callback.Plain) →
      ∀ callback ∈ server.posted ++ callbacks, callback.Plain :=
    fun callbacks hplain callback hmem => (List.mem_append.mp hmem).elim (h callback) (hplain callback)
  cases hchange with
  | accepted w' c => exact hmore _ (by simp [Callback.Plain])
  | heard w' c frame hfind hconnected hdelivers =>
    obtain ⟨u,msg,rfl,hread⟩ := hdelivers
    exact hmore _ (by simpa [Callback.Plain] using newLine_not_mem_value hread .kId)
  | lost w' c ec =>
    refine hmore _ ?_
    split_ifs <;> simp [Callback.Plain]
  | ended ec => exact hmore _ (by simp [Callback.Plain])
  | silent | refused | entered | dropped | sent | stopped => exact h

theorem posted_plain {serverEvents : List (ServerEvent Session)} (honce : AnnouncedOnce serverEvents)
    (hrun : (StompServer.started kHost).run ids serverEvents = some server) :
    ∀ callback ∈ server.posted, callback.Plain := by
  refine (run_induction (motive := fun _ server => ∀ callback ∈ server.posted, callback.Plain) ?_ ?_ honce
    hrun).2
  · exact fun callback hmem => absurd hmem List.not_mem_nil
  · exact fun _ _ _ _ _ _ hplain _ _ hchange => hchange.plain hplain

omit [DecidableEq Session] in
theorem NetworkMonitor.asks_plain {callback : Callback} (hplain : callback.Plain)
    (hfits : monitor.Fits libs)
    (h : monitor.asks libs unspecified callback = some serverEvent) : serverEvent.Plain := by
  cases callback with
  | onClientConnect | onClientDisconnect | onDisconnect => cases h
  | onClientMessage ec id destination requestId message =>
    rw [asks] at h
    split_ifs at h
    · rw [← Option.some.inj h]
      trivial
    · obtain ⟨text,htext,rfl⟩ := Option.map_eq_some_iff.mp h
      exact ⟨by decide,hplain,hfits message text htext⟩

/-! One session of the server. -/

namespace StompServer

theorem Knows.session_iff (h : Knows ids w id before server) {w' : Session} :
    server.sessions.find id = some w' ↔ w' = w ∧ server.IsMember w := by
  rw [h.running.consistent.sessions_iff]
  constructor
  · rintro ⟨c,hfind,hid⟩
    obtain rfl := h.owns.unique w' c hfind hid
    exact ⟨rfl,isMember_iff.mpr ⟨c,hfind⟩⟩
  · rintro ⟨rfl,hmember⟩
    obtain ⟨c,hfind⟩ := isMember_iff.mp hmember
    exact ⟨c,hfind,h.owns.own c hfind⟩

theorem Knows.connected (h : Knows ids w id before server) {ec : StompServerError}
    {destination requestId message : Bytes}
    (hmem : .onClientMessage ec id destination requestId message ∈ server.posted) {c : Connection}
    (hfind : server.connections.find w = some c) : c.status = .kConnected :=
  (h.running.keepsStatus w c hfind).resolve_left
    (h.running.consistent.requests_not_pending ec id destination requestId message hmem w c hfind
      (h.owns.own c hfind))

theorem Knows.letter_send (h : Knows ids w id before server) {ec : StompServerError}
    {destination requestId message : Bytes}
    (hmem : .onClientMessage ec id destination requestId message ∈ server.posted)
    (hid : newLine ∉ requestId) {text : Bytes} (hfits : text.length < 2^64)
    (unspecified : Unspecified) :
    (server.IsMember w →
      server.letter? ids id (.send unspecified id quietRouteDestination text requestId) =
        some ⟨quietRouteDestination,(server.replyId ids requestId).1,text⟩) ∧
      (¬server.IsMember w →
        server.letter? ids id (.send unspecified id quietRouteDestination text requestId) = none) := by
  constructor
  · intro hmember
    obtain ⟨c,hfind⟩ := isMember_iff.mp hmember
    have hrequest := @send_fst_of_connected _ _ ids unspecified server w id quietRouteDestination text
      requestId c (h.session_iff.mpr ⟨rfl,hmember⟩) hfind (h.connected hmem hfind) hid (by decide)
      (by decide) hfits
    simp only [letter?,hrequest,true_and]
    exact if_pos (replyId_ne_nil _)
  · intro hnot
    have hnobody : server.sessions.find id = none := by
      by_contra hsome
      obtain ⟨w',hw'⟩ := Option.ne_none_iff_exists'.mp hsome
      exact hnot (h.session_iff.mp hw').2
    simp [letter?,send,hnobody]

theorem Knows.close (h : Knows ids w id before server) (unspecified : Unspecified) :
    ¬(server.close unspecified id).IsMember w := by
  cases @close_cases _ _ ids unspecified server h.running.consistent id with
  | inl hnobody =>
    rw [hnobody.1,isMember_iff]
    rintro ⟨c,hfind⟩
    exact hnobody.2 w c hfind (h.owns.own c hfind)
  | inr hsome =>
    obtain ⟨w',c,hfind,hid,hclose⟩ := hsome
    obtain rfl := h.owns.unique w' c hfind hid
    rw [hclose,isMember_erase (closeConnection_connections c w' _)]
    exact fun hmember => hmember.1 rfl

end StompServer

/-! One client of the monitor. -/

/-- Some of the requests of a client are answered, as long as it is there. -/
structure Answers (libs : Libraries) (there there' : Prop) (monitors : List (NetworkMonitor Session))
    (requests replies : List Letter) (consultations : List (Consultation Session)) : Prop where
  right : ∀ consultation ∈ consultations, consultation.Right libs
  monitors : (consultations.map Consultation.monitor).Sublist monitors
  replies_eq : consultations.map Consultation.reply = replies
  requests : WhileThere there there' (consultations.map Consultation.request) requests

namespace Answers

variable {there there' there'' : Prop} {monitors monitors' : List (NetworkMonitor Session)}
  {requests requests' replies replies' : List Letter}
  {consultations consultations' : List (Consultation Session)}

omit [DecidableEq Session] in
theorem none (h : WhileThere there there' [] requests) :
    Answers libs there there' monitors requests [] [] :=
  ⟨by simp,List.nil_sublist _,rfl,h⟩

omit [DecidableEq Session] in
theorem trans (h : Answers libs there there' monitors requests replies consultations)
    (h' : Answers libs there' there'' monitors' requests' replies' consultations') :
    Answers libs there there'' (monitors ++ monitors') (requests ++ requests') (replies ++ replies')
      (consultations ++ consultations') where
  right consultation hmem := (List.mem_append.mp hmem).elim (h.right consultation) (h'.right consultation)
  monitors := by
    rw [List.map_append]
    exact h.monitors.append h'.monitors
  replies_eq := by rw [List.map_append,h.replies_eq,h'.replies_eq]
  requests := by
    rw [List.map_append]
    exact h.requests.trans h'.requests

end Answers

/-- A monitor in a run in which its server has heard of a session. -/
structure Attends (libs : Libraries) (w : Session) (id : Bytes) (before : List (ServerEvent Session))
    (past : List Callback) (monitor : NetworkMonitor Session) : Prop where
  knows : Knows libs.ids w id before (monitor.server.remember past)
  plain : ∀ callback ∈ past ++ monitor.server.posted, callback.Plain

namespace Attends

theorem dequeue (h : Attends libs w id before past monitor) {callback : Callback} {rest : List Callback}
    (hposted : monitor.server.posted = callback::rest) :
    Attends libs w id before (past ++ [callback]) (monitor.dequeue rest) := by
  have hremember : (monitor.dequeue rest).server.remember (past ++ [callback]) =
      monitor.server.remember past := by
    simp [remember,NetworkMonitor.dequeue,hposted]
  refine ⟨by rw [hremember]; exact h.knows,?_⟩
  have hsame : past ++ [callback] ++ (monitor.dequeue rest).server.posted =
      past ++ monitor.server.posted := congrArg posted hremember
  rw [hsame]
  exact h.plain

theorem step (h : Attends libs w id before past monitor)
    (hfirst : AnnouncedFirst (before ++ (monitor.serverEvent? libs event).toList))
    (hstep : monitor.step libs event = some monitor') :
    Attends libs w id (before ++ (monitor.serverEvent? libs event).toList)
      (past ++ (monitor.executes? event).toList) monitor' := by
  have hrun := step_server past hstep
  refine ⟨(h.knows.run hfirst hrun).1,?_⟩
  cases hevent : monitor.serverEvent? libs event with
  | none =>
    rw [hevent] at hrun
    have hposted : past ++ monitor.server.posted =
        past ++ (monitor.executes? event).toList ++ monitor'.server.posted :=
      congrArg posted (Option.some.inj hrun)
    rw [← hposted]
    exact h.plain
  | some e =>
    rw [hevent,Option.toList_some,run_singleton] at hrun
    rw [hevent] at hfirst
    exact (h.knows.step hfirst hrun).2.plain h.plain

theorem serverEvent_plain (h : Attends libs w id before past monitor) (hfits : monitor.Fits libs) :
    ∀ e ∈ (monitor.serverEvent? libs event).toList, e.Plain := by
  intro e hmem
  have hevent := Option.mem_toList.mp hmem
  cases event with
  | sessionConnect | sessionMessage | sessionDisconnect | serverDisconnect =>
    rw [← Option.some.inj hevent]
    trivial
  | networkEvents msg => cases hevent
  | execute u =>
    obtain ⟨callback,hhead,hasks⟩ := Option.bind_eq_some_iff.mp hevent
    have hposted := List.mem_of_mem_head? hhead
    exact asks_plain (h.plain callback (List.mem_append_right _ hposted)) hfits hasks

theorem stays (h : Attends libs w id before past monitor)
    (hfirst : AnnouncedFirst (before ++ (monitor.serverEvent? libs event).toList))
    (hstep : monitor.step libs event = some monitor') (hmember : monitor'.server.IsMember w) :
    monitor.server.IsMember w := by
  have hrun := step_server past hstep
  cases hevent : monitor.serverEvent? libs event with
  | none =>
    rw [hevent] at hrun
    have hconnections := congrArg connections (Option.some.inj hrun)
    rw [IsMember] at hmember ⊢
    rwa [show monitor.server.connections = monitor'.server.connections from hconnections]
  | some e =>
    rw [hevent,Option.toList_some,run_singleton] at hrun
    rw [hevent] at hfirst
    exact ((h.knows.step hfirst hrun).2.announced hmember).resolve_left (h.knows.not_announced hfirst)

/-- The letter of a member is answered or gets it closed, and that of anybody else is not. -/
theorem consults (h : Attends libs w id before past monitor) (hfits : monitor.Fits libs)
    (hfirst : AnnouncedFirst (before ++ (monitor.serverEvent? libs event).toList))
    (hstep : monitor.step libs event = some monitor') : ∃ consultations,
      Answers libs (monitor.server.IsMember w) (monitor'.server.IsMember w) [monitor]
        (monitor.consulted? id event).toList ((monitor.server.remember past).letters libs.ids id
          (monitor.serverEvent? libs event).toList) consultations := by
  have hstays := h.stays hfirst hstep
  have hnothing : Answers libs (monitor.server.IsMember w) (monitor'.server.IsMember w) [monitor]
      [] [] [] := .none (.nil hstays)
  cases event with
  | sessionConnect | sessionMessage | sessionDisconnect | serverDisconnect =>
    refine ⟨[],?_⟩
    rw [serverEvent?,Event.socketEvent?,Option.toList_some,letters_singleton]
    · exact hnothing
    · simp
  | networkEvents msg => exact ⟨[],hnothing⟩
  | execute u =>
    rw [NetworkMonitor.step] at hstep
    split at hstep
    · cases hstep
    rename_i callback rest hposted
    rw [serverEvent?,consulted?,executes?,hposted,List.head?_cons,Option.bind_some,Option.bind_some]
    cases callback with
    | onClientConnect | onClientDisconnect | onDisconnect => exact ⟨[],hnothing⟩
    | onClientMessage ec id' destination requestId message =>
      have hasks := handle_message hstep
      rw [asks_dequeue,routeText_dequeue] at hasks
      by_cases hid : id' = id
      · subst id'
        rw [Callback.letterFrom?,if_pos rfl,Option.toList_some]
        have hmem : .onClientMessage ec id destination requestId message ∈
            (monitor.server.remember past).posted := by simp [remember,hposted]
        have hline : newLine ∉ requestId := h.plain _ hmem
        rcases hasks with ⟨hasks,hserver⟩ | ⟨text,hdestination,htext,hasks,-⟩
        · have hgone : ¬monitor'.server.IsMember w := by
            have hclose := (h.dequeue hposted).knows.close u
            rwa [close_remember,← hserver] at hclose
          rw [hasks,Option.toList_some,letters_singleton]
          exact ⟨[],.none (.missed hgone _)⟩
        · obtain ⟨hsent,hnone⟩ := h.knows.letter_send hmem hline (hfits message text htext) u
          rw [hasks,Option.toList_some,letters_singleton]
          by_cases hmember : monitor.server.IsMember w
          · rw [hsent hmember]
            refine ⟨[⟨monitor,⟨destination,requestId,message⟩,⟨quietRouteDestination,_,text⟩⟩],?_,
              List.Sublist.refl _,rfl,.one hmember _⟩
            intro consultation hone
            rw [List.mem_singleton.mp hone]
            exact ⟨hdestination,htext,rfl,fun hrequest => congrArg Prod.fst (if_neg hrequest)⟩
          · rw [hnone hmember]
            exact ⟨[],.none (.missed (fun hthere => hmember (hstays hthere)) _)⟩
      · rw [Callback.letterFrom?,if_neg hid]
        refine ⟨[],?_⟩
        rcases hasks with ⟨hasks,-⟩ | ⟨text,-,-,hasks,-⟩
        · rw [hasks,Option.toList_some,letters_singleton]
          exact hnothing
        · rw [hasks,Option.toList_some,letters_singleton,letter?,if_neg fun hboth => hid hboth.1]
          exact hnothing

end Attends

/-- What a run is for a client: its letters are answered in their order, each by the quiet route of its
moment, until it is closed. -/
theorem consultations_of_run (h : Attends libs w id before past monitor)
    (hfirst : AnnouncedFirst (before ++ monitor.serverEvents libs events))
    (hfits : ∀ m ∈ monitor.monitors libs events, m.Fits libs)
    (hrun : monitor.run libs events = some monitor') :
    (∀ e ∈ monitor.serverEvents libs events, e.Plain) ∧ ∃ consultations,
      Answers libs (monitor.server.IsMember w) (monitor'.server.IsMember w)
        (monitor.monitors libs events)
        ((monitor.executed libs events).filterMap (Callback.letterFrom? id))
        ((monitor.server.remember past).letters libs.ids id (monitor.serverEvents libs events))
        consultations := by
  induction events generalizing monitor before past with
  | nil =>
    obtain rfl : monitor = monitor' := Option.some.inj hrun
    exact ⟨fun e hmem => absurd hmem List.not_mem_nil,[],.none (.nil fun hmember => hmember)⟩
  | cons event events ih =>
    rw [run_cons,Option.bind_eq_some_iff] at hrun
    obtain ⟨next,hstep,hrest⟩ := hrun
    simp only [serverEvents,executed,monitors,hstep,Option.map_some,Option.getD_some] at hfirst hfits ⊢
    rw [← List.append_assoc] at hfirst
    have hfitsNow := hfits monitor List.mem_cons_self
    obtain ⟨consultations,hanswers⟩ := h.consults hfitsNow hfirst.left hstep
    obtain ⟨hplain,consultations',hanswers'⟩ := ih (h.step hfirst.left hstep) hfirst
      (fun m hm => hfits m (List.mem_cons_of_mem _ hm)) hrest
    refine ⟨fun e hmem => (List.mem_append.mp hmem).elim (h.serverEvent_plain hfitsNow e) (hplain e),
      consultations ++ consultations',?_⟩
    rw [List.filterMap_append,letters_append (step_server past hstep),filterMap_toList]
    exact hanswers.trans hanswers'

end QuietRoute
