import QuietRoute.Protocol.Link
import QuietRoute.Stomp.ClientLetters
import QuietRoute.Stomp.ServerLetters

/-! A client and a server in conversation. The messages between them stay in order but may be lost, as
when writing them fails, and anything else may happen at the two ends meanwhile. -/
namespace QuietRoute

open Typestate Reporting StompFrame

variable {Handler Session : Type} [DecidableEq Session]

/-- Messages reach the client from the server only. -/
def clientEvent? : ClientEvent Handler ⊕ Arrival → Option (ClientEvent Handler)
  | .inl (.message _ _) => none
  | .inl event => some event
  | .inr (unspecified,msg) => some (.message unspecified msg)

/-- Messages of the session reach the server from the client only. -/
def serverEvent? (w : Session) : ServerEvent Session ⊕ Arrival → Option (ServerEvent Session)
  | .inl (.sessionMessage unspecified ec wsSession msg) =>
    if wsSession = w then none else some (.sessionMessage unspecified ec wsSession msg)
  | .inl event => some event
  | .inr (unspecified,msg) => some (.sessionMessage unspecified false w msg)

def clientEnd (ids : IdGenerator) :
    Machine (StompClient Handler) (ClientEvent Handler ⊕ Arrival) Bytes where
  step client input := do
    let event ← clientEvent? input
    let client' ← client.perform ids event
    return (client',(client'.asked.drop client.asked.length).filterMap SocketCall.text?)

def serverEnd (ids : IdGenerator) (w : Session) :
    Machine (StompServer Session) (ServerEvent Session ⊕ Arrival) Bytes where
  step server input := do
    let event ← serverEvent? w input
    let server' ← server.perform ids event
    return (server',startedWrites server server' w)

theorem clientEvents_arrivals (inputs : List (ClientEvent Handler ⊕ Arrival)) :
    (inputs.filterMap clientEvent?).filterMap ClientEvent.message? = arrivals inputs := by
  rw [List.filterMap_filterMap,arrivals]
  refine List.filterMap_congr fun input _ => ?_
  rcases input with event | ⟨u,msg⟩
  · cases event <;> rfl
  · rfl

theorem serverEvents_arrivals (w : Session) (inputs : List (ServerEvent Session ⊕ Arrival)) :
    (inputs.filterMap (serverEvent? w)).filterMap (ServerEvent.arrival? w) = arrivals inputs := by
  rw [List.filterMap_filterMap,arrivals]
  refine List.filterMap_congr fun input _ => ?_
  rcases input with event | ⟨u,msg⟩
  · cases event with
    | sessionMessage u ec w' msg =>
      by_cases heq : w' = w
      · simp [serverEvent?,heq]
      · cases ec <;> simp [serverEvent?,ServerEvent.arrival?,heq]
    | sessionConnect | sessionDisconnect | send | close | stop | serverDisconnect => rfl
  · simp [serverEvent?,ServerEvent.arrival?]

variable {ids ids' : IdGenerator} {kHost : Bytes} {client client' : StompClient Handler}
  {server server' : StompServer Session} {w : Session} {id : Bytes} {sent : List Bytes}

theorem clientEnd_run {inputs : List (ClientEvent Handler ⊕ Arrival)}
    (hplain : ∀ event ∈ inputs.filterMap clientEvent?, event.Plain)
    (hconnect : ∀ event ∈ inputs.filterMap clientEvent?, event.isConnect = false)
    (h : (clientEnd ids).run client inputs = some (client',sent)) :
    client.run ids (inputs.filterMap clientEvent?) = some client' ∧ ∃ calls,
      StompClient.Writes client client' calls (client.letters ids (inputs.filterMap clientEvent?)) ∧
        calls.filterMap SocketCall.text? = sent := by
  have hrun : client.run ids (inputs.filterMap clientEvent?) = some client' ∧
      ∃ calls, client'.asked = client.asked ++ calls ∧ calls.filterMap SocketCall.text? = sent := by
    refine Machine.run_induction (motive := fun inputs client' sent =>
      (∀ event ∈ inputs.filterMap clientEvent?, event.Plain) →
        client.run ids (inputs.filterMap clientEvent?) = some client' ∧
          ∃ calls, client'.asked = client.asked ++ calls ∧ calls.filterMap SocketCall.text? = sent)
      ?_ ?_ h hplain
    · exact fun _ => ⟨rfl,[],(List.append_nil _).symm,rfl⟩
    rintro inputs input mid client' sent now - ih hstep hplain
    simp only [clientEnd,bind,Option.bind_eq_some_iff,pure,Option.some.injEq,Prod.mk.injEq] at hstep
    obtain ⟨event,hevent,_,hperform,rfl,rfl⟩ := hstep
    have hevents : (inputs ++ [input]).filterMap clientEvent? =
        inputs.filterMap clientEvent? ++ [event] := by
      rw [List.filterMap_append,List.filterMap_cons_some hevent,List.filterMap_nil]
    rw [hevents] at hplain ⊢
    obtain ⟨hrun,calls,hasked,hsent⟩ := ih fun e he => hplain e (List.mem_append_left _ he)
    obtain ⟨calls',hwrites⟩ := StompClient.perform_writes (hplain event (by simp)) hperform
    refine ⟨by rw [StompClient.run_concat,hrun,Option.bind_some,hperform],calls ++ calls',?_,?_⟩
    · rw [hwrites.asked_eq,hasked,List.append_assoc]
    · rw [List.filterMap_append,hsent,hwrites.asked_eq,List.drop_left]
  obtain ⟨hclient,calls,hasked,hcalls⟩ := hrun
  obtain ⟨-,calls',hwrites⟩ := StompClient.run_writes hplain hconnect hclient
  obtain rfl : calls = calls' := List.append_cancel_left (hasked.symm.trans hwrites.asked_eq)
  exact ⟨hclient,calls,hwrites,hcalls⟩

/-- A run of the end is one of the server, which writes what it writes to the session. -/
theorem serverEnd_run {before : List (ServerEvent Session)}
    {inputs : List (ServerEvent Session ⊕ Arrival)} (hknows : StompServer.Knows ids w id before server)
    (hfirst : StompServer.AnnouncedFirst (before ++ inputs.filterMap (serverEvent? w)))
    (h : (serverEnd ids w).run server inputs = some (server',sent)) :
    server.run ids (inputs.filterMap (serverEvent? w)) = some server' ∧
      startedWrites server server' w = sent := by
  refine Machine.run_induction (motive := fun inputs server' sent =>
    StompServer.AnnouncedFirst (before ++ inputs.filterMap (serverEvent? w)) →
      server.run ids (inputs.filterMap (serverEvent? w)) = some server' ∧
        startedWrites server server' w = sent) ?_ ?_ h hfirst
  · exact fun _ => ⟨rfl,StompServer.startedWrites_eq (List.append_nil _).symm w⟩
  rintro inputs input mid server' sent now - ih hstep hfirst
  simp only [serverEnd,bind,Option.bind_eq_some_iff,pure,Option.some.injEq,Prod.mk.injEq] at hstep
  obtain ⟨event,hevent,_,hperform,rfl,rfl⟩ := hstep
  have hevents : (inputs ++ [input]).filterMap (serverEvent? w) =
      inputs.filterMap (serverEvent? w) ++ [event] := by
    rw [List.filterMap_append,List.filterMap_cons_some hevent,List.filterMap_nil]
  rw [hevents,← List.append_assoc] at hfirst
  rw [hevents]
  obtain ⟨hrun,hsent⟩ := ih hfirst.left
  obtain ⟨hmid,hwritten⟩ := hknows.run hfirst.left hrun
  obtain ⟨actions,hactions,-⟩ := (hmid.step hfirst hperform).2.closes
  refine ⟨by rw [StompServer.run_append,hrun,Option.bind_some,StompServer.run_singleton,hperform],?_⟩
  rw [StompServer.startedWrites_trans hwritten ⟨actions,hactions⟩,hsent]

/-! The beginning of a conversation. -/

/-- The server when it has just learnt of the session and given it an id. -/
structure Opens (ids : IdGenerator) (kHost : Bytes) (w : Session) (id : Bytes)
    (earlier : List (ServerEvent Session)) (server : StompServer Session) : Prop where
  run : (StompServer.started kHost).run ids (earlier ++ [.sessionConnect false w]) = some server
  session_eq : server.sessions.find id = some w

variable {earlier : List (ServerEvent Session)}

theorem Opens.pending (h : Opens ids kHost w id earlier server)
    (hfirst : StompServer.AnnouncedFirst (earlier ++ [.sessionConnect false w])) :
    server.connections.find w = some ⟨id,.kPending⟩ := by
  have hconsistent := (StompServer.running_of_run hfirst.once h.run).consistent
  obtain ⟨c,hfind,hid⟩ := (hconsistent.sessions_iff id w).mp h.session_eq
  obtain ⟨before,-,hlast⟩ := Option.bind_eq_some_iff.mp ((StompServer.run_append _ _).symm.trans h.run)
  rw [StompServer.run_singleton] at hlast
  have hserver := Option.some.inj hlast
  have hpending : c.status = .kPending := by
    rw [← hserver] at hfind
    simp only [StompServer.onWsSessionConnect,StompServer.generateId,Bool.false_eq_true,if_false,
      UnorderedMap.find_set_self,Option.some.injEq] at hfind
    rw [← hfind]
  rw [hfind,← hid,← hpending]

structure Untouched (ids : IdGenerator) (w : Session) (id : Bytes) (server : StompServer Session) :
    Prop where
  owns : StompServer.Owns ids server id w
  heardFrom_eq : server.heardFrom id = []
  framesTo_eq : server.framesTo w = []

theorem Opens.untouched (h : Opens ids kHost w id earlier server)
    (hfirst : StompServer.AnnouncedFirst (earlier ++ [.sessionConnect false w])) :
    Untouched ids w id server := by
  have hpending := h.pending hfirst
  obtain ⟨hrunning,writes,calls,horderly⟩ := StompServer.run_orderly hfirst h.run
  obtain ⟨hsilent,hunknown⟩ := horderly.pending w _ hpending rfl
  refine ⟨⟨?_,?_,?_⟩,?_,?_⟩
  · exact hrunning.consistent.drawn w _ hpending
  · intro c hfind
    rw [Option.some.inj (hfind.symm.trans hpending)]
  · exact fun w' c hfind hid => hrunning.consistent.session_unique hfind hpending hid
  · have hnone : server.callbacksFor id = [] := by
      have hposted := callProtocol_posted (horderly.posted id)
      rwa [hunknown] at hposted
    refine List.filterMap_eq_nil_iff.mpr fun callback hmem => ?_
    by_contra hsome
    cases callback with
    | onClientMessage ec id' destination requestId message =>
      by_cases hid : id' = id
      · subst id'
        have hcall : CallbackKind.onClientMessage ∈ server.callbacksFor id :=
          mem_actionsOf.mpr (List.mem_filterMap.mpr ⟨_,hmem,rfl⟩)
        rw [hnone] at hcall
        cases hcall
      · exact hsome (if_neg hid)
    | onClientConnect | onClientDisconnect | onDisconnect => exact hsome rfl
  · have hwrote := (frameProtocol_run (horderly.written w)).1
    rwa [hsilent] at hwrote

theorem Opens.knows (h : Opens ids kHost w id earlier server)
    (hfirst : StompServer.AnnouncedFirst (earlier ++ [.sessionConnect false w])) :
    StompServer.Knows ids w id (earlier ++ [.sessionConnect false w]) server :=
  ⟨⟨.sessionConnect false w,by simp,rfl⟩,StompServer.running_of_run hfirst.once h.run,
    (h.untouched hfirst).owns⟩

/-! The whole conversation. -/

/-- What happens to the client and to the server in a run of the link between them. -/
def clientEvents {α : Type} (log : List ((ClientEvent Handler ⊕ Arrival) ⊕ α)) :
    List (ClientEvent Handler) := (log.filterMap Sum.getLeft?).filterMap clientEvent?

def serverEvents (w : Session)
    (log : List ((ClientEvent Handler ⊕ Arrival) ⊕ (ServerEvent Session ⊕ Arrival))) :
    List (ServerEvent Session) := (log.filterMap Sum.getRight?).filterMap (serverEvent? w)

def lettersIn (texts : List Bytes) : List Letter := texts.filterMap fun text => letterOf (0,text)

structure Converse (ids ids' : IdGenerator) (kHost : Bytes) (w : Session) (id : Bytes)
    (earlier : List (ServerEvent Session)) (client : StompClient Handler) (server : StompServer Session)
    (events : List (LinkEvent (ClientEvent Handler) (ServerEvent Session) Unspecified))
    (l : Link (StompClient Handler) (StompServer Session) Bytes Bytes)
    (log : List ((ClientEvent Handler ⊕ Arrival) ⊕ (ServerEvent Session ⊕ Arrival))) : Prop where
  opens : Opens ids' kHost w id earlier server
  run : ((clientEnd ids).link (serverEnd ids' w)).run ⟨client,server,[],[]⟩ events = some (l,log)
  first : StompServer.AnnouncedFirst (earlier ++ [.sessionConnect false w] ++ serverEvents w log)
  connect : ∀ event ∈ clientEvents log, event.isConnect = false
  client_plain : ∀ event ∈ clientEvents log, event.Plain
  server_plain : ∀ event ∈ serverEvents w log, event.Plain

structure Conveys (ids ids' : IdGenerator) (w : Session) (id : Bytes) (client : StompClient Handler)
    (server : StompServer Session)
    (events : List (LinkEvent (ClientEvent Handler) (ServerEvent Session) Unspecified))
    (l : Link (StompClient Handler) (StompServer Session) Bytes Bytes)
    (log : List ((ClientEvent Handler ⊕ Arrival) ⊕ (ServerEvent Session ⊕ Arrival))) : Prop where
  toServer : (l.right.heardFrom id).Sublist (client.letters ids (clientEvents log))
  toServer_first : .loseRight ∉ events →
    l.right.heardFrom id <+: client.letters ids (clientEvents log)
  toServer_all : .loseRight ∉ events → l.right.IsMember w →
    l.right.heardFrom id ++ lettersIn l.rightward = client.letters ids (clientEvents log)
  toClient : ∃ letters, l.left.heard = client.heard ++ client.hearsOf letters ∧
    letters.Sublist (server.letters ids' id (serverEvents w log)) ∧
    (.loseLeft ∉ events → letters ++ lettersIn l.leftward = server.letters ids' id (serverEvents w log))

variable {client₀ : StompClient Handler} {server₀ : StompServer Session}
  {events : List (LinkEvent (ClientEvent Handler) (ServerEvent Session) Unspecified)}
  {l : Link (StompClient Handler) (StompServer Session) Bytes Bytes}
  {log : List ((ClientEvent Handler ⊕ Arrival) ⊕ (ServerEvent Session ⊕ Arrival))}

/-- The two ends of a conversation, what has passed between them, and what is on its way. -/
structure Ends (ids ids' : IdGenerator) (w : Session) (id : Bytes) (before : List (ServerEvent Session))
    (client client' : StompClient Handler) (server server' : StompServer Session)
    (clientEvents : List (ClientEvent Handler)) (serverEvents : List (ServerEvent Session))
    (rightward leftward : List Bytes) (lossless lossless' : Prop) : Prop where
  client_run : client.run ids clientEvents = some client'
  server_run : server.run ids' serverEvents = some server'
  connect : ∀ event ∈ clientEvents, event.isConnect = false
  serves : StompServer.ServesSession ids' id w before server serverEvents server'
  rightward : ∃ calls, StompClient.Writes client client' calls (client.letters ids clientEvents) ∧
    Carries (calls.filterMap SocketCall.text?)
      ((serverEvents.filterMap (ServerEvent.arrival? w)).map Prod.snd) rightward lossless
  leftward : Carries (startedWrites server server' w)
    ((clientEvents.filterMap ClientEvent.message?).map Prod.snd) leftward lossless'

section

variable {before serverEvents : List (ServerEvent Session)} {clientEvents : List (ClientEvent Handler)}
  {rightward leftward : List Bytes} {lossless lossless' : Prop}

theorem Ends.toServer (h : Ends ids ids' w id before client client' server server' clientEvents
    serverEvents rightward leftward lossless lossless') (hempty : server.heardFrom id = []) :
    (server'.heardFrom id).Sublist (client.letters ids clientEvents) ∧
      (lossless → server'.heardFrom id <+: client.letters ids clientEvents ∧
        (server'.IsMember w →
          server'.heardFrom id ++ lettersIn rightward = client.letters ids clientEvents)) := by
  obtain ⟨calls,hwrites,hcarries⟩ := h.rightward
  obtain ⟨more,hmore,hwhile⟩ := h.serves.heard
  rw [hempty,List.nil_append] at hmore
  rw [hmore]
  refine ⟨hwhile.isPrefix.sublist.trans (hwrites.said.arrive_sublist hcarries.arrived_sublist),
    fun hlossless => ⟨hwhile.isPrefix.trans ⟨_,hwrites.said.arrive_eq (hcarries.eq hlossless)⟩,
      fun hmember => ?_⟩⟩
  rw [hwhile.all hmember]
  exact hwrites.said.arrive_eq (hcarries.eq hlossless)

theorem Ends.toClient (h : Ends ids ids' w id before client client' server server' clientEvents
    serverEvents rightward leftward lossless lossless') :
    ∃ letters, client'.heard = client.heard ++ client.hearsOf letters ∧
      letters.Sublist (server.letters ids' id serverEvents) ∧
      (lossless' → letters ++ lettersIn leftward = server.letters ids' id serverEvents) :=
  ⟨_,(StompClient.run_tells h.connect h.client_run).heard_eq,
    h.serves.written.arrive_sublist h.leftward.arrived_sublist,
    fun hlossless => h.serves.written.arrive_eq (h.leftward.eq hlossless)⟩

end

theorem Converse.ends (h : Converse ids ids' kHost w id earlier client₀ server₀ events l log) :
    Ends ids ids' w id (earlier ++ [.sessionConnect false w]) client₀ l.left server₀ l.right
      (clientEvents log) (serverEvents w log) l.rightward l.leftward (.loseRight ∉ events)
      (.loseLeft ∉ events) := by
  obtain ⟨sentRight,sentLeft,hlinked⟩ := Machine.link_run h.run
  obtain ⟨hclient,calls,hwrites,hcalls⟩ := clientEnd_run h.client_plain h.connect hlinked.left_run
  have hknows := h.opens.knows h.first.left
  obtain ⟨hserver,hsent⟩ := serverEnd_run hknows h.first hlinked.right_run
  have hserves := StompServer.servesSession_of_run hknows h.first h.server_plain hserver
  refine ⟨hclient,hserver,h.connect,hserves,⟨calls,hwrites,?_⟩,?_⟩
  · rw [serverEvents,serverEvents_arrivals,hcalls]
    exact hlinked.rightward
  · rw [clientEvents,clientEvents_arrivals,hsent]
    exact hlinked.leftward

/-- Whatever is lost on the way, each end hears letters of the other one as they were written, each once
and in their order; and without losses it hears them all, as long as the connection stands. -/
theorem conveys_of_converse (h : Converse ids ids' kHost w id earlier client₀ server₀ events l log) :
    Conveys ids ids' w id client₀ server₀ events l log := by
  obtain ⟨hsublist,hlossless⟩ := h.ends.toServer (h.opens.untouched h.first.left).heardFrom_eq
  exact ⟨hsublist,fun hlost => (hlossless hlost).1,fun hlost => (hlossless hlost).2,h.ends.toClient⟩

/-! The handshake. -/

def StompClient.OneLiners (client : StompClient Handler) : Prop :=
  newLine ∉ client.url ∧ newLine ∉ client.username ∧ newLine ∉ client.password

/-- Whoever reads the text that asks for a connection reads the host that the client knows. -/
theorem handshake_of_stompText {client : StompClient Handler} (hlines : client.OneLiners)
    {unspecified unspecified' : Unspecified} {frame : StompFrame}
    (hread : ofString unspecified.uninitialised (client.stompText unspecified') = some (.kOk,frame)) :
    StompServer.Handshake client.url frame := by
  obtain ⟨hurl,husername,hpassword⟩ := hlines
  have hline : ∀ h ∈ (unspecified'.arrange client.stompHeaders).entries, newLine ∉ h.2 := by
    intro h hmem
    rw [unspecified'.mem_arrange] at hmem
    simp only [StompClient.stompHeaders,List.mem_cons,List.not_mem_nil,or_false] at hmem
    rcases hmem with rfl | rfl | rfl | rfl
    · decide +kernel
    · exact hurl
    · exact husername
    · exact hpassword
  obtain ⟨hcommand,-,hvalues,-⟩ := saysComponents_of_lines hline frame hread
  refine ⟨hcommand,hvalues .kAcceptVersion _ ?_,hvalues .kHost _ ?_⟩
  · exact (unspecified'.find_arrange _ _).trans rfl
  · exact (unspecified'.find_arrange _ _).trans rfl

section

variable {before serverEvents : List (ServerEvent Session)} {clientEvents : List (ClientEvent Handler)}
  {rightward leftward : List Bytes} {lossless lossless' : Prop}

theorem Ends.answered (h : Ends ids ids' w id before client client' server server' clientEvents
    serverEvents rightward leftward lossless lossless') (hnew : ¬client.Accepted)
    (haccepted : client'.Accepted) : .kConnected ∈ server'.framesTo w := by
  obtain ⟨event,hmem,u,msg,frame,rfl,hread,hcommand⟩ :=
    ((StompClient.run_tells h.connect h.client_run).accepted haccepted).resolve_left hnew
  have harrived : (u,msg) ∈ clientEvents.filterMap ClientEvent.message? :=
    List.mem_filterMap.mpr ⟨_,hmem,rfl⟩
  have hwritten := h.leftward.arrived_sublist.subset (List.mem_map_of_mem harrived)
  obtain ⟨actions,hactions⟩ := h.serves.extends_written
  rw [StompServer.startedWrites_eq hactions] at hwritten
  obtain ⟨action,haction,htext⟩ := List.mem_filterMap.mp hwritten
  cases action with
  | close => cases htext
  | send text =>
    obtain rfl : text = msg := Option.some.inj htext
    refine StompServer.mem_framesTo.mpr ⟨text,?_,(command_of_read hread).symm.trans hcommand⟩
    rw [hactions]
    exact List.mem_append_right _ (mem_actionsOf.mp haction)

/-- A session whose handshake is answered has delivered one that says what it should. -/
theorem Ends.handshake (h : Ends ids ids' w id (earlier ++ [.sessionConnect false w]) client client'
    server server' clientEvents serverEvents rightward leftward lossless lossless')
    (hopens : Opens ids' kHost w id earlier server)
    (hfirst : StompServer.AnnouncedFirst (earlier ++ [.sessionConnect false w] ++ serverEvents))
    (hanswered : .kConnected ∈ server'.framesTo w) :
    ∃ u msg frame, (u,msg) ∈ serverEvents.filterMap (ServerEvent.arrival? w) ∧
      ofString u.uninitialised msg = some (.kOk,frame) ∧ StompServer.Handshake kHost frame := by
  have hrun : (StompServer.started kHost).run ids'
      (earlier ++ [.sessionConnect false w] ++ serverEvents) = some server' := by
    rw [StompServer.run_append,hopens.run,Option.bind_some,h.server_run]
  obtain ⟨frame,⟨event,hmem,u,msg,rfl,hread⟩,hhandshake⟩ :=
    (StompServer.run_followsHandshakes hfirst hrun).delivered w hanswered
  have hlater : .sessionMessage u false w msg ∈ serverEvents := by
    rcases List.mem_append.mp hmem with hbefore | hlater
    · rcases List.mem_append.mp hbefore with hearlier | hconnect
      · exact absurd rfl (hfirst.left.fresh (w := w) rfl _ hearlier)
      · exact absurd (List.mem_singleton.mp hconnect) (by simp)
    · exact hlater
  exact ⟨u,msg,frame,List.mem_filterMap.mpr ⟨_,hlater,by simp [ServerEvent.arrival?]⟩,hread,hhandshake⟩

theorem Ends.host_eq (h : Ends ids ids' w id (earlier ++ [.sessionConnect false w]) client client' server
    server' clientEvents serverEvents rightward leftward lossless lossless')
    (hopens : Opens ids' kHost w id earlier server)
    (hfirst : StompServer.AnnouncedFirst (earlier ++ [.sessionConnect false w] ++ serverEvents))
    (hlines : client.OneLiners) (hanswered : .kConnected ∈ server'.framesTo w) : client.url = kHost := by
  obtain ⟨u,msg,frame,harrived,hread,hhandshake⟩ := h.handshake hopens hfirst hanswered
  obtain ⟨calls,hwrites,hcarries⟩ := h.rightward
  obtain ⟨u',rfl⟩ := hwrites.stomp msg (hcarries.arrived_sublist.subset (List.mem_map_of_mem harrived))
    ((command_of_read hread).symm.trans hhandshake.command_eq)
  exact (handshake_of_stompText hlines hread).host_eq.symm.trans hhandshake.host_eq

end

/-- A client that was told that it is connected has a connection that the user of the server knows of,
and asked for it under the name of the server. -/
theorem agreed_of_converse (h : Converse ids ids' kHost w id earlier client₀ server₀ events l log)
    (hlines : client₀.OneLiners) (hnew : ¬client₀.Accepted) (haccepted : l.left.Accepted) :
    .onClientConnect .kOk id ∈ l.right.posted ∧ client₀.url = kHost := by
  have hanswered := h.ends.answered hnew haccepted
  refine ⟨(h.ends.serves.joined hanswered).resolve_left ?_,
    h.ends.host_eq h.opens h.first hlines hanswered⟩
  rw [(h.opens.untouched h.first.left).framesTo_eq]
  simp

/-! A conversation in which the client sends a message and the server answers it. -/

def talkClient : StompClient ℕ :=
  (StompClient.created (ascii "localhost")).connect (ascii "user") (ascii "password") (some 0) (some 1)
    none

def talkServer : StompServer ℕ :=
  (StompServer.started (ascii "localhost")).onWsSessionConnect .simple false 0

def talkEvents : List (LinkEvent (ClientEvent ℕ) (ServerEvent ℕ) Unspecified) :=
  [.left (.completed 0 0 false),.arriveRight 0,.arriveLeft 0,
    .left (.send 0 (ascii "/quiet-route") (ascii "hi") none),.arriveRight 0,
    .right (.send 0 (ascii "a") (ascii "/quiet-route") (ascii "ok") []),.arriveLeft 0]

theorem talkEvents_run : ∃ r ∈ ((clientEnd .simple).link (serverEnd .simple 0)).run
      ⟨talkClient,talkServer,[],[]⟩ talkEvents,
    StompServer.AnnouncedFirst ([.sessionConnect false 0] ++ serverEvents 0 r.2) ∧
      (∀ event ∈ clientEvents r.2, event.isConnect = false) ∧
      (∀ event ∈ clientEvents r.2, event.Plain) ∧ (∀ event ∈ serverEvents 0 r.2, event.Plain) ∧
        .onConnect 0 .kOk ∈ r.1.left.posted := by decide +kernel

theorem converse_talkEvents : ∃ l log,
    Converse .simple .simple (ascii "localhost") 0 (ascii "a") [] talkClient talkServer talkEvents l log ∧
      l.left.Accepted := by
  obtain ⟨⟨l,log⟩,hrun,hfirst,hconnect,hclient,hserver,haccepted⟩ := talkEvents_run
  exact ⟨l,log,⟨⟨rfl,by decide +kernel⟩,hrun,hfirst,hconnect,hclient,hserver⟩,0,haccepted⟩

theorem conveys_talkEvents : ∃ l log,
    Conveys .simple .simple 0 (ascii "a") talkClient talkServer talkEvents l log := by
  obtain ⟨l,log,hconverse,-⟩ := converse_talkEvents
  exact ⟨l,log,conveys_of_converse hconverse⟩

theorem agreed_talkEvents : ∃ posted : List Callback,
    .onClientConnect .kOk (ascii "a") ∈ posted ∧ talkClient.url = ascii "localhost" := by
  obtain ⟨l,log,hconverse,haccepted⟩ := converse_talkEvents
  refine ⟨_,agreed_of_converse hconverse ⟨?_,?_,?_⟩ ?_ haccepted⟩
  · decide +kernel
  · decide +kernel
  · decide +kernel
  · rintro ⟨handler,hmem⟩
    cases hmem

end QuietRoute
