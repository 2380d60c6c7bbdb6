import QuietRoute.Socket.ServerStack

/-! The connections that the STOMP server keeps are those of the sessions that are open, whatever happens
to the sockets. -/
namespace QuietRoute

open Typestate Reporting

namespace WebSocketServer

variable {inputs inputs' : List (SocketEvent ⊕ SocketOrder Empty)}
  {server server' : WebSocketServer Empty} {notices notices' : List (ServerNotice Empty)}
  {phases phases' : ℕ → SessionPhase} {orders : List (SocketOrder Empty)} {idx : ℕ}

def Open (server : WebSocketServer Empty) (idx : ℕ) : Prop := ∃ session,
  server.sessions[idx]? = some session ∧ session.closed = false ∧ .read ∈ session.pending

theorem Attended.open_iff (h : Attended inputs server notices phases) :
    server.Open idx ↔ phases idx = .listening ∧ ¬ClosedAt server idx := by
  constructor
  · rintro ⟨session,hfind,hclosed,hread⟩
    have hsuits := h.suits idx session hfind
    rw [hsuits.eq_singleton (List.mem_filter.mpr ⟨hread,rfl⟩),hclosed] at hsuits
    refine ⟨?_,?_⟩
    · generalize phases idx = phase at hsuits
      cases hsuits
      rfl
    · rintro ⟨session',hfind',hclosed'⟩
      rw [hfind] at hfind'
      rw [← Option.some.inj hfind',hclosed] at hclosed'
      exact Bool.false_ne_true hclosed'
  · rintro ⟨hphase,hopen⟩
    have hlt : idx < server.sessions.length := by
      by_contra hlt
      rw [h.connecting (not_lt.mp hlt)] at hphase
      cases hphase
    have hfind : server.sessions[idx]? = some server.sessions[idx] := List.getElem?_eq_getElem hlt
    have hclosed : server.sessions[idx].closed = false := by
      simpa using fun hclosed => hopen ⟨_,hfind,hclosed⟩
    refine ⟨_,hfind,hclosed,?_⟩
    have hsuits := h.suits idx _ hfind
    rw [hphase,hclosed] at hsuits
    have hmem : SessionOperation.read ∈ server.sessions[idx].chain := by
      generalize server.sessions[idx].chain = chain at hsuits
      cases hsuits
      exact List.mem_singleton_self _
    exact (List.mem_filter.mp hmem).1

theorem Attended.run (h : Attended inputs server notices phases)
    (hrun : machine.run server inputs' = some (server',notices')) :
    ∃ phases', Attended (inputs ++ inputs') server' (notices ++ notices') phases' := by
  refine Machine.run_induction (motive := fun inputs' server' notices' => ∃ phases',
    Attended (inputs ++ inputs') server' (notices ++ notices') phases') ⟨phases,?_⟩ ?_ hrun
  · rwa [List.append_nil,List.append_nil]
  · rintro inputs' input server server' notices' notices'' - ⟨phases,h⟩ hstep
    rw [← List.append_assoc,← List.append_assoc]
    exact h.step hstep

theorem closedAt_event {event : SocketEvent}
    (hstep : machine.step server (.inl event) = some (server',notices)) :
    ClosedAt server' idx ↔ ClosedAt server idx := by
  refine ⟨?_,fun h => (h.step hstep).1⟩
  rintro ⟨session,hfind,hclosed⟩
  obtain ⟨⟨next,notice⟩,hnext,heq⟩ := Option.map_eq_some_iff.mp hstep
  obtain ⟨rfl,rfl⟩ := Prod.mk.inj heq
  cases event with
  | accepted ec =>
    obtain ⟨accepting,-,⟨-,rfl,rfl⟩ | ⟨-,rfl,rfl⟩⟩ := step_accepted hnext
    · exact ⟨session,hfind,hclosed⟩
    · rw [List.getElem?_append] at hfind
      split_ifs at hfind
      · exact ⟨session,hfind,hclosed⟩
      · obtain rfl : session = WebSocketSession.created.connect :=
          List.mem_singleton.mp (List.mem_of_getElem? hfind)
        cases hclosed
  | completed session' idx' ec received =>
    obtain ⟨wsSession,next,call,hfind',hcompleted,rfl,rfl⟩ := step_completed hnext
    by_cases hsession : session' = idx
    · subst session'
      have hlt : idx < server.sessions.length := (List.getElem?_eq_some_iff.mp hfind').1
      obtain rfl : next = session := by simpa [hlt] using hfind
      exact ⟨wsSession,hfind',(WebSocketSession.completed_closed hcompleted).1.symm.trans hclosed⟩
    · exact ⟨session,by simpa [List.getElem?_set,hsession] using hfind,hclosed⟩

theorem closedAt_obey (order : SocketOrder Empty) : ClosedAt (server.obey order) idx ↔
    ClosedAt server idx ∨ idx < server.sessions.length ∧ order = .close idx none := by
  cases order with
  | stop => simp [obey,stop,ClosedAt]
  | send session onSend =>
    by_cases hsession : session = idx <;>
      simp [obey,ClosedAt,hsession,WebSocketSession.send,WebSocketSession.start]
  | close session onClose =>
    obtain rfl : onClose = none := by cases onClose with
      | none => rfl
      | some handler => exact handler.elim
    by_cases hsession : session = idx
    · subst session
      have hclosed : ClosedAt (server.obey (.close idx none)) idx ↔ idx < server.sessions.length := by
        simp [obey,ClosedAt,WebSocketSession.close,WebSocketSession.start,
          ← Option.isSome_iff_exists]
      rw [hclosed]
      refine ⟨fun hlt => Or.inr ⟨hlt,rfl⟩,?_⟩
      rintro (⟨session,hfind,-⟩ | ⟨hlt,-⟩)
      · exact (List.getElem?_eq_some_iff.mp hfind).1
      · exact hlt
    · simp [obey,ClosedAt,hsession]

theorem length_obey (order : SocketOrder Empty) :
    (server.obey order).sessions.length = server.sessions.length := by
  cases order <;> simp [obey,stop]

theorem closedAt_orders (hrun : machine.run server (orders.map .inr) = some (server',notices)) :
    server'.sessions.length = server.sessions.length ∧ (ClosedAt server' idx ↔
      ClosedAt server idx ∨ idx < server.sessions.length ∧ .close idx none ∈ orders) := by
  induction orders generalizing server notices with
  | nil =>
    obtain ⟨rfl,rfl⟩ := by simpa using hrun
    simp
  | cons order orders ih =>
    obtain ⟨mid,now,more,hstep,hrest,rfl⟩ := Machine.run_cons_eq_some.mp hrun
    obtain ⟨rfl,rfl⟩ := Prod.mk.inj (Option.some.inj hstep)
    obtain ⟨hlength,hclosed⟩ := ih hrest
    rw [length_obey] at hlength hclosed
    refine ⟨hlength,hclosed.trans ?_⟩
    rw [closedAt_obey]
    simp only [List.mem_cons,or_assoc,← and_or_left,eq_comm]

theorem phase_call {phase phase' : SessionPhase} {call : SessionCall Empty} (u : Unspecified)
    (idx : ℕ)
    (h : sessionProtocol.step phase call = some phase') :
    (phase' = .listening ↔ (phase = .listening ∨
        StompServer.Joins ((ServerNotice.session idx call).event u) idx) ∧
      ¬StompServer.Leaves ((ServerNotice.session idx call).event u) idx) ∧ phase' ≠ .connecting ∧
    (((ServerNotice.session idx call).event u).announced? = some idx → phase = .connecting) := by
  cases call with
  | onSend handler => exact handler.elim
  | onClose handler => exact handler.elim
  | onConnect ec =>
    cases phase with
    | connecting =>
      obtain rfl : (if ec.isError then SessionPhase.ended else .listening) = phase' :=
        Option.some.inj h
      by_cases hec : ec.isError <;>
        simp [ServerNotice.event,StompServer.Joins,StompServer.Leaves,hec]
    | listening => exact absurd h (by simp [sessionProtocol])
    | ended => exact absurd h (by simp [sessionProtocol])
  | onMessage message =>
    cases phase with
    | listening =>
      obtain rfl : SessionPhase.listening = phase' := Option.some.inj h
      simp [ServerNotice.event,StompServer.Joins,StompServer.Leaves,ServerEvent.announced?]
    | connecting => exact absurd h (by simp [sessionProtocol])
    | ended => exact absurd h (by simp [sessionProtocol])
  | onDisconnect ec =>
    cases phase with
    | listening =>
      by_cases hec : ec.isError
      · obtain rfl : SessionPhase.ended = phase' := by simpa [sessionProtocol,hec] using h
        simp [ServerNotice.event,StompServer.Joins,StompServer.Leaves,ServerEvent.announced?]
      · exact absurd h (by simp [sessionProtocol,hec])
    | connecting => exact absurd h (by simp [sessionProtocol])
    | ended => exact absurd h (by simp [sessionProtocol])

end WebSocketServer

namespace StompServer

variable {ids : IdGenerator} {kHost : Bytes} {sockets sockets' : WebSocketServer Empty}
  {server server' : StompServer ℕ} {phases phases' : ℕ → SessionPhase} {event : ServerEvent ℕ}

/-- The members are the sessions that listen and are not closed. No session is closed before it
listens. -/
structure Mirrors (server : StompServer ℕ) (sockets : WebSocketServer Empty)
    (phases : ℕ → SessionPhase) : Prop where
  member_iff : ∀ w, server.IsMember w ↔ phases w = .listening ∧ ¬sockets.ClosedAt w
  connecting : ∀ w, phases w = .connecting → ¬sockets.ClosedAt w

structure Tells (event : ServerEvent ℕ) (phases phases' : ℕ → SessionPhase) : Prop where
  listening_iff : ∀ w, phases' w = .listening ↔
    (phases w = .listening ∨ Joins event w) ∧ ¬Leaves event w
  connecting : ∀ w, phases' w = .connecting → phases w = .connecting ∧ event.session? ≠ some w
  announced : ∀ w, event.announced? = some w → phases w = .connecting

theorem tells_call (u : Unspecified) (call : StompCall) : Tells (call.event u) phases phases where
  listening_iff w := by cases call <;> simp [StompCall.event,Joins,Leaves]
  connecting w h := ⟨h,by simp [stompCall_session?]⟩
  announced w h := by simp [stompCall_announced?] at h

theorem tells_notice (u : Unspecified) (notice : ServerNotice Empty)
    (h : ∀ w, sessionProtocol.run (phases w) (actionsOf notice.call?.toList w) = some (phases' w)) :
    Tells (notice.event u) phases phases' := by
  cases notice with
  | onDisconnect ec =>
    obtain rfl : phases = phases' := funext fun w => Option.some.inj (h w)
    exact ⟨by simp [ServerNotice.event,Joins,Leaves],
      fun w h => ⟨h,by simp [event_session?,ServerNotice.call?]⟩,
      by simp [ServerNotice.event,ServerEvent.announced?]⟩
  | session idx call =>
    have hcall : ∀ w, idx ≠ w → phases w = phases' w ∧
        ((ServerNotice.session idx call).event u).session? ≠ some w := by
      intro w hne
      have hsame := h w
      rw [show (ServerNotice.session idx call).call?.toList = [call].map fun a => (idx,a) from rfl,
        actionsOf_ne hne] at hsame
      exact ⟨Option.some.inj hsame,by simpa [event_session?,ServerNotice.call?] using hne⟩
    have hself : sessionProtocol.step (phases idx) call = some (phases' idx) := by
      have hstep := h idx
      rwa [show (ServerNotice.session idx call).call?.toList = [call].map fun a => (idx,a) from rfl,
        actionsOf_self,Protocol.run_singleton] at hstep
    obtain ⟨hlistening,hconnecting,hannounced⟩ := WebSocketServer.phase_call u idx hself
    refine ⟨fun w => ?_,fun w hw => ?_,fun w hw => ?_⟩
    · by_cases hne : idx = w
      · rw [← hne]
        exact hlistening
      · obtain ⟨hsame,hsession⟩ := hcall w hne
        have hjoins : ¬Joins ((ServerNotice.session idx call).event u) w :=
          fun hjoins => hsession (by rw [hjoins]; rfl)
        have hleaves : ¬Leaves ((ServerNotice.session idx call).event u) w := by
          rintro ⟨ec,hleaves⟩
          exact hsession (by rw [hleaves]; rfl)
        rw [← hsame]
        exact ⟨fun hw => ⟨Or.inl hw,hleaves⟩,fun hw => hw.1.resolve_right hjoins⟩
    · by_cases hne : idx = w
      · rw [← hne] at hw
        exact absurd hw hconnecting
      · obtain ⟨hsame,hsession⟩ := hcall w hne
        exact ⟨hsame.trans hw,hsession⟩
    · obtain rfl : idx = w := by
        have hsession := session?_of_announced? hw
        simpa [event_session?,ServerNotice.call?] using hsession
      exact hannounced hw

theorem Mirrors.perform (h : Mirrors server sockets phases) (htells : Tells event phases phases')
    (hrunning : Consistent ids server) (hperform : server.perform ids event = some server')
    (hsessions : ∀ w, phases' w ≠ .connecting → w < sockets.sessions.length)
    (hclosed : ∀ w, sockets'.ClosedAt w ↔ sockets.ClosedAt w ∨ w < sockets.sessions.length ∧
      (w,.close) ∈ server'.written.drop server.written.length) :
    Mirrors server' sockets' phases' := by
  have hnew : ∀ w, event.announced? = some w → server.connections.find w = none := by
    intro w hw
    by_contra hmember
    have hphase := ((h.member_iff w).mp hmember).1
    rw [htells.announced w hw] at hphase
    cases hphase
  obtain ⟨actions,hwritten,hmembers⟩ := perform_moves hrunning hnew hperform
  obtain ⟨actions',hwritten',hcloses⟩ := (perform_change hrunning hnew hperform).closes
  obtain rfl := List.append_cancel_left (hwritten.symm.trans hwritten')
  rw [hwritten,List.drop_left] at hclosed
  constructor
  · intro w
    have hjoins : Joins event w → ¬sockets.ClosedAt w := fun hjoins =>
      h.connecting w (htells.announced w (by rw [hjoins]; rfl))
    rw [hmembers,h.member_iff,htells.listening_iff,hclosed]
    constructor
    · rintro ⟨hmember,hopen,hstays⟩
      refine ⟨⟨hmember.imp And.left id,hstays⟩,?_⟩
      rintro (hold | ⟨-,hclose⟩)
      · exact hmember.elim (fun hmember => hmember.2 hold) fun hjoin => hjoins hjoin hold
      · exact hopen hclose
    · rintro ⟨⟨hmember,hstays⟩,hopen⟩
      have hlt : w < sockets.sessions.length := by
        refine hsessions w ?_
        rw [(htells.listening_iff w).mpr ⟨hmember,hstays⟩]
        simp
      exact ⟨hmember.imp (fun hphase => ⟨hphase,fun hold => hopen (Or.inl hold)⟩) id,
        fun hclose => hopen (Or.inr ⟨hlt,hclose⟩),hstays⟩
  · intro w hphase
    obtain ⟨hbefore,hsession⟩ := htells.connecting w hphase
    rw [hclosed]
    rintro (hold | ⟨-,hclose⟩)
    · exact h.connecting w hbefore hold
    · rcases hcloses w hclose with hmember | hheard
      · have hlistening := ((h.member_iff w).mp hmember).1
        rw [hbefore] at hlistening
        cases hlistening
      · exact hsession hheard

variable {unspecified : ℕ → Unspecified} {inputs : List (SocketEvent ⊕ StompCall)} {n : ℕ}
  {heard : List (ServerNotice Empty ⊕ StompCall)}

theorem obeys_webSocketServer :
    Obeys (WebSocketServer.machine : Machine (WebSocketServer Empty) _ (ServerNotice Empty)) :=
  fun _ _ _ _ h => (Prod.mk.inj (Option.some.inj h)).2.symm

/-- A run of both is a run of each, in which all sessions are announced first. -/
theorem run_of_stack
    (h : (stack ids unspecified).run (stackStarted kHost) inputs = some ((sockets,n,server),heard)) :
    (∃ socketInputs phases, WebSocketServer.Attended socketInputs sockets
      (heard.filterMap Sum.getLeft?) phases) ∧ n = heard.length ∧
    (started kHost).run ids (heardEvents unspecified heard) = some server ∧
      AnnouncedFirst (heardEvents unspecified heard) := by
  obtain ⟨socketInputs,orders,hsockets,hserver,-,-⟩ := Machine.loop_run obeys_webSocketServer h
  obtain ⟨phases,hattended⟩ := WebSocketServer.run_attended hsockets
  obtain ⟨hn,hrun⟩ := machine_run hserver
  exact ⟨⟨socketInputs,phases,hattended⟩,hn,hrun,announcedFirst_heardEvents (pairwise_notices
    fun idx => (sessionProtocol_called (hattended.follows idx)).order)⟩

theorem close_mem_orders (item : ServerNotice Empty ⊕ StompCall) (actions : List (ℕ × SessionAction))
    (w : ℕ) : SocketOrder.close w none ∈ stopOrder item ++ actions.map socketOrder ↔
      (w,.close) ∈ actions := by
  have hstop : SocketOrder.close w none ∉ stopOrder item := by
    rcases item with notice | call
    · simp [stopOrder]
    · cases call <;> simp [stopOrder]
  rw [List.mem_append,or_iff_right hstop,List.mem_map]
  constructor
  · rintro ⟨⟨w',action⟩,hmem,horder⟩
    cases action with
    | send text => cases horder
    | close =>
      obtain rfl : w' = w := by simpa [socketOrder] using horder
      exact hmem
  · exact fun hmem => ⟨_,hmem,rfl⟩

theorem Mirrors.hear (h : Mirrors server sockets phases) {item : ServerNotice Empty ⊕ StompCall}
    (htells : Tells (heardEvent (unspecified n) item) phases phases') (hserver : Consistent ids server)
    (hsessions : ∀ w, phases' w ≠ .connecting → w < sockets.sessions.length) {n' : ℕ}
    {orders : List (SocketOrder Empty)} {notices : List (ServerNotice Empty)}
    (hstep : (machine ids unspecified).step (n,server) item = some ((n',server'),orders))
    (horders : WebSocketServer.machine.run sockets (orders.map .inr) = some (sockets',notices)) :
    Mirrors server' sockets' phases' := by
  obtain ⟨next,hperform,heq⟩ := Option.map_eq_some_iff.mp hstep
  obtain ⟨⟨rfl,rfl⟩,rfl⟩ := by simpa only [Prod.mk.injEq] using heq
  refine h.perform htells hserver hperform hsessions fun w => ?_
  rw [(WebSocketServer.closedAt_orders horders).2,close_mem_orders]

theorem mirrors_of_run
    (h : (stack ids unspecified).run (stackStarted kHost) inputs = some ((sockets,n,server),heard)) :
    ∃ phases,
      Follows sessionProtocol ((heard.filterMap Sum.getLeft?).filterMap ServerNotice.call?) phases ∧
      Mirrors server sockets phases := by
  refine Machine.run_induction (motive := fun _ state heard => ∃ phases,
    Follows sessionProtocol ((heard.filterMap Sum.getLeft?).filterMap ServerNotice.call?) phases ∧
      Mirrors state.2.2 state.1 phases) ⟨fun _ => .connecting,follows_nil _,?_⟩ ?_ h
  · exact ⟨by simp [stackStarted,started,IsMember],
      fun w _ => by simp [stackStarted,WebSocketServer.ClosedAt,WebSocketServer.started,
        WebSocketServer.run,WebSocketServer.acceptConnection,WebSocketServer.created,
        ErrorCode.isError]⟩
  rintro inputs input ⟨sockets,n,server⟩ ⟨sockets',n',server'⟩ heard now hrun ⟨phases,hfollows,h⟩ hstep
  obtain ⟨⟨socketInputs,phases₀,hattended⟩,rfl,hserver,hfirst⟩ := run_of_stack hrun
  have hconsistent : Consistent ids server := (running_of_run hfirst.once hserver).consistent
  obtain rfl : phases₀ = phases := funext fun w =>
    Option.some.inj ((hattended.follows w).symm.trans (hfollows w))
  cases input with
  | inl event =>
    simp only [stack,Machine.loop,bind,Option.bind_eq_some_iff,pure,Option.some.injEq,Prod.mk.injEq,
      Prod.exists] at hstep
    obtain ⟨sockets₁,notices,hsocket,n₁,server₁,orders,hparty,sockets₂,quiet,horders,
      ⟨rfl,rfl,rfl⟩,rfl⟩ := hstep
    have hmid : Mirrors server sockets₁ phases₀ :=
      ⟨fun w => by rw [h.member_iff,WebSocketServer.closedAt_event hsocket],
        fun w hw => by rw [WebSocketServer.closedAt_event hsocket]; exact h.connecting w hw⟩
    obtain ⟨phases',hnext⟩ := hattended.step hsocket
    have hborn : ∀ w, phases' w ≠ .connecting → w < sockets₁.sessions.length := by
      intro w hw
      by_contra hlt
      exact hw (hnext.connecting (not_lt.mp hlt))
    have hlater : ∀ w, sessionProtocol.run (phases₀ w)
        (actionsOf (notices.filterMap ServerNotice.call?) w) = some (phases' w) := by
      refine hattended.follows.later ?_
      rw [← List.filterMap_append]
      exact hnext.follows
    refine ⟨phases',?_,?_⟩
    · have hheard : (notices.map (Sum.inl : _ → _ ⊕ StompCall)).filterMap Sum.getLeft? = notices := by
        rw [List.filterMap_map]
        simp
      rw [List.filterMap_append,hheard]
      exact hnext.follows
    · obtain ⟨⟨next,notice⟩,-,heq⟩ := Option.map_eq_some_iff.mp hsocket
      obtain ⟨rfl,rfl⟩ := Prod.mk.inj heq
      cases notice with
      | none =>
        obtain rfl : phases₀ = phases' := funext fun w => Option.some.inj (hlater w)
        obtain ⟨⟨rfl,rfl⟩,rfl⟩ := by simpa using hparty
        obtain ⟨rfl,-⟩ := by simpa using horders
        exact hmid
      | some notice =>
        have htells : Tells (heardEvent (unspecified heard.length) (.inl notice)) phases₀ phases' :=
          tells_notice _ notice (by
            cases hcall : notice.call? <;> simpa [hcall,List.filterMap_cons] using hlater)
        exact hmid.hear htells hconsistent hborn (Machine.run_singleton_eq_some.mp hparty) horders
  | inr call =>
    simp only [stack,Machine.loop,bind,Option.bind_eq_some_iff,pure,Option.some.injEq,Prod.mk.injEq,
      Prod.exists] at hstep
    obtain ⟨n₁,server₁,orders,hparty,sockets₂,quiet,horders,⟨rfl,rfl,rfl⟩,rfl⟩ := hstep
    have htells : Tells (heardEvent (unspecified heard.length) (.inr call)) phases₀ phases₀ :=
      tells_call _ call
    refine ⟨phases₀,by simpa [List.filterMap_cons] using hfollows,?_⟩
    refine h.hear htells hconsistent (fun w hw => ?_) hparty horders
    by_contra hlt
    exact hw (hattended.connecting (not_lt.mp hlt))

/-- What the two servers together keep in every run, whatever the sockets and the user do. -/
structure Serves (ids : IdGenerator) (kHost : Bytes) (events : List (ServerEvent ℕ))
    (server : StompServer ℕ) : Prop where
  run : (started kHost).run ids events = some server
  announcedFirst : AnnouncedFirst events
  frames : ∀ w, FrameOrder (server.framesTo w)
  closes : ∀ w, SilentAfterClose (actionsOf server.written w)
  callbacks : ∀ id, CallbackOrder (server.callbacksFor id)
  size_eq : server.sessions.size = server.connections.size

theorem serves_of_run (ids : IdGenerator) (unspecified : ℕ → Unspecified) (kHost : Bytes)
    (inputs : List (SocketEvent ⊕ StompCall))
    (h : (stack ids unspecified).run (stackStarted kHost) inputs = some ((sockets,n,server),heard)) :
    Serves ids kHost (heardEvents unspecified heard) server := by
  obtain ⟨-,-,hrun,hfirst⟩ := run_of_stack h
  obtain ⟨hrunning,writes,calls,horderly⟩ := run_orderly hfirst hrun
  refine ⟨hrun,hfirst,?_,?_,?_,hrunning.consistent.size_eq⟩
  · exact fun w => (frameProtocol_run (horderly.written w)).1.frameOrder
  · exact fun w => (frameProtocol_run (horderly.written w)).2.1
  · exact fun id => (callProtocol_posted (horderly.posted id)).callbackOrder

/-- In every run, the server has connections for the open sessions and for no others. -/
theorem connections_open (ids : IdGenerator) (unspecified : ℕ → Unspecified) (kHost : Bytes)
    (inputs : List (SocketEvent ⊕ StompCall))
    (h : (stack ids unspecified).run (stackStarted kHost) inputs = some ((sockets,n,server),heard))
    (w : ℕ) : server.connections.find w ≠ none ↔ sockets.Open w := by
  obtain ⟨⟨socketInputs,phases₀,hattended⟩,-⟩ := run_of_stack h
  obtain ⟨phases,hfollows,hmirrors⟩ := mirrors_of_run h
  obtain rfl : phases₀ = phases := funext fun w =>
    Option.some.inj ((hattended.follows w).symm.trans (hfollows w))
  rw [hattended.open_iff]
  exact hmirrors.member_iff w

/-- Two sessions connect, and the first of them completes its handshake and is closed by the user. -/
def stackInputs : List (SocketEvent ⊕ StompCall) :=
  [.inl (.accepted .success),.inl (.accepted .success),
    .inl (.completed 0 0 .success []),.inl (.completed 1 0 .success []),
    .inl (.completed 0 0 .success []),.inl (.completed 1 0 .success []),
    .inl (.completed 0 0 .success []),.inl (.completed 1 0 .success []),
    .inl (.completed 0 0 .success (ascii "STOMP\naccept-version:1.2\nhost:localhost\n\n\x00")),
    .inr (.close (ascii "a")),.inl (.completed 0 1 .success [])]

theorem stackInputs_isSome : ((stack .simple fun _ => 0).run (stackStarted (ascii "localhost"))
    stackInputs).isSome := by decide +kernel

theorem serves_stackInputs : ∃ sockets n server heard,
    (stack .simple fun _ => 0).run (stackStarted (ascii "localhost")) stackInputs =
      some ((sockets,n,server),heard) ∧
    Serves .simple (ascii "localhost") (heardEvents (fun _ => 0) heard) server := by
  obtain ⟨⟨⟨sockets,n,server⟩,heard⟩,hrun⟩ := Option.isSome_iff_exists.mp stackInputs_isSome
  exact ⟨sockets,n,server,heard,hrun,serves_of_run .simple _ (ascii "localhost") stackInputs hrun⟩

theorem connections_stackInputs : ∃ sockets n server heard,
    (stack .simple fun _ => 0).run (stackStarted (ascii "localhost")) stackInputs =
      some ((sockets,n,server),heard) ∧
    ∀ w, server.connections.find w ≠ none ↔ sockets.Open w := by
  obtain ⟨⟨⟨sockets,n,server⟩,heard⟩,hrun⟩ := Option.isSome_iff_exists.mp stackInputs_isSome
  exact ⟨sockets,n,server,heard,hrun,
    connections_open .simple _ (ascii "localhost") stackInputs hrun⟩

end StompServer
end QuietRoute
