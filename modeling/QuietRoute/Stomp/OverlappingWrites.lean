import QuietRoute.Protocol.Typestate
import QuietRoute.Stomp.ProtocolViolations
import QuietRoute.Stomp.ServerReplies

/-! The writes on the streams of the sessions. `WebSocketSession::Send` starts one at once, and it
goes on until it completes. A stream takes one write at a time, and nothing makes a session wait. -/
namespace QuietRoute

open StompFrame Typestate

def SessionAction.text? : SessionAction → Option Bytes
  | send message => some message
  | close => none

/-- An event of the server, or the end of one of the writes on the stream of a session. -/
inductive StreamEvent (Session : Type)
  | server (event : ServerEvent Session)
  | completed (wsSession : Session) (idx : ℕ)

def StreamEvent.server? {Session : Type} : StreamEvent Session → Option (ServerEvent Session)
  | server event => some event
  | completed _ _ => none

/-- The server and the writes that have not completed. -/
structure Streams (Session : Type) where
  server : StompServer Session
  writing : Session → List Bytes

/-- What the actions of an event start to write on the stream of a session. -/
def startedWrites {Session : Type} [DecidableEq Session] (server server' : StompServer Session)
    (wsSession : Session) : List Bytes :=
  (actionsOf (server'.written.drop server.written.length) wsSession).filterMap SessionAction.text?

namespace Streams

variable {Session : Type} [DecidableEq Session]

def started (kHost : Bytes) : Streams Session := ⟨.started kHost,fun _ => []⟩

/-- `none` when parsing a message leaves by an exception, or when there is no such write. -/
def perform (ids : IdGenerator) (streams : Streams Session) :
    StreamEvent Session → Option (Streams Session)
  | .server event =>
    (streams.server.perform ids event).map fun server =>
      ⟨server,fun w => streams.writing w ++ startedWrites streams.server server w⟩
  | .completed wsSession idx =>
    let writes := streams.writing wsSession
    if idx < writes.length then
      some {streams with writing := Function.update streams.writing wsSession (writes.eraseIdx idx)}
    else none

def run (ids : IdGenerator) (streams : Streams Session) (events : List (StreamEvent Session)) :
    Option (Streams Session) := events.foldlM (perform ids) streams

def OneWrite (streams : Streams Session) : Prop := ∀ w, (streams.writing w).length ≤ 1

end Streams

namespace StompServer

variable {Session : Type} [DecidableEq Session] {ids : IdGenerator} {unspecified : Unspecified}
  {server server' : StompServer Session} {w : Session} {c : Connection} {msg : Bytes}
  {error : StompServerError} {event : ServerEvent Session}

/-- The events that get a frame written: any message of a known session that is parsed and is no
`SEND` frame, and a valid message to a connected client. -/
inductive WritesTo (ids : IdGenerator) (server : StompServer Session) :
    ServerEvent Session → Session → Prop
  | answer {unspecified : Unspecified} {w : Session} {c : Connection} {msg : Bytes}
      (hfind : server.connections.find w = some c)
      (hreturns : ofString unspecified.uninitialised msg ≠ none)
      (hother : ∀ frame, ofString unspecified.uninitialised msg = some (.kOk,frame) →
        frame.command ≠ .kSend) :
      WritesTo ids server (.sessionMessage unspecified false w msg) w
  | message {unspecified : Unspecified} {connectionId destination messageContent userRequestId : Bytes}
      {w : Session} {c : Connection} (hsession : server.sessions.find connectionId = some w)
      (hfind : server.connections.find w = some c) (hconnected : c.status = .kConnected)
      (hvalid : (assemble unspecified .kSend (messageHeaders
        (server.replyId ids userRequestId).1 destination messageContent) messageContent).1 = .kOk) :
      WritesTo ids server
        (.send unspecified connectionId destination messageContent userRequestId) w

/-! What one event starts to write. -/

theorem startedWrites_eq {actions : List (Session × SessionAction)}
    (h : server'.written = server.written ++ actions) (w : Session) :
    startedWrites server server' w = (actionsOf actions w).filterMap SessionAction.text? := by
  rw [startedWrites,h,List.drop_left]

theorem startedWrites_closes {actions : List (Session × SessionAction)}
    (h : server'.written = server.written ++ actions) (hclose : ∀ e ∈ actions, e.2 = .close)
    (w : Session) : startedWrites server server' w = [] := by
  rw [startedWrites_eq h,List.filterMap_eq_nil_iff]
  intro action haction
  have heq : action = .close := hclose (w,action) (mem_actionsOf.mp haction)
  rw [heq]
  rfl

theorem startedWrites_frame {text : Bytes} {rest : List SessionAction}
    (h : server'.written = server.written ++ (SessionAction.send text::rest).map fun a => (w,a))
    (hrest : rest = [] ∨ rest = [.close]) (w' : Session) :
    startedWrites server server' w' = if w = w' then [text] else [] := by
  rw [startedWrites_eq h]
  split_ifs with heq
  · rw [heq,actionsOf_self]
    rcases hrest with rfl | rfl <;> rfl
  · rw [actionsOf_ne heq]
    rfl

/-- A frame is written to the sessions that the event writes to, and to no others. -/
def WritesOnce (ids : IdGenerator) (server : StompServer Session) (event : ServerEvent Session)
    (server' : StompServer Session) : Prop :=
  ∀ w, (WritesTo ids server event w → ∃ text, startedWrites server server' w = [text]) ∧
    (¬WritesTo ids server event w → startedWrites server server' w = [])

theorem writesOnce_closes {actions : List (Session × SessionAction)}
    (h : server'.written = server.written ++ actions) (hclose : ∀ e ∈ actions, e.2 = .close)
    (hnone : ∀ w, ¬WritesTo ids server event w) : WritesOnce ids server event server' :=
  fun w => ⟨fun hto => absurd hto (hnone w),fun _ => startedWrites_closes h hclose w⟩

theorem writesOnce_frame {text : Bytes} {rest : List SessionAction}
    (h : server'.written = server.written ++ (SessionAction.send text::rest).map fun a => (w,a))
    (hrest : rest = [] ∨ rest = [.close]) (hto : ∀ w', WritesTo ids server event w' ↔ w = w') :
    WritesOnce ids server event server' := by
  intro w'
  rw [startedWrites_frame h hrest,hto]
  split_ifs with heq
  · exact ⟨fun _ => ⟨text,rfl⟩,fun hne => absurd heq hne⟩
  · exact ⟨fun heq' => absurd heq' heq,fun _ => rfl⟩

theorem closeConnection_frame (herror : error ≠ .kUndefinedError) : ∃ text,
    (server.closeConnection unspecified c w error).written = server.written ++
      [SessionAction.send text,.close].map fun a => (w,a) :=
  ⟨_,closeConnection_written herror⟩

theorem closeConnection_close :
    (server.closeConnection unspecified c w .kUndefinedError).written =
      server.written ++ [(w,.close)] := by
  simp [closeConnection,write]

theorem handleStomp_frame (hserver : Consistent ids server)
    (hfind : server.connections.find w = some c) (frame : StompFrame) : ∃ text rest,
    (rest = [] ∨ rest = [.close]) ∧ (server.handleStomp unspecified w c frame).written =
      server.written ++ (SessionAction.send text::rest).map fun a => (w,a) := by
  obtain ⟨error,herror,hclose⟩ | ⟨-,-,-,headers,hjoin⟩ :=
    @handleStomp_cases _ _ ids unspecified server hserver w c hfind frame
  · obtain ⟨text,hwritten⟩ := @closeConnection_frame _ _ unspecified server w c error herror
    exact ⟨text,[.close],Or.inr rfl,by rw [hclose,hwritten]⟩
  · exact ⟨_,[],Or.inl rfl,by rw [hjoin]; rfl⟩

theorem onWsSessionMessage_writesOnce (hserver : Consistent ids server) {ec : Bool}
    (h : server.onWsSessionMessage unspecified ec w msg = some server') :
    WritesOnce ids server (.sessionMessage unspecified ec w msg) server' := by
  obtain ⟨hnone,rfl⟩ | ⟨c,hfind,⟨rfl,rfl⟩ | ⟨rfl,error,frame,hframe,hcases⟩⟩ :=
    onWsSessionMessage_cases h
  · refine writesOnce_closes rfl (by simp) fun w' hto => ?_
    cases hto with
    | answer hfind => rw [hnone] at hfind; cases hfind
  · refine writesOnce_closes (List.append_nil _).symm (by simp) fun w' hto => ?_
    cases hto
  · have hto : (error ≠ .kOk ∨ frame.command ≠ .kSend) → ∀ w',
        WritesTo ids server (.sessionMessage unspecified false w msg) w' ↔ w = w' := by
      intro hother w'
      constructor
      · intro hto
        cases hto
        rfl
      · rintro rfl
        refine .answer hfind (by simp [hframe]) fun frame' hframe' => ?_
        rw [hframe] at hframe'
        obtain ⟨rfl,rfl⟩ := Prod.mk.inj (Option.some.inj hframe')
        exact hother.resolve_left (not_not.mpr rfl)
    rcases hcases with ⟨-,hstomp,rfl⟩ | ⟨rfl,hsend,rfl⟩ | ⟨hbad,what,hwhat,rfl⟩
    · obtain ⟨text,rest,hrest,hwritten⟩ :=
        @handleStomp_frame _ _ ids unspecified server w c hserver hfind frame
      exact writesOnce_frame hwritten hrest (hto (Or.inr (by simp [hstomp])))
    · have hno : ∀ w', ¬WritesTo ids server (.sessionMessage unspecified false w msg) w' := by
        intro w' hto
        cases hto with
        | answer _ _ hother => exact hother frame hframe hsend
      rw [handleSend]
      split_ifs
      · exact writesOnce_closes closeConnection_close (by simp) hno
      · exact writesOnce_closes (List.append_nil _).symm (by simp) hno
    · obtain ⟨text,hwritten⟩ := @closeConnection_frame _ _ unspecified server w c what hwhat
      exact writesOnce_frame hwritten (Or.inr rfl) (hto (hbad.imp_right And.right))

theorem send_of_assembled {connectionId destination messageContent userRequestId : Bytes}
    (hsession : server.sessions.find connectionId = some w)
    (hfind : server.connections.find w = some c) (hconnected : c.status = .kConnected)
    {ec : StompError} {frame : StompFrame}
    (hassemble : assemble unspecified .kSend (messageHeaders (server.replyId ids userRequestId).1
      destination messageContent) messageContent = (ec,frame)) :
    (server.send ids unspecified connectionId destination messageContent userRequestId).2.written =
      server.written ++ if ec = .kOk then [(w,.send frame.plain)] else [] := by
  rw [messageHeaders] at hassemble
  rw [send]
  simp only [hsession,hfind]
  rw [if_neg (not_not.mpr hconnected)]
  by_cases hempty : userRequestId = []
  · simp only [replyId,hempty,if_true,generateId] at hassemble ⊢
    simp only [hassemble]
    by_cases hec : ec = .kOk <;> simp [hec,write]
  · simp only [replyId,hempty,if_false] at hassemble ⊢
    simp only [hassemble]
    by_cases hec : ec = .kOk <;> simp [hec,write]

theorem send_writesOnce (hserver : Consistent ids server)
    (connectionId destination messageContent userRequestId : Bytes) : WritesOnce ids server
      (.send unspecified connectionId destination messageContent userRequestId)
      (server.send ids unspecified connectionId destination messageContent userRequestId).2 := by
  by_cases hclient : ∃ w c, server.sessions.find connectionId = some w ∧
      server.connections.find w = some c ∧ c.status = .kConnected
  · obtain ⟨w,c,hsession,hfind,hconnected⟩ := hclient
    rcases hassemble : assemble unspecified .kSend (messageHeaders
      (server.replyId ids userRequestId).1 destination messageContent) messageContent with ⟨ec,frame⟩
    have hwritten := send_of_assembled hsession hfind hconnected hassemble
    split_ifs at hwritten with hec
    · have hframe : _ = server.written ++ [SessionAction.send frame.plain].map fun a => (w,a) :=
        hwritten
      refine writesOnce_frame hframe (Or.inl rfl) fun w' => ⟨fun hto => ?_,?_⟩
      · cases hto with
        | message hsession' => exact Option.some.inj (hsession.symm.trans hsession')
      · rintro rfl
        exact .message hsession hfind hconnected (by rw [hassemble,hec])
    · refine writesOnce_closes hwritten (by simp) fun w' hto => ?_
      cases hto with
      | message _ _ _ hvalid => exact hec (by rw [← hvalid,hassemble])
  · have hnot : ∀ w c, server.connections.find w = some c → c.id = connectionId →
        c.status ≠ .kConnected := by
      intro w c hfind hid hconnected
      exact hclient ⟨w,c,(hserver.sessions_iff connectionId w).mpr ⟨c,hfind,hid⟩,hfind,hconnected⟩
    rw [send_of_not_connected hserver hnot]
    refine writesOnce_closes (List.append_nil _).symm (by simp) fun w' hto => ?_
    cases hto with
    | message hsession hfind hconnected => exact hclient ⟨_,_,hsession,hfind,hconnected⟩

theorem onWsSessionDisconnect_written (ec : Bool) (w : Session) :
    (server.onWsSessionDisconnect ec w).written = server.written := by
  rw [onWsSessionDisconnect]
  split
  · rfl
  · simp only
    split_ifs <;> rfl

theorem ofString_of_onWsSessionMessage (hfind : server.connections.find w = some c)
    (h : server.onWsSessionMessage unspecified false w msg = none) :
    ofString unspecified.uninitialised msg = none := by
  by_contra hreturns
  obtain ⟨⟨ec,frame⟩,hread⟩ := Option.ne_none_iff_exists'.mp hreturns
  simp only [onWsSessionMessage,hfind,hread] at h
  change (if ec ≠ .kOk then _ else _) = none at h
  split_ifs at h
  split at h <;> cases h

theorem perform_writesOnce (hserver : Consistent ids server)
    (h : server.perform ids event = some server') : WritesOnce ids server event server' := by
  have hsilent : server'.written = server.written → (∀ w, ¬WritesTo ids server event w) →
      WritesOnce ids server event server' :=
    fun heq hno => writesOnce_closes (by rw [heq,List.append_nil]) (by simp) hno
  cases event with
  | sessionConnect ec w =>
    have hno : ∀ w', ¬WritesTo ids server (.sessionConnect ec w) w' := by rintro _ ⟨⟩
    obtain rfl := Option.some.inj h
    cases ec with
    | true => exact writesOnce_closes rfl (by simp) hno
    | false => exact hsilent rfl hno
  | sessionMessage u ec w msg => exact onWsSessionMessage_writesOnce hserver h
  | sessionDisconnect ec w =>
    obtain rfl := Option.some.inj h
    exact hsilent (onWsSessionDisconnect_written ec w) (by rintro _ ⟨⟩)
  | send u connectionId destination messageContent userRequestId =>
    obtain rfl := Option.some.inj h
    exact send_writesOnce hserver connectionId destination messageContent userRequestId
  | close u connectionId =>
    have hno : ∀ w, ¬WritesTo ids server (.close u connectionId) w := by rintro _ ⟨⟩
    obtain rfl := Option.some.inj h
    obtain ⟨heq,-⟩ | ⟨w,c,-,-,heq⟩ :=
      @close_cases _ _ ids u server hserver connectionId
    · exact hsilent (by rw [heq]) hno
    · have hwritten := @closeConnection_close _ _ u server w c
      rw [← heq] at hwritten
      exact writesOnce_closes hwritten (by simp) hno
  | stop =>
    obtain rfl := Option.some.inj h
    refine writesOnce_closes rfl (fun e he => ?_) (by rintro _ ⟨⟩)
    obtain ⟨entry,-,rfl⟩ := List.mem_map.mp he
    rfl
  | serverDisconnect ec =>
    obtain rfl := Option.some.inj h
    exact hsilent rfl (by rintro _ ⟨⟩)

end StompServer

namespace Streams

open StompServer

variable {Session : Type} [DecidableEq Session] {ids : IdGenerator} {streams streams' : Streams Session}
  {event : StreamEvent Session}

/-- The events that get a frame written to a session. -/
def Writes (ids : IdGenerator) (streams : Streams Session) (event : StreamEvent Session) (w : Session) :
    Prop := ∃ e ∈ event.server?, WritesTo ids streams.server e w

/-- An event that writes to no session whose last write goes on. -/
def Waits (ids : IdGenerator) (streams : Streams Session) (event : StreamEvent Session) : Prop :=
  ∀ w, streams.Writes ids event w → streams.writing w = []

/-- Between two events that get a frame written to one session, a write of the session completes. -/
def Paced (ids : IdGenerator) (kHost : Bytes) (events : List (StreamEvent Session)) : Prop :=
  ∀ past event between event' streams streams' w, past ++ event::between ++ [event'] <+: events →
    (started kHost).run ids past = some streams → streams.Writes ids event w →
    (started kHost).run ids (past ++ event::between) = some streams' → streams'.Writes ids event' w →
      ∃ idx, .completed w idx ∈ between

theorem writes_server {event : ServerEvent Session} {w : Session} :
    streams.Writes ids (.server event) w ↔ WritesTo ids streams.server event w := by
  simp [Writes,StreamEvent.server?]

theorem not_writes_completed (w w' : Session) (idx : ℕ) :
    ¬streams.Writes ids (.completed w idx) w' := by simp [Writes,StreamEvent.server?]

theorem run_append (events events' : List (StreamEvent Session)) :
    streams.run ids (events ++ events') =
      (streams.run ids events).bind fun streams' => streams'.run ids events' := List.foldlM_append

theorem run_concat (events : List (StreamEvent Session)) (event : StreamEvent Session) :
    streams.run ids (events ++ [event]) =
      (streams.run ids events).bind fun streams' => streams'.perform ids event := by
  rw [run_append]
  exact congrArg _ (funext fun streams' => Option.bind_fun_some _)

theorem writing_step (hserver : Consistent ids streams.server)
    (h : streams.perform ids event = some streams') (w : Session) :
    (streams.Writes ids event w ∧ ∃ text, streams'.writing w = streams.writing w ++ [text]) ∨
      (¬streams.Writes ids event w ∧ (streams'.writing w = streams.writing w ∨
        ∃ idx < (streams.writing w).length, event = .completed w idx ∧
          streams'.writing w = (streams.writing w).eraseIdx idx)) := by
  cases event with
  | server event =>
    obtain ⟨server',hperform,rfl⟩ := Option.map_eq_some_iff.mp h
    have honce := perform_writesOnce hserver hperform w
    rw [writes_server]
    by_cases hto : WritesTo ids streams.server event w
    · obtain ⟨text,htext⟩ := honce.1 hto
      exact Or.inl ⟨hto,text,congrArg _ htext⟩
    · exact Or.inr ⟨hto,Or.inl ((congrArg _ (honce.2 hto)).trans (List.append_nil _))⟩
  | completed w' idx =>
    simp only [perform,Option.ite_none_right_eq_some,Option.some.injEq] at h
    obtain ⟨hidx,rfl⟩ := h
    refine Or.inr ⟨not_writes_completed w' w idx,?_⟩
    simp only [Function.update_apply]
    split_ifs with heq
    · exact Or.inr ⟨idx,heq ▸ hidx,by rw [heq],by rw [heq]⟩
    · exact Or.inl rfl

/-- One event keeps the writes apart exactly if it waits. -/
theorem oneWrite_step_iff (hserver : Consistent ids streams.server) (hone : streams.OneWrite)
    (h : streams.perform ids event = some streams') : streams'.OneWrite ↔ streams.Waits ids event := by
  constructor
  · intro hone' w hwrites
    rcases writing_step hserver h w with ⟨-,text,htext⟩ | ⟨hnot,-⟩
    · have hlen := hone' w
      rw [htext,List.length_append,List.length_singleton] at hlen
      exact List.length_eq_zero_iff.mp (by omega)
    · exact absurd hwrites hnot
  · intro hwaits w
    rcases writing_step hserver h w with ⟨hwrites,text,htext⟩ | ⟨-,hsame | ⟨idx,-,-,herase⟩⟩
    · rw [htext,hwaits w hwrites]
      exact le_refl 1
    · exact hsame ▸ hone w
    · exact herase ▸ (List.length_eraseIdx_le _ _).trans (hone w)

theorem waits_of_none (h : streams.perform ids event = none) : streams.Waits ids event := by
  rintro w ⟨e,he,hto⟩
  cases event with
  | completed w' idx => cases he
  | server event =>
    obtain rfl : event = e := Option.some.inj he
    rw [perform,Option.map_eq_none_iff] at h
    cases hto with
    | message => cases h
    | answer hfind hreturns => exact absurd (ofString_of_onWsSessionMessage hfind h) hreturns

theorem running_of_run {kHost : Bytes} {events : List (StreamEvent Session)}
    (honce : AnnouncedOnce (events.filterMap StreamEvent.server?))
    (hrun : (started kHost).run ids events = some streams) :
    Running ids (events.filterMap StreamEvent.server?) streams.server := by
  induction events using List.reverseRecOn generalizing streams with
  | nil =>
    rw [← Option.some.inj hrun]
    exact running_started ids kHost
  | append_singleton events event ih =>
    rw [run_concat,Option.bind_eq_some_iff] at hrun
    obtain ⟨before,hbefore,hlast⟩ := hrun
    rw [List.filterMap_append] at honce ⊢
    have hrunning := ih honce.left hbefore
    cases event with
    | server event =>
      obtain ⟨server',hperform,rfl⟩ := Option.map_eq_some_iff.mp hlast
      exact (hrunning.step honce hperform).1
    | completed w idx =>
      simp only [perform,Option.ite_none_right_eq_some,Option.some.injEq] at hlast
      obtain ⟨-,rfl⟩ := hlast
      have hnone : [StreamEvent.completed w idx].filterMap StreamEvent.server? = [] := rfl
      rwa [hnone,List.append_nil]

variable {kHost : Bytes} {events past between : List (StreamEvent Session)} {w : Session}

omit [DecidableEq Session] in
theorem announcedOnce_before (honce : AnnouncedOnce (events.filterMap StreamEvent.server?))
    (hpast : past <+: events) : AnnouncedOnce (past.filterMap StreamEvent.server?) := by
  obtain ⟨future,rfl⟩ := hpast
  rw [List.filterMap_append] at honce
  exact honce.left

theorem consistent_before (honce : AnnouncedOnce (events.filterMap StreamEvent.server?))
    (hpast : past <+: events) (hrun : (started kHost).run ids past = some streams) :
    Consistent ids streams.server :=
  (running_of_run (announcedOnce_before honce hpast) hrun).consistent

/-- A write that goes on was started by an event after which none of the session has completed. -/
theorem exists_writes (honce : AnnouncedOnce (events.filterMap StreamEvent.server?))
    (hone : ∀ past streams, past <+: events → (started kHost).run ids past = some streams →
      streams.OneWrite)
    (hevents : (started kHost).run ids events = some streams) (hwriting : streams.writing w ≠ []) :
    ∃ past event between before, events = past ++ event::between ∧
      (started kHost).run ids past = some before ∧ before.Writes ids event w ∧
      ∀ idx, .completed w idx ∉ between := by
  induction events using List.reverseRecOn generalizing streams with
  | nil =>
    rw [← Option.some.inj hevents] at hwriting
    exact absurd rfl hwriting
  | append_singleton events event ih =>
    rw [run_concat,Option.bind_eq_some_iff] at hevents
    obtain ⟨mid,hmid,hperform⟩ := hevents
    have hinit : events <+: events ++ [event] := List.prefix_append events [event]
    have hserver := consistent_before honce hinit hmid
    rw [List.filterMap_append] at honce
    have hearlier := fun hpending => ih honce.left
      (fun past before hpast => hone past before (hpast.trans hinit)) hmid hpending
    rcases writing_step hserver hperform w with ⟨hwrites,-⟩ | ⟨-,hcases⟩
    · exact ⟨events,event,[],mid,rfl,hmid,hwrites,fun idx => List.not_mem_nil⟩
    · have hlater : (∀ idx, event ≠ .completed w idx) ∧ mid.writing w ≠ [] := by
        rcases hcases with hsame | ⟨idx,hidx,-,herase⟩
        · refine ⟨?_,hsame ▸ hwriting⟩
          rintro idx rfl
          simp only [perform,Option.ite_none_right_eq_some,Option.some.injEq] at hperform
          obtain ⟨hidx,rfl⟩ := hperform
          have hlength := congrArg List.length hsame
          simp only [Function.update_self,List.length_eraseIdx_of_lt hidx] at hlength
          omega
        · have hlength := congrArg List.length herase
          have hmost := hone events mid hinit hmid w
          rw [List.length_eraseIdx_of_lt hidx] at hlength
          exact absurd (List.length_eq_zero_iff.mp (by omega)) hwriting
      obtain ⟨past,first,between,before,rfl,hbefore,hwrites,hnone⟩ := hearlier hlater.2
      refine ⟨past,first,between ++ [event],before,by simp,hbefore,hwrites,fun idx hmem => ?_⟩
      rcases List.mem_append.mp hmem with hold | hnew
      · exact hnone idx hold
      · exact hlater.1 idx (List.mem_singleton.mp hnew).symm

theorem writing_run (honce : AnnouncedOnce ((past ++ between).filterMap StreamEvent.server?))
    (hpast : (started kHost).run ids past = some streams)
    (hrun : (started kHost).run ids (past ++ between) = some streams')
    (hnone : ∀ idx, .completed w idx ∉ between) (hwriting : streams.writing w ≠ []) :
    streams'.writing w ≠ [] := by
  induction between using List.reverseRecOn generalizing streams' with
  | nil =>
    rw [List.append_nil,hpast] at hrun
    exact Option.some.inj hrun ▸ hwriting
  | append_singleton between event ih =>
    rw [← List.append_assoc] at honce hrun
    rw [run_concat,Option.bind_eq_some_iff] at hrun
    obtain ⟨mid,hmid,hperform⟩ := hrun
    have hserver := consistent_before honce (List.prefix_append _ [event]) hmid
    rw [List.filterMap_append] at honce
    have hold := ih honce.left hmid fun idx hmem => hnone idx (List.mem_append_left _ hmem)
    rcases writing_step hserver hperform w with ⟨-,text,htext⟩ | ⟨-,hsame | ⟨idx,-,rfl,-⟩⟩
    · simp [htext]
    · exact hsame ▸ hold
    · exact absurd (List.mem_append_right _ List.mem_cons_self) (hnone idx)

/-- The first of two writes that are kept apart has completed before the second event. -/
theorem paced_of_oneWrite (honce : AnnouncedOnce (events.filterMap StreamEvent.server?))
    (hone : ∀ past streams, past <+: events → (started kHost).run ids past = some streams →
      streams.OneWrite) : Paced ids kHost events := by
  intro past event between event' streams streams' w hinit hbefore hwrites hafter hwrites'
  by_contra hnone
  have hearlier : past ++ event::between <+: events := (List.prefix_append _ [event']).trans hinit
  have hsplit : past ++ event::between = past ++ [event] ++ between := by simp
  have hfirst : past ++ [event] <+: events := by
    rw [hsplit] at hearlier
    exact (List.prefix_append _ between).trans hearlier
  -- the first event starts a write, which still goes on at the second one
  rw [hsplit,run_append,Option.bind_eq_some_iff] at hafter
  obtain ⟨mid,hmid,hbetween⟩ := hafter
  have hperform := hmid
  rw [run_concat,hbefore,Option.bind_some] at hperform
  have hserver := consistent_before honce ((List.prefix_append past [event]).trans hfirst) hbefore
  have hgoes : mid.writing w ≠ [] := by
    rcases writing_step hserver hperform w with ⟨-,text,htext⟩ | ⟨hnot,-⟩
    · simp [htext]
    · exact absurd hwrites hnot
  have hafter : (started kHost).run ids (past ++ event::between) = some streams' := by
    rw [hsplit,run_append,hmid,Option.bind_some,hbetween]
  have hstill := writing_run (announcedOnce_before honce (hsplit ▸ hearlier)) hmid (hsplit ▸ hafter)
    (not_exists.mp hnone) hgoes
  refine hstill ?_
  cases hlast : streams'.perform ids event' with
  | none => exact waits_of_none hlast w hwrites'
  | some streams'' =>
    have hrun : (started kHost).run ids (past ++ event::between ++ [event']) = some streams'' := by
      rw [run_concat,hafter,Option.bind_some,hlast]
    exact (oneWrite_step_iff (consistent_before honce hearlier hafter) (hone _ _ hearlier hafter)
      hlast).mp (hone _ _ hinit hrun) w hwrites'

theorem oneWrite_of_paced (honce : AnnouncedOnce (events.filterMap StreamEvent.server?))
    (hpaced : Paced ids kHost events) : ∀ past streams, past <+: events →
      (started kHost).run ids past = some streams → streams.OneWrite := by
  have hinit : ∀ past, past <+: events → ∀ past' streams, past' <+: past →
      (started kHost).run ids past' = some streams → streams.OneWrite := by
    intro past hpast
    induction past using List.reverseRecOn with
    | nil =>
      intro past' streams hnil hrun w
      rw [List.prefix_nil.mp hnil] at hrun
      rw [← Option.some.inj hrun]
      exact Nat.zero_le 1
    | append_singleton past event' ih =>
      have hbefore : past <+: events := (List.prefix_append past [event']).trans hpast
      have hone := ih hbefore
      intro past' streams' hpast' hrun
      rcases List.prefix_concat_iff.mp hpast' with rfl | hearlier
      · rw [run_concat,Option.bind_eq_some_iff] at hrun
        obtain ⟨streams,hrun,hperform⟩ := hrun
        refine (oneWrite_step_iff (consistent_before honce hbefore hrun)
          (hone past streams List.prefix_rfl hrun) hperform).mpr fun w hwrites' => ?_
        by_contra hgoes
        obtain ⟨first,event,between,before,rfl,hfirst,hwrites,hnone⟩ :=
          exists_writes (announcedOnce_before honce hbefore) hone hrun hgoes
        obtain ⟨idx,hmem⟩ := hpaced first event between event' before streams w hpast hfirst
          hwrites hrun hwrites'
        exact hnone idx hmem
      · exact hone past' streams' hearlier hrun
  exact fun past streams hpast hrun => hinit past hpast past streams List.prefix_rfl hrun

/-- In every run the writes of each session stay apart exactly if between any two events that get a frame
written to one session, a write of the session completes. -/
theorem oneWrite_iff (ids : IdGenerator) (kHost : Bytes) (events : List (StreamEvent Session))
    (honce : AnnouncedOnce (events.filterMap StreamEvent.server?)) :
    (∀ past streams, past <+: events → (started kHost).run ids past = some streams →
        streams.OneWrite) ↔ Paced ids kHost events :=
  ⟨paced_of_oneWrite honce,oneWrite_of_paced honce⟩

/-- A client whose handshake is answered sends an empty message next. -/
def handshake : List (StreamEvent ℕ) :=
  [.server (.sessionConnect false 0),
    .server (.sessionMessage 0 false 0 (ascii "STOMP\naccept-version:1.2\nhost:localhost\n\n\x00"))]

/-- The end of the first write comes before the empty message. -/
def handshakeInTurn : List (StreamEvent ℕ) :=
  handshake ++ [.completed 0 0,.server (.sessionMessage 0 false 0 [])]

theorem paced_handshakeInTurn : Paced .simple (ascii "localhost") handshakeInTurn := by
  rintro past event between event' streams streams' w ⟨rest,hevents⟩ - hwrites - hwrites'
  simp only [handshakeInTurn,handshake,List.cons_append,List.nil_append,List.append_assoc] at hevents
  rcases past with _ | ⟨first,_ | ⟨second,_ | ⟨third,past⟩⟩⟩
  · obtain ⟨rfl,-⟩ := List.cons.inj hevents
    rw [writes_server] at hwrites
    cases hwrites
  · obtain ⟨rfl,hrest⟩ := List.cons.inj (List.cons.inj hevents).2
    rw [writes_server] at hwrites
    cases hwrites
    cases between with
    | nil =>
      obtain ⟨rfl,-⟩ := List.cons.inj hrest
      exact absurd hwrites' (not_writes_completed 0 0 0)
    | cons completed between =>
      obtain ⟨rfl,-⟩ := List.cons.inj hrest
      exact ⟨0,List.mem_cons_self⟩
  · obtain ⟨rfl,-⟩ := List.cons.inj (List.cons.inj (List.cons.inj hevents).2).2
    exact absurd hwrites (not_writes_completed 0 w 0)
  · have hlength := congrArg List.length hevents
    simp at hlength
    omega

/-- Then the ERROR frame is the only one that is still being written. -/
theorem oneWrite_handshake : ∃ streams, (started (ascii "localhost")).run .simple handshakeInTurn =
    some streams ∧ streams.OneWrite ∧ (streams.writing 0).length = 1 := by
  have hrun : ((started (ascii "localhost")).run .simple handshakeInTurn).map
      (fun streams => (streams.writing 0).length) = some 1 := by decide +kernel
  obtain ⟨streams,hstreams,hlength⟩ := Option.map_eq_some_iff.mp hrun
  exact ⟨streams,hstreams,(oneWrite_iff .simple (ascii "localhost") handshakeInTurn (by decide)).mpr
    paced_handshakeInTurn _ _ List.prefix_rfl hstreams,hlength⟩

/-- If the CONNECTED frame is still being written, the ERROR frame gets in its way. -/
theorem writes_overlap : ¬∀ (ids : IdGenerator) (kHost : Bytes) (events : List (StreamEvent ℕ))
    (streams : Streams ℕ), AnnouncedOnce (events.filterMap StreamEvent.server?) →
      (started kHost).run ids events = some streams → streams.OneWrite := by
  intro hclaim
  have hwrites : ((started (ascii "localhost")).run .simple
      (handshake ++ [.server (.sessionMessage 0 false 0 [])])).map
        (fun streams => (streams.writing 0).length) = some 2 := by decide +kernel
  obtain ⟨streams,hrun,htwo⟩ := Option.map_eq_some_iff.mp hwrites
  have hone := hclaim .simple (ascii "localhost") _ streams (by decide) hrun 0
  rw [htwo] at hone
  exact absurd hone (by decide)

end Streams
end QuietRoute
