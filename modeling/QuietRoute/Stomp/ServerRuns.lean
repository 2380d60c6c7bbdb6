import QuietRoute.Stomp.ServerMoves
import Mathlib.Data.List.Induction

/-! Runs of the server over the events of its sessions and the calls of its user: what one event does
to the maps and to what is written and posted. -/
namespace QuietRoute

open StompFrame

def commandOf (text : Bytes) : StompCommand := toCommand (text.takeWhile (· ≠ newLine))

theorem commandOf_plainText (command : StompCommand) (headers : Headers) (body : Bytes) :
    commandOf (plainText command headers body) = command := by
  have hline : ∀ c ∈ command.toString, decide (c ≠ newLine) = true := by
    intro c hc
    have hne : c ≠ newLine := fun heq => newLine_not_mem_command command (heq ▸ hc)
    simpa using hne
  rw [commandOf,plainText_eq,frameHead,List.append_assoc,List.takeWhile_append_of_pos hline,
    List.cons_append,List.takeWhile_cons_of_neg (by simp),List.append_nil,toCommand_toString]

theorem ofString_plain {uninitialised : ℕ} {text : Bytes} {ec : StompError} {frame : StompFrame}
    (h : ofString uninitialised text = some (ec,frame)) : frame.plain = text := by
  rw [ofString,parseAndValidateFrame] at h
  split at h
  · cases h
  · cases h
    rfl
  · cases h
    rfl

theorem assemble_plain (unspecified : Unspecified) (command : StompCommand) (headers : Headers)
    (body : Bytes) : (assemble unspecified command headers body).2.plain =
      plainText command (unspecified.arrange headers) body :=
  ofString_plain (assemble_eq_iff.mp rfl)

/-- What happens to a server. A `true` stands for the error of a WebSocket operation. -/
inductive ServerEvent (Session : Type)
  | sessionConnect (ec : Bool) (wsSession : Session)
  | sessionMessage (unspecified : Unspecified) (ec : Bool) (wsSession : Session) (msg : Bytes)
  | sessionDisconnect (ec : Bool) (wsSession : Session)
  | send (unspecified : Unspecified) (connectionId destination messageContent userRequestId : Bytes)
  | close (unspecified : Unspecified) (connectionId : Bytes)
  | stop
  | serverDisconnect (ec : Bool)

namespace ServerEvent

variable {Session : Type}

def session? : ServerEvent Session → Option Session
  | sessionConnect _ wsSession => some wsSession
  | sessionMessage _ _ wsSession _ => some wsSession
  | sessionDisconnect _ wsSession => some wsSession
  | _ => none

def announced? : ServerEvent Session → Option Session
  | sessionConnect _ wsSession => some wsSession
  | _ => none

def Delivers (event : ServerEvent Session) (wsSession : Session) (frame : StompFrame) : Prop :=
  ∃ unspecified msg, event = sessionMessage unspecified false wsSession msg ∧
    ofString unspecified.uninitialised msg = some (.kOk,frame)

end ServerEvent

namespace StompServer

variable {Session : Type} [DecidableEq Session]

/-- `none` when parsing a message leaves by an exception. -/
def perform (ids : IdGenerator) (server : StompServer Session) :
    ServerEvent Session → Option (StompServer Session)
  | .sessionConnect ec wsSession => some (server.onWsSessionConnect ids ec wsSession)
  | .sessionMessage unspecified ec wsSession msg =>
    server.onWsSessionMessage unspecified ec wsSession msg
  | .sessionDisconnect ec wsSession => some (server.onWsSessionDisconnect ec wsSession)
  | .send unspecified connectionId destination messageContent userRequestId =>
    some (server.send ids unspecified connectionId destination messageContent userRequestId).2
  | .close unspecified connectionId => some (server.close unspecified connectionId)
  | .stop => some server.stop
  | .serverDisconnect ec => some (server.onWsDisconnect ec)

def run (ids : IdGenerator) (server : StompServer Session) (events : List (ServerEvent Session)) :
    Option (StompServer Session) := events.foldlM (perform ids) server

variable {ids : IdGenerator} {unspecified : Unspecified} {server server' : StompServer Session}
  {event : ServerEvent Session}

theorem run_append (events events' : List (ServerEvent Session)) :
    server.run ids (events ++ events') =
      (server.run ids events).bind fun server' => server'.run ids events' := List.foldlM_append

theorem run_singleton (event : ServerEvent Session) :
    server.run ids [event] = server.perform ids event := by
  rw [run,List.foldlM_cons]
  exact Option.bind_fun_some _

/-- The handshake that makes a session a connection. -/
structure Handshake (kHost : Bytes) (frame : StompFrame) : Prop where
  command_eq : frame.command = .kStomp
  version_eq : frame.getHeaderValue .kAcceptVersion = kVersion
  host_eq : frame.getHeaderValue .kHost = kHost

inductive Change (ids : IdGenerator) (event : ServerEvent Session) (server : StompServer Session) :
    StompServer Session → Prop
  | silent (n : ℕ) : Change ids event server {server with generated := server.generated+n}
  | refused (w : Session) (hnew : server.connections.find w = none)
      (hsession : event.session? = some w) :
      Change ids event server (server.write w .close)
  | entered (w : Session) (hnew : server.connections.find w = none)
      (hannounced : event.announced? = some w) :
      Change ids event server {server with
        sessions := server.sessions.set (ids.nth server.generated) w
        connections := server.connections.set w ⟨ids.nth server.generated,.kPending⟩
        generated := server.generated+1}
  | dropped (w : Session) (c : Connection) (frames : List Bytes)
      (hfind : server.connections.find w = some c)
      (hframes : frames = [] ∨ ∃ text, frames = [text] ∧ commandOf text = .kError) :
      Change ids event server {server with
        sessions := server.sessions.erase c.id
        connections := server.connections.erase w
        written := server.written ++
          (frames.map SessionAction.send ++ [SessionAction.close]).map fun a => (w,a)}
  | accepted (w : Session) (c : Connection) (frame : StompFrame) (text : Bytes)
      (hfind : server.connections.find w = some c) (hpending : c.status = .kPending)
      (hdelivers : event.Delivers w frame) (hhandshake : Handshake server.kHost frame)
      (htext : commandOf text = .kConnected) :
      Change ids event server {server with
        connections := server.connections.set w {c with status := .kConnected}
        written := server.written ++ [(w,.send text)]
        posted := server.posted ++ [.onClientConnect .kOk c.id]}
  | heard (w : Session) (c : Connection) (frame : StompFrame)
      (hfind : server.connections.find w = some c) (hconnected : c.status = .kConnected)
      (hdelivers : event.Delivers w frame) (hcommand : frame.command = .kSend) :
      Change ids event server (server.post (.onClientMessage .kOk c.id
        (frame.getHeaderValue .kDestination) (frame.getHeaderValue .kId) frame.body))
  | lost (w : Session) (c : Connection) (ec : StompServerError)
      (hfind : server.connections.find w = some c) :
      Change ids event server {server with
        sessions := server.sessions.erase c.id
        connections := server.connections.erase w
        posted := server.posted ++
          if c.status = .kConnected then [.onClientDisconnect ec c.id] else []}
  | sent (w : Session) (c : Connection) (text : Bytes) (n : ℕ)
      (hfind : server.connections.find w = some c) (hconnected : c.status = .kConnected)
      (htext : commandOf text = .kSend) (hsession : event.session? = none) :
      Change ids event server {server with
        generated := server.generated+n
        written := server.written ++ [(w,.send text)]}
  | stopped : Change ids event server server.stop
  | ended (ec : StompServerError) : Change ids event server (server.post (.onDisconnect ec))

/-! The operations. -/

theorem change_stay : Change ids event server server := Change.silent 0

theorem closeConnection_change {w : Session} {c : Connection}
    (hfind : server.connections.find w = some c) (error : StompServerError) :
    Change ids event server (server.closeConnection unspecified c w error) := by
  rw [closeConnection]
  split_ifs
  · have hchange := @Change.dropped _ _ ids event server w c
      [(makeErrorFrame unspecified .kUnsupportedFrame).plain] hfind
      (Or.inr ⟨_,rfl,by rw [makeErrorFrame,assemble_plain,commandOf_plainText]⟩)
    simpa only [write,List.append_assoc,List.map_append,List.map_cons,List.map_nil] using hchange
  · exact Change.dropped w c [] hfind (Or.inl rfl)

theorem handleStomp_change (hserver : Consistent ids server) {w : Session} {c : Connection}
    {frame : StompFrame} (hfind : server.connections.find w = some c) (hdelivers : event.Delivers w frame)
    (hcommand : frame.command = .kStomp) :
    Change ids event server (server.handleStomp unspecified w c frame) := by
  obtain ⟨error,-,hclose⟩ | ⟨hversion,hhost,hpending,headers,hjoin⟩ :=
    @handleStomp_cases _ _ ids unspecified server hserver w c hfind frame
  · rw [hclose]
    exact closeConnection_change hfind error
  · rw [hjoin]
    exact Change.accepted w c frame _ hfind hpending hdelivers ⟨hcommand,hversion,hhost⟩
      (by rw [assemble_plain,commandOf_plainText])

theorem handleSend_change {w : Session} {c : Connection} {frame : StompFrame}
    (hfind : server.connections.find w = some c) (hdelivers : event.Delivers w frame)
    (hcommand : frame.command = .kSend) :
    Change ids event server (server.handleSend unspecified w c frame) := by
  rw [handleSend]
  split_ifs with hconnected
  · exact closeConnection_change hfind _
  · exact Change.heard w c frame hfind (not_not.mp hconnected) hdelivers hcommand

theorem onWsSessionMessage_change (hserver : Consistent ids server) {ec : Bool} {w : Session}
    {msg : Bytes} (h : server.onWsSessionMessage unspecified ec w msg = some server') :
    Change ids (.sessionMessage unspecified ec w msg) server server' := by
  obtain ⟨hnone,rfl⟩ | ⟨c,hfind,⟨-,rfl⟩ | ⟨rfl,error,frame,hframe,hcases⟩⟩ :=
    onWsSessionMessage_cases h
  · exact Change.refused w hnone rfl
  · exact change_stay
  · have hdelivers : error = .kOk →
        (ServerEvent.sessionMessage unspecified false w msg).Delivers w frame :=
      fun hok => ⟨unspecified,msg,rfl,hok ▸ hframe⟩
    rcases hcases with ⟨hok,hcommand,rfl⟩ | ⟨hok,hcommand,rfl⟩ | ⟨-,what,-,rfl⟩
    · exact handleStomp_change hserver hfind (hdelivers hok) hcommand
    · exact handleSend_change hfind (hdelivers hok) hcommand
    · exact closeConnection_change hfind what

theorem onWsSessionConnect_change {w : Session} (hnew : server.connections.find w = none)
    (ec : Bool) : Change ids (.sessionConnect ec w) server (server.onWsSessionConnect ids ec w) := by
  cases ec with
  | true => exact Change.refused w hnew rfl
  | false => exact Change.entered w hnew rfl

theorem onWsSessionDisconnect_change (ec : Bool) (w : Session) :
    Change ids (.sessionDisconnect ec w) server (server.onWsSessionDisconnect ec w) := by
  rw [onWsSessionDisconnect]
  cases hfind : server.connections.find w with
  | none => exact change_stay
  | some c =>
    have hchange := @Change.lost _ _ ids (.sessionDisconnect ec w) server w c
      (if ec then .kWebSocketSessionDisconnected else .kOk) hfind
    simp only
    by_cases hconnected : c.status = .kConnected
    · simpa only [hconnected,if_true,post] using hchange
    · simpa only [hconnected,if_false,List.append_nil] using hchange

theorem send_change (hserver : Consistent ids server) (hcalled : event.session? = none)
    (connectionId destination messageContent userRequestId : Bytes) : Change ids event server
      (server.send ids unspecified connectionId destination messageContent userRequestId).2 := by
  obtain ⟨n,actions,hsend,rfl | ⟨w,hsession,⟨hnone,-⟩ | ⟨c,headers,hfind,hconnected,rfl⟩⟩⟩ :=
    @send_cases _ _ ids unspecified server connectionId destination messageContent userRequestId
  · rw [hsend,List.append_nil]
    exact Change.silent n
  · -- every session has a connection
    obtain ⟨c,hfind,-⟩ := (hserver.sessions_iff connectionId w).mp hsession
    rw [hnone] at hfind
    cases hfind
  · rw [hsend]
    exact Change.sent w c _ n hfind hconnected (by rw [assemble_plain,commandOf_plainText]) hcalled

theorem close_change (hserver : Consistent ids server) (connectionId : Bytes) :
    Change ids event server (server.close unspecified connectionId) := by
  cases close_cases hserver connectionId with
  | inl hnobody =>
    rw [hnobody.1]
    exact change_stay
  | inr hsome =>
    obtain ⟨w,c,hfind,-,hclose⟩ := hsome
    rw [hclose]
    exact closeConnection_change hfind _

theorem perform_change (hserver : Consistent ids server)
    (hnew : ∀ w, event.announced? = some w → server.connections.find w = none)
    (h : server.perform ids event = some server') : Change ids event server server' := by
  cases event with
  | sessionConnect ec w =>
    rw [← Option.some.inj h]
    exact onWsSessionConnect_change (hnew w rfl) ec
  | sessionMessage u ec w msg => exact onWsSessionMessage_change hserver h
  | sessionDisconnect ec w =>
    rw [← Option.some.inj h]
    exact onWsSessionDisconnect_change ec w
  | send u connectionId destination messageContent userRequestId =>
    rw [← Option.some.inj h]
    exact send_change hserver rfl connectionId destination messageContent userRequestId
  | close u connectionId =>
    rw [← Option.some.inj h]
    exact close_change hserver connectionId
  | stop =>
    rw [← Option.some.inj h]
    exact Change.stopped
  | serverDisconnect ec =>
    rw [← Option.some.inj h]
    exact Change.ended _

/-! What every event keeps. -/

theorem Change.consistent (hchange : Change ids event server server')
    (hserver : Consistent ids server) : Consistent ids server' := by
  have hmoves : ∀ next, Move ids (fun _ => True) server next → Consistent ids next :=
    fun _ hmove => hmove.consistent hserver
  cases hchange with
  | silent n => exact hmoves _ (Move.idle n _)
  | refused w hnew => exact hmoves _ (move_write w _)
  | entered w hnew => exact hmoves _ (Move.opened w hnew)
  | dropped w c frames hfind => exact hmoves _ (Move.closed w c _ hfind trivial)
  | accepted w c frame text hfind hpending =>
    exact hmoves _ (Move.joined w c _ hfind hpending)
  | heard w c frame hfind hconnected =>
    exact hmoves _ (Move.requested w c _ _ _ hfind hconnected)
  | lost w c ec hfind =>
    by_cases hconnected : c.status = .kConnected
    · simp only [hconnected,if_true]
      exact hmoves _ (Move.left w c ec hfind hconnected)
    · simp only [hconnected,if_false,List.append_nil]
      exact hmoves _ (Move.closed w c server.written hfind trivial)
  | sent w c text n => exact hmoves _ (Move.idle n _)
  | ended ec => exact hmoves _ (Move.ended ec)
  | stopped =>
    constructor
    · simp [stop]
    · simp [stop]
    · exact hserver.requests_drawn
    · simp [stop]

def KeepsStatus (server : StompServer Session) : Prop :=
  ∀ w c, server.connections.find w = some c → c.status = .kPending ∨ c.status = .kConnected

theorem Change.keepsStatus (hchange : Change ids event server server')
    (hstatus : server.KeepsStatus) : server'.KeepsStatus := by
  have herase : ∀ w w' c, (server.connections.erase w).find w' = some c →
      c.status = .kPending ∨ c.status = .kConnected :=
    fun w w' c hfind => hstatus w' c (find_erase_iff.mp hfind).2
  cases hchange with
  | silent n => exact hstatus
  | refused w hnew => exact hstatus
  | entered w hnew =>
    intro w' c hfind
    rcases find_set_iff.mp hfind with ⟨-,rfl⟩ | ⟨-,hold⟩
    · exact Or.inl rfl
    · exact hstatus w' c hold
  | dropped w c => exact herase w
  | accepted w c =>
    intro w' c' hfind
    rcases find_set_iff.mp hfind with ⟨-,rfl⟩ | ⟨-,hold⟩
    · exact Or.inr rfl
    · exact hstatus w' c' hold
  | heard w c => exact hstatus
  | lost w c => exact herase w
  | sent w c => exact hstatus
  | stopped => exact fun w c hfind => by simp [stop] at hfind
  | ended ec => exact hstatus

theorem Change.announced (hchange : Change ids event server server') {w : Session}
    (hsome : server'.connections.find w ≠ none) :
    event.announced? = some w ∨ server.connections.find w ≠ none := by
  have hset : ∀ w' c, (server.connections.set w' c).find w ≠ none →
      w' = w ∨ server.connections.find w ≠ none := by
    intro w' c hfind
    rw [UnorderedMap.find_set] at hfind
    split_ifs at hfind with heq
    · exact Or.inl heq
    · exact Or.inr hfind
  have herase : ∀ w', (server.connections.erase w').find w ≠ none →
      server.connections.find w ≠ none := by
    intro w' hfind
    rw [UnorderedMap.find_erase] at hfind
    split_ifs at hfind
    · exact absurd rfl hfind
    · exact hfind
  cases hchange with
  | silent n => exact Or.inr hsome
  | refused w' => exact Or.inr hsome
  | entered w' hnew hannounced =>
    rcases hset w' _ hsome with rfl | hold
    · exact Or.inl hannounced
    · exact Or.inr hold
  | dropped w' c => exact Or.inr (herase w' hsome)
  | accepted w' c frame text hfind =>
    rcases hset w' _ hsome with rfl | hold
    · exact Or.inr (by simp [hfind])
    · exact Or.inr hold
  | heard w' c => exact Or.inr hsome
  | lost w' c => exact Or.inr (herase w' hsome)
  | sent w' c => exact Or.inr hsome
  | stopped => exact absurd rfl hsome
  | ended ec => exact Or.inr hsome

def AnnouncedOnce (events : List (ServerEvent Session)) : Prop :=
  (events.filterMap ServerEvent.announced?).Nodup

instance (events : List (ServerEvent Session)) : Decidable (AnnouncedOnce events) :=
  inferInstanceAs (Decidable (List.Nodup _))

/-- A server that was started and has gone through some events. -/
structure Running (ids : IdGenerator) (events : List (ServerEvent Session))
    (server : StompServer Session) : Prop where
  consistent : Consistent ids server
  keepsStatus : server.KeepsStatus
  announced : ∀ w, server.connections.find w ≠ none → w ∈ events.filterMap ServerEvent.announced?

theorem Running.step {events : List (ServerEvent Session)} {event : ServerEvent Session}
    (h : Running ids events server) (honce : AnnouncedOnce (events ++ [event]))
    (hstep : server.perform ids event = some server') :
    Running ids (events ++ [event]) server' ∧
      Change ids event server server' := by
  rw [AnnouncedOnce,List.filterMap_append] at honce
  have hnew : ∀ w, event.announced? = some w → server.connections.find w = none := by
    intro w hw
    by_contra hsome
    exact List.disjoint_of_nodup_append honce (h.announced w hsome) (by simp [hw])
  have hchange := perform_change h.consistent hnew hstep
  refine ⟨⟨hchange.consistent h.consistent,hchange.keepsStatus h.keepsStatus,?_⟩,hchange⟩
  intro w hsome
  rw [List.filterMap_append,List.mem_append]
  rcases hchange.announced hsome with hannounced | hold
  · exact Or.inr (by simp [hannounced])
  · exact Or.inl (h.announced w hold)

theorem running_started (ids : IdGenerator) (kHost : Bytes) :
    Running ids [] (started kHost : StompServer Session) :=
  ⟨started_consistent ids kHost,fun w c hfind => by simp [started] at hfind,
    fun w hsome => absurd rfl hsome⟩

omit [DecidableEq Session] in
theorem AnnouncedOnce.left {events events' : List (ServerEvent Session)}
    (h : AnnouncedOnce (events ++ events')) : AnnouncedOnce events := by
  rw [AnnouncedOnce,List.filterMap_append] at h
  exact h.of_append_left

/-- What holds of a server that was started and is kept by every event holds in all runs. -/
theorem run_induction {kHost : Bytes}
    {motive : List (ServerEvent Session) → StompServer Session → Prop}
    (hstart : motive [] (started kHost))
    (hstep : ∀ events event server server', (started kHost).run ids events = some server →
      Running ids events server → motive events server → AnnouncedOnce (events ++ [event]) →
      server.perform ids event = some server' → Change ids event server server' →
      motive (events ++ [event]) server')
    {events : List (ServerEvent Session)} (honce : AnnouncedOnce events)
    (hrun : (started kHost).run ids events = some server) :
    Running ids events server ∧ motive events server := by
  induction events using List.reverseRecOn generalizing server with
  | nil =>
    obtain rfl : started kHost = server := Option.some.inj hrun
    exact ⟨running_started ids kHost,hstart⟩
  | append_singleton events event ih =>
    rw [run_append,Option.bind_eq_some_iff] at hrun
    obtain ⟨server₀,hrun,hlast⟩ := hrun
    rw [run_singleton] at hlast
    obtain ⟨hrunning,hmotive⟩ := ih honce.left hrun
    obtain ⟨hnext,hchange⟩ := hrunning.step honce hlast
    exact ⟨hnext,hstep events event server₀ server hrun hrunning hmotive honce hlast hchange⟩

theorem running_of_run {kHost : Bytes} {events : List (ServerEvent Session)}
    (honce : AnnouncedOnce events) (hrun : (started kHost).run ids events = some server) :
    Running ids events server :=
  (@run_induction _ _ ids server kHost (fun _ _ => True) trivial
    (fun _ _ _ _ _ _ _ _ _ _ => trivial) events honce hrun).1

/-! The two maps. -/

structure Paired (server : StompServer Session) : Prop where
  sessions_iff : ∀ id w, server.sessions.find id = some w ↔
    ∃ c, server.connections.find w = some c ∧ c.id = id
  size_eq : server.sessions.size = server.connections.size
  status : ∀ w c, server.connections.find w = some c →
    c.status = .kPending ∨ c.status = .kConnected

theorem Consistent.size_eq (hserver : Consistent ids server) :
    server.sessions.size = server.connections.size := by
  have hentries : server.sessions.entries.Perm
      (server.connections.entries.map fun e => (e.2.id,e.1)) := by
    refine (List.perm_ext_iff_of_nodup server.sessions.nodup.of_map ?_).mpr ?_
    · refine List.Nodup.of_map Prod.snd ?_
      rw [List.map_map]
      exact server.connections.nodup
    · rintro ⟨id,w⟩
      rw [← UnorderedMap.find_eq_some_iff,hserver.sessions_iff]
      simp only [UnorderedMap.find_eq_some_iff,List.mem_map,Prod.mk.injEq,Prod.exists]
      constructor
      · rintro ⟨c,hmem,hid⟩
        exact ⟨w,c,hmem,hid,rfl⟩
      · rintro ⟨w',c,hmem,hid,rfl⟩
        exact ⟨c,hmem,hid⟩
  rw [UnorderedMap.size,hentries.length_eq,List.length_map]
  rfl

/-- In every run the maps stay inverse to each other. -/
theorem paired_of_run (ids : IdGenerator) (kHost : Bytes) (events : List (ServerEvent Session))
    (honce : AnnouncedOnce events) (hrun : (started kHost).run ids events = some server) :
    Paired server := by
  have hrunning := running_of_run honce hrun
  exact ⟨hrunning.consistent.sessions_iff,hrunning.consistent.size_eq,hrunning.keepsStatus⟩

/-- One client completes its handshake and gets an answer, and another is closed. -/
def twoClients : List (ServerEvent ℕ) :=
  [.sessionConnect false 0,.sessionConnect false 1,
    .sessionMessage 0 false 0 (ascii "STOMP\naccept-version:1.2\nhost:localhost\n\n\x00"),
    .sessionMessage 0 false 0 (ascii "SEND\ndestination:/quiet-route\n\n\x00"),
    .send 0 (ascii "a") (ascii "/quiet-route") (ascii "ok") [],.close 0 (ascii "aa")]

theorem paired_twoClients : ∃ server, (started (ascii "localhost")).run .simple twoClients =
    some server ∧ Paired server := by
  have hsome : ((started (ascii "localhost")).run .simple twoClients).isSome := by decide +kernel
  obtain ⟨server,hrun⟩ := Option.isSome_iff_exists.mp hsome
  exact ⟨server,hrun,paired_of_run .simple (ascii "localhost") twoClients (by decide +kernel) hrun⟩

end StompServer
end QuietRoute
