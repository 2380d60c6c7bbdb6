import QuietRoute.Socket.SessionLifecycles
import QuietRoute.Stomp.ServerMembers
import QuietRoute.Stomp.ServerOrder

/-! The STOMP server on top of the WebSocket server. The one hears what the other reports and orders it
about, so that nothing is assumed of the sessions any more. -/
namespace QuietRoute

open Typestate Reporting

/-- What the user asks of the STOMP server, without handlers of its own. -/
inductive StompCall
  | send (connectionId destination messageContent userRequestId : Bytes)
  | close (connectionId : Bytes)
  | stop

def StompCall.event (unspecified : Unspecified) : StompCall → ServerEvent ℕ
  | .send connectionId destination messageContent userRequestId =>
    .send unspecified connectionId destination messageContent userRequestId
  | .close connectionId => .close unspecified connectionId
  | .stop => .stop

def ServerNotice.event (unspecified : Unspecified) : ServerNotice Empty → ServerEvent ℕ
  | .session idx (.onConnect ec) => .sessionConnect ec.isError idx
  | .session idx (.onMessage message) => .sessionMessage unspecified false idx message
  | .session idx (.onDisconnect ec) => .sessionDisconnect ec.isError idx
  | .session _ (.onSend handler _) => handler.elim
  | .session _ (.onClose handler _) => handler.elim
  | .onDisconnect ec => .serverDisconnect ec.isError

def heardEvent (unspecified : Unspecified) : ServerNotice Empty ⊕ StompCall → ServerEvent ℕ :=
  Sum.elim (ServerNotice.event unspecified) (StompCall.event unspecified)

/-- What the STOMP server asks of a session, as the session gets it. -/
def socketOrder : ℕ × SessionAction → SocketOrder Empty
  | (wsSession,.send _) => .send wsSession none
  | (wsSession,.close) => .close wsSession none

/-- The WebSocket server is stopped before the sessions are closed. -/
def stopOrder : ServerNotice Empty ⊕ StompCall → List (SocketOrder Empty)
  | .inr .stop => [.stop]
  | _ => []

namespace StompServer

/-- The server as a machine that counts what it has heard. What is left to the platform may be different
each time. -/
def machine (ids : IdGenerator) (unspecified : ℕ → Unspecified) :
    Machine (ℕ × StompServer ℕ) (ServerNotice Empty ⊕ StompCall) (SocketOrder Empty) where
  step
    | (n,server), heard =>
      (server.perform ids (heardEvent (unspecified n) heard)).map fun server' =>
        ((n+1,server'),
          stopOrder heard ++ (server'.written.drop server.written.length).map socketOrder)

def stack (ids : IdGenerator) (unspecified : ℕ → Unspecified) :
    Machine (WebSocketServer Empty × ℕ × StompServer ℕ) (SocketEvent ⊕ StompCall)
      (ServerNotice Empty ⊕ StompCall) :=
  WebSocketServer.machine.loop (machine ids unspecified)

def stackStarted (kHost : Bytes) : WebSocketServer Empty × ℕ × StompServer ℕ :=
  (.started,0,.started kHost)

def heardEvents (unspecified : ℕ → Unspecified) (heard : List (ServerNotice Empty ⊕ StompCall)) :
    List (ServerEvent ℕ) := heard.mapIdx fun i => heardEvent (unspecified i)

variable {ids : IdGenerator} {unspecified : ℕ → Unspecified} {kHost : Bytes}
  {inputs : List (SocketEvent ⊕ StompCall)} {sockets sockets' : WebSocketServer Empty}
  {server server' : StompServer ℕ} {n n' : ℕ} {heard heard' : List (ServerNotice Empty ⊕ StompCall)}

theorem heardEvents_append : heardEvents unspecified (heard ++ heard') =
    heardEvents unspecified heard ++
      heardEvents (fun i => unspecified (i+heard.length)) heard' := List.mapIdx_append

theorem machine_run {orders : List (SocketOrder Empty)}
    (h : (machine ids unspecified).run (0,.started kHost) heard = some ((n,server),orders)) :
    n = heard.length ∧ (started kHost).run ids (heardEvents unspecified heard) = some server := by
  refine Machine.run_induction (motive := fun heard state _ => state.1 = heard.length ∧
    (started kHost).run ids (heardEvents unspecified heard) = some state.2) ⟨rfl,rfl⟩ ?_ h
  rintro heard item ⟨n,server⟩ ⟨n',server'⟩ _ _ - ⟨hn,hrun⟩ hstep
  obtain ⟨next,hperform,heq⟩ := Option.map_eq_some_iff.mp hstep
  obtain ⟨⟨rfl,rfl⟩,-⟩ := by simpa using heq
  obtain rfl : n = heard.length := hn
  refine ⟨by simp,?_⟩
  rw [heardEvents_append,run_append,hrun,Option.bind_some]
  simpa [heardEvents,run_singleton] using hperform

/-! Sessions are announced before anything else is heard of them. -/

theorem SessionOrder.pairwise {calls : List (SessionCall Empty)} (h : SessionOrder calls) :
    calls.Pairwise fun _ later => ∀ ec, later ≠ .onConnect ec := by
  rcases h with ⟨ec,-,hinit⟩ | ⟨messages,ec,-,hinit⟩
  · exact List.Pairwise.sublist hinit.sublist (List.pairwise_singleton _ _)
  · have hrest : ∀ call ∈ messages.map SessionCall.onMessage ++ [SessionCall.onDisconnect ec],
        ∀ ec', call ≠ (.onConnect ec' : SessionCall Empty) := by
      intro call hmem ec'
      rcases List.mem_append.mp hmem with hmessage | hlast
      · obtain ⟨message,-,rfl⟩ := List.mem_map.mp hmessage
        simp
      · obtain rfl := List.mem_singleton.mp hlast
        simp
    refine List.Pairwise.sublist hinit.sublist (List.pairwise_cons.mpr ⟨hrest,?_⟩)
    exact List.pairwise_of_forall_mem_list fun _ _ call hmem => hrest call hmem

theorem isOwn_eq_true (call : SessionCall Empty) : call.isOwn = true := by
  cases call with
  | onSend handler => exact handler.elim
  | onClose handler => exact handler.elim
  | onConnect | onMessage | onDisconnect => rfl

theorem pairwise_notices {notices : List (ServerNotice Empty)}
    (horder : ∀ idx, SessionOrder ((callsOf notices idx).filter SessionCall.isOwn)) :
    notices.Pairwise fun earlier later => ∀ e ∈ earlier.call?, ∀ e' ∈ later.call?,
      e.1 = e'.1 → ∀ ec, e'.2 ≠ .onConnect ec := by
  refine List.pairwise_filterMap.mp (pairwise_of_actionsOf
    (r := fun _ later => ∀ ec, later ≠ SessionCall.onConnect ec) fun idx => ?_)
  have hpairwise := SessionOrder.pairwise (horder idx)
  rwa [List.filter_eq_self.mpr fun call _ => isOwn_eq_true call] at hpairwise

theorem event_session? (u : Unspecified) (notice : ServerNotice Empty) :
    (notice.event u).session? = notice.call?.map Prod.fst := by
  cases notice with
  | onDisconnect ec => rfl
  | session idx call =>
    cases call with
    | onSend handler => exact handler.elim
    | onClose handler => exact handler.elim
    | onConnect | onMessage | onDisconnect => rfl

theorem event_announced? {u : Unspecified} {notice : ServerNotice Empty} {w : ℕ}
    (h : (notice.event u).announced? = some w) : ∃ ec, notice = .session w (.onConnect ec) := by
  cases notice with
  | onDisconnect ec => cases h
  | session idx call =>
    cases call with
    | onSend handler => exact handler.elim
    | onClose handler => exact handler.elim
    | onConnect ec => exact ⟨ec,by rw [Option.some.inj h]⟩
    | onMessage message => cases h
    | onDisconnect ec => cases h

theorem stompCall_session? (u : Unspecified) (call : StompCall) : (call.event u).session? = none := by
  cases call <;> rfl

theorem stompCall_announced? (u : Unspecified) (call : StompCall) : (call.event u).announced? = none := by
  cases call <;> rfl

theorem announcedFirst_heardEvents
    (h : (heard.filterMap Sum.getLeft?).Pairwise fun earlier later => ∀ e ∈ earlier.call?,
      ∀ e' ∈ later.call?, e.1 = e'.1 → ∀ ec, e'.2 ≠ .onConnect ec) :
    AnnouncedFirst (heardEvents unspecified heard) := by
  have hpairwise := List.pairwise_filterMap.mp h
  refine List.pairwise_iff_getElem.mpr fun i j hi hj hij => ?_
  have hi' : i < heard.length := by simpa [heardEvents] using hi
  have hj' : j < heard.length := by simpa [heardEvents] using hj
  have hpair := List.pairwise_iff_getElem.mp hpairwise i j hi' hj' hij
  simp only [heardEvents,List.getElem_mapIdx]
  intro w hw hsession
  cases hlater : heard[j] with
  | inr call =>
    rw [hlater] at hw
    exact absurd hw (by simp [heardEvent,stompCall_announced?])
  | inl later =>
    rw [hlater] at hw
    obtain ⟨ec,rfl⟩ := event_announced? hw
    cases hearlier : heard[i] with
    | inr call =>
      rw [hearlier] at hsession
      exact absurd hsession (by simp [heardEvent,stompCall_session?])
    | inl earlier =>
      rw [hearlier,heardEvent,Sum.elim_inl,event_session?] at hsession
      obtain ⟨e,he,hidx⟩ := Option.map_eq_some_iff.mp hsession
      rw [hearlier,hlater] at hpair
      exact hpair earlier rfl _ rfl e he _ rfl hidx ec rfl

end StompServer
end QuietRoute
