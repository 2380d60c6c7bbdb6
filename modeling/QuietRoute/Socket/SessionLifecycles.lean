import QuietRoute.Socket.WebSocketServer
import QuietRoute.Protocol.Typestate
import Mathlib.Tactic

/-! The lives of WebSocket sessions: in which order the handlers of a session are called, and which
operation its chain of operations has got to. -/
namespace QuietRoute

open Typestate Reporting

variable {Handler : Type}

inductive SessionPhase
  | connecting | listening | ended
  deriving DecidableEq

/-- Connecting ends with one call of `onConnect`, listening with at most one of `onDisconnect`. -/
def sessionProtocol : Protocol SessionPhase (SessionCall Handler) where
  start := .connecting
  step
    | phase, .onSend _ _ => some phase
    | phase, .onClose _ _ => some phase
    | .connecting, .onConnect ec => some (if ec.isError then .ended else .listening)
    | .listening, .onMessage _ => some .listening
    | .listening, .onDisconnect ec => if ec.isError then some .ended else none
    | _, _ => none

def SessionCall.isOwn : SessionCall Handler → Bool
  | .onConnect _ | .onMessage _ | .onDisconnect _ => true
  | _ => false

def SessionOrder (calls : List (SessionCall Handler)) : Prop :=
  (∃ ec, ec.isError ∧ calls <+: [.onConnect ec]) ∨
    ∃ (messages : List Bytes) (ec : ErrorCode), ec.isError ∧
      calls <+: .onConnect .success::(messages.map SessionCall.onMessage ++ [.onDisconnect ec])

def SessionPhase.Called : SessionPhase → List (SessionCall Handler) → Prop
  | .connecting, calls => calls = []
  | .listening, calls => ∃ messages : List Bytes,
      calls = .onConnect .success::messages.map SessionCall.onMessage
  | .ended, calls => SessionOrder calls

theorem eq_success_of_not_isError {ec : ErrorCode} (h : ¬ec.isError) : ec = .success := by
  simpa [ErrorCode.isError] using h

theorem SessionPhase.Called.order {phase : SessionPhase} {calls : List (SessionCall Handler)}
    (h : phase.Called calls) : SessionOrder calls := by
  cases phase with
  | connecting =>
    obtain rfl : calls = [] := h
    exact Or.inl ⟨.closed,rfl,List.nil_prefix⟩
  | listening =>
    obtain ⟨messages,rfl⟩ := h
    exact Or.inr ⟨messages,.closed,rfl,List.cons_prefix_cons.mpr ⟨rfl,List.prefix_append _ _⟩⟩
  | ended => exact h

theorem sessionProtocol_called {calls : List (SessionCall Handler)} {phase : SessionPhase}
    (h : sessionProtocol.run .connecting calls = some phase) :
    phase.Called (calls.filter SessionCall.isOwn) := by
  refine sessionProtocol.run_induction (motive := fun phase calls =>
    phase.Called (calls.filter SessionCall.isOwn)) rfl ?_ h
  intro phase phase' calls call hcalled hstep
  rw [List.filter_append]
  cases call with
  | onSend handler ec =>
    cases hstep
    simpa [SessionCall.isOwn] using hcalled
  | onClose handler ec =>
    cases hstep
    simpa [SessionCall.isOwn] using hcalled
  | onConnect ec =>
    cases phase with
    | connecting =>
      obtain rfl : (if ec.isError then SessionPhase.ended else .listening) = phase' :=
        Option.some.inj hstep
      rw [show calls.filter SessionCall.isOwn = [] from hcalled]
      split_ifs with hec
      · exact Or.inl ⟨ec,hec,List.prefix_refl _⟩
      · rw [eq_success_of_not_isError hec]
        exact ⟨[],rfl⟩
    | listening => exact absurd hstep (by simp [sessionProtocol])
    | ended => exact absurd hstep (by simp [sessionProtocol])
  | onMessage message =>
    cases phase with
    | listening =>
      obtain rfl : SessionPhase.listening = phase' := Option.some.inj hstep
      obtain ⟨messages,hmessages⟩ := hcalled
      exact ⟨messages ++ [message],by simp [hmessages,SessionCall.isOwn]⟩
    | connecting => exact absurd hstep (by simp [sessionProtocol])
    | ended => exact absurd hstep (by simp [sessionProtocol])
  | onDisconnect ec =>
    cases phase with
    | listening =>
      have hec : ec.isError := by
        by_contra hec
        simp [sessionProtocol,hec] at hstep
      obtain rfl : SessionPhase.ended = phase' := by simpa [sessionProtocol,hec] using hstep
      obtain ⟨messages,hmessages⟩ := hcalled
      refine Or.inr ⟨messages,ec,hec,?_⟩
      rw [hmessages]
      exact List.prefix_refl _
    | connecting => exact absurd hstep (by simp [sessionProtocol])
    | ended => exact absurd hstep (by simp [sessionProtocol])

/-! The chain of operations of a session. -/

/-- The operations that lead to each other, unlike writes and closes. -/
def SessionOperation.inChain : SessionOperation Handler → Bool
  | .write _ | .close _ => false
  | _ => true

def WebSocketSession.chain (session : WebSocketSession Handler) : List (SessionOperation Handler) :=
  session.pending.filter SessionOperation.inChain

/-- How far the chain is in a phase. A closed session can stop to listen without a call. -/
inductive Suits : SessionPhase → Bool → List (SessionOperation Handler) → Prop
  | dispatch (closed : Bool) : Suits .connecting closed [.dispatch]
  | tlsHandshake (closed : Bool) : Suits .connecting closed [.tlsHandshake]
  | accept (closed : Bool) : Suits .connecting closed [.accept]
  | read (closed : Bool) : Suits .listening closed [.read]
  | silenced : Suits .listening true []
  | ended (closed : Bool) : Suits .ended closed []

theorem Suits.eq_singleton {phase : SessionPhase} {closed : Bool}
    {chain : List (SessionOperation Handler)} (h : Suits phase closed chain)
    {operation : SessionOperation Handler} (hmem : operation ∈ chain) : chain = [operation] := by
  cases h <;> simp_all

theorem Suits.length_le {phase : SessionPhase} {closed : Bool}
    {chain : List (SessionOperation Handler)} (h : Suits phase closed chain) : chain.length ≤ 1 := by
  cases h <;> simp

theorem Suits.silence {phase : SessionPhase} {closed : Bool}
    {chain : List (SessionOperation Handler)} (h : Suits phase closed chain) :
    Suits phase true chain := by
  cases h <;> constructor

theorem exists_append_of_getElem? {α : Type} {l : List α} {idx : ℕ} {a : α} (h : l[idx]? = some a) :
    ∃ before after, l = before ++ a::after ∧ l.eraseIdx idx = before ++ after := by
  obtain ⟨hidx,rfl⟩ := List.getElem?_eq_some_iff.mp h
  refine ⟨l.take idx,l.drop (idx+1),?_,List.eraseIdx_eq_take_drop_succ l idx⟩
  rw [List.getElem_cons_drop,List.take_append_drop]

theorem filter_eraseIdx {α : Type} {p : α → Bool} {l : List α} {idx : ℕ} {a : α}
    (h : l[idx]? = some a) : if p a then ∀ b, l.filter p = [b] → a = b ∧ (l.eraseIdx idx).filter p = []
      else (l.eraseIdx idx).filter p = l.filter p := by
  obtain ⟨before,after,rfl,herase⟩ := exists_append_of_getElem? h
  rw [herase]
  split_ifs with hp
  · intro b hb
    rw [List.filter_append,List.filter_cons_of_pos hp] at hb
    rcases List.append_eq_singleton_iff.mp hb with ⟨hbefore,hrest⟩ | ⟨-,hrest⟩
    · obtain ⟨rfl,hafter⟩ := List.cons.inj hrest
      exact ⟨rfl,by rw [List.filter_append,hbefore,hafter]; rfl⟩
    · exact absurd hrest (List.cons_ne_nil _ _)
  · rw [List.filter_append,List.filter_append,List.filter_cons_of_neg hp]

namespace WebSocketSession

@[simp] theorem chain_start (session : WebSocketSession Handler) (operation : SessionOperation Handler) :
    (session.start operation).chain = session.chain ++ [operation].filter SessionOperation.inChain :=
  List.filter_append _ _

@[simp] theorem closed_start (session : WebSocketSession Handler)
    (operation : SessionOperation Handler) : (session.start operation).closed = session.closed := rfl

variable {session session' : WebSocketSession Handler} {phase : SessionPhase} {ec : ErrorCode}
  {received : Bytes} {call : Option (SessionCall Handler)} {idx : ℕ}

/-- What the end of an operation leads to: a call that the protocol allows, and a suitable chain. -/
def Leads (phase : SessionPhase)
    (next : WebSocketSession Handler × Option (SessionCall Handler)) : Prop :=
  ∃ phase', sessionProtocol.run phase next.2.toList = some phase' ∧
    Suits phase' next.1.closed next.1.chain

theorem leads_listen (hchain : session.chain = []) (ec : ErrorCode) :
    Leads .listening (session.listenToIncomingMessage ec) := by
  unfold listenToIncomingMessage
  split_ifs with hec hclosed
  · exact ⟨.listening,rfl,by rw [hchain,hclosed]; exact .silenced⟩
  · have herror : ec.isError := by rcases hec with rfl | rfl <;> rfl
    exact ⟨.ended,by simp [sessionProtocol,herror],by rw [hchain]; exact .ended _⟩
  · exact ⟨.listening,rfl,by rw [chain_start,hchain]; exact .read _⟩

theorem leads_tlsHandshake (hchain : session.chain = []) (ec : ErrorCode) :
    Leads .connecting (session.onTlsHandshake ec) := by
  unfold onTlsHandshake
  split_ifs with hec
  · exact ⟨.ended,by simp [sessionProtocol,hec],by rw [hchain]; exact .ended _⟩
  · exact ⟨.connecting,rfl,by rw [chain_start,hchain]; exact .accept _⟩

theorem leads_handshake (hchain : session.chain = []) (ec : ErrorCode) :
    Leads .connecting (session.onHandshake ec) := by
  unfold onHandshake
  split_ifs with hec
  · exact ⟨.ended,by simp [sessionProtocol,hec],by rw [hchain]; exact .ended _⟩
  · obtain rfl := eq_success_of_not_isError hec
    refine ⟨.listening,rfl,?_⟩
    rw [show (session.listenToIncomingMessage .success).1 = session.start .read from rfl,
      chain_start,hchain]
    exact .read _

theorem leads_read (hchain : session.chain = []) (ec : ErrorCode) (received : Bytes) :
    Leads .listening (session.complete ec received .read) := by
  let filled : WebSocketSession Handler := {session with rBuffer := session.rBuffer ++ received}
  have hfilled : filled.chain = [] := hchain
  by_cases hec : ec.isError
  · have hread : session.complete ec received .read = filled.listenToIncomingMessage ec := by
      simp [complete,onRead,hec,filled]
    rw [hread]
    exact leads_listen hfilled ec
  · obtain rfl := eq_success_of_not_isError hec
    let consumed : WebSocketSession Handler :=
      {filled with rBuffer := filled.rBuffer.drop received.length}
    have hconsumed : consumed.chain = [] := hchain
    refine ⟨.listening,rfl,?_⟩
    rw [show (session.complete .success received .read).1 = consumed.start .read from rfl,
      chain_start,hconsumed]
    exact .read _

theorem leads_complete (hchain : session.chain = []) {operation : SessionOperation Handler}
    {closed : Bool} (h : Suits phase closed [operation]) (ec : ErrorCode) (received : Bytes) :
    Leads phase (session.complete ec received operation) := by
  cases h with
  | dispatch =>
    refine ⟨.connecting,rfl,?_⟩
    rw [show (session.complete ec received .dispatch).1 = session.start .tlsHandshake from rfl,
      chain_start,hchain]
    exact .tlsHandshake _
  | tlsHandshake => exact leads_tlsHandshake hchain ec
  | accept => exact leads_handshake hchain ec
  | read => exact leads_read hchain ec received

theorem leads_aside (h : Suits phase session.closed session.chain)
    {operation : SessionOperation Handler} (hin : ¬operation.inChain) (ec : ErrorCode)
    (received : Bytes) : Leads phase (session.complete ec received operation) := by
  cases operation with
  | write onSend => cases onSend <;> exact ⟨phase,by cases phase <;> rfl,h⟩
  | close onClose => cases onClose <;> exact ⟨phase,by cases phase <;> rfl,h⟩
  | dispatch => exact absurd rfl hin
  | tlsHandshake => exact absurd rfl hin
  | accept => exact absurd rfl hin
  | read => exact absurd rfl hin

theorem leads_completed (h : Suits phase session.closed session.chain)
    (hcompleted : session.completed idx ec received = some (session',call)) :
    Leads phase (session',call) := by
  obtain ⟨operation,hidx,hcomplete⟩ := Option.map_eq_some_iff.mp hcompleted
  let taken : WebSocketSession Handler := {session with pending := session.pending.eraseIdx idx}
  have herase := filter_eraseIdx (p := SessionOperation.inChain) hidx
  rw [← hcomplete]
  by_cases hin : operation.inChain
  · rw [if_pos hin] at herase
    have hchain : session.chain = [operation] :=
      h.eq_singleton (List.mem_filter.mpr ⟨List.mem_of_getElem? hidx,hin⟩)
    have htaken : taken.chain = [] := (herase operation hchain).2
    rw [hchain] at h
    exact leads_complete htaken h ec received
  · rw [if_neg hin] at herase
    have htaken : taken.chain = session.chain := herase
    have hsuits : Suits phase taken.closed taken.chain := htaken.symm ▸ h
    exact leads_aside hsuits hin ec received

theorem complete_closed (session : WebSocketSession Handler) (ec : ErrorCode) (received : Bytes)
    (operation : SessionOperation Handler) :
    (session.complete ec received operation).1.closed = session.closed ∧
      (session.closed →
        ∀ ec', (session.complete ec received operation).2 ≠ some (.onDisconnect ec')) := by
  cases operation with
  | dispatch => exact ⟨rfl,by simp [complete]⟩
  | tlsHandshake =>
    simp only [complete,onTlsHandshake]
    split_ifs <;> exact ⟨rfl,by simp⟩
  | accept =>
    simp only [complete,onHandshake,listenToIncomingMessage]
    split_ifs <;> exact ⟨rfl,by simp⟩
  | read =>
    simp only [complete,onRead,listenToIncomingMessage]
    split_ifs <;> simp_all [start]
  | write onSend => exact ⟨rfl,by simp [complete]⟩
  | close onClose => exact ⟨rfl,by simp [complete]⟩

theorem completed_closed (hcompleted : session.completed idx ec received = some (session',call)) :
    session'.closed = session.closed ∧
      (session.closed → ∀ ec', call ≠ some (.onDisconnect ec')) := by
  obtain ⟨operation,-,hcomplete⟩ := Option.map_eq_some_iff.mp hcompleted
  have hclosed := complete_closed {session with pending := session.pending.eraseIdx idx} ec received
    operation
  rwa [hcomplete] at hclosed

theorem suits_close (h : Suits phase session.closed session.chain) (onClose : Option Handler) :
    Suits phase (session.close onClose).closed (session.close onClose).chain := by
  have hchain : (session.close onClose).chain = session.chain :=
    (chain_start _ _).trans (List.append_nil _)
  rw [hchain]
  exact h.silence

theorem suits_send (h : Suits phase session.closed session.chain) (onSend : Option Handler) :
    Suits phase (session.send onSend).closed (session.send onSend).chain := by
  have hchain : (session.send onSend).chain = session.chain :=
    (chain_start _ _).trans (List.append_nil _)
  rw [hchain]
  exact h

end WebSocketSession

/-! The server and all its sessions. -/

def ServerNotice.call? : ServerNotice Handler → Option (ℕ × SessionCall Handler)
  | .session idx call => some (idx,call)
  | .onDisconnect _ => none

def callsOf (notices : List (ServerNotice Handler)) (idx : ℕ) : List (SessionCall Handler) :=
  actionsOf (notices.filterMap ServerNotice.call?) idx

def ServerNotice.isDisconnect : ServerNotice Handler → Bool
  | .session _ _ => false
  | .onDisconnect _ => true

def accepts (success : Bool) : SocketEvent ⊕ SocketOrder Handler → Bool
  | .inl (.accepted ec) => ec.isError ≠ success
  | _ => false

namespace WebSocketServer

/-- What is known of a server after some inputs, and of the phase that each session is in. -/
structure Attended (inputs : List (SocketEvent ⊕ SocketOrder Handler)) (server : WebSocketServer Handler)
    (notices : List (ServerNotice Handler)) (phases : ℕ → SessionPhase) : Prop where
  follows : Follows sessionProtocol (notices.filterMap ServerNotice.call?) phases
  suits : ∀ idx session, server.sessions[idx]? = some session →
    Suits (phases idx) session.closed session.chain
  unborn : ∀ idx, server.sessions.length ≤ idx → callsOf notices idx = []
  accepting : server.accepting + inputs.countP (accepts false) = 1
  accepted : server.sessions.length = inputs.countP (accepts true)
  disconnects : notices.countP ServerNotice.isDisconnect ≤ inputs.countP (accepts false)

variable {inputs inputs' : List (SocketEvent ⊕ SocketOrder Handler)}
  {server server' : WebSocketServer Handler} {notices notices' : List (ServerNotice Handler)}
  {phases : ℕ → SessionPhase} {input : SocketEvent ⊕ SocketOrder Handler}

theorem attended_started : Attended [] (started : WebSocketServer Handler) [] fun _ => .connecting where
  follows := follows_nil _
  suits idx session h := by simp [started,run,acceptConnection,created,ErrorCode.isError] at h
  unborn _ _ := rfl
  accepting := rfl
  accepted := rfl
  disconnects := le_rfl

theorem Attended.connecting (h : Attended inputs server notices phases) {idx : ℕ}
    (hidx : server.sessions.length ≤ idx) : phases idx = .connecting := by
  have hfollows := h.follows idx
  rw [show actionsOf (notices.filterMap ServerNotice.call?) idx = [] from h.unborn idx hidx] at hfollows
  exact (Option.some.inj hfollows).symm

theorem step_accepted {ec : ErrorCode} {notice : Option (ServerNotice Handler)}
    (hstep : server.step (.accepted ec) = some (server',notice)) : ∃ accepting,
      server.accepting = accepting+1 ∧
        ((ec.isError ∧ server' = {server with accepting := accepting} ∧
          notice = if server.stopped then none else some (.onDisconnect ec)) ∨
        (ec = .success ∧ notice = none ∧
          server' =
            {server with sessions := server.sessions ++ [WebSocketSession.created.connect]})) := by
  simp only [step] at hstep
  cases haccepting : server.accepting with
  | zero => simp [haccepting] at hstep
  | succ accepting =>
    simp only [haccepting,Option.some.injEq] at hstep
    refine ⟨accepting,rfl,?_⟩
    by_cases hec : ec.isError
    · simp only [onConnectionAccepted,acceptConnection,hec,if_true] at hstep
      obtain ⟨rfl,rfl⟩ := Prod.mk.inj hstep
      refine Or.inl ⟨hec,rfl,?_⟩
      by_cases hstopped : server.stopped <;> simp [hstopped]
    · obtain rfl := eq_success_of_not_isError hec
      have hok : ErrorCode.success.isError = false := rfl
      simp only [onConnectionAccepted,acceptConnection,hok,Bool.false_eq_true,if_false] at hstep
      obtain ⟨rfl,rfl⟩ := Prod.mk.inj hstep
      exact Or.inr ⟨rfl,rfl,rfl⟩

theorem step_completed {session idx : ℕ} {ec : ErrorCode} {received : Bytes}
    {notice : Option (ServerNotice Handler)}
    (hstep : server.step (.completed session idx ec received) = some (server',notice)) :
    ∃ wsSession next call, server.sessions[session]? = some wsSession ∧
      wsSession.completed idx ec received = some (next,call) ∧
        server' = {server with sessions := server.sessions.set session next} ∧
          notice = call.map (.session session) := by
  simp only [step,bind,Option.bind_eq_some_iff,pure,Option.some.injEq,Prod.mk.injEq,Prod.exists]
    at hstep
  obtain ⟨wsSession,hfind,next,call,hcompleted,rfl,rfl⟩ := hstep
  exact ⟨wsSession,next,call,hfind,hcompleted,rfl,rfl⟩

theorem Attended.accept (h : Attended inputs server notices phases) {ec : ErrorCode}
    {notice : Option (ServerNotice Handler)}
    (hstep : server.step (.accepted ec) = some (server',notice)) :
    Attended (inputs ++ [.inl (.accepted ec)]) server' (notices ++ notice.toList) phases := by
  have haccepting := h.accepting
  have hdisconnects := h.disconnects
  obtain ⟨accepting,hsucc,⟨hec,rfl,rfl⟩ | ⟨rfl,rfl,rfl⟩⟩ := step_accepted hstep
  · have hcalls : (notices ++ (if server.stopped then none else some (ServerNotice.onDisconnect ec) :
        Option (ServerNotice Handler)).toList).filterMap ServerNotice.call? =
          notices.filterMap ServerNotice.call? := by
      split_ifs <;> simp [ServerNotice.call?]
    refine ⟨?_,h.suits,?_,?_,?_,?_⟩
    · rw [hcalls]
      exact h.follows
    · intro idx hidx
      rw [callsOf,hcalls]
      exact h.unborn idx hidx
    · simp [accepts,hec]
      omega
    · simp [accepts,hec,h.accepted]
    · rw [List.countP_append,List.countP_append]
      have hone : [(Sum.inl (SocketEvent.accepted ec) : SocketEvent ⊕ SocketOrder Handler)].countP
          (accepts false) = 1 := by simp [accepts,hec]
      have hmade : (if server.stopped then none else some (ServerNotice.onDisconnect ec) :
          Option (ServerNotice Handler)).toList.countP ServerNotice.isDisconnect ≤ 1 := by
        split_ifs <;> simp [ServerNotice.isDisconnect]
      omega
  · rw [show notices ++ (none : Option (ServerNotice Handler)).toList = notices from List.append_nil _]
    refine ⟨h.follows,?_,?_,?_,?_,?_⟩
    · intro idx session hfind
      rw [List.getElem?_append] at hfind
      split_ifs at hfind with hidx
      · exact h.suits idx session hfind
      · obtain rfl : WebSocketSession.created.connect = session :=
          (List.mem_singleton.mp (List.mem_of_getElem? hfind)).symm
        rw [h.connecting (not_lt.mp hidx)]
        exact .dispatch _
    · intro idx hidx
      rw [List.length_append] at hidx
      exact h.unborn idx ((Nat.le_add_right _ _).trans hidx)
    · simp [accepts,ErrorCode.isError]
      omega
    · simp [accepts,ErrorCode.isError,h.accepted]
    · rw [List.countP_append]
      exact hdisconnects.trans (Nat.le_add_right _ _)

theorem Attended.complete (h : Attended inputs server notices phases) {session idx : ℕ} {ec : ErrorCode}
    {received : Bytes} {notice : Option (ServerNotice Handler)}
    (hstep : server.step (.completed session idx ec received) = some (server',notice)) : ∃ phases',
    Attended (inputs ++ [.inl (.completed session idx ec received)]) server'
      (notices ++ notice.toList) phases' := by
  obtain ⟨wsSession,next,call,hfind,hcompleted,rfl,rfl⟩ := step_completed hstep
  obtain ⟨phase,hphase,hsuits⟩ := WebSocketSession.leads_completed (h.suits session wsSession hfind)
    hcompleted
  have hcalls : (notices ++ (call.map (ServerNotice.session session)).toList).filterMap
      ServerNotice.call? = notices.filterMap ServerNotice.call? ++
        call.toList.map fun a => (session,a) := by
    cases call <;> simp [ServerNotice.call?]
  have hlt : session < server.sessions.length := (List.getElem?_eq_some_iff.mp hfind).1
  refine ⟨Function.update phases session phase,?_,?_,?_,?_,?_,?_⟩
  · rw [hcalls]
    exact h.follows.act hphase
  · intro idx' session' hfind'
    by_cases heq : session = idx'
    · subst idx'
      obtain rfl : next = session' := by simpa [hlt] using hfind'
      rw [Function.update_self]
      exact hsuits
    · rw [Function.update_of_ne (Ne.symm heq)]
      exact h.suits idx' session' (by simpa [List.getElem?_set,heq] using hfind')
  · intro idx' hidx'
    have hlength : server.sessions.length ≤ idx' := by simpa using hidx'
    rw [callsOf,hcalls,actionsOf_append,actionsOf_ne (by omega),List.append_nil]
    exact h.unborn idx' hlength
  · simpa [accepts] using h.accepting
  · simpa [accepts] using h.accepted
  · have hmade :
        (call.map (ServerNotice.session session)).toList.countP ServerNotice.isDisconnect = 0 := by
      cases call <;> simp [ServerNotice.isDisconnect]
    simpa [accepts,hmade] using h.disconnects

theorem Attended.modify (h : Attended inputs server notices phases) (idx : ℕ)
    {change : WebSocketSession Handler → WebSocketSession Handler}
    (hchange : ∀ phase session, Suits phase session.closed session.chain →
      Suits phase (change session).closed (change session).chain)
    (hinput : ∀ success, accepts success input = false) :
    Attended (inputs ++ [input]) {server with sessions := server.sessions.modify idx change}
      notices phases where
  follows := h.follows
  suits idx' session hfind := by
    rw [List.getElem?_modify] at hfind
    obtain ⟨session',hfind',hsame⟩ := Option.map_eq_some_iff.mp hfind
    split_ifs at hsame with heq
    · rw [← hsame]
      exact hchange _ _ (h.suits idx' session' hfind')
    · rw [← hsame]
      exact h.suits idx' session' hfind'
  unborn idx' hidx' := h.unborn idx' (by simpa using hidx')
  accepting := by simpa [hinput] using h.accepting
  accepted := by simpa [hinput] using h.accepted
  disconnects := by simpa [hinput] using h.disconnects

theorem Attended.step (h : Attended inputs server notices phases)
    (hstep : machine.step server input = some (server',notices')) :
    ∃ phases', Attended (inputs ++ [input]) server' (notices ++ notices') phases' := by
  cases input with
  | inl event =>
    obtain ⟨⟨next,notice⟩,hnext,heq⟩ := Option.map_eq_some_iff.mp hstep
    obtain ⟨rfl,rfl⟩ := Prod.mk.inj heq
    cases event with
    | accepted ec => exact ⟨phases,h.accept hnext⟩
    | completed session idx ec received => exact h.complete hnext
  | inr order =>
    obtain ⟨rfl,rfl⟩ := Prod.mk.inj (Option.some.inj hstep)
    rw [List.append_nil]
    cases order with
    | send session onSend =>
      exact ⟨phases,h.modify session (fun _ _ hsuits => WebSocketSession.suits_send hsuits onSend)
        fun _ => rfl⟩
    | close session onClose =>
      exact ⟨phases,h.modify session (fun _ _ hsuits => WebSocketSession.suits_close hsuits onClose)
        fun _ => rfl⟩
    | stop =>
      exact ⟨phases,h.follows,h.suits,h.unborn,by simpa [accepts,obey,stop] using h.accepting,
        by simpa [accepts,obey,stop] using h.accepted,by simpa [accepts] using h.disconnects⟩

theorem run_attended (hrun : machine.run started inputs = some (server,notices)) :
    ∃ phases, Attended inputs server notices phases := by
  refine Machine.run_induction (motive := fun inputs server notices =>
    ∃ phases, Attended inputs server notices phases) ⟨_,attended_started⟩ ?_ hrun
  rintro inputs input server server' notices notices' - ⟨phases,h⟩ hstep
  exact h.step hstep

/-! Closed sessions. -/

def ClosedAt (server : WebSocketServer Handler) (idx : ℕ) : Prop :=
  ∃ session, server.sessions[idx]? = some session ∧ session.closed

theorem ClosedAt.step {idx : ℕ} (h : ClosedAt server idx)
    (hstep : machine.step server input = some (server',notices)) :
    ClosedAt server' idx ∧ ∀ ec, .session idx (.onDisconnect ec) ∉ notices := by
  obtain ⟨session,hfind,hclosed⟩ := h
  cases input with
  | inl event =>
    obtain ⟨⟨next,notice⟩,hnext,heq⟩ := Option.map_eq_some_iff.mp hstep
    obtain ⟨rfl,rfl⟩ := Prod.mk.inj heq
    cases event with
    | accepted ec =>
      obtain ⟨accepting,-,⟨-,rfl,rfl⟩ | ⟨-,rfl,rfl⟩⟩ := step_accepted hnext
      · refine ⟨⟨session,hfind,hclosed⟩,fun ec' => ?_⟩
        split_ifs <;> simp
      · exact ⟨⟨session,by simp [List.getElem?_append_left (List.getElem?_eq_some_iff.mp hfind).1,hfind],
          hclosed⟩,by simp⟩
    | completed session' idx' ec received =>
      obtain ⟨wsSession,next,call,hfind',hcompleted,rfl,rfl⟩ := step_completed hnext
      obtain ⟨hsame,hsilent⟩ := WebSocketSession.completed_closed hcompleted
      by_cases hsession : session' = idx
      · subst session'
        obtain rfl : session = wsSession := Option.some.inj (hfind.symm.trans hfind')
        have hlt : idx < server.sessions.length := (List.getElem?_eq_some_iff.mp hfind).1
        refine ⟨⟨next,by simp [hlt],hsame.trans hclosed⟩,fun ec' => ?_⟩
        cases call with
        | none => simp
        | some call => simpa using fun hcall => hsilent hclosed ec' (congrArg some hcall.symm)
      · refine ⟨⟨session,by simpa [List.getElem?_set,hsession] using hfind,hclosed⟩,fun ec' => ?_⟩
        cases call with
        | none => simp
        | some call => simp [Ne.symm hsession]
  | inr order =>
    obtain ⟨rfl,rfl⟩ := Prod.mk.inj (Option.some.inj hstep)
    refine ⟨?_,by simp⟩
    cases order with
    | send session' onSend =>
      by_cases heq : session' = idx
      · exact ⟨session.send onSend,by simp [obey,hfind,heq],hclosed⟩
      · exact ⟨session,by simp [obey,hfind,heq],hclosed⟩
    | close session' onClose =>
      by_cases heq : session' = idx
      · exact ⟨session.close onClose,by simp [obey,hfind,heq],rfl⟩
      · exact ⟨session,by simp [obey,hfind,heq],hclosed⟩
    | stop => exact ⟨session,hfind,hclosed⟩

theorem ClosedAt.run {idx : ℕ} (h : ClosedAt server idx)
    (hrun : machine.run server inputs = some (server',notices)) :
    ClosedAt server' idx ∧ ∀ ec, .session idx (.onDisconnect ec) ∉ notices := by
  refine Machine.run_induction (motive := fun _ server notices =>
    ClosedAt server idx ∧ ∀ ec, .session idx (.onDisconnect ec) ∉ notices) ⟨h,by simp⟩ ?_ hrun
  rintro inputs input server server' notices notices' - ⟨hclosed,hsilent⟩ hstep
  obtain ⟨hclosed',hsilent'⟩ := hclosed.step hstep
  exact ⟨hclosed',fun ec => by simp [hsilent ec,hsilent' ec]⟩

/-- How a server keeps its sessions: each handler is called in its turn, each session waits for one thing
at a time, and so does the acceptor until an accept fails. -/
structure KeepsSessions (inputs : List (SocketEvent ⊕ SocketOrder Handler))
    (server : WebSocketServer Handler) (notices : List (ServerNotice Handler)) : Prop where
  order : ∀ idx, SessionOrder ((callsOf notices idx).filter SessionCall.isOwn)
  unborn : ∀ idx, server.sessions.length ≤ idx → callsOf notices idx = []
  chain : ∀ session ∈ server.sessions, session.chain.length ≤ 1
  accepting : server.accepting + inputs.countP (accepts false) = 1
  accepted : server.sessions.length = inputs.countP (accepts true)
  disconnects : notices.countP ServerNotice.isDisconnect ≤ inputs.countP (accepts false)
  silent : ∀ before after earlier now later, inputs = before ++ after →
    machine.run started before = some (earlier,now) → notices = now ++ later →
      ∀ idx, ClosedAt earlier idx → ∀ ec, .session idx (.onDisconnect ec) ∉ later

theorem keepsSessions_of_run (inputs : List (SocketEvent ⊕ SocketOrder Handler))
    (hrun : machine.run started inputs = some (server,notices)) :
    KeepsSessions inputs server notices := by
  obtain ⟨phases,h⟩ := run_attended hrun
  refine ⟨fun idx => (sessionProtocol_called (h.follows idx)).order,h.unborn,?_,h.accepting,h.accepted,
    h.disconnects,?_⟩
  · intro session hmem
    obtain ⟨idx,hfind⟩ := List.mem_iff_getElem?.mp hmem
    exact (h.suits idx session hfind).length_le
  · rintro before after earlier now later rfl hbefore hsplit idx hclosed
    obtain ⟨mid,now',more,hbefore',hafter,hnotices⟩ := Machine.run_append_eq_some.mp hrun
    obtain ⟨rfl,rfl⟩ := Prod.mk.inj (Option.some.inj (hbefore.symm.trans hbefore'))
    obtain rfl := List.append_cancel_left (hnotices.trans hsplit)
    exact (hclosed.run hafter).2

/-- A session connects, gets a message and is closed by its user, and the acceptor fails. -/
def oneSession : List (SocketEvent ⊕ SocketOrder ℕ) :=
  [.inl (.accepted .success),.inl (.completed 0 0 .success []),.inl (.completed 0 0 .success []),
    .inl (.completed 0 0 .success []),.inl (.completed 0 0 .success (ascii "STOMP")),
    .inr (.close 0 (some 7)),.inl (.completed 0 1 .success []),
    .inl (.completed 0 0 .operationAborted []),.inl (.accepted .operationAborted)]

theorem keepsSessions_oneSession : ∃ server,
    machine.run started oneSession = some (server,[.session 0 (.onConnect .success),
      .session 0 (.onMessage (ascii "STOMP")),.session 0 (.onClose 7 .success),
      .onDisconnect .operationAborted]) ∧ KeepsSessions oneSession server
        [.session 0 (.onConnect .success),.session 0 (.onMessage (ascii "STOMP")),
          .session 0 (.onClose 7 .success),.onDisconnect .operationAborted] := by
  obtain ⟨server,hrun⟩ : ∃ server, machine.run started oneSession = some (server,
      [.session 0 (.onConnect .success),.session 0 (.onMessage (ascii "STOMP")),
        .session 0 (.onClose 7 .success),.onDisconnect .operationAborted]) := ⟨_,rfl⟩
  exact ⟨server,hrun,keepsSessions_of_run oneSession hrun⟩

end WebSocketServer
end QuietRoute
