import QuietRoute.Stomp.StompClient

/-! Runs of the client over its user's calls, the ends of its operations and the messages that it
receives: how often it reports the outcome of connecting, and which frames reach a subscription. -/
namespace QuietRoute

open StompFrame

namespace StompClient

variable {Handler : Type}

def moments (ids : IdGenerator) (client : StompClient Handler) :
    List (ClientEvent Handler) → List (StompClient Handler × ClientEvent Handler)
  | [] => []
  | event::events => (client,event)::match client.perform ids event with
    | none => []
    | some client' => client'.moments ids events

variable {ids : IdGenerator} {client client' : StompClient Handler} {event : ClientEvent Handler}
  {events : List (ClientEvent Handler)}

theorem run_cons : client.run ids (event::events) =
    (client.perform ids event).bind fun client' => client'.run ids events := List.foldlM_cons

theorem run_concat : client.run ids (events ++ [event]) =
    (client.run ids events).bind fun client' => client'.perform ids event := by
  rw [run,List.foldlM_append]
  refine congrArg (Option.bind _) (funext fun client' => ?_)
  rw [List.foldlM_cons]
  exact Option.bind_fun_some _

theorem moments_cons (h : client.perform ids event = some client') :
    client.moments ids (event::events) = (client,event)::client'.moments ids events := by
  rw [moments,h]

theorem moments_append {events' : List (ClientEvent Handler)}
    (h : client.run ids events = some client') :
    client.moments ids (events ++ events') =
      client.moments ids events ++ client'.moments ids events' := by
  induction events generalizing client with
  | nil =>
    obtain rfl : client = client' := Option.some.inj h
    rfl
  | cons event events ih =>
    rw [run_cons,Option.bind_eq_some_iff] at h
    obtain ⟨client₁,hfirst,hrest⟩ := h
    rw [List.cons_append,moments_cons hfirst,moments_cons hfirst,ih hrest,List.cons_append]

theorem moments_singleton : client.moments ids [event] = [(client,event)] := by
  simp only [moments]
  cases client.perform ids event <;> rfl

theorem moments_concat (h : client.run ids events = some client') :
    client.moments ids (events ++ [event]) = client.moments ids events ++ [(client',event)] := by
  rw [moments_append h,moments_singleton]

/-! The outcome of connecting. -/

end StompClient

/-- A call that tells the user how connecting ended. -/
def ClientCall.isOutcome {Handler : Type} : ClientCall Handler → Bool
  | .onConnect _ _ => true
  | _ => false

def Completion.isAttempt {Handler : Type} : Completion Handler → Bool
  | .connect => true
  | .stomp => true
  | _ => false

namespace ClientEvent

variable {Handler : Type}

def isConnect : ClientEvent Handler → Bool
  | .connect _ _ _ _ _ => true
  | _ => false

/-- A message that is no valid frame, or a `CONNECTED` frame. -/
def reports : ClientEvent Handler → Bool
  | .message unspecified msg =>
    match ofString unspecified.uninitialised msg with
    | none => false
    | some (ec,frame) => ec ≠ .kOk ∨ frame.command = .kConnected
  | _ => false

end ClientEvent

namespace StompClient

variable {Handler : Type}

def outcomes (client : StompClient Handler) : ℕ := client.posted.countP ClientCall.isOutcome

/-- How many operations that make a connection have not completed. -/
def attempts (client : StompClient Handler) : ℕ := client.pending.countP Completion.isAttempt

/-- An operation that makes a connection ends in vain. -/
def fails (client : StompClient Handler) : ClientEvent Handler → Bool
  | .completed unspecified idx ec =>
    match client.pending[idx]? with
    | some .connect => ec || (client.stompFrame unspecified).1 ≠ .kOk
    | some .stomp => ec
    | _ => false
  | _ => false

/-- The handler is set, and it is posted once more for each of `n` reports. -/
structure Reported (client client' : StompClient Handler) (n : ℕ) : Prop where
  onConnect_eq : client'.onConnect = client.onConnect
  outcomes_eq : client'.outcomes = client.outcomes + if client.onConnect.isSome then n else 0

variable {ids : IdGenerator} {unspecified : Unspecified} {client client' : StompClient Handler}
  {event : ClientEvent Handler} {events : List (ClientEvent Handler)}

@[simp] theorem attempts_post (client : StompClient Handler) (handler : Option Handler)
    (call : Handler → ClientCall Handler) : (client.post handler call).attempts = client.attempts := rfl

theorem attempts_ask (client : StompClient Handler) (call : SocketCall)
    (completion : Completion Handler) :
    (client.ask call completion).attempts = client.attempts + [completion].countP Completion.isAttempt :=
  List.countP_append

theorem reported_post (client : StompClient Handler) (ec : StompClientError) :
    Reported client (client.post client.onConnect fun onConnect => .onConnect onConnect ec) 1 := by
  refine ⟨rfl,?_⟩
  rw [outcomes,post,List.countP_append]
  cases client.onConnect <;> rfl

theorem reported_post_other (client : StompClient Handler) (handler : Option Handler)
    {call : Handler → ClientCall Handler} (hcall : ∀ h, (call h).isOutcome = false) :
    Reported client (client.post handler call) 0 := by
  refine ⟨rfl,?_⟩
  rw [outcomes,post,List.countP_append]
  cases handler with
  | none => simp [outcomes]
  | some h => simp [outcomes,hcall]

theorem reported_of_posted_eq (honConnect : client'.onConnect = client.onConnect)
    (hposted : client'.posted = client.posted) : Reported client client' 0 :=
  ⟨honConnect,by simp [outcomes,hposted]⟩

theorem reported_handleFrame (client : StompClient Handler) (frame : StompFrame) :
    Reported client (client.handleFrame frame) (if frame.command = .kConnected then 1 else 0) := by
  have hsame : Reported client client 0 := reported_of_posted_eq rfl rfl
  rw [handleFrame]
  split
  · rename_i hcommand
    rw [hcommand,if_pos rfl]
    exact client.reported_post .kOk
  · rename_i hcommand
    rw [hcommand,if_neg (by decide),handleSubscriptionMessage]
    split
    · exact hsame
    · split
      · exact client.reported_post_other _ fun _ => rfl
      · exact client.reported_post_other _ fun _ => rfl
  · rename_i hcommand
    rw [hcommand,if_neg (by decide),handleSubscriptionReceipt]
    split
    · exact hsame
    · exact client.reported_post_other _ fun _ => rfl
  · rename_i hcommand
    rw [hcommand,if_neg (by decide)]
    exact client.reported_post_other _ fun _ => rfl
  · rename_i hcommand _ _ _
    rw [if_neg hcommand]
    exact hsame

theorem handleFrame_eq (client : StompClient Handler) (frame : StompFrame) :
    ∃ calls, client.handleFrame frame = {client with posted := client.posted ++ calls} := by
  have hnone : ∃ calls, client = {client with posted := client.posted ++ calls} := ⟨[],by simp⟩
  have hpost : ∀ (handler : Option Handler) (call : Handler → ClientCall Handler),
      ∃ calls, client.post handler call = {client with posted := client.posted ++ calls} :=
    fun _ _ => ⟨_,rfl⟩
  rw [handleFrame]
  split
  · exact hpost _ _
  · rw [handleSubscriptionMessage]
    split
    · exact hnone
    · split
      · exact hpost _ _
      · exact hpost _ _
  · rw [handleSubscriptionReceipt]
    split
    · exact hnone
    · exact hpost _ _
  · exact hpost _ _
  · exact hnone

theorem onWsMessage_eq {msg : Bytes} (h : client.onWsMessage unspecified msg = some client') :
    ∃ calls, client' = {client with posted := client.posted ++ calls} := by
  rw [onWsMessage] at h
  cases hparse : ofString unspecified.uninitialised msg with
  | none => simp [hparse] at h
  | some parsed =>
    obtain ⟨ec,frame⟩ := parsed
    simp only [hparse,Option.bind_eq_bind,Option.bind_some] at h
    split at h
    · obtain rfl := Option.some.inj h
      exact ⟨_,rfl⟩
    · obtain rfl := Option.some.inj h
      exact client.handleFrame_eq frame

theorem reported_message {msg : Bytes} (h : client.onWsMessage unspecified msg = some client') :
    Reported client client'
      (ClientEvent.message unspecified msg : ClientEvent Handler).reports.toNat := by
  rw [onWsMessage] at h
  rw [ClientEvent.reports]
  cases hparse : ofString unspecified.uninitialised msg with
  | none => simp [hparse] at h
  | some parsed =>
    obtain ⟨ec,frame⟩ := parsed
    simp only [hparse,Option.bind_eq_bind,Option.bind_some] at h
    by_cases hec : ec = .kOk
    · rw [if_neg (by simpa using hec)] at h
      obtain rfl := Option.some.inj h
      have hframe := client.reported_handleFrame frame
      by_cases hcommand : frame.command = .kConnected
      · simpa [hec,hcommand] using hframe
      · simpa [hec,hcommand] using hframe
    · rw [if_pos hec] at h
      obtain rfl := Option.some.inj h
      simpa [hec] using client.reported_post .kCouldNotParseMessageAsStompFrame

theorem subscribe_cases (client : StompClient Handler) (ids : IdGenerator) (unspecified : Unspecified)
    (destination : Bytes) (onSubscribe onMessage : Option Handler) :
    client.subscribe ids unspecified destination onSubscribe onMessage =
        ([],{client with generated := client.generated+1}) ∨
      ∃ frame : StompFrame, client.subscribe ids unspecified destination onSubscribe onMessage =
        (ids.nth client.generated,({client with generated := client.generated+1} :
          StompClient Handler).ask (.send frame.plain)
            (.subscribe (ids.nth client.generated) ⟨destination,onSubscribe,onMessage⟩)) := by
  rw [subscribe]
  simp only
  split_ifs with herror
  · exact Or.inl rfl
  · exact Or.inr ⟨_,rfl⟩

theorem send_cases (client : StompClient Handler) (ids : IdGenerator) (unspecified : Unspecified)
    (destination messageContent : Bytes) (onSend : Option Handler) :
    client.send ids unspecified destination messageContent onSend =
        ([],{client with generated := client.generated+1}) ∨
      ∃ frame : StompFrame, client.send ids unspecified destination messageContent onSend =
        (ids.nth client.generated,({client with generated := client.generated+1} :
          StompClient Handler).ask (.send frame.plain)
            (.send (ids.nth client.generated) onSend)) := by
  rw [send]
  simp only
  split_ifs with herror
  · exact Or.inl rfl
  · exact Or.inr ⟨_,rfl⟩

theorem countP_eraseIdx {α : Type} (p : α → Bool) {l : List α} {idx : ℕ} {a : α}
    (h : l[idx]? = some a) : (l.eraseIdx idx).countP p + (p a).toNat = l.countP p := by
  obtain ⟨hidx,rfl⟩ := List.getElem?_eq_some_iff.mp h
  have hl : l = l.take idx ++ l[idx] :: l.drop (idx+1) := by simp
  rw [List.eraseIdx_eq_take_drop_succ,List.countP_append]
  conv_rhs => rw [hl,List.countP_append,List.countP_cons]
  cases p l[idx] with
  | false => simp
  | true =>
    rw [Bool.toNat_true,if_pos rfl]
    omega

/-- A connection that is made goes on to ask for a STOMP connection, or is reported. -/
theorem reported_onWsConnect (client : StompClient Handler) (unspecified : Unspecified) (ec : Bool) :
    Reported client (client.onWsConnect unspecified ec)
        (ec || (client.stompFrame unspecified).1 ≠ .kOk).toNat ∧
      (ec || (client.stompFrame unspecified).1 ≠ .kOk).toNat +
        (client.onWsConnect unspecified ec).attempts = client.attempts+1 := by
  rw [onWsConnect]
  cases ec with
  | true => exact ⟨client.reported_post _,by simp [Nat.add_comm]⟩
  | false =>
    rw [if_neg (by decide)]
    simp only [Bool.false_or]
    by_cases herror : (client.stompFrame unspecified).1 = .kOk
    · rw [if_neg (by simpa using herror)]
      have hsent : ∀ call completion, Reported client (client.ask call completion) 0 :=
        fun _ _ => reported_of_posted_eq rfl rfl
      exact ⟨by simpa [herror] using hsent _ _,by simp [herror,attempts_ask,Completion.isAttempt]⟩
    · rw [if_pos herror]
      exact ⟨by simpa [herror] using client.reported_post .kUnexpectedCouldNotCreateValidFrame,
        by simp [herror,Nat.add_comm]⟩

theorem reported_completed {idx : ℕ} {ec : Bool}
    (h : client.perform ids (.completed unspecified idx ec) = some client') :
    Reported client client' (client.fails (.completed unspecified idx ec)).toNat ∧
      (client.fails (.completed unspecified idx ec)).toNat + client'.attempts ≤ client.attempts := by
  obtain ⟨completion,hcompletion,rfl⟩ := Option.map_eq_some_iff.mp h
  have hcount := countP_eraseIdx Completion.isAttempt hcompletion
  rw [fails,hcompletion]
  -- the client without the operation has the same handler and the same posted calls
  generalize hrest : ({client with pending := client.pending.eraseIdx idx} : StompClient Handler) = rest
  have hattempts : rest.attempts + completion.isAttempt.toNat = client.attempts := by
    rw [← hrest]
    exact hcount
  have hlift : ∀ {client' n}, Reported rest client' n → Reported client client' n := by
    rintro client' n ⟨honConnect,houtcomes⟩
    rw [← hrest] at honConnect houtcomes
    exact ⟨honConnect,houtcomes⟩
  cases completion with
  | connect =>
    have hframe : (client.stompFrame unspecified).1 = (rest.stompFrame unspecified).1 := by
      rw [← hrest]
      rfl
    obtain ⟨hreported,hleft⟩ := rest.reported_onWsConnect unspecified ec
    rw [← hframe] at hreported hleft
    exact ⟨hlift hreported,(hleft.trans hattempts).le⟩
  | stomp =>
    rw [complete,onWsSendStomp]
    cases ec with
    | true => exact ⟨hlift (rest.reported_post _),by simp [← hattempts,Completion.isAttempt,Nat.add_comm]⟩
    | false => exact ⟨hlift (reported_of_posted_eq rfl rfl),by simp [← hattempts]⟩
  | subscribe subscriptionId subscription =>
    rw [complete,onWsSendSubscribe]
    cases ec with
    | true => exact ⟨hlift (rest.reported_post_other _ fun _ => rfl),by simp [← hattempts]⟩
    | false => exact ⟨hlift (reported_of_posted_eq rfl rfl),(Nat.zero_add _).trans_le hattempts.le⟩
  | send requestId onSend =>
    exact ⟨hlift (rest.reported_post_other _ fun _ => rfl),(Nat.zero_add _).trans_le hattempts.le⟩
  | close onClose =>
    exact ⟨hlift (rest.reported_post_other _ fun _ => rfl),(Nat.zero_add _).trans_le hattempts.le⟩

theorem reported_perform (hevent : event.isConnect = false)
    (h : client.perform ids event = some client') :
    Reported client client' (event.reports.toNat + (client.fails event).toNat) ∧
      (client.fails event).toNat + client'.attempts ≤ client.attempts := by
  cases event with
  | connect => cases hevent
  | subscribe u destination onSubscribe onMessage =>
    obtain rfl := Option.some.inj h
    rcases client.subscribe_cases ids u destination onSubscribe onMessage with hfailed | ⟨frame,hsent⟩
    · rw [hfailed]
      exact ⟨reported_of_posted_eq rfl rfl,(Nat.zero_add _).le⟩
    · rw [hsent]
      exact ⟨reported_of_posted_eq rfl rfl,(Nat.zero_add _).trans_le (attempts_ask _ _ _).le⟩
  | send u destination messageContent onSend =>
    obtain rfl := Option.some.inj h
    rcases client.send_cases ids u destination messageContent onSend with hfailed | ⟨frame,hsent⟩
    · rw [hfailed]
      exact ⟨reported_of_posted_eq rfl rfl,(Nat.zero_add _).le⟩
    · rw [hsent]
      exact ⟨reported_of_posted_eq rfl rfl,(Nat.zero_add _).trans_le (attempts_ask _ _ _).le⟩
  | close onClose =>
    obtain rfl := Option.some.inj h
    exact ⟨reported_of_posted_eq rfl rfl,(Nat.zero_add _).trans_le (attempts_ask _ _ _).le⟩
  | completed u idx ec =>
    obtain ⟨hreported,hattempts⟩ := reported_completed h
    exact ⟨by simpa [ClientEvent.reports] using hreported,hattempts⟩
  | message u msg =>
    obtain ⟨calls,hclient'⟩ := onWsMessage_eq h
    refine ⟨by simpa [fails] using reported_message h,?_⟩
    rw [hclient']
    exact (Nat.zero_add _).le
  | disconnected ec =>
    obtain rfl := Option.some.inj h
    exact ⟨client.reported_post_other _ fun _ => rfl,by simp [fails,onWsDisconnect]⟩

/-- In a run without a further connect, each report is posted. -/
theorem outcomes_run (hevents : ∀ event ∈ events, event.isConnect = false)
    (hrun : client.run ids events = some client') : Reported client client'
      (events.countP ClientEvent.reports +
        (client.moments ids events).countP fun moment => moment.1.fails moment.2) ∧
      (client.moments ids events).countP (fun moment => moment.1.fails moment.2) + client'.attempts ≤
        client.attempts := by
  induction events generalizing client with
  | nil =>
    obtain rfl : client = client' := Option.some.inj hrun
    exact ⟨reported_of_posted_eq rfl rfl,(Nat.zero_add _).le⟩
  | cons event events ih =>
    rw [run_cons,Option.bind_eq_some_iff] at hrun
    obtain ⟨client₁,hfirst,hrest⟩ := hrun
    obtain ⟨hreported,hattempts⟩ := reported_perform (hevents event List.mem_cons_self) hfirst
    obtain ⟨hreports,hfails⟩ := ih (fun e he => hevents e (List.mem_cons_of_mem _ he)) hrest
    have hbool : ∀ b : Bool, (if b = true then 1 else 0) = b.toNat := fun b => by cases b <;> rfl
    rw [moments_cons hfirst,List.countP_cons,List.countP_cons,hbool,hbool]
    dsimp only
    refine ⟨⟨hreports.onConnect_eq.trans hreported.onConnect_eq,?_⟩,by omega⟩
    rw [hreports.outcomes_eq,hreported.outcomes_eq,hreported.onConnect_eq]
    split_ifs <;> omega

theorem run_created {url : Bytes} (hevents : ∀ event ∈ events, event.isConnect = false)
    (hrun : (created url).run ids events = some client) :
    client.outcomes = 0 ∧ client.attempts = 0 := by
  obtain ⟨hreported,hattempts⟩ := outcomes_run hevents hrun
  exact ⟨hreported.outcomes_eq,Nat.le_zero.mp ((Nat.le_add_left _ _).trans hattempts)⟩

/-- The outcome is posted at most once in exactly the runs in which at most one message is no frame or
a `CONNECTED` frame, and none is when the connection could not be made. -/
theorem outcomes_le_one_iff (ids : IdGenerator) (url username password : Bytes)
    (onConnect onMessage onDisconnect : Option Handler) {before events : List (ClientEvent Handler)}
    (hbefore : ∀ event ∈ before, event.isConnect = false)
    (hcreated : (created url).run ids before = some client)
    (hevents : ∀ event ∈ events, event.isConnect = false)
    (hrun : (client.connect username password onConnect onMessage onDisconnect).run ids events =
      some client') :
    client'.outcomes ≤ 1 ↔ onConnect = none ∨ (events.countP ClientEvent.reports ≤ 1 ∧
      ((∃ moment ∈ (client.connect username password onConnect onMessage onDisconnect).moments ids
        events, moment.1.fails moment.2) → events.countP ClientEvent.reports = 0)) := by
  obtain ⟨houtcomes,hattempts⟩ := run_created hbefore hcreated
  obtain ⟨hreported,hfails⟩ := outcomes_run hevents hrun
  have hstart : (client.connect username password onConnect onMessage onDisconnect).outcomes = 0 :=
    houtcomes
  have hone : (client.connect username password onConnect onMessage onDisconnect).attempts = 1 := by
    rw [connect,attempts_ask]
    exact congrArg (· + 1) hattempts
  have heq := hreported.outcomes_eq
  rw [hstart,Nat.zero_add] at heq
  have hset : (client.connect username password onConnect onMessage onDisconnect).onConnect = onConnect :=
    rfl
  rw [hset] at heq
  rw [heq,← List.countP_pos_iff]
  cases onConnect with
  | none => simp
  | some handler =>
    rw [Option.isSome_some,if_pos rfl]
    simp only [reduceCtorEq,false_or]
    omega

def accepted : List (ClientEvent ℕ) :=
  [.completed 0 0 false,.completed 0 0 false,.message 0 (ascii "CONNECTED\nversion:1.2\n\n\x00")]

theorem outcomes_accepted : ∃ client', ((created (ascii "localhost")).connect (ascii "user")
    (ascii "password") (some 0) none none).run .simple accepted = some client' ∧
      client'.outcomes ≤ 1 := by
  have hsome : (((created (ascii "localhost")).connect (ascii "user") (ascii "password") (some 0)
    none none).run .simple accepted).isSome := by decide +kernel
  obtain ⟨client',hrun⟩ := Option.isSome_iff_exists.mp hsome
  refine ⟨client',hrun,?_⟩
  rw [@outcomes_le_one_iff ℕ (created (ascii "localhost")) client' .simple (ascii "localhost")
    (ascii "user") (ascii "password") (some 0) none none [] accepted (by simp) rfl (by decide) hrun]
  exact Or.inr (by decide +kernel)

/-- A malformed message after that is reported as if the client had failed to connect. -/
theorem outcomes_accepted_garbage : ¬∀ (url username password : Bytes)
    (onConnect onMessage onDisconnect : Option ℕ) (events : List (ClientEvent ℕ))
    (client' : StompClient ℕ), (∀ event ∈ events, event.isConnect = false) →
      ((created url).connect username password onConnect onMessage onDisconnect).run .simple events =
        some client' → client'.outcomes ≤ 1 := by
  intro hclaim
  have hposted : (((created (ascii "localhost")).connect (ascii "user") (ascii "password") (some 0)
      none none).run .simple (accepted ++ [.message 0 (ascii "garbage")])).map posted = some
        [.onConnect 0 .kOk,.onConnect 0 .kCouldNotParseMessageAsStompFrame] := by decide +kernel
  obtain ⟨client',hrun,hcalls⟩ := Option.map_eq_some_iff.mp hposted
  have hle := hclaim _ _ _ _ _ _ _ client' (by decide) hrun
  rw [outcomes,hcalls] at hle
  exact absurd hle (by decide)

end StompClient
end QuietRoute
