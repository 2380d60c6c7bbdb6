import QuietRoute.Stomp.ClientSubscriptions

/-! What a client that was closed still tells its subscriptions, until its user subscribes again. -/
namespace QuietRoute

open StompFrame

/-- A call that tells a subscription that it is set up, or of a message. -/
def ClientCall.isDelivery {Handler : Type} : ClientCall Handler → Bool
  | .onSubscribe _ ec _ => ec = .kOk
  | .onSubscriptionMessage _ ec _ => ec = .kOk
  | _ => false

def ClientEvent.isSubscribe {Handler : Type} : ClientEvent Handler → Bool
  | .subscribe _ _ _ _ => true
  | _ => false

namespace StompClient

variable {Handler : Type}

/-- The write of a `SUBSCRIBE` frame ends without an error. -/
def enters (client : StompClient Handler) : ClientEvent Handler → Bool
  | .completed _ idx ec => !ec && (client.pending[idx]?.bind Completion.subscription?).isSome
  | _ => false

/-- There are no subscriptions, and none was told anything on the way here. -/
structure StaysClosed (client client' : StompClient Handler) : Prop where
  subscriptions_eq : client'.subscriptions = .empty
  posted_eq : ∃ calls, client'.posted = client.posted ++ calls ∧ ∀ call ∈ calls, call.isDelivery = false

/-- In a run, `client` is closed, and its user has not subscribed again when it has become
`client'`, before the events `after`. -/
def ClosedSince (ids : IdGenerator) (url : Bytes) (events : List (ClientEvent Handler))
    (client client' : StompClient Handler) (after : List (ClientEvent Handler)) : Prop :=
  ∃ before onClose since, events = before ++ ClientEvent.close onClose::since ++ after ∧
    (created url).run ids before = some client ∧
      (client.close onClose).run ids since = some client' ∧
        ∀ event ∈ since, event.isSubscribe = false

/-- From every `Close` to the next `Subscribe` there are no subscriptions, and none is told
anything. -/
def StaysSilent (ids : IdGenerator) (url : Bytes) (events : List (ClientEvent Handler)) : Prop :=
  ∀ client client' after, ClosedSince ids url events client client' after → StaysClosed client client'

/-- No write of a `SUBSCRIBE` frame ends without an error between a `Close` and the next `Subscribe`. -/
def NoneEnters (ids : IdGenerator) (url : Bytes) (events : List (ClientEvent Handler)) : Prop :=
  ∀ client client' event after, ClosedSince ids url events client client' (event::after) →
    client'.enters event = false

variable {ids : IdGenerator} {url : Bytes} {unspecified : Unspecified}
  {client client₁ client' : StompClient Handler} {event : ClientEvent Handler}
  {events since after : List (ClientEvent Handler)}

theorem StaysClosed.trans (h : StaysClosed client client₁) (h' : StaysClosed client₁ client') :
    StaysClosed client client' := by
  obtain ⟨calls,hposted,hcalls⟩ := h.posted_eq
  obtain ⟨calls',hposted',hcalls'⟩ := h'.posted_eq
  refine ⟨h'.subscriptions_eq,calls ++ calls',?_,?_⟩
  · rw [hposted',hposted,List.append_assoc]
  · intro call hcall
    exact (List.mem_append.mp hcall).elim (hcalls call) (hcalls' call)

theorem staysClosed_of_posted_eq (hsubscriptions : client'.subscriptions = .empty)
    (hposted : client'.posted = client.posted) : StaysClosed client client' :=
  ⟨hsubscriptions,[],by rw [hposted,List.append_nil],by simp⟩

theorem staysClosed_post (hempty : client.subscriptions = .empty) (handler : Option Handler)
    {call : Handler → ClientCall Handler} (hcall : ∀ h, (call h).isDelivery = false) :
    StaysClosed client (client.post handler call) := by
  refine ⟨hempty,handler.toList.map call,rfl,?_⟩
  rintro _ hmem
  obtain ⟨h,-,rfl⟩ := List.mem_map.mp hmem
  exact hcall h

theorem staysClosed_handleFrame (hempty : client.subscriptions = .empty) (frame : StompFrame) :
    StaysClosed client (client.handleFrame frame) := by
  have hsame : StaysClosed client client := staysClosed_of_posted_eq hempty rfl
  have hfind : ∀ id, client.subscriptions.find id = none := fun id => by rw [hempty]; rfl
  rw [handleFrame]
  split
  · exact staysClosed_post hempty _ fun _ => rfl
  · rw [handleSubscriptionMessage,hfind]
    exact hsame
  · simp only [handleSubscriptionReceipt,hfind]
    exact hsame
  · exact staysClosed_post hempty _ fun _ => rfl
  · exact hsame

theorem staysClosed_message {msg : Bytes} (hempty : client.subscriptions = .empty)
    (h : client.onWsMessage unspecified msg = some client') : StaysClosed client client' := by
  rw [onWsMessage] at h
  cases hparse : ofString unspecified.uninitialised msg with
  | none => simp [hparse] at h
  | some parsed =>
    obtain ⟨ec,frame⟩ := parsed
    simp only [hparse,Option.bind_eq_bind,Option.bind_some] at h
    split at h
    · obtain rfl := Option.some.inj h
      exact staysClosed_post hempty _ fun _ => rfl
    · obtain rfl := Option.some.inj h
      exact staysClosed_handleFrame hempty frame

/-- A failed write of a `SUBSCRIBE` frame is reported as such, and nothing else is entered. -/
theorem staysClosed_complete (hempty : client.subscriptions = .empty) {ec : Bool}
    {completion : Completion Handler} (hfails : completion.subscription?.isSome → ec = true) :
    StaysClosed client (client.complete unspecified ec completion) := by
  cases completion with
  | connect =>
    rw [complete,onWsConnect]
    simp only
    split_ifs
    · exact staysClosed_post hempty _ fun _ => rfl
    · exact staysClosed_post hempty _ fun _ => rfl
    · exact staysClosed_of_posted_eq hempty rfl
  | stomp =>
    rw [complete,onWsSendStomp]
    split_ifs
    · exact staysClosed_post hempty _ fun _ => rfl
    · exact staysClosed_of_posted_eq hempty rfl
  | subscribe id subscription =>
    obtain rfl := hfails rfl
    exact staysClosed_post hempty _ fun _ => rfl
  | send requestId onSend => exact staysClosed_post hempty _ fun _ => rfl
  | close onClose => exact staysClosed_post hempty _ fun _ => rfl

theorem staysClosed_perform (hempty : client.subscriptions = .empty)
    (hevent : event.isSubscribe = false) (henters : client.enters event = false)
    (hstep : client.perform ids event = some client') : StaysClosed client client' := by
  cases event with
  | connect username password onConnect onMessage onDisconnect =>
    obtain rfl := Option.some.inj hstep
    exact staysClosed_of_posted_eq hempty rfl
  | subscribe => cases hevent
  | send u destination messageContent onSend =>
    obtain rfl := Option.some.inj hstep
    rcases client.send_cases ids u destination messageContent onSend with hfailed | ⟨frame,hsent⟩
    · rw [hfailed]
      exact staysClosed_of_posted_eq hempty rfl
    · rw [hsent]
      exact staysClosed_of_posted_eq hempty rfl
  | close onClose =>
    obtain rfl := Option.some.inj hstep
    exact staysClosed_of_posted_eq rfl rfl
  | completed u idx ec =>
    obtain ⟨completion,hcompletion,rfl⟩ := Option.map_eq_some_iff.mp hstep
    rw [enters,hcompletion,Option.bind_some,Bool.and_eq_false_iff,Bool.not_eq_false'] at henters
    have hfails : completion.subscription?.isSome → ec = true := fun hsome =>
      henters.resolve_right (by simp [hsome])
    have hrest : StaysClosed client {client with pending := client.pending.eraseIdx idx} :=
      staysClosed_of_posted_eq hempty rfl
    exact hrest.trans (staysClosed_complete hrest.subscriptions_eq hfails)
  | message u msg => exact staysClosed_message hempty hstep
  | disconnected ec =>
    obtain rfl := Option.some.inj hstep
    exact staysClosed_post hempty _ fun _ => rfl

theorem ClosedSince.concat (h : ClosedSince ids url events client client₁ (event::after))
    (hevent : event.isSubscribe = false) (hstep : client₁.perform ids event = some client') :
    ClosedSince ids url events client client' after := by
  obtain ⟨before,onClose,since,rfl,hbefore,hsince,hnone⟩ := h
  refine ⟨before,onClose,since ++ [event],by simp,hbefore,?_,?_⟩
  · rw [run_concat,hsince,Option.bind_some,hstep]
  · intro e he
    rcases List.mem_append.mp he with hold | hnew
    · exact hnone e hold
    · rw [List.mem_singleton.mp hnew]
      exact hevent

theorem NoneEnters.staysSilent (h : NoneEnters ids url events) : StaysSilent ids url events := by
  rintro client client' after ⟨before,onClose,since,rfl,hbefore,hrun,hnone⟩
  induction since using List.reverseRecOn generalizing client' after with
  | nil =>
    obtain rfl : client.close onClose = client' := Option.some.inj hrun
    exact staysClosed_of_posted_eq rfl rfl
  | append_singleton since event ih =>
    rw [run_concat,Option.bind_eq_some_iff] at hrun
    obtain ⟨client₁,hrun,hlast⟩ := hrun
    obtain ⟨hsince,hevent⟩ := List.forall_mem_append.mp hnone
    have hevents : before ++ ClientEvent.close onClose::(since ++ [event]) ++ after =
        before ++ ClientEvent.close onClose::since ++ event::after := by simp
    rw [hevents] at h
    have hclosed := ih client₁ (event::after) h hrun hsince
    have henters := h client client₁ event after ⟨before,onClose,since,rfl,hbefore,hrun,hsince⟩
    exact hclosed.trans (staysClosed_perform hclosed.subscriptions_eq
      (hevent event (List.mem_singleton_self _)) henters hlast)

theorem subscriptions_of_enters (ids : IdGenerator) (h : client.enters event = true) :
    event.isSubscribe = false ∧
      ∃ client', client.perform ids event = some client' ∧ client'.subscriptions ≠ .empty := by
  cases event with
  | completed u idx ec =>
    refine ⟨rfl,?_⟩
    rw [enters,Bool.and_eq_true,Bool.not_eq_true'] at h
    obtain ⟨rfl,hsome⟩ := h
    obtain ⟨⟨id,subscription⟩,hbind⟩ := Option.isSome_iff_exists.mp hsome
    obtain ⟨completion,hcompletion,hsubscription⟩ := Option.bind_eq_some_iff.mp hbind
    cases completion with
    | subscribe id' subscription' =>
      refine ⟨_,by rw [perform,hcompletion]; rfl,fun hempty => ?_⟩
      have hfind : (client.subscriptions.emplace id' subscription').find id' = none := by
        rw [show client.subscriptions.emplace id' subscription' = .empty from hempty]
        rfl
      rw [UnorderedMap.find_emplace,if_pos rfl] at hfind
      cases hfind
    | connect | stomp | send | close => cases hsubscription
  | connect | subscribe | send | close | message | disconnected => cases h

/-- A closed client has no subscriptions and tells none anything in exactly the runs in which no write
of a `SUBSCRIBE` frame ends without an error between a `Close` and the next `Subscribe`. -/
theorem staysSilent_iff (ids : IdGenerator) (url : Bytes) (events : List (ClientEvent Handler)) :
    StaysSilent ids url events ↔ NoneEnters ids url events := by
  constructor
  · intro h client client₁ event after hclosed
    by_contra henters
    rw [Bool.not_eq_false] at henters
    obtain ⟨hevent,client',hstep,hne⟩ := subscriptions_of_enters ids henters
    exact hne (h client client' after (hclosed.concat hevent hstep)).subscriptions_eq
  · exact NoneEnters.staysSilent

/-- A client that is closed while its `SUBSCRIBE` frame is still being written: the write ends, and
the receipt for it arrives. -/
def afterClose : List (ClientEvent ℕ) := [.completed 0 0 false,.message 0 receiptText]

/-- The user is told that the subscription is set up. -/
theorem told_after_close : ¬∀ (ids : IdGenerator) (url : Bytes) (events : List (ClientEvent ℕ)),
    StaysSilent ids url events := by
  intro hclaim
  have htold : (((created (ascii "localhost")).run .simple subscribing).bind fun client =>
      ((client.close none).run .simple afterClose).map fun client' =>
        client'.posted.drop client.posted.length) = some [.onSubscribe 0 .kOk (ascii "a")] := by
    decide +kernel
  obtain ⟨client,hrun,hclosed⟩ := Option.bind_eq_some_iff.mp htold
  obtain ⟨client',hsince,hposted⟩ := Option.map_eq_some_iff.mp hclosed
  obtain ⟨-,calls,heq,hcalls⟩ := hclaim .simple (ascii "localhost")
    (subscribing ++ .close none::afterClose) client client' []
      ⟨subscribing,none,afterClose,by simp,hrun,hsince,by decide⟩
  rw [heq,List.drop_left] at hposted
  rw [hposted] at hcalls
  exact absurd (hcalls _ (List.mem_singleton_self _)) (by decide)

end StompClient
end QuietRoute
