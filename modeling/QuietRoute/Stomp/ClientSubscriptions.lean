import QuietRoute.Stomp.ClientRuns

/-! The frames from the server that are for a subscription, in runs in which the writes of the
`SUBSCRIBE` frames complete successfully, in any order with these frames. -/
namespace QuietRoute

open StompFrame

def Completion.subscription? {Handler : Type} :
    Completion Handler → Option (Bytes × Subscription Handler)
  | .subscribe subscriptionId subscription => some (subscriptionId,subscription)
  | _ => none

/-- The call that a frame is to cause for a subscription. -/
inductive Expected {Handler : Type} (id : Bytes) (subscription : Subscription Handler)
    (frame : StompFrame) : ClientCall Handler → Prop
  | receipt (handler : Handler) (hcommand : frame.command = .kReceipt)
      (hid : frame.getHeaderValue .kReceiptId = id) (hset : subscription.onSubscribe = some handler) :
      Expected id subscription frame (.onSubscribe handler .kOk id)
  | message (handler : Handler) (hcommand : frame.command = .kMessage)
      (hid : frame.getHeaderValue .kSubscription = id)
      (hdestination : frame.getHeaderValue .kDestination = subscription.destination)
      (hset : subscription.onMessage = some handler) :
      Expected id subscription frame (.onSubscriptionMessage handler .kOk frame.body)

namespace StompClient

variable {Handler : Type}

def inFlight (client : StompClient Handler) : List (Bytes × Subscription Handler) :=
  client.pending.filterMap Completion.subscription?

/-- The subscription that an event starts, with the id that it returns. -/
def issues (ids : IdGenerator) (client : StompClient Handler) :
    ClientEvent Handler → List (Bytes × Subscription Handler)
  | .subscribe unspecified destination onSubscribe onMessage =>
    let (subscriptionId,_) := client.subscribe ids unspecified destination onSubscribe onMessage
    if subscriptionId = [] then [] else [(subscriptionId,⟨destination,onSubscribe,onMessage⟩)]
  | _ => []

def issued (ids : IdGenerator) (client : StompClient Handler) (events : List (ClientEvent Handler)) :
    List (Bytes × Subscription Handler) :=
  (client.moments ids events).flatMap fun moment => moment.1.issues ids moment.2

/-- The client is not closed, and no frame `SUBSCRIBE` fails to be written. -/
def subscribesWell (client : StompClient Handler) : ClientEvent Handler → Bool
  | .close _ => false
  | .completed _ idx ec =>
    match client.pending[idx]? with
    | some (.subscribe _ _) => !ec
    | _ => true
  | _ => true

/-- A run from a new client in which it is not closed and its subscriptions are written. -/
def Undisturbed (ids : IdGenerator) (url : Bytes) (events : List (ClientEvent Handler)) : Prop :=
  ∀ moment ∈ (created url).moments ids events, moment.1.subscribesWell moment.2

instance (ids : IdGenerator) (url : Bytes) (events : List (ClientEvent Handler)) :
    Decidable (Undisturbed ids url events) :=
  inferInstanceAs (Decidable (∀ moment ∈ (created url).moments ids events, _))

/-- In a run, a client receives a frame for a subscription that it has started. -/
structure Receives (ids : IdGenerator) (url : Bytes) (events : List (ClientEvent Handler))
    (client : StompClient Handler) (unspecified : Unspecified) (msg id : Bytes)
    (call : ClientCall Handler) : Prop where
  reached : ∃ before after subscription frame,
    events = before ++ ClientEvent.message unspecified msg::after ∧
      (created url).run ids before = some client ∧
        (id,subscription) ∈ (created url).issued ids before ∧
          ofString unspecified.uninitialised msg = some (.kOk,frame) ∧ Expected id subscription frame call

/-- Each frame for a subscription posts its call, and only this one. -/
def DeliversAll (ids : IdGenerator) (url : Bytes) (events : List (ClientEvent Handler)) : Prop :=
  ∀ client unspecified msg id call, Receives ids url events client unspecified msg id call →
    ∃ client', client.perform ids (.message unspecified msg) = some client' ∧
      client'.posted = client.posted ++ [call]

/-- No frame for a subscription is handled before the frame that asks for it counts as written. -/
def WrittenFirst (ids : IdGenerator) (url : Bytes) (events : List (ClientEvent Handler)) : Prop :=
  ∀ client unspecified msg id call, Receives ids url events client unspecified msg id call →
    ∀ subscription, .subscribe id subscription ∉ client.pending

structure Tracked (ids : IdGenerator) (issued : List (Bytes × Subscription Handler))
    (client : StompClient Handler) : Prop where
  placed : ∀ e ∈ issued, client.subscriptions.find e.1 = some e.2 ∨ e ∈ client.inFlight
  nodup : (client.inFlight.map Prod.fst).Nodup
  unregistered : ∀ e ∈ client.inFlight, client.subscriptions.find e.1 = none
  drawn : ∀ id, client.subscriptions.find id ≠ none ∨ id ∈ client.inFlight.map Prod.fst →
    ∃ n < client.generated, ids.nth n = id

variable {ids : IdGenerator} {url : Bytes} {unspecified : Unspecified}
  {client client' : StompClient Handler} {event : ClientEvent Handler}
  {events : List (ClientEvent Handler)}
  {issued : List (Bytes × Subscription Handler)}

theorem mem_inFlight {id : Bytes} {subscription : Subscription Handler} :
    (id,subscription) ∈ client.inFlight ↔ .subscribe id subscription ∈ client.pending := by
  rw [inFlight,List.mem_filterMap]
  constructor
  · rintro ⟨completion,hmem,hsome⟩
    cases completion with
    | subscribe id' subscription' =>
      obtain ⟨rfl,rfl⟩ := Prod.mk.inj (Option.some.inj hsome)
      exact hmem
    | connect | stomp | send | close => cases hsome
  · exact fun hmem => ⟨_,hmem,rfl⟩

theorem inFlight_ask (client : StompClient Handler) (call : SocketCall)
    (completion : Completion Handler) :
    (client.ask call completion).inFlight = client.inFlight ++ completion.subscription?.toList := by
  rw [inFlight,ask,List.filterMap_append]
  cases completion <;> rfl

theorem Tracked.of_eq (h : Tracked ids issued client)
    (hsubscriptions : client'.subscriptions = client.subscriptions)
    (hinFlight : client'.inFlight = client.inFlight) (hgenerated : client.generated ≤ client'.generated) :
    Tracked ids issued client' := by
  refine ⟨?_,?_,?_,?_⟩
  · rw [hsubscriptions,hinFlight]
    exact h.placed
  · rw [hinFlight]
    exact h.nodup
  · rw [hsubscriptions,hinFlight]
    exact h.unregistered
  · rw [hsubscriptions,hinFlight]
    intro id hid
    obtain ⟨n,hn,hid⟩ := h.drawn id hid
    exact ⟨n,hn.trans_le hgenerated,hid⟩

theorem Tracked.fresh (h : Tracked ids issued client) :
    client.subscriptions.find (ids.nth client.generated) = none ∧
      ids.nth client.generated ∉ client.inFlight.map Prod.fst := by
  have hunused : ¬∃ n < client.generated, ids.nth n = ids.nth client.generated := by
    rintro ⟨n,hn,heq⟩
    exact hn.ne (ids.nth_injective heq)
  constructor
  · by_contra hsome
    exact hunused (h.drawn _ (Or.inl hsome))
  · exact fun hmem => hunused (h.drawn _ (Or.inr hmem))

theorem tracked_subscribe (h : Tracked ids issued client) (destination : Bytes)
    (onSubscribe onMessage : Option Handler) :
    Tracked ids (issued ++ client.issues ids (.subscribe unspecified destination onSubscribe onMessage))
      (client.subscribe ids unspecified destination onSubscribe onMessage).2 := by
  obtain ⟨hfind,hfresh⟩ := h.fresh
  rcases client.subscribe_cases ids unspecified destination onSubscribe onMessage with
    hfailed | ⟨frame,hsent⟩
  · rw [issues,hfailed]
    simp only [if_pos,List.append_nil]
    exact h.of_eq rfl rfl (Nat.le_succ _)
  -- the new subscription is in flight under an id that no other one has
  · rw [issues,hsent]
    simp only [if_neg (ids.nth_ne_nil _)]
    have hflight : ∀ generated subscription, ((({client with generated := generated} :
        StompClient Handler).ask (.send frame.plain)
          (.subscribe (ids.nth client.generated) subscription))).inFlight =
        client.inFlight ++ [(ids.nth client.generated,subscription)] := fun _ _ => inFlight_ask _ _ _
    refine ⟨?_,?_,?_,?_⟩
    · rw [hflight]
      intro e he
      rcases List.mem_append.mp he with hold | hnew
      · exact (h.placed e hold).imp_right (List.mem_append_left _)
      · exact Or.inr (List.mem_append_right _ hnew)
    · rw [hflight,List.map_append]
      exact h.nodup.append (List.nodup_singleton _) (by simpa using hfresh)
    · rw [hflight]
      intro e he
      rcases List.mem_append.mp he with hold | hnew
      · exact h.unregistered e hold
      · rw [List.mem_singleton.mp hnew]
        exact hfind
    · rw [hflight,List.map_append]
      intro id hid
      have hcases : (client.subscriptions.find id ≠ none ∨ id ∈ client.inFlight.map Prod.fst) ∨
          id = ids.nth client.generated := by
        rcases hid with hregistered | hmem
        · exact Or.inl (Or.inl hregistered)
        · rcases List.mem_append.mp hmem with hold | hnew
          · exact Or.inl (Or.inr hold)
          · exact Or.inr (List.mem_singleton.mp hnew)
      rcases hcases with hold | rfl
      · obtain ⟨n,hn,hid⟩ := h.drawn id hold
        exact ⟨n,Nat.lt_succ_of_lt hn,hid⟩
      · exact ⟨client.generated,Nat.lt_succ_self _,rfl⟩

theorem inFlight_eraseIdx {idx : ℕ} {completion : Completion Handler}
    (h : client.pending[idx]? = some completion) : ∃ left right,
      client.inFlight = left ++ completion.subscription?.toList ++ right ∧
        ({client with pending := client.pending.eraseIdx idx} : StompClient Handler).inFlight =
          left ++ right := by
  obtain ⟨hidx,rfl⟩ := List.getElem?_eq_some_iff.mp h
  refine ⟨(client.pending.take idx).filterMap Completion.subscription?,
    (client.pending.drop (idx+1)).filterMap Completion.subscription?,?_,?_⟩
  · have hl : client.pending =
        client.pending.take idx ++ client.pending[idx] :: client.pending.drop (idx+1) := by simp
    rw [inFlight]
    conv_lhs => rw [hl]
    rw [List.filterMap_append,List.filterMap_cons,List.append_assoc]
    cases client.pending[idx].subscription? <;> rfl
  · rw [inFlight,List.eraseIdx_eq_take_drop_succ,List.filterMap_append]

theorem Tracked.apart {id : Bytes} {subscription : Subscription Handler}
    {left right : List (Bytes × Subscription Handler)} (h : Tracked ids issued client)
    (hflight : client.inFlight = left ++ [(id,subscription)] ++ right) :
    ((left ++ right).map Prod.fst).Nodup ∧ ∀ e ∈ left ++ right, id ≠ e.1 := by
  have hnodup := h.nodup
  rw [hflight] at hnodup
  simp only [List.map_append,List.map_cons,List.append_assoc,List.singleton_append] at hnodup
  rw [List.map_append]
  refine ⟨(List.nodup_middle.mp hnodup).of_cons,fun e he heq => ?_⟩
  have hin : id ∈ left.map Prod.fst ++ right.map Prod.fst := by
    rw [← List.map_append]
    exact List.mem_map.mpr ⟨e,he,heq.symm⟩
  exact (List.nodup_middle.mp hnodup).notMem hin

theorem find_onWsSendSubscribe {id : Bytes} (hnone : client.subscriptions.find id = none)
    (subscription : Subscription Handler) (id' : Bytes) :
    (client.onWsSendSubscribe false id subscription).subscriptions.find id' =
      if id = id' then some subscription else client.subscriptions.find id' := by
  rw [onWsSendSubscribe,if_pos (by decide)]
  simp only [UnorderedMap.find_emplace,hnone,Option.getD_none]

theorem tracked_written {rest : StompClient Handler} {id : Bytes} {subscription : Subscription Handler}
    {left right : List (Bytes × Subscription Handler)} (h : Tracked ids issued client)
    (hflight : client.inFlight = left ++ [(id,subscription)] ++ right)
    (hrest : rest.inFlight = left ++ right) (hsubscriptions : rest.subscriptions = client.subscriptions)
    (hgenerated : rest.generated = client.generated) :
    Tracked ids issued (rest.onWsSendSubscribe false id subscription) := by
  have hmem : (id,subscription) ∈ client.inFlight := by simp [hflight]
  have hnone : client.subscriptions.find id = none := h.unregistered _ hmem
  obtain ⟨hnodup,hother⟩ := h.apart hflight
  have hsub : ∀ e ∈ left ++ right, e ∈ client.inFlight := by
    intro e he
    rw [hflight]
    simp only [List.mem_append] at he ⊢
    exact he.imp_left Or.inl
  have hfind : ∀ id', (rest.onWsSendSubscribe false id subscription).subscriptions.find id' =
      if id = id' then some subscription else client.subscriptions.find id' := by
    rw [← hsubscriptions] at hnone ⊢
    exact find_onWsSendSubscribe hnone subscription
  have hsame : (rest.onWsSendSubscribe false id subscription).inFlight = left ++ right := hrest
  refine ⟨?_,?_,?_,?_⟩
  · rw [hsame]
    intro e he
    rw [hfind]
    rcases h.placed e he with hfound | hin
    · have hne : id ≠ e.1 := by
        intro heq
        rw [← heq,hnone] at hfound
        cases hfound
      rw [if_neg hne]
      exact Or.inl hfound
    · rw [hflight,List.append_assoc,List.mem_append,List.singleton_append,List.mem_cons] at hin
      rcases hin with hleft | rfl | hright
      · exact Or.inr (List.mem_append_left _ hleft)
      · exact Or.inl (if_pos rfl)
      · exact Or.inr (List.mem_append_right _ hright)
  · rw [hsame]
    exact hnodup
  · rw [hsame]
    intro e he
    rw [hfind,if_neg (hother e he)]
    exact h.unregistered e (hsub e he)
  · rw [hsame]
    intro id' hid
    have hgen : (rest.onWsSendSubscribe false id subscription).generated = client.generated := hgenerated
    rw [hgen]
    apply h.drawn
    rcases hid with hregistered | hin
    · rw [hfind] at hregistered
      split_ifs at hregistered with heq
      · exact Or.inr (List.mem_map.mpr ⟨_,hmem,heq⟩)
      · exact Or.inl hregistered
    · obtain ⟨e,he,rfl⟩ := List.mem_map.mp hin
      exact Or.inr (List.mem_map.mpr ⟨e,hsub e he,rfl⟩)

theorem complete_of_none (client : StompClient Handler) (unspecified : Unspecified) (ec : Bool)
    {completion : Completion Handler} (h : completion.subscription? = none) :
    (client.complete unspecified ec completion).subscriptions = client.subscriptions ∧
      (client.complete unspecified ec completion).inFlight = client.inFlight ∧
        (client.complete unspecified ec completion).generated = client.generated := by
  cases completion with
  | connect =>
    rw [complete,onWsConnect]
    simp only
    split_ifs
    · exact ⟨rfl,rfl,rfl⟩
    · exact ⟨rfl,rfl,rfl⟩
    · exact ⟨rfl,(inFlight_ask _ _ _).trans (List.append_nil _),rfl⟩
  | stomp => cases ec <;> exact ⟨rfl,rfl,rfl⟩
  | subscribe id subscription => cases h
  | send requestId onSend => exact ⟨rfl,rfl,rfl⟩
  | close onClose => exact ⟨rfl,rfl,rfl⟩

theorem tracked_perform (h : Tracked ids issued client) (hwell : client.subscribesWell event)
    (hstep : client.perform ids event = some client') :
    Tracked ids (issued ++ client.issues ids event) client' := by
  cases event with
  | connect username password onConnect onMessage onDisconnect =>
    obtain rfl := Option.some.inj hstep
    simp only [issues,List.append_nil]
    exact h.of_eq rfl ((inFlight_ask _ _ _).trans (List.append_nil _)) le_rfl
  | subscribe u destination onSubscribe onMessage =>
    obtain rfl := Option.some.inj hstep
    exact tracked_subscribe h destination onSubscribe onMessage
  | send u destination messageContent onSend =>
    obtain rfl := Option.some.inj hstep
    simp only [issues,List.append_nil]
    rcases client.send_cases ids u destination messageContent onSend with hfailed | ⟨frame,hsent⟩
    · rw [hfailed]
      exact h.of_eq rfl rfl (Nat.le_succ _)
    · rw [hsent]
      exact h.of_eq rfl ((inFlight_ask _ _ _).trans (List.append_nil _)) (Nat.le_succ _)
  | close onClose => cases hwell
  | completed u idx ec =>
    obtain ⟨completion,hcompletion,rfl⟩ := Option.map_eq_some_iff.mp hstep
    obtain ⟨left,right,hflight,hrest⟩ := inFlight_eraseIdx hcompletion
    simp only [issues,List.append_nil]
    rw [subscribesWell,hcompletion] at hwell
    cases hsubscription : completion.subscription? with
    | none =>
      obtain ⟨hsubscriptions,hsame,hgenerated⟩ := complete_of_none
        ({client with pending := client.pending.eraseIdx idx}) u ec hsubscription
      rw [hsubscription,Option.toList_none,List.append_nil,← hrest] at hflight
      exact h.of_eq hsubscriptions (hsame.trans hflight.symm) hgenerated.ge
    | some entry =>
      cases completion with
      | subscribe id subscription =>
        obtain rfl : ec = false := by simpa using hwell
        exact tracked_written h hflight hrest rfl rfl
      | connect | stomp | send | close => cases hsubscription
  | message u msg =>
    obtain ⟨calls,rfl⟩ := onWsMessage_eq hstep
    simp only [issues,List.append_nil]
    exact h.of_eq rfl rfl le_rfl
  | disconnected ec =>
    obtain rfl := Option.some.inj hstep
    simp only [issues,List.append_nil]
    exact h.of_eq rfl rfl le_rfl

/-- In an undisturbed run, every subscription that was started is either entered or in flight. -/
theorem tracked_run (hwell : Undisturbed ids url events)
    (hrun : (created url).run ids events = some client) :
    Tracked ids ((created url).issued ids events) client := by
  induction events using List.reverseRecOn generalizing client with
  | nil =>
    obtain rfl : created url = client := Option.some.inj hrun
    refine ⟨fun e he => absurd he (by simp [StompClient.issued,moments]),List.nodup_nil,
      fun e he => absurd he (by simp [inFlight,created]),fun id hid => ?_⟩
    simp [inFlight,created] at hid
  | append_singleton events event ih =>
    rw [run_concat,Option.bind_eq_some_iff] at hrun
    obtain ⟨client₀,hrun,hlast⟩ := hrun
    rw [Undisturbed,moments_concat hrun,List.forall_mem_append] at hwell
    have hissued : (created url).issued ids (events ++ [event]) =
        (created url).issued ids events ++ client₀.issues ids event := by
      simp [StompClient.issued,moments_concat hrun]
    rw [hissued]
    exact tracked_perform (ih hwell.1 hrun) (hwell.2 _ (List.mem_singleton_self _)) hlast

theorem handleFrame_of_find {id : Bytes} {subscription : Subscription Handler} {frame : StompFrame}
    {call : ClientCall Handler} (hfind : client.subscriptions.find id = some subscription)
    (hexpected : Expected id subscription frame call) :
    (client.handleFrame frame).posted = client.posted ++ [call] := by
  cases hexpected with
  | receipt handler hcommand hid hset =>
    simp [handleFrame,hcommand,handleSubscriptionReceipt,hid,hfind,hset,post]
  | message handler hcommand hid hdestination hset =>
    simp [handleFrame,hcommand,handleSubscriptionMessage,hid,hfind,hdestination,hset,post]

theorem handleFrame_of_none {id : Bytes} {subscription : Subscription Handler} {frame : StompFrame}
    {call : ClientCall Handler} (hfind : client.subscriptions.find id = none)
    (hexpected : Expected id subscription frame call) : client.handleFrame frame = client := by
  cases hexpected with
  | receipt handler hcommand hid hset =>
    simp [handleFrame,hcommand,handleSubscriptionReceipt,hid,hfind]
  | message handler hcommand hid hdestination hset =>
    simp [handleFrame,hcommand,handleSubscriptionMessage,hid,hfind]

/-- A frame for a subscription posts its call exactly when the subscription is not in flight. -/
theorem Tracked.posted_iff {id : Bytes} {subscription : Subscription Handler} {frame : StompFrame}
    {msg : Bytes} {call : ClientCall Handler} (h : Tracked ids issued client)
    (hissued : (id,subscription) ∈ issued)
    (hparse : ofString unspecified.uninitialised msg = some (.kOk,frame))
    (hexpected : Expected id subscription frame call) :
    (∃ client', client.perform ids (.message unspecified msg) = some client' ∧
      client'.posted = client.posted ++ [call]) ↔
        ∀ subscription, .subscribe id subscription ∉ client.pending := by
  have hperform : client.perform ids (.message unspecified msg) = some (client.handleFrame frame) := by
    simp [perform,onWsMessage,hparse]
  rw [hperform]
  constructor
  · rintro ⟨client',hclient',hposted⟩ subscription' hpending
    obtain rfl := Option.some.inj hclient'
    have hnone := h.unregistered _ (mem_inFlight.mpr hpending)
    rw [handleFrame_of_none hnone hexpected] at hposted
    exact absurd hposted (by simp)
  · intro hwritten
    have hfind : client.subscriptions.find id = some subscription :=
      (h.placed _ hissued).resolve_right fun hin => hwritten subscription (mem_inFlight.mp hin)
    exact ⟨_,rfl,handleFrame_of_find hfind hexpected⟩

theorem Undisturbed.left {before after : List (ClientEvent Handler)}
    (h : Undisturbed ids url (before ++ after)) (hrun : (created url).run ids before = some client) :
    Undisturbed ids url before := by
  rw [Undisturbed,moments_append hrun,List.forall_mem_append] at h
  exact h.1

/-- All calls for subscriptions are posted in exactly the runs in which no frame for a subscription
overtakes the end of the write that asked for it. -/
theorem deliversAll_iff (ids : IdGenerator) (url : Bytes) (events : List (ClientEvent Handler))
    (hwell : Undisturbed ids url events) :
    DeliversAll ids url events ↔ WrittenFirst ids url events := by
  have hiff : ∀ client u msg id call, Receives ids url events client u msg id call →
      ((∃ client', client.perform ids (.message u msg) = some client' ∧
        client'.posted = client.posted ++ [call]) ↔
          ∀ subscription, .subscribe id subscription ∉ client.pending) := by
    rintro client u msg id call
      ⟨before,after,subscription,frame,rfl,hrun,hissued,hparse,hexpected⟩
    exact (tracked_run (hwell.left hrun) hrun).posted_iff hissued hparse hexpected
  constructor
  · exact fun h client u msg id call hreceives =>
      (hiff client u msg id call hreceives).mp (h client u msg id call hreceives)
  · exact fun h client u msg id call hreceives =>
      (hiff client u msg id call hreceives).mpr (h client u msg id call hreceives)

def subscribing : List (ClientEvent ℕ) :=
  .connect (ascii "user") (ascii "password") none none none::accepted ++
    [.subscribe 0 (ascii "/passengers") (some 0) (some 1)]

def receiptText : Bytes := ascii "RECEIPT\nreceipt-id:a\n\n\x00"

/-- Once the write has completed, the receipt arrives. -/
def receiving : List (ClientEvent ℕ) :=
  subscribing ++ [.completed 0 0 false,.message 0 receiptText]

theorem deliversAll_receipt : DeliversAll .simple (ascii "localhost") receiving := by
  refine (deliversAll_iff .simple (ascii "localhost") receiving (by decide +kernel)).mpr ?_
  have hwritten : ∀ n ∈ [3,6], ∀ client ∈ (created (ascii "localhost")).run .simple (receiving.take n),
      client.inFlight = [] := by decide +kernel
  rintro client u msg id call ⟨before,after,subscription,frame,hevents,hrun,-⟩ subscription' hpending
  have hindex : before.length ∈ [3,6] := by
    have hget : receiving[before.length]? = some (.message u msg) := by simp [hevents]
    have hlength : before.length < 7 := (List.getElem?_eq_some_iff.mp hget).1
    generalize before.length = n at hget hlength
    interval_cases n <;> first | decide | cases hget
  have htake : before = receiving.take before.length := by simp [hevents]
  rw [htake] at hrun
  have hnone := hwritten _ hindex client hrun
  rw [← mem_inFlight,hnone] at hpending
  cases hpending

/-- The receipt is lost when it overtakes the end of the write. -/
theorem receipt_lost : ¬∀ (ids : IdGenerator) (url : Bytes) (events : List (ClientEvent ℕ)),
    Undisturbed ids url events → DeliversAll ids url events := by
  intro hclaim
  have hdelivers := hclaim .simple (ascii "localhost")
    (subscribing ++ [.message 0 receiptText,.completed 0 0 false]) (by decide +kernel)
  have hsome : ((created (ascii "localhost")).run .simple subscribing).isSome := by decide +kernel
  obtain ⟨client,hrun⟩ := Option.isSome_iff_exists.mp hsome
  have hparsed : (ofString 0 receiptText).map (fun parsed =>
      (parsed.1,parsed.2.command,parsed.2.getHeaderValue .kReceiptId)) =
        some (.kOk,.kReceipt,ascii "a") := by decide +kernel
  obtain ⟨⟨ec,frame⟩,hparse,hframe⟩ := Option.map_eq_some_iff.mp hparsed
  obtain ⟨rfl,hcommand,hid⟩ : ec = .kOk ∧ frame.command = .kReceipt ∧
      frame.getHeaderValue .kReceiptId = ascii "a" := by simpa using hframe
  have hissued : (ascii "a",⟨ascii "/passengers",some 0,some 1⟩) ∈
      (created (ascii "localhost")).issued .simple subscribing := by decide +kernel
  obtain ⟨client',hperform,hposted⟩ := hdelivers client 0 receiptText (ascii "a") _
    ⟨subscribing,[.completed 0 0 false],_,frame,rfl,hrun,hissued,hparse,.receipt 0 hcommand hid rfl⟩
  -- but nothing is posted
  have hsilent : (((created (ascii "localhost")).run .simple subscribing).bind fun c =>
      (c.perform .simple (.message 0 receiptText)).map fun c' => decide (c'.posted = c.posted)) =
        some true := by decide +kernel
  rw [hrun,Option.bind_some,hperform,Option.map_some] at hsilent
  have hsame : client'.posted = client.posted := by simpa using hsilent
  rw [hsame] at hposted
  exact absurd hposted (by simp)

end StompClient
end QuietRoute
