import QuietRoute.Stomp.Letters

/-! What the client writes and what it reports of what arrives. -/
namespace QuietRoute

open StompFrame

variable {Handler : Type}

def SocketCall.text? : SocketCall → Option Bytes
  | .send message => some message
  | _ => none

/-- The destination and the content of a message that the user hears. -/
def ClientCall.heard? : ClientCall Handler → Option (Bytes × Bytes)
  | .onMessage _ _ destination message => some (destination,message)
  | _ => none

namespace ClientEvent

/-- The destination of a message is on one line, and its length is one of the machine. -/
def Plain : ClientEvent Handler → Prop
  | .send _ destination messageContent _ => newLine ∉ destination ∧ messageContent.length < 2^64
  | _ => True

instance : DecidablePred (Plain : ClientEvent Handler → Prop)
  | .send _ destination messageContent _ =>
    inferInstanceAs (Decidable (newLine ∉ destination ∧ messageContent.length < 2^64))
  | .connect .. | .subscribe .. | .close _ | .completed .. | .message .. | .disconnected _ =>
    isTrue trivial

def message? : ClientEvent Handler → Option Arrival
  | .message unspecified msg => some (unspecified,msg)
  | _ => none

end ClientEvent

namespace StompClient

variable {ids : IdGenerator} {unspecified : Unspecified} {client client' : StompClient Handler}
  {event : ClientEvent Handler} {events : List (ClientEvent Handler)}

def letter? (ids : IdGenerator) (client : StompClient Handler) : ClientEvent Handler → Option Letter
  | .send unspecified destination messageContent onSend =>
    let requestId := (client.send ids unspecified destination messageContent onSend).1
    if requestId = [] then none else some ⟨destination,requestId,messageContent⟩
  | _ => none

/-- The letters of a run, as its user was told that they are sent. -/
def letters (ids : IdGenerator) (client : StompClient Handler) (events : List (ClientEvent Handler)) :
    List Letter := (client.moments ids events).filterMap fun moment => moment.1.letter? ids moment.2

theorem send_letter {destination messageContent : Bytes} (hline : newLine ∉ destination)
    (hfits : messageContent.length < 2^64) (onSend : Option Handler) :
    client.send ids unspecified destination messageContent onSend =
      if destination = [] then ([],{client with generated := client.generated+1})
      else (ids.nth client.generated,
        ({client with generated := client.generated+1} : StompClient Handler).ask
          (.send ((Letter.mk destination (ids.nth client.generated) messageContent).text unspecified))
          (.send (ids.nth client.generated) onSend)) := by
  split_ifs with hempty
  · have herror := @assemble_message_error (ids.nth client.generated) messageContent
      (ids.newLine_not_mem_nth _) unspecified
    rw [messageHeaders] at herror
    subst destination
    simp only [send,generateId]
    exact if_pos herror
  · have hlegal : (Letter.mk destination (ids.nth client.generated) messageContent).Legal :=
      ⟨ids.nth_ne_nil _,ids.newLine_not_mem_nth _,hempty,hline,hfits⟩
    have hassemble := @LegalComponents.assemble_eq _ _ _ unspecified hlegal.components
    simp only [Letter.headers,messageHeaders] at hassemble
    simp only [send,generateId,hassemble]
    rfl

theorem stompHeaders_nodup :
    [StompHeader.kAcceptVersion,.kHost,.kLogin,.kPasscode].Nodup := by decide

def stompHeaders (client : StompClient Handler) : Headers :=
  ⟨[(.kAcceptVersion,ascii "1.2"),(.kHost,client.url),(.kLogin,client.username),
    (.kPasscode,client.password)],stompHeaders_nodup⟩

/-- The text that asks for a STOMP connection, with the headers in any order. -/
def stompText (unspecified : Unspecified) (client : StompClient Handler) : Bytes :=
  plainText .kStomp (unspecified.arrange client.stompHeaders) []

/-- A client asks its WebSocket for some more: what it writes says its letter, and asks for a connection
with its own credentials only. -/
structure Writes (client client' : StompClient Handler) (calls : List SocketCall)
    (letters : List Letter) : Prop where
  asked_eq : client'.asked = client.asked ++ calls
  said : Says (calls.filterMap SocketCall.text?) letters
  stomp : ∀ text ∈ calls.filterMap SocketCall.text?, commandOf text = .kStomp →
    ∃ unspecified, text = client.stompText unspecified

theorem writes_of_asked_eq (h : client'.asked = client.asked) : Writes client client' [] [] :=
  ⟨by rw [h,List.append_nil],.nil,by simp⟩

theorem writes_other (call : SocketCall) (h : client'.asked = client.asked ++ [call])
    (hother : ∀ text, call.text? = some text → commandOf text ≠ .kSend ∧
      (commandOf text = .kStomp → ∃ unspecified, text = client.stompText unspecified)) :
    Writes client client' [call] [] := by
  cases htext : call.text? with
  | none =>
    refine ⟨h,?_,?_⟩
    · rw [List.filterMap_cons_none htext]
      exact .nil
    · simp [htext]
  | some text =>
    refine ⟨h,?_,?_⟩
    · rw [List.filterMap_cons_some htext]
      exact .other (hother text htext).1
    · simpa [htext] using (hother text htext).2

theorem writes_connected (client : StompClient Handler) (ec : Bool) :
    ∃ calls, Writes client (client.onWsConnect unspecified ec) calls [] := by
  unfold onWsConnect
  split_ifs
  · exact ⟨[],writes_of_asked_eq rfl⟩
  · simp only
    split_ifs
    · exact ⟨[],writes_of_asked_eq rfl⟩
    · refine ⟨_,writes_other _ rfl fun text htext => ?_⟩
      rw [← Option.some.inj htext,stompFrame,assemble_plain,commandOf_plainText]
      exact ⟨by decide,fun _ => ⟨unspecified,rfl⟩⟩

theorem writes_complete (client : StompClient Handler) (ec : Bool) (completion : Completion Handler) :
    ∃ calls, Writes client (client.complete unspecified ec completion) calls [] := by
  cases completion with
  | connect => exact writes_connected client ec
  | stomp =>
    refine ⟨[],writes_of_asked_eq ?_⟩
    simp only [complete,onWsSendStomp]
    split_ifs <;> rfl
  | subscribe subscriptionId subscription =>
    refine ⟨[],writes_of_asked_eq ?_⟩
    simp only [complete,onWsSendSubscribe]
    split_ifs <;> rfl
  | send requestId onSend => exact ⟨[],writes_of_asked_eq rfl⟩
  | close onClose => exact ⟨[],writes_of_asked_eq rfl⟩

theorem subscribe_writes (client : StompClient Handler) (destination : Bytes)
    (onSubscribe onMessage : Option Handler) : ∃ calls, Writes client
      (client.subscribe ids unspecified destination onSubscribe onMessage).2 calls [] := by
  have hcases : (client.subscribe ids unspecified destination onSubscribe onMessage).2.asked =
      client.asked ∨ ∃ headers, (client.subscribe ids unspecified destination onSubscribe
        onMessage).2.asked =
          client.asked ++ [.send (assemble unspecified .kSubscribe headers []).2.plain] := by
    rw [subscribe]
    simp only
    split_ifs
    · exact Or.inl rfl
    · exact Or.inr ⟨_,rfl⟩
  rcases hcases with hsame | ⟨headers,hasked⟩
  · exact ⟨[],writes_of_asked_eq hsame⟩
  · refine ⟨_,writes_other _ hasked fun text htext => ?_⟩
    rw [← Option.some.inj htext,assemble_plain,commandOf_plainText]
    exact ⟨by decide,fun hstomp => by cases hstomp⟩

theorem perform_writes (hplain : event.Plain) (h : client.perform ids event = some client') :
    ∃ calls, Writes client client' calls (client.letter? ids event).toList := by
  cases event with
  | connect username password onConnect onMessage onDisconnect =>
    rw [← Option.some.inj h]
    exact ⟨_,writes_other .connect rfl (by simp [SocketCall.text?])⟩
  | subscribe u destination onSubscribe onMessage =>
    rw [← Option.some.inj h]
    exact subscribe_writes client destination onSubscribe onMessage
  | send u destination messageContent onSend =>
    obtain ⟨hline,hfits⟩ := hplain
    rw [← Option.some.inj h]
    simp only [letter?,send_letter hline hfits]
    by_cases hempty : destination = []
    · simp only [hempty,if_true]
      exact ⟨[],writes_of_asked_eq rfl⟩
    · simp only [hempty,if_false,ids.nth_ne_nil]
      have hlegal : (Letter.mk destination (ids.nth client.generated) messageContent).Legal :=
        ⟨ids.nth_ne_nil _,ids.newLine_not_mem_nth _,hempty,hline,hfits⟩
      refine ⟨[_],rfl,.letter hlegal u,fun text hmem hstomp => ?_⟩
      obtain rfl : text =
          (Letter.mk destination (ids.nth client.generated) messageContent).text u :=
        List.mem_singleton.mp hmem
      rw [Letter.text,commandOf_plainText] at hstomp
      cases hstomp
  | close onClose =>
    rw [← Option.some.inj h]
    exact ⟨_,writes_other .close rfl (by simp [SocketCall.text?])⟩
  | completed u idx ec =>
    obtain ⟨completion,-,rfl⟩ := Option.map_eq_some_iff.mp h
    obtain ⟨calls,hwrites⟩ := @writes_complete _ u
      {client with pending := client.pending.eraseIdx idx} ec completion
    exact ⟨calls,hwrites.asked_eq,hwrites.said,hwrites.stomp⟩
  | message u msg =>
    obtain ⟨calls,rfl⟩ := onWsMessage_eq h
    exact ⟨[],writes_of_asked_eq rfl⟩
  | disconnected ec =>
    rw [← Option.some.inj h]
    exact ⟨[],writes_of_asked_eq rfl⟩

/-! What connecting settles. -/

structure SameUser (client client' : StompClient Handler) : Prop where
  url_eq : client'.url = client.url
  username_eq : client'.username = client.username
  password_eq : client'.password = client.password
  onMessage_eq : client'.onMessage = client.onMessage

theorem SameUser.refl (client : StompClient Handler) : SameUser client client := ⟨rfl,rfl,rfl,rfl⟩

theorem SameUser.trans {mid : StompClient Handler} (h : SameUser client mid) (h' : SameUser mid client') :
    SameUser client client' :=
  ⟨h'.url_eq.trans h.url_eq,h'.username_eq.trans h.username_eq,h'.password_eq.trans h.password_eq,
    h'.onMessage_eq.trans h.onMessage_eq⟩

theorem SameUser.stompText_eq (h : SameUser client client') :
    client'.stompText unspecified = client.stompText unspecified := by
  rw [stompText,stompText,stompHeaders,stompHeaders]
  simp only [h.url_eq,h.username_eq,h.password_eq]

theorem complete_sameUser (client : StompClient Handler) (ec : Bool) (completion : Completion Handler) :
    SameUser client (client.complete unspecified ec completion) := by
  cases completion with
  | connect =>
    simp only [complete,onWsConnect]
    split_ifs <;> exact ⟨rfl,rfl,rfl,rfl⟩
  | stomp =>
    simp only [complete,onWsSendStomp]
    split_ifs <;> exact ⟨rfl,rfl,rfl,rfl⟩
  | subscribe subscriptionId subscription =>
    simp only [complete,onWsSendSubscribe]
    split_ifs <;> exact ⟨rfl,rfl,rfl,rfl⟩
  | send requestId onSend => exact ⟨rfl,rfl,rfl,rfl⟩
  | close onClose => exact ⟨rfl,rfl,rfl,rfl⟩

theorem perform_sameUser (hconnect : event.isConnect = false)
    (h : client.perform ids event = some client') : SameUser client client' := by
  cases event with
  | connect username password onConnect onMessage onDisconnect => cases hconnect
  | message u msg =>
    obtain ⟨calls,rfl⟩ := onWsMessage_eq h
    exact ⟨rfl,rfl,rfl,rfl⟩
  | subscribe u destination onSubscribe onMessage =>
    rw [← Option.some.inj h]
    obtain hcase | ⟨frame,hcase⟩ := subscribe_cases client ids u destination onSubscribe onMessage <;>
      rw [hcase] <;> exact ⟨rfl,rfl,rfl,rfl⟩
  | send u destination messageContent onSend =>
    rw [← Option.some.inj h]
    obtain hcase | ⟨frame,hcase⟩ := send_cases client ids u destination messageContent onSend <;>
      rw [hcase] <;> exact ⟨rfl,rfl,rfl,rfl⟩
  | close onClose =>
    rw [← Option.some.inj h]
    exact ⟨rfl,rfl,rfl,rfl⟩
  | completed u idx ec =>
    obtain ⟨completion,-,rfl⟩ := Option.map_eq_some_iff.mp h
    obtain ⟨hurl,husername,hpassword,honMessage⟩ := @complete_sameUser _ u
      {client with pending := client.pending.eraseIdx idx} ec completion
    exact ⟨hurl,husername,hpassword,honMessage⟩
  | disconnected ec =>
    rw [← Option.some.inj h]
    exact ⟨rfl,rfl,rfl,rfl⟩

theorem run_writes (hplain : ∀ event ∈ events, event.Plain)
    (hconnect : ∀ event ∈ events, event.isConnect = false) (h : client.run ids events = some client') :
    SameUser client client' ∧ ∃ calls, Writes client client' calls (client.letters ids events) := by
  induction events generalizing client with
  | nil =>
    obtain rfl : client = client' := Option.some.inj h
    exact ⟨.refl client,[],writes_of_asked_eq rfl⟩
  | cons event events ih =>
    rw [run_cons,Option.bind_eq_some_iff] at h
    obtain ⟨mid,hperform,hrun⟩ := h
    have hsame := perform_sameUser (hconnect event List.mem_cons_self) hperform
    obtain ⟨calls,hasked,hsaid,hstomp⟩ := perform_writes (hplain event List.mem_cons_self) hperform
    obtain ⟨hsame',calls',hasked',hsaid',hstomp'⟩ :=
      ih (fun e he => hplain e (List.mem_cons_of_mem _ he))
        (fun e he => hconnect e (List.mem_cons_of_mem _ he)) hrun
    refine ⟨hsame.trans hsame',calls ++ calls',by rw [hasked',hasked,List.append_assoc],?_,?_⟩
    · rw [List.filterMap_append,letters,moments_cons hperform,List.filterMap_cons]
      have happend := hsaid.append hsaid'
      cases hletter : client.letter? ids event with
      | none => simpa [hletter,letters] using happend
      | some letter => simpa [hletter,letters] using happend
    · intro text hmem htext
      rw [List.filterMap_append,List.mem_append] at hmem
      rcases hmem with hmem | hmem
      · exact hstomp text hmem htext
      · obtain ⟨u,rfl⟩ := hstomp' text hmem htext
        exact ⟨u,hsame.stompText_eq⟩

/-! What the client reports of what arrives. -/

def heard (client : StompClient Handler) : List (Bytes × Bytes) :=
  client.posted.filterMap ClientCall.heard?

def Accepted (client : StompClient Handler) : Prop :=
  ∃ handler, .onConnect handler .kOk ∈ client.posted

def hears (client : StompClient Handler) (event : ClientEvent Handler) : List (Bytes × Bytes) :=
  if client.onMessage.isSome then
    ((event.message?.bind letterOf).map fun letter => (letter.destination,letter.content)).toList
  else []

/-- A message with a `CONNECTED` frame. -/
def Admits (event : ClientEvent Handler) : Prop := ∃ unspecified msg frame,
  event = .message unspecified msg ∧ ofString unspecified.uninitialised msg = some (.kOk,frame) ∧
    frame.command = .kConnected

/-- A client that reports some letters, and that it is connected only when it is admitted. -/
structure Tells (client client' : StompClient Handler) (told : List (Bytes × Bytes)) (admitted : Prop) :
    Prop where
  heard_eq : client'.heard = client.heard ++ told
  accepted : client'.Accepted → client.Accepted ∨ admitted

theorem tells_of_posted_eq {admitted : Prop} (h : client'.posted = client.posted) :
    Tells client client' [] admitted :=
  ⟨by rw [heard,heard,h,List.append_nil],fun haccepted => Or.inl (by rwa [Accepted,h] at haccepted)⟩

theorem tells_post {admitted : Prop} {handler : Option Handler} {call : Handler → ClientCall Handler}
    (hheard : ∀ h, (call h).heard? = none) (hconnect : ∀ h h', call h ≠ .onConnect h' .kOk) :
    Tells client (client.post handler call) [] admitted := by
  cases handler with
  | none => exact tells_of_posted_eq (List.append_nil _)
  | some handler =>
    refine ⟨by simp [heard,post,hheard],?_⟩
    rintro ⟨handler',hmem⟩
    rcases List.mem_append.mp hmem with hold | hnew
    · exact Or.inl ⟨handler',hold⟩
    · exact absurd (List.mem_singleton.mp hnew).symm (hconnect handler handler')

theorem tells_handleFrame (client : StompClient Handler) (frame : StompFrame) :
    Tells client (client.handleFrame frame)
      (if client.onMessage.isSome ∧ frame.command = .kSend then
        [(frame.getHeaderValue .kDestination,frame.body)] else []) (frame.command = .kConnected) := by
  rw [handleFrame]
  split
  · rename_i hcommand
    simp only [hcommand,reduceCtorEq,and_false,if_false]
    cases honConnect : client.onConnect with
    | none =>
      rw [handleConnected,honConnect]
      exact tells_of_posted_eq (List.append_nil _)
    | some handler =>
      exact ⟨by simp [heard,handleConnected,post,honConnect,ClientCall.heard?],fun _ => Or.inr trivial⟩
  · rename_i hcommand
    simp only [hcommand,reduceCtorEq,and_false,if_false]
    rw [handleSubscriptionMessage]
    split
    · exact tells_of_posted_eq rfl
    · split_ifs <;> exact tells_post (fun _ => rfl) (by simp)
  · rename_i hcommand
    simp only [hcommand,reduceCtorEq,and_false,if_false,handleSubscriptionReceipt]
    split
    · exact tells_of_posted_eq rfl
    · exact tells_post (fun _ => rfl) (by simp)
  · rename_i hcommand
    simp only [hcommand,and_true,reduceCtorEq,handleMessage]
    cases client.onMessage with
    | none => exact tells_of_posted_eq (List.append_nil _)
    | some handler =>
      refine ⟨by simp [heard,post,ClientCall.heard?],?_⟩
      rintro ⟨handler',hmem⟩
      exact Or.inl ⟨handler',by simpa [post] using hmem⟩
  · rename_i hconnected _ _ hsend
    rw [if_neg fun hcommand => hsend hcommand.2]
    exact tells_of_posted_eq rfl

theorem tells_message {msg : Bytes} (h : client.onWsMessage unspecified msg = some client') :
    Tells client client' (client.hears (.message unspecified msg))
      (Admits (.message unspecified msg : ClientEvent Handler)) := by
  simp only [onWsMessage,bind,Option.bind_eq_some_iff,Prod.exists] at h
  obtain ⟨error,frame,hread,h⟩ := h
  split_ifs at h with herror
  · rw [← Option.some.inj h]
    have hnone : client.hears (.message unspecified msg) = [] := by
      simp only [hears,ClientEvent.message?,Option.bind_some,letterOf,hread]
      cases error <;> simp_all
    rw [hnone]
    exact tells_post (fun _ => rfl) (by simp)
  · obtain rfl := not_not.mp herror
    rw [← Option.some.inj h]
    obtain ⟨hheard,haccepted⟩ := tells_handleFrame client frame
    refine ⟨?_,fun h' => (haccepted h').imp id fun hcommand => ⟨_,msg,frame,rfl,hread,hcommand⟩⟩
    rw [hheard,hears,ClientEvent.message?,Option.bind_some,letterOf,hread]
    by_cases hcommand : frame.command = .kSend <;> by_cases hset : client.onMessage.isSome <;>
      simp [hcommand,hset]

theorem tells_complete {admitted : Prop} (client : StompClient Handler) (ec : Bool)
    (completion : Completion Handler) :
    Tells client (client.complete unspecified ec completion) [] admitted := by
  cases completion with
  | connect =>
    simp only [complete,onWsConnect]
    split_ifs
    · exact tells_post (fun _ => rfl) (by simp)
    · exact tells_post (fun _ => rfl) (by simp)
    · exact tells_of_posted_eq rfl
  | stomp =>
    simp only [complete,onWsSendStomp]
    split_ifs
    · exact tells_post (fun _ => rfl) (by simp)
    · exact tells_of_posted_eq rfl
  | subscribe subscriptionId subscription =>
    simp only [complete,onWsSendSubscribe]
    split_ifs
    · exact tells_post (fun _ => rfl) (by simp)
    · exact tells_of_posted_eq rfl
  | send requestId onSend => exact tells_post (fun _ => rfl) (by simp)
  | close onClose => exact tells_post (fun _ => rfl) (by simp)

theorem perform_tells (h : client.perform ids event = some client') :
    Tells client client' (client.hears event) (Admits event) := by
  have hears_nil : event.message? = none → client.hears event = [] := by
    intro hnone
    simp [hears,hnone]
  cases event with
  | message u msg => exact tells_message h
  | connect username password onConnect onMessage onDisconnect =>
    rw [hears_nil rfl,← Option.some.inj h]
    exact tells_of_posted_eq rfl
  | subscribe u destination onSubscribe onMessage =>
    rw [hears_nil rfl,← Option.some.inj h]
    obtain hcase | ⟨frame,hcase⟩ := subscribe_cases client ids u destination onSubscribe onMessage
    · rw [hcase]
      exact tells_of_posted_eq rfl
    · rw [hcase]
      exact tells_of_posted_eq rfl
  | send u destination messageContent onSend =>
    rw [hears_nil rfl,← Option.some.inj h]
    obtain hcase | ⟨frame,hcase⟩ := send_cases client ids u destination messageContent onSend
    · rw [hcase]
      exact tells_of_posted_eq rfl
    · rw [hcase]
      exact tells_of_posted_eq rfl
  | close onClose =>
    rw [hears_nil rfl,← Option.some.inj h]
    exact tells_of_posted_eq rfl
  | completed u idx ec =>
    obtain ⟨completion,-,rfl⟩ := Option.map_eq_some_iff.mp h
    rw [hears_nil rfl]
    obtain ⟨hheard,haccepted⟩ := @tells_complete _ u (Admits (.completed u idx ec : ClientEvent Handler))
      {client with pending := client.pending.eraseIdx idx} ec completion
    exact ⟨hheard,haccepted⟩
  | disconnected ec =>
    rw [hears_nil rfl,← Option.some.inj h]
    exact tells_post (fun _ => rfl) (by simp)

def hearsOf (client : StompClient Handler) (letters : List Letter) : List (Bytes × Bytes) :=
  if client.onMessage.isSome then letters.map fun letter => (letter.destination,letter.content) else []

theorem hears_eq (client : StompClient Handler) (event : ClientEvent Handler) :
    client.hears event = client.hearsOf (event.message?.toList.filterMap letterOf) := by
  rw [hears,hearsOf]
  cases hmessage : event.message? with
  | none => simp
  | some arrival => cases hletter : letterOf arrival <;> simp [hletter]

theorem hearsOf_append (client : StompClient Handler) (letters letters' : List Letter) :
    client.hearsOf (letters ++ letters') = client.hearsOf letters ++ client.hearsOf letters' := by
  rw [hearsOf,hearsOf,hearsOf]
  split_ifs <;> simp

/-- In a run, the user hears the letters that have arrived, and that the client is connected only when
it was admitted. -/
theorem run_tells (hconnect : ∀ event ∈ events, event.isConnect = false)
    (h : client.run ids events = some client') :
    Tells client client'
      (client.hearsOf ((events.filterMap ClientEvent.message?).filterMap letterOf))
      (∃ event ∈ events, Admits event) := by
  induction events generalizing client with
  | nil =>
    obtain rfl : client = client' := Option.some.inj h
    exact ⟨by simp [hearsOf],Or.inl⟩
  | cons event events ih =>
    rw [run_cons,Option.bind_eq_some_iff] at h
    obtain ⟨mid,hperform,hrun⟩ := h
    have honMessage := (perform_sameUser (hconnect event List.mem_cons_self) hperform).onMessage_eq
    obtain ⟨hheard,haccepted⟩ := perform_tells hperform
    obtain ⟨hheard',haccepted'⟩ :=
      ih (fun e he => hconnect e (List.mem_cons_of_mem _ he)) hrun
    refine ⟨?_,fun h' => ?_⟩
    · have hsame : mid.hearsOf = client.hearsOf := funext fun letters => by
        rw [hearsOf,hearsOf,honMessage]
      rw [hheard',hheard,hears_eq,hsame,List.append_assoc,← hearsOf_append,← List.filterMap_append]
      congr 3
      cases hmessage : event.message? <;> simp [hmessage]
    · rcases haccepted' h' with hmid | ⟨later,hmem,hadmits⟩
      · exact (haccepted hmid).imp id fun hadmits => ⟨event,List.mem_cons_self,hadmits⟩
      · exact Or.inr ⟨later,List.mem_cons_of_mem _ hmem,hadmits⟩

end StompClient
end QuietRoute
