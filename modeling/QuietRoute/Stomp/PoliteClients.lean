import QuietRoute.Stomp.Conversation

/-! A client that asks for a connection under the right name, and sends messages only once it has one, is
never turned away by the server. -/
namespace QuietRoute

open Typestate Reporting StompFrame

variable {Handler Session : Type} [DecidableEq Session]

/-! What the server does about others leaves a session alone. -/

def ServerEvent.Spares (w : Session) (id : Bytes) : ServerEvent Session → Prop
  | .sessionDisconnect _ wsSession => wsSession ≠ w
  | .close _ connectionId => connectionId ≠ id
  | .stop => False
  | _ => True

instance (w : Session) (id : Bytes) : DecidablePred (ServerEvent.Spares w id)
  | .sessionDisconnect _ wsSession => inferInstanceAs (Decidable (wsSession ≠ w))
  | .close _ connectionId => inferInstanceAs (Decidable (connectionId ≠ id))
  | .stop => isFalse not_false
  | .sessionConnect .. | .sessionMessage .. | .send .. | .serverDisconnect _ => isTrue trivial

namespace StompServer

variable {ids : IdGenerator} {unspecified : Unspecified} {kHost : Bytes}
  {server server' : StompServer Session} {event : ServerEvent Session}
  {events : List (ServerEvent Session)} {w w' : Session} {c : Connection}
  {id : Bytes} {before : List (ServerEvent Session)}

theorem find_closeConnection (hne : w' ≠ w) (c' : Connection) (error : StompServerError) :
    (server.closeConnection unspecified c' w' error).connections.find w = server.connections.find w := by
  rw [closeConnection_connections,UnorderedMap.find_erase,if_neg hne]

theorem find_onWsSessionMessage (hserver : Consistent ids server) (hne : w' ≠ w) {ec : Bool} {msg : Bytes}
    (h : server.onWsSessionMessage unspecified ec w' msg = some server') :
    server'.connections.find w = server.connections.find w := by
  obtain ⟨-,rfl⟩ | ⟨c',hfind',⟨-,rfl⟩ | ⟨-,error,frame,-,hcases⟩⟩ := onWsSessionMessage_cases h
  · rfl
  · rfl
  · rcases hcases with ⟨-,-,rfl⟩ | ⟨-,-,rfl⟩ | ⟨-,what,-,rfl⟩
    · obtain ⟨error,-,hclose⟩ | ⟨-,-,-,headers,hjoin⟩ :=
        @handleStomp_cases _ _ ids unspecified server hserver w' c' hfind' frame
      · rw [hclose]
        exact find_closeConnection hne c' error
      · rw [hjoin]
        exact UnorderedMap.find_set_ne _ _ hne
    · rw [handleSend]
      split_ifs
      · exact find_closeConnection hne c' _
      · rfl
    · exact find_closeConnection hne c' what

theorem Knows.frame (h : Knows ids w id before server) (hfirst : AnnouncedFirst (before ++ [event]))
    (harrival : event.arrival? w = none) (hspares : event.Spares w id)
    (hperform : server.perform ids event = some server') :
    server'.connections.find w = server.connections.find w := by
  have hnot := h.not_announced hfirst
  cases event with
  | sessionConnect ec w' =>
    have hne : w' ≠ w := fun heq => hnot (congrArg some heq)
    rw [← Option.some.inj hperform,onWsSessionConnect]
    split_ifs
    · rfl
    · exact UnorderedMap.find_set_ne _ _ hne
  | sessionMessage u ec w' msg =>
    by_cases hne : w' = w
    · cases ec with
      | false => simp [ServerEvent.arrival?,hne] at harrival
      | true =>
        obtain ⟨-,rfl⟩ | ⟨c',-,⟨-,rfl⟩ | ⟨hec,-⟩⟩ := onWsSessionMessage_cases hperform
        · rfl
        · rfl
        · cases hec
    · exact find_onWsSessionMessage h.running.consistent hne hperform
  | sessionDisconnect ec w' =>
    rw [← Option.some.inj hperform]
    cases hfind : server.connections.find w' with
    | none => rw [onWsSessionDisconnect,hfind]
    | some c' =>
      rw [(onWsSessionDisconnect_connections hfind ec).1,UnorderedMap.find_erase,if_neg hspares]
  | send u connectionId destination messageContent userRequestId =>
    obtain ⟨n,actions,hsend,-⟩ := @send_cases _ _ ids u server connectionId destination messageContent
      userRequestId
    rw [← Option.some.inj hperform,hsend]
  | close u connectionId =>
    rw [← Option.some.inj hperform]
    cases @close_cases _ _ ids u server h.running.consistent connectionId with
    | inl hnobody => rw [hnobody.1]
    | inr hsome =>
      obtain ⟨w',c',hfind',hid,hclose⟩ := hsome
      rw [hclose]
      refine find_closeConnection ?_ c' _
      rintro rfl
      exact hspares (hid.symm.trans (h.owns.own c' hfind'))
  | stop => exact hspares.elim
  | serverDisconnect ec =>
    rw [← Option.some.inj hperform]
    rfl

theorem find_handshake (hserver : Consistent ids server) (hfind : server.connections.find w = some c)
    (hpending : c.status = .kPending) {msg : Bytes} {frame : StompFrame}
    (hread : ofString unspecified.uninitialised msg = some (.kOk,frame))
    (hhandshake : Handshake server.kHost frame)
    (h : server.onWsSessionMessage unspecified false w msg = some server') :
    server'.connections.find w = some {c with status := .kConnected} := by
  have hperform : server' = server.handleStomp unspecified w c frame := by
    simp only [onWsSessionMessage,hfind,Bool.false_eq_true,if_false,hread,bind,Option.bind_some,
      hhandshake.command_eq,ne_eq,not_true,pure,Option.some.injEq] at h
    exact h.symm
  have haccepted : ¬∃ error, error ≠ .kUndefinedError ∧ server.handleStomp unspecified w c frame =
      server.closeConnection unspecified c w error := by
    rintro ⟨error,-,hclose⟩
    have hnone := congrArg (fun s => s.connections.find w) hclose
    simp only [closeConnection_connections,UnorderedMap.find_erase,if_true] at hnone
    rw [handleStomp,if_neg (not_not.mpr hhandshake.version_eq),if_neg (not_not.mpr hhandshake.host_eq),
      if_neg (not_not.mpr hpending)] at hnone
    simp only at hnone
    split_ifs at hnone <;> simp [write,post] at hnone
  obtain ⟨-,-,-,headers,hjoin⟩ :=
    (@handleStomp_cases _ _ ids unspecified server hserver w c hfind frame).resolve_left haccepted
  rw [hperform,hjoin]
  exact UnorderedMap.find_set_self _ _ _

theorem find_letter (hfind : server.connections.find w = some c) (hconnected : c.status = .kConnected)
    {letter : Letter} (hlegal : letter.Legal) {unspecified' : Unspecified}
    (h : server.onWsSessionMessage unspecified false w (letter.text unspecified') = some server') :
    server'.connections.find w = some c := by
  obtain ⟨frame,hread,hcommand,-⟩ := letterOf_cases (hlegal.letterOf_text unspecified unspecified')
  simp only [onWsSessionMessage,hfind,Bool.false_eq_true,if_false,hread,bind,Option.bind_some,hcommand,
    ne_eq,not_true,pure,Option.some.injEq] at h
  rw [← h,handleSend,if_neg (not_not.mpr hconnected)]
  exact hfind

end StompServer

structure StompClient.Credentials (client : StompClient Handler) : Prop where
  lines : client.OneLiners
  url_ne_nil : client.url ≠ []
  username_ne_nil : client.username ≠ []
  password_ne_nil : client.password ≠ []

/-- The text that asks for a connection is read as a handshake with the host that the client knows. -/
theorem StompClient.Credentials.handshake {client : StompClient Handler} (h : client.Credentials)
    (unspecified unspecified' : Unspecified) : ∃ frame,
      ofString unspecified.uninitialised (client.stompText unspecified') = some (.kOk,frame) ∧
        StompServer.Handshake client.url frame := by
  obtain ⟨hurl,husername,hpassword⟩ := h.lines
  have hlegal : LegalComponents .kStomp client.stompHeaders [] := by
    refine .of_headers (by decide) ?_ (by simp [requiredHeaders]) (by simp) (by simp) (by simp)
    intro header hmem
    simp only [List.mem_cons,List.not_mem_nil,or_false] at hmem
    rcases hmem with rfl | rfl | rfl | rfl
    · exact ⟨by decide,by decide +kernel,by decide +kernel⟩
    · exact ⟨by simp,h.url_ne_nil,hurl⟩
    · exact ⟨by simp,h.username_ne_nil,husername⟩
    · exact ⟨by simp,h.password_ne_nil,hpassword⟩
  have hread := @LegalComponents.ofString_eq unspecified.uninitialised _ _ _
    (hlegal.arrange unspecified') 0
  rw [List.replicate_zero,List.append_nil] at hread
  exact ⟨_,hread,handshake_of_stompText h.lines hread⟩

def Written (texts : List Bytes) (letters : List Letter) : Prop :=
  List.Forall₂ (fun text letter => ∃ unspecified, text = Letter.text unspecified letter) texts letters

theorem Written.exists_of_mem {texts : List Bytes} {letters : List Letter} (h : Written texts letters)
    {text : Bytes} (hmem : text ∈ texts) : ∃ letter ∈ letters, ∃ unspecified,
      text = letter.text unspecified := by
  induction h with
  | nil => cases hmem
  | cons hhead _ ih =>
    rename_i _ letter _ _ _
    cases hmem with
    | head => exact ⟨letter,List.mem_cons_self,hhead⟩
    | tail _ hmem =>
      obtain ⟨letter',hletter,htext⟩ := ih hmem
      exact ⟨letter',List.mem_cons_of_mem _ hletter,htext⟩

namespace StompServer

variable {ids : IdGenerator} {kHost : Bytes} {server server' : StompServer Session}
  {event : ServerEvent Session} {events : List (ServerEvent Session)} {w : Session} {id : Bytes}
  {before : List (ServerEvent Session)} {client : StompClient Handler} {letters : List Letter}
  {texts : List Bytes}

theorem kHost_run (h : Knows ids w id before server) (hfirst : AnnouncedFirst (before ++ events))
    (hrun : server.run ids events = some server') : server'.kHost = server.kHost := by
  induction events generalizing before server with
  | nil =>
    obtain rfl : server = server' := Option.some.inj hrun
    rfl
  | cons event events ih =>
    rw [← List.singleton_append,run_append,run_singleton,Option.bind_eq_some_iff] at hrun
    rw [← List.singleton_append,← List.append_assoc] at hfirst
    obtain ⟨next,hperform,hrest⟩ := hrun
    obtain ⟨hnext,hchange⟩ := h.step hfirst.left hperform
    rw [ih hnext hfirst hrest,hchange.kHost_eq]

def statusAfter (arrivals : List Arrival) : ConnectionStatus :=
  if arrivals = [] then .kPending else .kConnected

theorem Knows.welcomes (h : Knows ids w id before server)
    (hfind : server.connections.find w = some ⟨id,.kPending⟩) (hcredentials : client.Credentials)
    (hhost : client.url = server.kHost) (hfirst : AnnouncedFirst (before ++ events))
    (hspares : ∀ event ∈ events, event.Spares w id) (hlegal : ∀ letter ∈ letters, letter.Legal)
    {u₀ : Unspecified} (hwritten : Written texts letters)
    (harrived : (events.filterMap (ServerEvent.arrival? w)).map Prod.snd <+:
      client.stompText u₀::texts) (hrun : server.run ids events = some server') :
    server'.connections.find w =
      some ⟨id,statusAfter (events.filterMap (ServerEvent.arrival? w))⟩ := by
  induction events using List.reverseRecOn generalizing server' with
  | nil =>
    obtain rfl : server = server' := Option.some.inj hrun
    exact hfind
  | append_singleton events event ih =>
    rw [run_append,Option.bind_eq_some_iff] at hrun
    rw [← List.append_assoc] at hfirst
    obtain ⟨mid,hmid,hperform⟩ := hrun
    rw [run_singleton] at hperform
    have hknows := (h.run hfirst.left hmid).1
    rw [List.filterMap_append,List.map_append] at harrived
    have hold := ih hfirst.left (fun e he => hspares e (List.mem_append_left _ he))
      ((List.prefix_append _ _).trans harrived) hmid
    cases harrival : event.arrival? w with
    | none =>
      rw [List.filterMap_append,List.filterMap_cons_none harrival,List.filterMap_nil,List.append_nil,
        hknows.frame hfirst harrival (hspares event (by simp)) hperform]
      exact hold
    | some arrival =>
      obtain ⟨u,msg⟩ := arrival
      obtain rfl : event = .sessionMessage u false w msg := by
        cases event with
        | sessionMessage u' ec w' msg' =>
          cases ec with
          | true => cases harrival
          | false => simp_all [ServerEvent.arrival?]
        | sessionConnect | sessionDisconnect | send | close | stop | serverDisconnect => cases harrival
      rw [List.filterMap_cons_some harrival,List.filterMap_nil] at harrived
      rw [List.filterMap_append,List.filterMap_cons_some harrival,List.filterMap_nil,statusAfter,
        if_neg (by simp)]
      obtain ⟨rest,hrest⟩ := harrived
      cases hpast : events.filterMap (ServerEvent.arrival? w) with
      | nil =>
        rw [hpast] at hold hrest
        obtain ⟨rfl,-⟩ := List.cons.inj hrest
        obtain ⟨frame,hread,hhandshake⟩ := hcredentials.handshake u u₀
        rw [hhost,← kHost_run h hfirst.left hmid] at hhandshake
        exact find_handshake hknows.running.consistent hold rfl hread hhandshake hperform
      | cons first past =>
        rw [hpast] at hold hrest
        have hmem : msg ∈ texts := by
          rw [← (List.cons.inj hrest).2]
          simp
        obtain ⟨letter,hletter,u',rfl⟩ := hwritten.exists_of_mem hmem
        exact find_letter hold rfl (hlegal letter hletter) hperform

end StompServer

/-! What a polite client says. -/

def ClientCall.accepts : ClientCall Handler → Bool
  | .onConnect _ ec => ec = .kOk
  | _ => false

def Completion.isConnect : Completion Handler → Bool
  | .connect => true
  | _ => false

namespace StompClient

variable {ids : IdGenerator} {unspecified : Unspecified} {client client' : StompClient Handler}
  {event : ClientEvent Handler} {events : List (ClientEvent Handler)}

def connecting (client : StompClient Handler) : ℕ := client.pending.countP Completion.isConnect

/-- The client sends messages, and only when it was told that it is connected. -/
def Polite (client : StompClient Handler) : ClientEvent Handler → Prop
  | .send _ _ _ _ => client.Accepted
  | .connect .. | .subscribe .. | .close _ => False
  | .completed .. | .message .. | .disconnected _ => True

instance (client : StompClient Handler) : Decidable client.Accepted :=
  decidable_of_iff (client.posted.any ClientCall.accepts = true) <| by
    rw [List.any_eq_true,Accepted]
    constructor
    · rintro ⟨call,hmem,haccepts⟩
      cases call with
      | onConnect handler ec => exact ⟨handler,of_decide_eq_true haccepts ▸ hmem⟩
      | _ => cases haccepts
    · rintro ⟨handler,hmem⟩
      exact ⟨_,hmem,rfl⟩

instance (client : StompClient Handler) : DecidablePred client.Polite
  | .send .. => inferInstanceAs (Decidable client.Accepted)
  | .connect .. | .subscribe .. | .close _ => isFalse not_false
  | .completed .. | .message .. | .disconnected _ => isTrue trivial

/-- What a polite client writes: a letter once it is connected, or the text that asks for a connection
when the WebSocket has connected. -/
structure Sends (client client' : StompClient Handler) (letter : Option Letter) (texts : List Bytes) :
    Prop where
  cases : Written texts letter.toList ∧ client'.connecting ≤ client.connecting ∨
    (∃ unspecified, texts = [client.stompText unspecified]) ∧ letter = none ∧
      client'.connecting+1 = client.connecting
  legal : ∀ l ∈ letter, l.Legal ∧ client.Accepted

theorem sends_nothing (h : client'.connecting ≤ client.connecting) : Sends client client' none [] :=
  ⟨Or.inl ⟨.nil,h⟩,by simp⟩

theorem complete_sends {idx : ℕ} {completion : Completion Handler}
    (hcompletion : client.pending[idx]? = some completion) (ec : Bool) : ∃ calls,
      ({client with pending := client.pending.eraseIdx idx}.complete unspecified ec completion).asked =
        client.asked ++ calls ∧ Sends client
          ({client with pending := client.pending.eraseIdx idx}.complete unspecified ec completion)
          none (calls.filterMap SocketCall.text?) := by
  have hcount := countP_eraseIdx Completion.isConnect hcompletion
  have hsame : ∀ next : StompClient Handler, next.asked = client.asked →
      next.pending = client.pending.eraseIdx idx → ∃ calls, next.asked = client.asked ++ calls ∧
        Sends client next none (calls.filterMap SocketCall.text?) := by
    intro next hasked hpending
    refine ⟨[],by rw [hasked,List.append_nil],sends_nothing ?_⟩
    rw [connecting,connecting,hpending]
    omega
  cases completion with
  | connect =>
    simp only [complete,onWsConnect]
    split_ifs
    · exact hsame _ rfl rfl
    · exact hsame _ rfl rfl
    · refine ⟨[_],rfl,Or.inr ⟨⟨unspecified,?_⟩,rfl,?_⟩,by simp⟩
      · simp only [stompFrame,assemble_plain]
        rfl
      · simp only [connecting,ask,List.countP_append]
        simpa [Completion.isConnect] using hcount
  | stomp =>
    simp only [complete,onWsSendStomp]
    split_ifs <;> exact hsame _ rfl rfl
  | subscribe subscriptionId subscription =>
    simp only [complete,onWsSendSubscribe]
    split_ifs <;> exact hsame _ rfl rfl
  | send requestId onSend => exact hsame _ rfl rfl
  | close onClose => exact hsame _ rfl rfl

theorem perform_sends (hpolite : client.Polite event) (hplain : event.Plain)
    (h : client.perform ids event = some client') : ∃ calls, client'.asked = client.asked ++ calls ∧
      Sends client client' (client.letter? ids event) (calls.filterMap SocketCall.text?) := by
  cases event with
  | connect | subscribe | close => exact hpolite.elim
  | send u destination messageContent onSend =>
    obtain ⟨hline,hfits⟩ := hplain
    rw [← Option.some.inj h]
    simp only [letter?,send_letter hline hfits]
    by_cases hempty : destination = []
    · simp only [hempty,if_true]
      exact ⟨[],(List.append_nil _).symm,sends_nothing (le_refl _)⟩
    · simp only [hempty,if_false,ids.nth_ne_nil]
      refine ⟨[_],rfl,Or.inl ⟨.cons ⟨u,rfl⟩ .nil,?_⟩,?_⟩
      · simp [connecting,ask,Completion.isConnect]
      · intro letter hletter
        rw [← Option.some.inj hletter]
        exact ⟨⟨ids.nth_ne_nil _,ids.newLine_not_mem_nth _,hempty,hline,hfits⟩,hpolite⟩
  | completed u idx ec =>
    obtain ⟨completion,hcompletion,rfl⟩ := Option.map_eq_some_iff.mp h
    exact complete_sends hcompletion ec
  | message u msg =>
    obtain ⟨calls,rfl⟩ := onWsMessage_eq h
    exact ⟨[],(List.append_nil _).symm,sends_nothing (le_refl _)⟩
  | disconnected ec =>
    rw [← Option.some.inj h]
    exact ⟨[],(List.append_nil _).symm,sends_nothing (le_refl _)⟩

theorem letters_concat (h : client.run ids events = some client') :
    client.letters ids (events ++ [event]) =
      client.letters ids events ++ (client'.letter? ids event).toList := by
  rw [letters,moments_concat h,List.filterMap_append]
  cases hletter : client'.letter? ids event <;> simp [letters,hletter]

/-- What a polite client has said: nothing, or the text that asks for a connection and then letters. -/
structure Spoken (client client' : StompClient Handler) (letters : List Letter)
    (texts : List Bytes) : Prop where
  texts_eq : texts = [] ∧ letters = [] ∧ client'.connecting ≤ 1 ∨
    (∃ unspecified written, texts = client.stompText unspecified::written ∧ Written written letters) ∧
      client'.connecting = 0
  legal : ∀ letter ∈ letters, letter.Legal

theorem Spoken.step {next : StompClient Handler} {letters : List Letter} {texts more : List Bytes}
    {letter : Option Letter} (h : Spoken client client' letters texts)
    (hsends : Sends client' next letter more)
    (hstomp : ∀ unspecified, client'.stompText unspecified = client.stompText unspecified)
    (haccepted : client'.Accepted → texts ≠ []) :
    Spoken client next (letters ++ letter.toList) (texts ++ more) := by
  refine ⟨?_,fun l hmem => ?_⟩
  · rcases h.texts_eq with ⟨rfl,rfl,hconnecting⟩ | ⟨⟨u,written,rfl,hwritten⟩,hconnecting⟩
    · rcases hsends.cases with ⟨hmore,hle⟩ | ⟨⟨u,rfl⟩,rfl,heq⟩
      · cases letter with
        | none =>
          obtain rfl := List.forall₂_nil_right_iff.mp hmore
          exact Or.inl ⟨rfl,rfl,hle.trans hconnecting⟩
        | some l => exact absurd rfl (haccepted (hsends.legal l rfl).2)
      · exact Or.inr ⟨⟨u,[],by rw [hstomp]; rfl,.nil⟩,by omega⟩
    · rcases hsends.cases with ⟨hmore,hle⟩ | ⟨-,rfl,heq⟩
      · exact Or.inr ⟨⟨u,written ++ more,rfl,List.rel_append hwritten hmore⟩,by omega⟩
      · omega
  · rcases List.mem_append.mp hmem with hold | hnew
    · exact h.legal l hold
    · exact (hsends.legal l (Option.mem_toList.mp hnew)).1

end StompClient

/-! Polite conversations. -/

variable {ids ids' : IdGenerator} {kHost : Bytes} {w : Session} {id : Bytes}
  {earlier : List (ServerEvent Session)} {client₀ : StompClient Handler} {server₀ : StompServer Session}
  {events events' : List (LinkEvent (ClientEvent Handler) (ServerEvent Session) Unspecified)}
  {l l' : Link (StompClient Handler) (StompServer Session) Bytes Bytes}
  {log now : List ((ClientEvent Handler ⊕ Arrival) ⊕ (ServerEvent Session ⊕ Arrival))}

omit [DecidableEq Session] in
theorem clientEvents_append : clientEvents (log ++ now) = clientEvents log ++ clientEvents now := by
  rw [clientEvents,clientEvents,clientEvents,List.filterMap_append,List.filterMap_append]

theorem serverEvents_append : serverEvents w (log ++ now) = serverEvents w log ++ serverEvents w now := by
  rw [serverEvents,serverEvents,serverEvents,List.filterMap_append,List.filterMap_append]

theorem Converse.upTo (h : Converse ids ids' kHost w id earlier client₀ server₀ events' l' (log ++ now))
    (hrun : ((clientEnd ids).link (serverEnd ids' w)).run ⟨client₀,server₀,[],[]⟩ events = some (l,log)) :
    Converse ids ids' kHost w id earlier client₀ server₀ events l log where
  opens := h.opens
  run := hrun
  first := by
    have hfirst := h.first
    rw [serverEvents_append,← List.append_assoc] at hfirst
    exact hfirst.left
  connect event hmem := h.connect event (clientEvents_append ▸ List.mem_append_left _ hmem)
  client_plain event hmem := h.client_plain event (clientEvents_append ▸ List.mem_append_left _ hmem)
  server_plain event hmem := h.server_plain event (by
    rw [serverEvents_append]
    exact List.mem_append_left _ hmem)

theorem Converse.spoken (h : Converse ids ids' kHost w id earlier client₀ server₀ events l log)
    (hpolite : ∀ moment ∈ client₀.moments ids (clientEvents log), moment.1.Polite moment.2)
    (hconnecting : client₀.connecting ≤ 1) (hnew : ¬client₀.Accepted) : ∃ calls,
      l.left.asked = client₀.asked ++ calls ∧ StompClient.Spoken client₀ l.left
        (client₀.letters ids (clientEvents log)) (calls.filterMap SocketCall.text?) := by
  refine Machine.run_induction (motive := fun events l log =>
    Converse ids ids' kHost w id earlier client₀ server₀ events l log →
      (∀ moment ∈ client₀.moments ids (clientEvents log), moment.1.Polite moment.2) → ∃ calls,
        l.left.asked = client₀.asked ++ calls ∧ StompClient.Spoken client₀ l.left
          (client₀.letters ids (clientEvents log)) (calls.filterMap SocketCall.text?))
    ?_ ?_ h.run h hpolite
  · exact fun _ _ => ⟨[],(List.append_nil _).symm,Or.inl ⟨rfl,rfl,hconnecting⟩,
      fun letter hmem => absurd hmem List.not_mem_nil⟩
  rintro events event l l' log now hrun ih hstep hconverse hpolite
  have hmid := hconverse.upTo hrun
  have hends := hmid.ends
  rcases Machine.link_step_left hstep with ⟨input,sent,rfl,hend⟩ | ⟨hnothing,hleft⟩
  · simp only [clientEnd,bind,Option.bind_eq_some_iff,pure,Option.some.injEq,Prod.mk.injEq] at hend
    obtain ⟨e,hevent,next,hperform,rfl,-⟩ := hend
    have hevents : clientEvents (log ++ [.inl input]) = clientEvents log ++ [e] := by
      rw [clientEvents_append]
      exact congrArg _ (List.filterMap_cons_some hevent)
    rw [hevents] at hpolite ⊢
    rw [StompClient.moments_concat hends.client_run] at hpolite
    obtain ⟨calls,hasked,hspoken⟩ := ih hmid fun moment hmem =>
      hpolite moment (List.mem_append_left _ hmem)
    obtain ⟨more,hmore,hsends⟩ := StompClient.perform_sends
      (hpolite _ (List.mem_append_right _ List.mem_cons_self))
      (hconverse.client_plain e (hevents ▸ List.mem_append_right _ List.mem_cons_self)) hperform
    refine ⟨calls ++ more,by rw [hmore,hasked,List.append_assoc],?_⟩
    rw [StompClient.letters_concat hends.client_run,List.filterMap_append]
    have hsame := (StompClient.run_writes hmid.client_plain hmid.connect hends.client_run).1
    refine hspoken.step hsends (fun _ => hsame.stompText_eq) fun haccepted hsilent => ?_
    -- the handshake that was answered has been sent
    obtain ⟨u,msg,frame,harrived,-⟩ := hends.handshake hmid.opens hmid.first
      (hends.answered hnew haccepted)
    obtain ⟨calls',hwrites,hcarries⟩ := hends.rightward
    obtain rfl : calls = calls' := List.append_cancel_left (hasked.symm.trans hwrites.asked_eq)
    have hsent := hcarries.arrived_sublist.subset (List.mem_map_of_mem harrived)
    rw [hsilent] at hsent
    cases hsent
  · have hevents : clientEvents (log ++ now) = clientEvents log := by
      rw [clientEvents_append]
      have hnone : clientEvents now = [] := by
        rw [clientEvents,hnothing]
        rfl
      rw [hnone,List.append_nil]
    rw [hevents] at hpolite ⊢
    rw [hleft]
    exact ih hmid hpolite

/-- A client that is not turned away: its session stays with the server, which writes it no error and
never closes it, and all its letters are heard or on their way. -/
structure Welcomed (ids : IdGenerator) (w : Session) (id : Bytes) (client : StompClient Handler)
    (l : Link (StompClient Handler) (StompServer Session) Bytes Bytes)
    (log : List ((ClientEvent Handler ⊕ Arrival) ⊕ (ServerEvent Session ⊕ Arrival))) : Prop where
  member : l.right.IsMember w
  not_closed : (w,.close) ∉ l.right.written
  no_error : .kError ∉ l.right.framesTo w
  heard : l.right.heardFrom id ++ lettersIn l.rightward = client.letters ids (clientEvents log)

theorem welcomed_of_converse (h : Converse ids ids' kHost w id earlier client₀ server₀ events l log)
    (hlossless : .loseRight ∉ events) (hcredentials : client₀.Credentials) (hhost : client₀.url = kHost)
    (hconnecting : client₀.connecting ≤ 1) (hnew : ¬client₀.Accepted)
    (hpolite : ∀ moment ∈ client₀.moments ids (clientEvents log), moment.1.Polite moment.2)
    (hspares : ∀ event ∈ serverEvents w log, event.Spares w id) :
    Welcomed ids w id client₀ l log := by
  have hends := h.ends
  have huntouched := h.opens.untouched h.first.left
  obtain ⟨calls,hasked,hspoken⟩ := h.spoken hpolite hconnecting hnew
  obtain ⟨calls',hwrites,hcarries⟩ := hends.rightward
  obtain rfl : calls = calls' := List.append_cancel_left (hasked.symm.trans hwrites.asked_eq)
  obtain ⟨u₀,texts,hwritten,harrived⟩ : ∃ u₀ texts,
      Written texts (client₀.letters ids (clientEvents log)) ∧
        ((serverEvents w log).filterMap (ServerEvent.arrival? w)).map Prod.snd <+:
          client₀.stompText u₀::texts := by
    have hinit := hcarries.isPrefix hlossless
    rcases hspoken.texts_eq with ⟨htexts,hnone,-⟩ | ⟨⟨u₀,texts,htexts,hwritten⟩,-⟩
    · rw [htexts] at hinit
      exact ⟨0,[],hnone ▸ .nil,hinit.trans List.nil_prefix⟩
    · exact ⟨u₀,texts,hwritten,htexts ▸ hinit⟩
  have hkHost : server₀.kHost = kHost := (StompServer.run_induction
    (motive := fun _ server => server.kHost = kHost) rfl
    (fun _ _ _ _ _ _ hsame _ _ hchange => hchange.kHost_eq.trans hsame) h.first.left.once h.opens.run).2
  have hfind := (h.opens.knows h.first.left).welcomes (h.opens.pending h.first.left) hcredentials
    (hhost.trans hkHost.symm) h.first hspares hspoken.legal hwritten harrived hends.server_run
  have hmember : l.right.IsMember w := StompServer.isMember_iff.mpr ⟨_,hfind⟩
  have hrun : (StompServer.started kHost).run ids'
      (earlier ++ [.sessionConnect false w] ++ serverEvents w log) = some l.right := by
    rw [StompServer.run_append,h.opens.run,Option.bind_some,hends.server_run]
  refine ⟨hmember,fun hclose => ?_,fun herror => ?_,
    ((hends.toServer huntouched.heardFrom_eq).2 hlossless).2 hmember⟩
  · exact hmember (StompServer.gone_of_closed h.first hrun (Or.inl hclose)).2
  · obtain ⟨hrunning,writes,calls',horderly⟩ := StompServer.run_orderly h.first hrun
    have hwrote := (frameProtocol_run (horderly.written w)).1
    rw [StompServer.framesTo] at herror
    rcases hrunning.keepsStatus w _ hfind with hpending | hconnected
    · rw [(horderly.pending w _ hfind hpending).1] at hwrote
      rw [show _ = [] from hwrote] at herror
      cases herror
    · rw [(horderly.connected w _ hfind hconnected).1] at hwrote
      obtain ⟨n,hframes⟩ := hwrote
      rw [hframes] at herror
      simp [List.mem_replicate] at herror

theorem talkEvents_polite : ∃ r ∈ ((clientEnd .simple).link (serverEnd .simple 0)).run
      ⟨talkClient,talkServer,[],[]⟩ talkEvents,
    StompServer.AnnouncedFirst ([.sessionConnect false 0] ++ serverEvents 0 r.2) ∧
      (∀ event ∈ clientEvents r.2, event.isConnect = false) ∧
      (∀ event ∈ clientEvents r.2, event.Plain) ∧ (∀ event ∈ serverEvents 0 r.2, event.Plain) ∧
      (∀ moment ∈ talkClient.moments .simple (clientEvents r.2), moment.1.Polite moment.2) ∧
      (∀ event ∈ serverEvents 0 r.2, event.Spares 0 (ascii "a")) ∧
        r.1.right.heardFrom (ascii "a") = [⟨ascii "/quiet-route",ascii "a",ascii "hi"⟩] := by
    decide +kernel

theorem welcomed_talkEvents : ∃ l log,
    Welcomed .simple 0 (ascii "a") talkClient l log ∧
      l.right.heardFrom (ascii "a") = [⟨ascii "/quiet-route",ascii "a",ascii "hi"⟩] := by
  obtain ⟨⟨l,log⟩,hrun,hfirst,hconnect,hclient,hserver,hpolite,hspares,hheard⟩ := talkEvents_polite
  have hopens : Opens .simple (ascii "localhost") 0 (ascii "a") [] talkServer := ⟨rfl,by decide +kernel⟩
  refine ⟨l,log,welcomed_of_converse ⟨hopens,hrun,hfirst,hconnect,hclient,hserver⟩ ?_ ?_ rfl ?_ ?_ hpolite
    hspares,hheard⟩
  · simp [talkEvents]
  · exact ⟨⟨by decide +kernel,by decide +kernel,by decide +kernel⟩,by decide,by decide,by decide⟩
  · decide
  · decide

end QuietRoute
