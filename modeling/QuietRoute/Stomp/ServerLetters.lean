import QuietRoute.Protocol.Link
import QuietRoute.Stomp.Letters
import QuietRoute.Stomp.OverlappingWrites
import QuietRoute.Stomp.ServerMembers
import QuietRoute.Stomp.ServerOrder

/-! What the server writes to one of its sessions, and what it posts of what arrives from it. -/
namespace QuietRoute

open StompFrame Typestate Reporting

variable {Session : Type} [DecidableEq Session]

def Callback.letterFrom? (id : Bytes) : Callback → Option Letter
  | .onClientMessage _ id' destination requestId message =>
    if id' = id then some ⟨destination,requestId,message⟩ else none
  | _ => none

namespace ServerEvent

omit [DecidableEq Session] in
/-- The headers of a message stay on their lines, and its length is one of the machine. -/
def Plain : ServerEvent Session → Prop
  | .send _ _ destination messageContent userRequestId =>
    newLine ∉ destination ∧ newLine ∉ userRequestId ∧ messageContent.length < 2^64
  | _ => True

instance : DecidablePred (Plain : ServerEvent Session → Prop)
  | .send _ _ destination messageContent userRequestId => inferInstanceAs
    (Decidable (newLine ∉ destination ∧ newLine ∉ userRequestId ∧ messageContent.length < 2^64))
  | .sessionConnect .. | .sessionMessage .. | .sessionDisconnect .. | .close .. | .stop
  | .serverDisconnect _ => isTrue trivial

def arrival? (w : Session) : ServerEvent Session → Option Arrival
  | .sessionMessage unspecified false wsSession msg =>
    if wsSession = w then some (unspecified,msg) else none
  | _ => none

end ServerEvent

namespace StompServer

variable {ids : IdGenerator} {unspecified : Unspecified} {kHost : Bytes}
  {server server' : StompServer Session} {event : ServerEvent Session}
  {events events' : List (ServerEvent Session)} {id : Bytes} {w : Session}

structure Owns (ids : IdGenerator) (server : StompServer Session) (id : Bytes) (w : Session) : Prop where
  drawn : ∃ n < server.generated, id = ids.nth n
  own : ∀ c, server.connections.find w = some c → c.id = id
  unique : ∀ w' c, server.connections.find w' = some c → c.id = id → w' = w

/-- The connection of a session that is not announced was there before, up to its status. -/
theorem Change.same_connection (hchange : Change ids event server server')
    (hnot : event.announced? ≠ some w) {c : Connection} (hfind : server'.connections.find w = some c) :
    ∃ c', server.connections.find w = some c' ∧ c'.id = c.id := by
  cases hchange with
  | entered w' hnew hannounced =>
    rcases find_set_iff.mp hfind with ⟨rfl,-⟩ | ⟨-,hold⟩
    · exact absurd hannounced hnot
    · exact ⟨c,hold,rfl⟩
  | dropped w' c' => exact ⟨c,(find_erase_iff.mp hfind).2,rfl⟩
  | accepted w' c' frame text hfind' =>
    rcases find_set_iff.mp hfind with ⟨rfl,rfl⟩ | ⟨-,hold⟩
    · exact ⟨c',hfind',rfl⟩
    · exact ⟨c,hold,rfl⟩
  | lost w' c' => exact ⟨c,(find_erase_iff.mp hfind).2,rfl⟩
  | stopped => simp [stop] at hfind
  | silent n => exact ⟨c,hfind,rfl⟩
  | refused w' => exact ⟨c,hfind,rfl⟩
  | heard w' c' => exact ⟨c,hfind,rfl⟩
  | sent w' c' => exact ⟨c,hfind,rfl⟩
  | ended ec => exact ⟨c,hfind,rfl⟩

theorem Owns.change (h : Owns ids server id w) (hchange : Change ids event server server')
    (hnot : event.announced? ≠ some w) : Owns ids server' id w := by
  obtain ⟨n,hn,rfl⟩ := h.drawn
  have hfresh : ids.nth server.generated ≠ ids.nth n := fun heq =>
    absurd (ids.nth_injective heq) (Nat.ne_of_gt hn)
  refine ⟨⟨n,hn.trans_le hchange.generated_le,rfl⟩,?_,?_⟩
  · intro c hfind
    rcases hchange.same_connection hnot hfind with ⟨c',hfind',hid⟩
    rw [← hid]
    exact h.own c' hfind'
  · intro w' c hfind hid
    rcases hchange.connection_cases hfind with ⟨c',hfind',hid'⟩ | rfl
    · exact h.unique w' c' hfind' (hid'.trans hid)
    · exact absurd hid hfresh

/-! What is posted. -/

def heardFrom (server : StompServer Session) (id : Bytes) : List Letter :=
  server.posted.filterMap (Callback.letterFrom? id)

/-- A letter is heard from a connection when its session delivers it, and is heard once. -/
theorem Change.heardFrom_cases (hchange : Change ids event server server')
    (howns : Owns ids server id w) :
    server'.heardFrom id = server.heardFrom id ∨ ∃ arrival letter, server.IsMember w ∧
      event.arrival? w = some arrival ∧ letterOf arrival = some letter ∧
        server'.heardFrom id = server.heardFrom id ++ [letter] := by
  have hsame : ∀ callbacks : List Callback, (∀ callback ∈ callbacks, callback.letterFrom? id = none) →
      (server.posted ++ callbacks).filterMap (Callback.letterFrom? id) = server.heardFrom id := by
    intro callbacks hnone
    rw [List.filterMap_append,List.filterMap_eq_nil_iff.mpr hnone,List.append_nil]
    rfl
  cases hchange with
  | accepted w' c frame text => exact Or.inl (hsame _ (by simp [Callback.letterFrom?]))
  | heard w' c frame hfind hconnected hdelivers hcommand =>
    obtain ⟨u,msg,rfl,hread⟩ := hdelivers
    by_cases hid : c.id = id
    · obtain rfl := howns.unique w' c hfind hid
      refine Or.inr ⟨(u,msg),_,by simp [IsMember,hfind],if_pos rfl,letterOf_eq_some hread hcommand,?_⟩
      simp [heardFrom,post,Callback.letterFrom?,hid]
    · exact Or.inl (hsame _ (by simp [Callback.letterFrom?,hid]))
  | lost w' c ec =>
    refine Or.inl (hsame _ ?_)
    split_ifs <;> simp [Callback.letterFrom?]
  | ended ec => exact Or.inl (hsame _ (by simp [Callback.letterFrom?]))
  | silent n => exact Or.inl rfl
  | refused w' => exact Or.inl rfl
  | entered w' => exact Or.inl rfl
  | dropped w' c => exact Or.inl rfl
  | sent w' c => exact Or.inl rfl
  | stopped => exact Or.inl rfl

theorem perform_letter {c : Connection} {arrival : Arrival} {letter : Letter}
    (hfind : server.connections.find w = some c) (harrival : event.arrival? w = some arrival)
    (hletter : letterOf arrival = some letter) (h : server.perform ids event = some server') :
    server'.heardFrom c.id = server.heardFrom c.id ++ [letter] ∨ ¬server'.IsMember w := by
  cases event with
  | sessionMessage u ec w' msg =>
    cases ec with
    | true => cases harrival
    | false =>
      obtain ⟨rfl,rfl⟩ : w' = w ∧ (u,msg) = arrival := by
        simpa [ServerEvent.arrival?] using harrival
      obtain ⟨frame,hread,hcommand,hsaid⟩ := letterOf_cases hletter
      have hperform : server' = server.handleSend u w' c frame := by
        rcases onWsSessionMessage_cases h with
          ⟨hnone,-⟩ | ⟨c',hfind',⟨hec,-⟩ | ⟨-,error,frame',hread',hcases⟩⟩
        · rw [hfind] at hnone
          cases hnone
        · cases hec
        · obtain rfl := Option.some.inj (hfind.symm.trans hfind')
          obtain ⟨rfl,rfl⟩ := Prod.mk.inj (Option.some.inj (hread.symm.trans hread'))
          rcases hcases with ⟨-,hstomp,-⟩ | ⟨-,-,hsend⟩ | ⟨hother,-⟩
          · rw [hcommand] at hstomp
            cases hstomp
          · exact hsend
          · exact absurd hcommand (hother.resolve_left (not_not.mpr rfl)).2
      rw [hperform,handleSend]
      split_ifs with hconnected
      · right
        rw [isMember_erase (closeConnection_connections c w' _)]
        exact fun hmember => hmember.1 rfl
      · left
        simp [heardFrom,post,Callback.letterFrom?,hsaid]
  | sessionConnect | sessionDisconnect | send | close | stop | serverDisconnect => cases harrival

/-! What is written. -/

/-- The letter that an event makes the server write to a connection. -/
def letter? (ids : IdGenerator) (id : Bytes) (server : StompServer Session) :
    ServerEvent Session → Option Letter
  | .send unspecified connectionId destination messageContent userRequestId =>
    let requestId :=
      (server.send ids unspecified connectionId destination messageContent userRequestId).1
    if connectionId = id ∧ requestId ≠ [] then some ⟨destination,requestId,messageContent⟩ else none
  | _ => none

theorem send_fst_of_connected {connectionId destination messageContent userRequestId : Bytes}
    {c : Connection} (hsession : server.sessions.find connectionId = some w)
    (hfind : server.connections.find w = some c)
    (hconnected : c.status = .kConnected) (hid : newLine ∉ userRequestId) (hempty : destination ≠ [])
    (hline : newLine ∉ destination) (hfits : messageContent.length < 2^64) :
    (server.send ids unspecified connectionId destination messageContent userRequestId).1 =
      (server.replyId ids userRequestId).1 := by
  have hlegal : (Letter.mk destination (server.replyId ids userRequestId).1 messageContent).Legal :=
    ⟨replyId_ne_nil _,newLine_not_mem_replyId hid,hempty,hline,hfits⟩
  have hassemble := @LegalComponents.assemble_eq _ _ _ unspecified hlegal.components
  simp only [Letter.headers,messageHeaders] at hassemble
  by_cases hrequest : userRequestId = []
  · simp only [replyId,hrequest,if_true] at hassemble
    simp [send,hsession,hfind,hconnected,hrequest,generateId,replyId,hassemble]
  · simp only [replyId,hrequest,if_false] at hassemble
    simp [send,hsession,hfind,hconnected,hrequest,replyId,hassemble]

/-- A message is refused without being written, or is written as a letter to the session of its
connection. -/
theorem send_letter (hserver : Consistent ids server)
    {connectionId destination messageContent userRequestId : Bytes} (hline : newLine ∉ destination)
    (hid : newLine ∉ userRequestId) (hfits : messageContent.length < 2^64) :
    ((server.send ids unspecified connectionId destination messageContent userRequestId).1 = [] ∧
      (server.send ids unspecified connectionId destination messageContent userRequestId).2.written =
        server.written) ∨
    ∃ w c requestId, (server.send ids unspecified connectionId destination messageContent
        userRequestId).1 = requestId ∧
      server.connections.find w = some c ∧ c.id = connectionId ∧
      (Letter.mk destination requestId messageContent).Legal ∧
      (server.send ids unspecified connectionId destination messageContent userRequestId).2.written =
        server.written ++
          [(w,.send ((Letter.mk destination requestId messageContent).text unspecified))] := by
  cases hsession : server.sessions.find connectionId with
  | none => exact Or.inl (by simp [send,hsession])
  | some w =>
    obtain ⟨c,hfind,hconnection⟩ := (hserver.sessions_iff connectionId w).mp hsession
    by_cases hconnected : c.status = .kConnected
    · by_cases hempty : destination = []
      · have herror := @assemble_message_error (server.replyId ids userRequestId).1 messageContent
          (newLine_not_mem_replyId hid) unspecified
        subst destination
        left
        rw [messageHeaders] at herror
        by_cases hrequest : userRequestId = []
        · simp only [replyId,hrequest,if_true] at herror
          simp [send,hsession,hfind,hconnected,hrequest,generateId,herror]
        · simp only [replyId,hrequest,if_false] at herror
          simp [send,hsession,hfind,hconnected,hrequest,herror]
      · have hlegal : (Letter.mk destination (server.replyId ids userRequestId).1 messageContent).Legal :=
          ⟨replyId_ne_nil _,newLine_not_mem_replyId hid,hempty,hline,hfits⟩
        refine Or.inr ⟨w,c,_,send_fst_of_connected hsession hfind hconnected hid hempty hline hfits,hfind,
          hconnection,hlegal,?_⟩
        rw [send_of_connected hsession hfind hconnected hid hempty hline hfits]
        rfl
    · exact Or.inl (by simp [send,hsession,hfind,hconnected])

theorem says_none {texts : List Bytes} (h : ∀ text ∈ texts, commandOf text ≠ .kSend) : Says texts [] := by
  refine ⟨fun text hmem u => ?_,List.filterMap_eq_nil_iff.mpr fun text hmem => ?_⟩
  · rw [letterOf_eq_none (h text hmem),letterOf_eq_none (h text hmem)]
  · exact letterOf_eq_none (h text hmem) 0

theorem says_actions (actions : List (Session × SessionAction))
    (hwritten : server'.written = server.written ++ actions)
    (hother : ∀ w text, (w,.send text) ∈ actions → commandOf text ≠ .kSend) :
    Says (startedWrites server server' w) [] := by
  rw [startedWrites_eq hwritten]
  refine says_none fun text hmem => ?_
  obtain ⟨action,haction,htext⟩ := List.mem_filterMap.mp hmem
  cases action with
  | close => cases htext
  | send text' =>
    obtain rfl : text' = text := Option.some.inj htext
    exact hother w text' (mem_actionsOf.mp haction)

theorem Change.says (hchange : Change ids event server server') {w' : Session}
    (hsession : event.session? = some w') : Says (startedWrites server server' w) [] := by
  have hnone : server.written = server.written ++ [] := (List.append_nil _).symm
  cases hchange with
  | silent n => exact says_actions [] hnone (by simp)
  | refused w' => exact says_actions _ rfl (by simp)
  | entered w' => exact says_actions [] hnone (by simp)
  | dropped w' c frames hfind hframes =>
    refine says_actions _ rfl fun w'' text hmem => ?_
    rcases hframes with rfl | ⟨text',rfl,hcommand⟩
    · simp at hmem
    · obtain ⟨-,rfl⟩ : w' = w'' ∧ text' = text := by simpa [eq_comm] using hmem
      rw [hcommand]
      decide
  | accepted w' c frame text hfind hpending hdelivers hhandshake htext =>
    refine says_actions _ rfl fun w'' text' hmem => ?_
    obtain ⟨-,rfl⟩ : w'' = w' ∧ text' = text := by simpa using hmem
    rw [htext]
    decide
  | heard w' c frame => exact says_actions [] hnone (by simp)
  | lost w' c ec => exact says_actions [] hnone (by simp)
  | sent w' c text n hfind hconnected htext hnot => rw [hnot] at hsession; cases hsession
  | stopped => exact says_actions _ rfl (by simp)
  | ended ec => exact says_actions [] hnone (by simp)

theorem close_says (hserver : Consistent ids server) (connectionId : Bytes) :
    Says (startedWrites server (server.close unspecified connectionId) w) [] := by
  cases close_cases hserver connectionId with
  | inl hnobody =>
    rw [hnobody.1]
    exact says_actions [] (List.append_nil _).symm (by simp)
  | inr hsome =>
    obtain ⟨w',c,-,-,hclose⟩ := hsome
    rw [hclose]
    exact says_actions [(w',.close)] rfl (by simp)

/-- What an event makes the server write to a session says its letter to the connection. -/
theorem perform_says (hserver : Consistent ids server) (howns : Owns ids server id w)
    (hnew : ∀ w, event.announced? = some w → server.connections.find w = none)
    (hplain : event.Plain) (h : server.perform ids event = some server') :
    Says (startedWrites server server' w) (server.letter? ids id event).toList := by
  have hchange := perform_change hserver hnew h
  cases event with
  | sessionConnect ec w' => exact hchange.says rfl
  | sessionMessage u ec w' msg => exact hchange.says rfl
  | sessionDisconnect ec w' => exact hchange.says rfl
  | close u connectionId =>
    rw [← Option.some.inj h]
    exact close_says hserver connectionId
  | stop =>
    rw [← Option.some.inj h]
    exact says_actions _ rfl (by simp)
  | serverDisconnect ec =>
    rw [← Option.some.inj h]
    exact says_actions [] (List.append_nil _).symm (by simp)
  | send u connectionId destination messageContent userRequestId =>
    obtain ⟨hline,hid,hfits⟩ := hplain
    rw [← Option.some.inj h]
    rcases @send_letter _ _ ids u server hserver connectionId destination messageContent userRequestId
        hline hid hfits with ⟨hrefused,hwritten⟩ | ⟨w',c,requestId,hrequest,hfind,hc,hlegal,hwritten⟩
    · rw [letter?,hrefused]
      simp only [ne_eq,not_true,and_false,if_false]
      exact says_actions [] (by rw [hwritten,List.append_nil]) (by simp)
    · rw [letter?,hrequest,startedWrites_eq hwritten]
      by_cases heq : connectionId = id
      · obtain rfl := howns.unique w' c hfind (hc.trans heq)
        rw [if_pos ⟨heq,hlegal.requestId_ne_nil⟩,show [(w',SessionAction.send _)] =
          [SessionAction.send _].map (fun a => (w',a)) from rfl,actionsOf_self]
        exact .letter hlegal u
      · have hne : w' ≠ w := by
          rintro rfl
          exact heq (hc.symm.trans (howns.own c hfind))
        rw [if_neg fun hboth => heq hboth.1,show [(w',SessionAction.send _)] =
          [SessionAction.send _].map (fun a => (w',a)) from rfl,actionsOf_ne hne]
        exact .nil

/-! The answer to a handshake. -/

theorem Change.posted_prefix (hchange : Change ids event server server') :
    server.posted <+: server'.posted := by
  cases hchange with
  | accepted | heard | lost | ended => exact List.prefix_append _ _
  | silent | refused | entered | dropped | sent | stopped => exact List.prefix_rfl

omit [DecidableEq Session] in
theorem mem_sentCommand {actions : List SessionAction} {command : StompCommand} :
    command ∈ actions.filterMap sentCommand ↔
      ∃ text, .send text ∈ actions ∧ commandOf text = command := by
  rw [List.mem_filterMap]
  constructor
  · rintro ⟨action,hmem,hcommand⟩
    cases action with
    | close => cases hcommand
    | send text => exact ⟨text,hmem,Option.some.inj hcommand⟩
  · rintro ⟨text,hmem,hcommand⟩
    exact ⟨_,hmem,congrArg some hcommand⟩

theorem mem_framesTo {command : StompCommand} :
    command ∈ server.framesTo w ↔ ∃ text, (w,.send text) ∈ server.written ∧ commandOf text = command := by
  simp only [framesTo,mem_sentCommand,mem_actionsOf]

/-- The user hears of a connection when its session gets the answer to its handshake. -/
theorem Change.joined (hchange : Change ids event server server') (howns : Owns ids server id w)
    (h : .kConnected ∈ server'.framesTo w) :
    .kConnected ∈ server.framesTo w ∨ .onClientConnect .kOk id ∈ server'.posted := by
  obtain ⟨text,hmem,hcommand⟩ := mem_framesTo.mp h
  have hold : (w,.send text) ∈ server.written → .kConnected ∈ server.framesTo w :=
    fun hmem => mem_framesTo.mpr ⟨text,hmem,hcommand⟩
  cases hchange with
  | silent | entered | heard | lost | ended => exact Or.inl (hold hmem)
  | refused w' => exact Or.inl (hold (by simpa [write] using hmem))
  | dropped w' c frames hfind hframes =>
    rcases List.mem_append.mp hmem with hmem | hmem
    · exact Or.inl (hold hmem)
    · rcases hframes with rfl | ⟨text',rfl,herror⟩
      · simp at hmem
      · obtain ⟨-,rfl⟩ : w' = w ∧ text' = text := by simpa [eq_comm] using hmem
        rw [herror] at hcommand
        cases hcommand
  | accepted w' c frame text' hfind =>
    rcases List.mem_append.mp hmem with hmem | hmem
    · exact Or.inl (hold hmem)
    · obtain ⟨rfl,-⟩ : w = w' ∧ text = text' := by simpa using hmem
      exact Or.inr (by simp [howns.own c hfind])
  | sent w' c text' n hfind hconnected htext =>
    rcases List.mem_append.mp hmem with hmem | hmem
    · exact Or.inl (hold hmem)
    · obtain ⟨-,rfl⟩ : w = w' ∧ text = text' := by simpa using hmem
      rw [htext] at hcommand
      cases hcommand
  | stopped => exact Or.inl (hold (by simpa [stop] using hmem))

/-! Whole runs. -/

/-- A server in a run that has heard of a session and given it an id. -/
structure Knows (ids : IdGenerator) (w : Session) (id : Bytes) (before : List (ServerEvent Session))
    (server : StompServer Session) : Prop where
  seen : ∃ e ∈ before, e.session? = some w
  running : Running ids before server
  owns : Owns ids server id w

variable {before : List (ServerEvent Session)}

theorem Knows.not_announced (h : Knows ids w id before server)
    (hfirst : AnnouncedFirst (before ++ [event])) :
    event.announced? ≠ some w := by
  obtain ⟨e,he,hsession⟩ := h.seen
  exact fun hannounced => hfirst.fresh hannounced e he hsession

theorem Knows.step (h : Knows ids w id before server) (hfirst : AnnouncedFirst (before ++ [event]))
    (hperform : server.perform ids event = some server') :
    Knows ids w id (before ++ [event]) server' ∧ Change ids event server server' := by
  obtain ⟨hnext,hchange⟩ := h.running.step hfirst.once hperform
  obtain ⟨e,he,hsession⟩ := h.seen
  exact ⟨⟨⟨e,List.mem_append_left _ he,hsession⟩,hnext,
    h.owns.change hchange (h.not_announced hfirst)⟩,hchange⟩

theorem Knows.run (h : Knows ids w id before server) (hfirst : AnnouncedFirst (before ++ events))
    (hrun : server.run ids events = some server') :
    Knows ids w id (before ++ events) server' ∧
      ∃ actions, server'.written = server.written ++ actions := by
  induction events generalizing before server with
  | nil =>
    obtain rfl : server = server' := Option.some.inj hrun
    rw [List.append_nil]
    exact ⟨h,[],(List.append_nil _).symm⟩
  | cons event events ih =>
    rw [← List.singleton_append,run_append,run_singleton,Option.bind_eq_some_iff] at hrun
    rw [← List.singleton_append,← List.append_assoc] at hfirst ⊢
    obtain ⟨next,hperform,hrest⟩ := hrun
    obtain ⟨hnext,hchange⟩ := h.step hfirst.left hperform
    obtain ⟨hknows,actions',hactions'⟩ := ih hnext hfirst hrest
    obtain ⟨actions,hactions,-⟩ := hchange.closes
    exact ⟨hknows,actions ++ actions',by rw [hactions',hactions,List.append_assoc]⟩

/-- The letters that the user of the server writes to a connection in a run. -/
def letters (ids : IdGenerator) (id : Bytes) (server : StompServer Session) :
    List (ServerEvent Session) → List Letter
  | [] => []
  | event::events => (server.letter? ids id event).toList ++
    match server.perform ids event with
    | none => []
    | some server' => server'.letters ids id events

@[simp] theorem letters_singleton :
    server.letters ids id [event] = (server.letter? ids id event).toList := by
  rw [letters]
  cases server.perform ids event <;> exact List.append_nil _

theorem letters_append {mid : StompServer Session} (h : server.run ids events = some mid) :
    server.letters ids id (events ++ events') =
      server.letters ids id events ++ mid.letters ids id events' := by
  induction events generalizing server with
  | nil =>
    obtain rfl : server = mid := Option.some.inj h
    rfl
  | cons event events ih =>
    rw [← List.singleton_append,run_append,run_singleton,Option.bind_eq_some_iff] at h
    obtain ⟨next,hperform,hrest⟩ := h
    simp only [List.cons_append,letters,hperform,ih hrest,List.append_assoc]

theorem startedWrites_trans {mid : StompServer Session}
    (h : ∃ actions, mid.written = server.written ++ actions)
    (h' : ∃ actions, server'.written = mid.written ++ actions) :
    startedWrites server server' w = startedWrites server mid w ++ startedWrites mid server' w := by
  obtain ⟨actions,hactions⟩ := h
  obtain ⟨actions',hactions'⟩ := h'
  have hboth : server'.written = server.written ++ (actions ++ actions') := by
    rw [hactions',hactions,List.append_assoc]
  rw [startedWrites_eq hactions,startedWrites_eq hactions',startedWrites_eq hboth,actionsOf_append,
    List.filterMap_append]

theorem Knows.hears (h : Knows ids w id before server) (hfirst : AnnouncedFirst (before ++ [event]))
    (hperform : server.perform ids event = some server') : ∃ more,
      server'.heardFrom id = server.heardFrom id ++ more ∧ WhileThere (server.IsMember w)
        (server'.IsMember w) more ((event.arrival? w).toList.filterMap letterOf) := by
  obtain ⟨-,hchange⟩ := h.step hfirst hperform
  have hstays : server'.IsMember w → server.IsMember w :=
    fun hmember => (hchange.announced hmember).resolve_left (h.not_announced hfirst)
  rcases hchange.heardFrom_cases h.owns with hsame | ⟨arrival,letter,hmember,harrival,hletter,hmore⟩
  · refine ⟨[],by rw [hsame,List.append_nil],?_⟩
    rw [filterMap_toList]
    cases hfirstLetter : (event.arrival? w).bind letterOf with
    | none => exact .nil hstays
    | some letter =>
      -- a letter that is not heard costs its sender the connection
      obtain ⟨arrival,harrival,hletter⟩ := Option.bind_eq_some_iff.mp hfirstLetter
      refine .missed (fun hmember => ?_) _
      obtain ⟨c,hfind⟩ := isMember_iff.mp (hstays hmember)
      refine (perform_letter hfind harrival hletter hperform).elim (fun hheard => ?_) (· hmember)
      rw [h.owns.own c hfind,hsame] at hheard
      simp at hheard
  · refine ⟨[letter],hmore,?_⟩
    rw [harrival,Option.toList_some,List.filterMap_cons_some hletter]
    exact .one hmember letter

structure ServesSession (ids : IdGenerator) (id : Bytes) (w : Session)
    (before : List (ServerEvent Session)) (server : StompServer Session)
    (events : List (ServerEvent Session)) (server' : StompServer Session) :
    Prop where
  knows : Knows ids w id (before ++ events) server'
  extends_written : ∃ actions, server'.written = server.written ++ actions
  written : Says (startedWrites server server' w) (server.letters ids id events)
  heard : ∃ more, server'.heardFrom id = server.heardFrom id ++ more ∧
    WhileThere (server.IsMember w) (server'.IsMember w) more
      ((events.filterMap (ServerEvent.arrival? w)).filterMap letterOf)
  joined : .kConnected ∈ server'.framesTo w →
    .kConnected ∈ server.framesTo w ∨ .onClientConnect .kOk id ∈ server'.posted
  posted : server.posted <+: server'.posted

theorem servesSession_of_run (h : Knows ids w id before server)
    (hfirst : AnnouncedFirst (before ++ events))
    (hplain : ∀ event ∈ events, event.Plain) (hrun : server.run ids events = some server') :
    ServesSession ids id w before server events server' := by
  induction events generalizing before server with
  | nil =>
    obtain rfl : server = server' := Option.some.inj hrun
    have hsame : server.written = server.written ++ [] := (List.append_nil _).symm
    exact ⟨by rwa [List.append_nil],⟨[],hsame⟩,says_actions [] hsame (by simp),
      ⟨[],(List.append_nil _).symm,.nil fun hmember => hmember⟩,Or.inl,List.prefix_rfl⟩
  | cons event events ih =>
    rw [← List.singleton_append,run_append,run_singleton,Option.bind_eq_some_iff] at hrun
    rw [← List.singleton_append,← List.append_assoc] at hfirst
    obtain ⟨next,hperform,hrest⟩ := hrun
    obtain ⟨hnext,hchange⟩ := h.step hfirst.left hperform
    obtain ⟨hknows,hwritten',hsaid',⟨more',hmore',hwhile'⟩,hjoined',hposted'⟩ :=
      ih hnext hfirst (fun e he => hplain e (List.mem_cons_of_mem _ he)) hrest
    obtain ⟨actions,hactions,-⟩ := hchange.closes
    have hnew : ∀ w', event.announced? = some w' → server.connections.find w' = none := by
      intro w' hannounced
      by_contra hsome
      obtain ⟨e',he',hw'⟩ := List.mem_filterMap.mp (h.running.announced w' hsome)
      exact hfirst.left.fresh hannounced e' he' (session?_of_announced? hw')
    have hsaid := perform_says h.running.consistent h.owns hnew (hplain event List.mem_cons_self) hperform
    refine ⟨by rwa [List.append_assoc] at hknows,?_,?_,?_,?_,hchange.posted_prefix.trans hposted'⟩
    · obtain ⟨actions',hactions'⟩ := hwritten'
      exact ⟨actions ++ actions',by rw [hactions',hactions,List.append_assoc]⟩
    · rw [startedWrites_trans ⟨actions,hactions⟩ hwritten',letters,hperform]
      exact hsaid.append hsaid'
    · obtain ⟨more,hmore,hwhile⟩ := h.hears hfirst.left hperform
      refine ⟨more ++ more',by rw [hmore',hmore,List.append_assoc],?_⟩
      have harrived : (event::events).filterMap (ServerEvent.arrival? w) =
          (event.arrival? w).toList ++ events.filterMap (ServerEvent.arrival? w) := by
        cases harrival : event.arrival? w <;> simp [harrival]
      rw [harrived,List.filterMap_append]
      exact hwhile.trans hwhile'
    · intro hmem
      rcases hjoined' hmem with hmid | hposted
      · exact (hchange.joined h.owns hmid).imp_right fun hposted => hposted'.subset hposted
      · exact Or.inr hposted

end StompServer
end QuietRoute
