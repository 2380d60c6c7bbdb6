import QuietRoute.Stomp.ServerRuns

/-! The sessions that the server keeps a connection of: an announced session becomes a member, and one
that is closed or has disconnected is none any more. -/
namespace QuietRoute
namespace StompServer

open StompFrame

variable {Session : Type} [DecidableEq Session] {ids : IdGenerator} {unspecified : Unspecified}
  {server server' : StompServer Session} {event : ServerEvent Session} {w w' : Session}

def IsMember (server : StompServer Session) (w : Session) : Prop := server.connections.find w ≠ none

theorem isMember_iff : server.IsMember w ↔ ∃ c, server.connections.find w = some c :=
  Option.ne_none_iff_exists'

/-- A session joins only where it is announced, and those that leave are closed or are gone. -/
def Moves (joined gone : Session → Prop) (server server' : StompServer Session) : Prop :=
  ∃ actions, server'.written = server.written ++ actions ∧ ∀ w, server'.IsMember w ↔
    (server.IsMember w ∨ joined w) ∧ (w,.close) ∉ actions ∧ ¬gone w

def nobody : Session → Prop := fun _ => False

theorem moves_stay (actions : List (Session × SessionAction))
    (hwritten : server'.written = server.written ++ actions)
    (hactions : ∀ w, server.IsMember w → (w,.close) ∉ actions)
    (hmembers : ∀ w, server'.IsMember w ↔ server.IsMember w) : Moves nobody nobody server server' := by
  refine ⟨actions,hwritten,fun w => ?_⟩
  rw [hmembers]
  exact ⟨fun hmember => ⟨Or.inl hmember,hactions w hmember,not_false⟩,
    fun h => h.1.resolve_right not_false⟩

theorem isMember_set {c : Connection} {connections : UnorderedMap Session Connection}
    (h : server'.connections = connections.set w c) :
    server'.IsMember w' ↔ w = w' ∨ connections.find w' ≠ none := by
  rw [IsMember,h,UnorderedMap.find_set]
  split_ifs with heq <;> simp [heq]

theorem isMember_erase {connections : UnorderedMap Session Connection}
    (h : server'.connections = connections.erase w) :
    server'.IsMember w' ↔ w ≠ w' ∧ connections.find w' ≠ none := by
  rw [IsMember,h,UnorderedMap.find_erase]
  split_ifs with heq <;> simp [heq]

theorem closeConnection_actions (c : Connection) (error : StompServerError) :
    ∃ texts : List Bytes,
      (server.closeConnection unspecified c w error).written = server.written ++
        ((texts.map SessionAction.send ++ [SessionAction.close]).map fun a => (w,a)) := by
  rw [closeConnection]
  split_ifs
  · exact ⟨[(makeErrorFrame unspecified .kUnsupportedFrame).plain],by simp [write]⟩
  · exact ⟨[],by simp [write]⟩

theorem closeConnection_moves (c : Connection) (error : StompServerError) :
    Moves nobody nobody server (server.closeConnection unspecified c w error) := by
  obtain ⟨texts,hwritten⟩ := @closeConnection_actions _ _ unspecified server w c error
  refine ⟨_,hwritten,fun w' => ?_⟩
  rw [isMember_erase (closeConnection_connections c w error)]
  simp only [nobody,or_false,List.mem_map,List.mem_append,List.mem_singleton,Prod.mk.injEq,
    exists_eq_right_right,not_false_eq_true,and_true]
  constructor
  · rintro ⟨hne,hmember⟩
    exact ⟨hmember,fun hclose => hne hclose.2⟩
  · rintro ⟨hmember,hclose⟩
    exact ⟨fun heq => hclose ⟨Or.inr trivial,heq⟩,hmember⟩

theorem handleStomp_moves (hserver : Consistent ids server) {c : Connection}
    (hfind : server.connections.find w = some c) (frame : StompFrame) :
    Moves nobody nobody server (server.handleStomp unspecified w c frame) := by
  obtain ⟨error,-,hclose⟩ | ⟨-,-,-,headers,hjoin⟩ :=
    @handleStomp_cases _ _ ids unspecified server hserver w c hfind frame
  · rw [hclose]
    exact closeConnection_moves c error
  · rw [hjoin]
    refine moves_stay [(w,.send _)] rfl (by simp) fun w' => ?_
    rw [isMember_set rfl]
    refine or_iff_right_of_imp ?_
    rintro rfl
    simp [hfind]

theorem handleSend_moves (c : Connection) (frame : StompFrame) :
    Moves nobody nobody server (server.handleSend unspecified w c frame) := by
  rw [handleSend]
  split_ifs with hconnected
  · exact closeConnection_moves c _
  · exact moves_stay [] (List.append_nil _).symm (by simp) fun _ => Iff.rfl

theorem onWsSessionMessage_moves (hserver : Consistent ids server) {ec : Bool} {msg : Bytes}
    (h : server.onWsSessionMessage unspecified ec w msg = some server') :
    Moves nobody nobody server server' := by
  obtain ⟨hnone,rfl⟩ | ⟨c,hfind,⟨-,rfl⟩ | ⟨rfl,error,frame,hframe,hcases⟩⟩ :=
    onWsSessionMessage_cases h
  · refine moves_stay [(w,.close)] rfl ?_ fun _ => Iff.rfl
    rintro w' hmember hclose
    obtain rfl : w' = w := by simpa using hclose
    exact hmember hnone
  · exact moves_stay [] (List.append_nil _).symm (by simp) fun _ => Iff.rfl
  · rcases hcases with ⟨-,-,rfl⟩ | ⟨-,-,rfl⟩ | ⟨-,what,-,rfl⟩
    · exact handleStomp_moves hserver hfind frame
    · exact handleSend_moves c frame
    · exact closeConnection_moves c what

theorem onWsSessionConnect_moves (hnew : server.connections.find w = none) (ec : Bool) :
    Moves (fun w' => ec = false ∧ w = w') nobody server (server.onWsSessionConnect ids ec w) := by
  cases ec with
  | true =>
    refine ⟨[(w,.close)],rfl,fun w' => ⟨fun hmember => ⟨Or.inl hmember,?_,not_false⟩,?_⟩⟩
    · intro hclose
      obtain rfl : w' = w := by simpa using hclose
      exact hmember hnew
    · exact fun hmember => hmember.1.resolve_right (by simp)
  | false =>
    refine ⟨[],(List.append_nil _).symm,fun w' => ?_⟩
    rw [isMember_set (w := w) rfl]
    simp [nobody,IsMember,or_comm]

theorem onWsSessionDisconnect_connections {c : Connection}
    (hfind : server.connections.find w = some c) (ec : Bool) :
    (server.onWsSessionDisconnect ec w).connections = server.connections.erase w ∧
      (server.onWsSessionDisconnect ec w).written = server.written := by
  simp only [onWsSessionDisconnect,hfind]
  split_ifs <;> exact ⟨rfl,rfl⟩

theorem onWsSessionDisconnect_moves (ec : Bool) :
    Moves nobody (w = ·) server (server.onWsSessionDisconnect ec w) := by
  cases hfind : server.connections.find w with
  | none =>
    rw [onWsSessionDisconnect,hfind]
    refine ⟨[],(List.append_nil _).symm,fun w' => ?_⟩
    simp only [nobody,or_false,List.not_mem_nil,not_false_eq_true,true_and]
    refine ⟨fun hmember => ⟨hmember,?_⟩,And.left⟩
    rintro rfl
    exact hmember hfind
  | some c =>
    obtain ⟨hconnections,hwritten⟩ := onWsSessionDisconnect_connections hfind ec
    refine ⟨[],by rw [hwritten,List.append_nil],fun w' => ?_⟩
    rw [isMember_erase hconnections]
    simp [nobody,IsMember,and_comm]

theorem send_moves (hserver : Consistent ids server)
    (connectionId destination messageContent userRequestId : Bytes) : Moves nobody nobody server
      (server.send ids unspecified connectionId destination messageContent userRequestId).2 := by
  obtain ⟨n,actions,hsend,hactions⟩ := @send_cases _ _ ids unspecified server connectionId destination
    messageContent userRequestId
  rw [hsend]
  refine moves_stay _ rfl (fun w' hmember => ?_) fun _ => Iff.rfl
  rcases hactions with rfl | ⟨w,hsession,⟨hnone,-⟩ | ⟨c,headers,-,-,rfl⟩⟩
  · simp
  · -- every session has a connection
    obtain ⟨c,hfind,-⟩ := (hserver.sessions_iff connectionId w).mp hsession
    rw [hnone] at hfind
    cases hfind
  · simp

theorem close_moves (hserver : Consistent ids server) (connectionId : Bytes) :
    Moves nobody nobody server (server.close unspecified connectionId) := by
  cases close_cases hserver connectionId with
  | inl hnobody =>
    rw [hnobody.1]
    exact moves_stay [] (List.append_nil _).symm (by simp) fun _ => Iff.rfl
  | inr hsome =>
    obtain ⟨w,c,-,-,hclose⟩ := hsome
    rw [hclose]
    exact closeConnection_moves c _

theorem stop_moves : Moves nobody nobody server server.stop := by
  refine ⟨_,rfl,fun w => ⟨fun hmember => absurd rfl hmember,?_⟩⟩
  rintro ⟨hmember | hnobody,hclose,-⟩
  · obtain ⟨c,hfind⟩ := isMember_iff.mp hmember
    refine absurd (List.mem_map.mpr ⟨(w,c),?_,rfl⟩) hclose
    exact (UnorderedMap.find_eq_some_iff _).mp hfind
  · exact hnobody.elim

/-- The sessions that an event announces with success, and those that it says have disconnected. -/
def Joins (event : ServerEvent Session) (w : Session) : Prop := event = .sessionConnect false w
def Leaves (event : ServerEvent Session) (w : Session) : Prop := ∃ ec, event = .sessionDisconnect ec w

theorem perform_moves (hserver : Consistent ids server)
    (hnew : ∀ w, event.announced? = some w → server.connections.find w = none)
    (h : server.perform ids event = some server') :
    Moves (Joins event) (Leaves event) server server' := by
  have hothers : ∀ event : ServerEvent Session, (∀ w, ¬Joins event w) → (∀ w, ¬Leaves event w) →
      Moves nobody nobody server server' → Moves (Joins event) (Leaves event) server server' := by
    rintro event hjoins hleaves ⟨actions,hwritten,hmembers⟩
    refine ⟨actions,hwritten,fun w => ?_⟩
    rw [hmembers]
    simp [nobody,hjoins,hleaves]
  cases event with
  | sessionConnect ec w =>
    obtain ⟨actions,hwritten,hmembers⟩ := @onWsSessionConnect_moves _ _ ids server w (hnew w rfl) ec
    rw [← Option.some.inj h]
    refine ⟨actions,hwritten,fun w' => ?_⟩
    rw [hmembers]
    simp [nobody,Joins,Leaves]
  | sessionMessage u ec w msg =>
    exact hothers _ (by simp [Joins]) (by simp [Leaves]) (onWsSessionMessage_moves hserver h)
  | sessionDisconnect ec w =>
    obtain ⟨actions,hwritten,hmembers⟩ := @onWsSessionDisconnect_moves _ _ server w ec
    rw [← Option.some.inj h]
    refine ⟨actions,hwritten,fun w' => ?_⟩
    rw [hmembers]
    simp [nobody,Joins,Leaves]
  | send u connectionId destination messageContent userRequestId =>
    refine hothers _ (by simp [Joins]) (by simp [Leaves]) ?_
    rw [← Option.some.inj h]
    exact send_moves hserver connectionId destination messageContent userRequestId
  | close u connectionId =>
    refine hothers _ (by simp [Joins]) (by simp [Leaves]) ?_
    rw [← Option.some.inj h]
    exact close_moves hserver connectionId
  | stop =>
    refine hothers _ (by simp [Joins]) (by simp [Leaves]) ?_
    rw [← Option.some.inj h]
    exact stop_moves
  | serverDisconnect ec =>
    refine hothers _ (by simp [Joins]) (by simp [Leaves]) ?_
    rw [← Option.some.inj h]
    exact moves_stay [] (List.append_nil _).symm (by simp) fun _ => Iff.rfl

theorem Change.closes (hchange : Change ids event server server') : ∃ actions,
    server'.written = server.written ++ actions ∧
      ∀ w, (w,.close) ∈ actions → server.IsMember w ∨ event.session? = some w := by
  have hnone : server.written = server.written ++ [] := (List.append_nil _).symm
  cases hchange with
  | silent n => exact ⟨[],hnone,by simp⟩
  | refused w hnew hsession => exact ⟨[(w,.close)],rfl,by simp [hsession]⟩
  | entered w hnew hannounced => exact ⟨[],hnone,by simp⟩
  | dropped w c frames hfind => exact ⟨_,rfl,by simp [IsMember,hfind]⟩
  | accepted w c frame text => exact ⟨[(w,.send text)],rfl,by simp⟩
  | heard w c frame => exact ⟨[],hnone,by simp⟩
  | lost w c ec hfind => exact ⟨[],hnone,by simp⟩
  | sent w c text n => exact ⟨[(w,.send text)],rfl,by simp⟩
  | stopped =>
    refine ⟨_,rfl,fun w hclose => ?_⟩
    obtain ⟨e,hmem,heq⟩ := List.mem_map.mp hclose
    obtain rfl : e.1 = w := congrArg Prod.fst heq
    exact Or.inl (isMember_iff.mpr ⟨e.2,(UnorderedMap.find_eq_some_iff _).mpr hmem⟩)
  | ended ec => exact ⟨[],hnone,by simp⟩

end StompServer
end QuietRoute
