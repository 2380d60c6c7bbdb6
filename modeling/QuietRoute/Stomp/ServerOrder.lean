import QuietRoute.Protocol.Typestate
import QuietRoute.Stomp.ServerRuns

/-! The order of what the server writes to each session and posts about each connection. -/
namespace QuietRoute

open StompFrame Typestate

/-! The frames of a session. -/

inductive WritePhase
  | silent | talking | failed | closed
  deriving DecidableEq

/-- Either an error or an answer to the handshake comes first, and nothing after an error or after
the session is closed. -/
def frameProtocol : Protocol WritePhase SessionAction where
  start := .silent
  step
    | _, .close => some .closed
    | phase, .send text =>
      match phase, commandOf text with
      | .silent, .kConnected => some .talking
      | .talking, .kSend => some .talking
      | .silent, .kError | .talking, .kError => some .failed
      | _, _ => none

def sentCommand : SessionAction → Option StompCommand
  | .send text => some (commandOf text)
  | .close => none

def FrameOrder (commands : List StompCommand) : Prop :=
  commands <+: [.kError] ∨ ∃ n, commands <+: .kConnected::(List.replicate n .kSend ++ [.kError])

def SilentAfterClose (actions : List SessionAction) : Prop :=
  ∀ before after, actions = before ++ .close::after → ∀ action ∈ after, action = .close

def WritePhase.Wrote : WritePhase → List StompCommand → Prop
  | .silent, commands => commands = []
  | .talking, commands => ∃ n, commands = .kConnected::List.replicate n .kSend
  | .failed, commands | .closed, commands => FrameOrder commands

theorem WritePhase.Wrote.frameOrder {phase : WritePhase} {commands : List StompCommand}
    (h : phase.Wrote commands) : FrameOrder commands := by
  cases phase with
  | silent =>
    rw [show commands = [] from h]
    exact Or.inl List.nil_prefix
  | talking =>
    obtain ⟨n,rfl⟩ := h
    exact Or.inr ⟨n,List.prefix_append _ [StompCommand.kError]⟩
  | failed => exact h
  | closed => exact h

theorem WritePhase.Wrote.error {phase : WritePhase} {commands : List StompCommand}
    (h : phase.Wrote commands) (hphase : phase = .silent ∨ phase = .talking) :
    FrameOrder (commands ++ [.kError]) := by
  rcases hphase with rfl | rfl
  · rw [show commands = [] from h]
    exact Or.inl List.prefix_rfl
  · obtain ⟨n,rfl⟩ := h
    exact Or.inr ⟨n,List.prefix_rfl⟩

theorem silentAfterClose_close {actions : List SessionAction} (h : SilentAfterClose actions) :
    SilentAfterClose (actions ++ [.close]) := by
  intro before after heq action hmem
  cases after using List.reverseRecOn with
  | nil => cases hmem
  | append_singleton after last =>
    rw [← List.cons_append,← List.append_assoc] at heq
    obtain ⟨hinit,hlast⟩ := List.append_inj' heq rfl
    rcases List.mem_append.mp hmem with hold | hnew
    · exact h before after hinit action hold
    · rw [List.mem_singleton.mp hnew]
      exact (List.cons.inj hlast).1.symm

theorem silentAfterClose_of_notMem {actions : List SessionAction} (h : .close ∉ actions) :
    SilentAfterClose actions := by
  intro before after heq
  exact absurd (by simp [heq]) h

theorem frameProtocol_run {actions : List SessionAction} {phase : WritePhase}
    (h : frameProtocol.run .silent actions = some phase) :
    phase.Wrote (actions.filterMap sentCommand) ∧ SilentAfterClose actions ∧
      (.close ∈ actions → phase = .closed) := by
  refine frameProtocol.run_induction (motive := fun phase actions =>
    phase.Wrote (actions.filterMap sentCommand) ∧ SilentAfterClose actions ∧
      (.close ∈ actions → phase = .closed)) ?_ ?_ h
  · exact ⟨rfl,silentAfterClose_of_notMem (by simp),by simp⟩
  · rintro phase phase' actions action ⟨hwrote,hsilent,hclosed⟩ hstep
    cases action with
    | close =>
      obtain rfl : .closed = phase' := Option.some.inj hstep
      refine ⟨?_,silentAfterClose_close hsilent,fun _ => rfl⟩
      rw [List.filterMap_append,List.filterMap_cons_none rfl,List.filterMap_nil,List.append_nil]
      exact hwrote.frameOrder
    | send text =>
      have hopen : .close ∉ actions := by
        intro hmem
        rw [hclosed hmem] at hstep
        cases hstep
      have hnone : .close ∉ actions ++ [SessionAction.send text] := by simp [hopen]
      refine ⟨?_,silentAfterClose_of_notMem hnone,fun hmem => absurd hmem hnone⟩
      rw [List.filterMap_append,
        show [SessionAction.send text].filterMap sentCommand = [commandOf text] from rfl]
      simp only [frameProtocol] at hstep
      split at hstep
      · rename_i hcommand
        rw [hcommand,show actions.filterMap sentCommand = [] from hwrote,← Option.some.inj hstep]
        exact ⟨0,rfl⟩
      · rename_i hcommand
        obtain ⟨n,hn⟩ := hwrote
        rw [hcommand,hn,← Option.some.inj hstep]
        exact ⟨n+1,by rw [List.cons_append,List.replicate_succ']⟩
      · rename_i hcommand
        rw [hcommand,← Option.some.inj hstep]
        exact hwrote.error (Or.inl rfl)
      · rename_i hcommand
        rw [hcommand,← Option.some.inj hstep]
        exact hwrote.error (Or.inr rfl)
      · cases hstep

/-! The callbacks about a connection. -/

inductive CallPhase
  | unknown | joined | left
  deriving DecidableEq

inductive CallbackKind
  | onClientConnect | onClientMessage | onClientDisconnect
  deriving DecidableEq

def Callback.client? : Callback → Option (Bytes × CallbackKind)
  | .onClientConnect _ id => some (id,.onClientConnect)
  | .onClientMessage _ id _ _ _ => some (id,.onClientMessage)
  | .onClientDisconnect _ id => some (id,.onClientDisconnect)
  | .onDisconnect _ => none

def callProtocol : Protocol CallPhase CallbackKind where
  start := .unknown
  step
    | .unknown, .onClientConnect => some .joined
    | .joined, .onClientMessage => some .joined
    | .joined, .onClientDisconnect => some .left
    | _, _ => none

def CallbackOrder (kinds : List CallbackKind) : Prop :=
  ∃ n, kinds <+: .onClientConnect::(List.replicate n .onClientMessage ++ [.onClientDisconnect])

def CallPhase.Posted : CallPhase → List CallbackKind → Prop
  | .unknown, kinds => kinds = []
  | .joined, kinds => ∃ n, kinds = .onClientConnect::List.replicate n .onClientMessage
  | .left, kinds => CallbackOrder kinds

theorem callProtocol_posted {kinds : List CallbackKind} {phase : CallPhase}
    (h : callProtocol.run .unknown kinds = some phase) : phase.Posted kinds := by
  refine callProtocol.run_induction rfl ?_ h
  intro phase phase' kinds kind hkinds hstep
  simp only [callProtocol] at hstep
  split at hstep
  · rw [show kinds = [] from hkinds,← Option.some.inj hstep]
    exact ⟨0,rfl⟩
  · obtain ⟨n,rfl⟩ := hkinds
    rw [← Option.some.inj hstep]
    exact ⟨n+1,by rw [List.cons_append,List.replicate_succ']⟩
  · obtain ⟨n,rfl⟩ := hkinds
    rw [← Option.some.inj hstep]
    exact ⟨n,List.prefix_rfl⟩
  · cases hstep

theorem CallPhase.Posted.callbackOrder {phase : CallPhase} {kinds : List CallbackKind}
    (h : phase.Posted kinds) : CallbackOrder kinds := by
  cases phase with
  | unknown =>
    rw [show kinds = [] from h]
    exact ⟨0,List.nil_prefix⟩
  | joined =>
    obtain ⟨n,rfl⟩ := h
    exact ⟨n,List.prefix_append _ [CallbackKind.onClientDisconnect]⟩
  | left => exact h

namespace StompServer

variable {Session : Type} [DecidableEq Session] {ids : IdGenerator} {kHost : Bytes}
  {server server' : StompServer Session} {event : ServerEvent Session}
  {events events' : List (ServerEvent Session)}

/-- The commands of the frames written to a session. -/
def framesTo (server : StompServer Session) (w : Session) : List StompCommand :=
  (actionsOf server.written w).filterMap sentCommand

def callbacksFor (server : StompServer Session) (id : Bytes) : List CallbackKind :=
  actionsOf (server.posted.filterMap Callback.client?) id

/-- A session that is announced occurs in no earlier event. -/
def AnnouncedFirst (events : List (ServerEvent Session)) : Prop :=
  events.Pairwise fun earlier later => ∀ w ∈ later.announced?, earlier.session? ≠ some w

instance (events : List (ServerEvent Session)) : Decidable (AnnouncedFirst events) :=
  inferInstanceAs (Decidable (List.Pairwise _ _))

omit [DecidableEq Session] in
theorem session?_of_announced? {w : Session} (h : event.announced? = some w) :
    event.session? = some w := by
  cases event <;> simp_all [ServerEvent.announced?,ServerEvent.session?]

omit [DecidableEq Session] in
theorem AnnouncedFirst.once (h : AnnouncedFirst events) : AnnouncedOnce events := by
  rw [AnnouncedOnce,List.Nodup,List.pairwise_filterMap]
  refine h.imp ?_
  rintro earlier later hlater w hw w' hw' rfl
  exact hlater w hw' (session?_of_announced? hw)

omit [DecidableEq Session] in
theorem AnnouncedFirst.left (h : AnnouncedFirst (events ++ events')) : AnnouncedFirst events :=
  (List.pairwise_append.mp h).1

omit [DecidableEq Session] in
theorem AnnouncedFirst.fresh (h : AnnouncedFirst (events ++ [event])) {w : Session}
    (hw : event.announced? = some w) : ∀ e ∈ events, e.session? ≠ some w :=
  fun e he => (List.pairwise_append.mp h).2.2 e he event List.mem_cons_self w hw

theorem filterMap_client? {callback : Callback} {id : Bytes} {kind : CallbackKind}
    (hclient : callback.client? = some (id,kind)) (posted : List Callback) :
    (posted ++ [callback]).filterMap Callback.client? =
      posted.filterMap Callback.client? ++ [kind].map fun kind => (id,kind) := by
  rw [List.filterMap_append,List.filterMap_cons_some hclient,List.filterMap_nil,List.map_singleton]

theorem actionsOf_client?_ne {callback : Callback} {id id' : Bytes} {kind : CallbackKind}
    (hclient : callback.client? = some (id',kind)) (hne : id' ≠ id) (posted : List Callback) :
    actionsOf ((posted ++ [callback]).filterMap Callback.client?) id =
      actionsOf (posted.filterMap Callback.client?) id := by
  rw [filterMap_client? hclient,actionsOf_append,actionsOf_ne hne,List.append_nil]

/-! Sessions and connections about which the server is done. -/

omit [DecidableEq Session] in
theorem stop_written (server : StompServer Session) : server.stop.written = server.written ++
    (server.connections.entries.map Prod.fst).map fun w => (w,.close) := by
  rw [List.map_map]
  rfl

theorem framesTo_stop (server : StompServer Session) (w : Session) :
    server.stop.framesTo w = server.framesTo w := by
  rw [framesTo,stop_written,actionsOf_append,actionsOf_map_const,List.filterMap_append,
    List.filterMap_replicate_of_none rfl,List.append_nil]
  rfl

theorem Change.framesTo_eq (hchange : Change ids event server server') {w : Session}
    (hnone : server.connections.find w = none) : server'.framesTo w = server.framesTo w := by
  have hne : ∀ {w' : Session} {c : Connection}, server.connections.find w' = some c → w' ≠ w := by
    rintro w' c hfind rfl
    rw [hnone] at hfind
    cases hfind
  cases hchange with
  | silent n => rfl
  | refused w' =>
    simp only [framesTo,write,actionsOf_append,List.filterMap_append]
    by_cases heq : w' = w <;> simp [actionsOf,heq,sentCommand]
  | entered w' => rfl
  | dropped w' c frames hfind =>
    rw [framesTo,actionsOf_append,actionsOf_ne (hne hfind),List.append_nil]
    rfl
  | accepted w' c frame text hfind =>
    rw [framesTo,actionsOf_append,← List.map_singleton,actionsOf_ne (hne hfind),List.append_nil]
    rfl
  | heard w' c => rfl
  | lost w' c => rfl
  | sent w' c text n hfind =>
    rw [framesTo,actionsOf_append,← List.map_singleton,actionsOf_ne (hne hfind),List.append_nil]
    rfl
  | stopped => exact framesTo_stop server w
  | ended ec => rfl

theorem Change.callbacksFor_eq (hchange : Change ids event server server') {id : Bytes}
    (hnobody : ∀ w c, server.connections.find w = some c → c.id ≠ id) :
    server'.callbacksFor id = server.callbacksFor id := by
  cases hchange with
  | silent n => rfl
  | refused w => rfl
  | entered w => rfl
  | dropped w c => rfl
  | accepted w c frame text hfind => exact actionsOf_client?_ne rfl (hnobody w c hfind) _
  | heard w c frame hfind => exact actionsOf_client?_ne rfl (hnobody w c hfind) _
  | lost w c ec hfind =>
    by_cases hconnected : c.status = .kConnected
    · rw [callbacksFor,callbacksFor,if_pos hconnected]
      exact actionsOf_client?_ne rfl (hnobody w c hfind) _
    · rw [callbacksFor,callbacksFor,if_neg hconnected,List.append_nil]
  | sent w c => rfl
  | stopped => rfl
  | ended ec =>
    rw [callbacksFor,post,List.filterMap_append,List.filterMap_cons_none rfl,List.filterMap_nil,
      List.append_nil]
    rfl

def Gone (events : List (ServerEvent Session)) (server : StompServer Session) (w : Session) : Prop :=
  (∃ e ∈ events, e.session? = some w) ∧ server.connections.find w = none

def Forgotten (ids : IdGenerator) (server : StompServer Session) (id : Bytes) : Prop :=
  (∃ n < server.generated, id = ids.nth n) ∧ ∀ w c, server.connections.find w = some c → c.id ≠ id

theorem Gone.step {w : Session} (h : Gone events server w)
    (hfirst : AnnouncedFirst (events ++ [event])) (hchange : Change ids event server server') :
    Gone (events ++ [event]) server' w := by
  obtain ⟨⟨e,he,hsession⟩,hnone⟩ := h
  refine ⟨⟨e,List.mem_append_left [event] he,hsession⟩,?_⟩
  by_contra hsome
  rcases hchange.announced hsome with hannounced | hold
  · exact hfirst.fresh hannounced e he hsession
  · exact hold hnone

theorem Change.generated_le (hchange : Change ids event server server') :
    server.generated ≤ server'.generated := by
  cases hchange with
  | silent n => exact Nat.le_add_right _ n
  | entered w => exact Nat.le_succ _
  | sent w c text n => exact Nat.le_add_right _ n
  | refused w => exact le_rfl
  | dropped w c => exact le_rfl
  | accepted w c => exact le_rfl
  | heard w c => exact le_rfl
  | lost w c => exact le_rfl
  | stopped => exact le_rfl
  | ended ec => exact le_rfl

/-- The connections after an event are those before it, up to their status, and a new one. -/
theorem Change.connection_cases (hchange : Change ids event server server') {w : Session}
    {c : Connection} (hfind : server'.connections.find w = some c) :
    (∃ c', server.connections.find w = some c' ∧ c'.id = c.id) ∨
      c = ⟨ids.nth server.generated,.kPending⟩ := by
  cases hchange with
  | silent n => exact Or.inl ⟨c,hfind,rfl⟩
  | refused w' => exact Or.inl ⟨c,hfind,rfl⟩
  | entered w' =>
    rcases find_set_iff.mp hfind with ⟨-,rfl⟩ | ⟨-,hold⟩
    · exact Or.inr rfl
    · exact Or.inl ⟨c,hold,rfl⟩
  | dropped w' c' => exact Or.inl ⟨c,(find_erase_iff.mp hfind).2,rfl⟩
  | accepted w' c' frame text hfind' =>
    rcases find_set_iff.mp hfind with ⟨rfl,rfl⟩ | ⟨-,hold⟩
    · exact Or.inl ⟨c',hfind',rfl⟩
    · exact Or.inl ⟨c,hold,rfl⟩
  | heard w' c' => exact Or.inl ⟨c,hfind,rfl⟩
  | lost w' c' => exact Or.inl ⟨c,(find_erase_iff.mp hfind).2,rfl⟩
  | sent w' c' => exact Or.inl ⟨c,hfind,rfl⟩
  | stopped => simp [stop] at hfind
  | ended ec => exact Or.inl ⟨c,hfind,rfl⟩

theorem Forgotten.step {id : Bytes} (h : Forgotten ids server id)
    (hchange : Change ids event server server') : Forgotten ids server' id := by
  obtain ⟨⟨n,hn,rfl⟩,hnobody⟩ := h
  refine ⟨⟨n,hn.trans_le hchange.generated_le,rfl⟩,?_⟩
  intro w c hfind
  rcases hchange.connection_cases hfind with ⟨c',hold,hid⟩ | rfl
  · rw [← hid]
    exact hnobody w c' hold
  · intro heq
    exact absurd (ids.nth_injective heq) (Nat.ne_of_gt hn)

theorem run_constant {α : Type} {f : StompServer Session → α}
    {motive : List (ServerEvent Session) → StompServer Session → Prop}
    (hstep : ∀ events event server server', motive events server →
      AnnouncedFirst (events ++ [event]) → Change ids event server server' →
        motive (events ++ [event]) server' ∧ f server' = f server)
    (hrunning : Running ids events server) (hmotive : motive events server)
    (hfirst : AnnouncedFirst (events ++ events')) (hrun : server.run ids events' = some server') :
    f server' = f server := by
  induction events' generalizing events server with
  | nil =>
    obtain rfl : server = server' := Option.some.inj hrun
    rfl
  | cons event events' ih =>
    rw [← List.singleton_append,run_append,run_singleton,Option.bind_eq_some_iff] at hrun
    rw [← List.singleton_append,← List.append_assoc] at hfirst
    obtain ⟨next,hperform,hrest⟩ := hrun
    obtain ⟨hnext,hchange⟩ := hrunning.step hfirst.left.once hperform
    obtain ⟨hmotive',heq⟩ := hstep events event server next hmotive hfirst.left hchange
    rw [ih hnext hmotive' hfirst hrest,heq]

/-! The phases of all sessions and connections. -/

/-- The phases fit to what was written and posted, and to what the server knows. -/
structure Orderly (ids : IdGenerator) (events : List (ServerEvent Session))
    (server : StompServer Session) (writes : Session → WritePhase) (calls : Bytes → CallPhase) :
    Prop where
  written : Follows frameProtocol server.written writes
  posted : Follows callProtocol (server.posted.filterMap Callback.client?) calls
  pending : ∀ w c, server.connections.find w = some c → c.status = .kPending →
    writes w = .silent ∧ calls c.id = .unknown
  connected : ∀ w c, server.connections.find w = some c → c.status = .kConnected →
    writes w = .talking ∧ calls c.id = .joined
  unseen : ∀ w, (∀ e ∈ events, e.session? ≠ some w) → writes w = .silent
  undrawn : ∀ n, server.generated ≤ n → calls (ids.nth n) = .unknown

variable {writes : Session → WritePhase} {calls : Bytes → CallPhase}

theorem orderly_started (ids : IdGenerator) (kHost : Bytes) :
    Orderly ids [] (started kHost : StompServer Session) (fun _ => .silent) fun _ => .unknown := by
  constructor
  · exact follows_nil frameProtocol
  · exact follows_nil callProtocol
  all_goals simp [started]

/-- An event that neither writes nor posts nor changes the maps. -/
theorem Orderly.idle (h : Orderly ids events server writes calls) (n : ℕ) :
    Orderly ids (events ++ [event]) {server with generated := server.generated+n} writes calls where
  written := h.written
  posted := h.posted
  pending := h.pending
  connected := h.connected
  unseen w hw := h.unseen w fun e he => hw e (List.mem_append_left [event] he)
  undrawn m hm := h.undrawn m ((Nat.le_add_right _ n).trans hm)

theorem Running.seen (hrunning : Running ids events server) {w : Session} {c : Connection}
    (hfind : server.connections.find w = some c) : ∃ e ∈ events, e.session? = some w := by
  obtain ⟨e,he,hannounced⟩ := List.mem_filterMap.mp (hrunning.announced w (by simp [hfind]))
  exact ⟨e,he,session?_of_announced? hannounced⟩

/-- Actions for one session, in a phase that fits to what becomes of its connection. -/
theorem Orderly.write (h : Orderly ids events server writes calls) {w : Session}
    (hseen : ∃ e ∈ events ++ [event], e.session? = some w) (actions : List SessionAction)
    (phase : WritePhase) (hrun : frameProtocol.run (writes w) actions = some phase)
    {next : StompServer Session}
    (hwritten : next.written = server.written ++ actions.map fun a => (w,a))
    (hposted : next.posted = server.posted) (hgenerated : server.generated ≤ next.generated)
    (hothers : ∀ w' c, w ≠ w' → next.connections.find w' = some c →
      server.connections.find w' = some c)
    (hself : ∀ c, next.connections.find w = some c →
      c.status = .kConnected ∧ phase = .talking ∧ calls c.id = .joined) :
    Orderly ids (events ++ [event]) next (Function.update writes w phase) calls := by
  constructor
  · rw [hwritten]
    exact h.written.act hrun
  · rw [hposted]
    exact h.posted
  · intro w' c hfind hpending
    by_cases heq : w = w'
    · obtain ⟨hconnected,-⟩ := hself c (heq ▸ hfind)
      rw [hpending] at hconnected
      cases hconnected
    · rw [Function.update_of_ne (Ne.symm heq)]
      exact h.pending w' c (hothers w' c heq hfind) hpending
  · intro w' c hfind hconnected
    by_cases heq : w = w'
    · subst w'
      rw [Function.update_self]
      exact (hself c hfind).2
    · rw [Function.update_of_ne (Ne.symm heq)]
      exact h.connected w' c (hothers w' c heq hfind) hconnected
  · intro w' hunseen
    obtain ⟨e,he,hsession⟩ := hseen
    have hne : w' ≠ w := fun heq => hunseen e he (heq ▸ hsession)
    rw [Function.update_of_ne hne]
    exact h.unseen w' fun e he => hunseen e (List.mem_append_left [event] he)
  · exact fun n hn => h.undrawn n (hgenerated.trans hn)

theorem run_dropped {phase : WritePhase} (hphase : phase = .silent ∨ phase = .talking)
    {frames : List Bytes} (hframes : frames = [] ∨ ∃ text, frames = [text] ∧ commandOf text = .kError) :
    frameProtocol.run phase (frames.map SessionAction.send ++ [.close]) = some .closed := by
  rcases hframes with rfl | ⟨text,rfl,htext⟩
  · rfl
  · rcases hphase with rfl | rfl
    · simp [Protocol.run_cons,frameProtocol,htext]
    · simp [Protocol.run_cons,frameProtocol,htext]

theorem run_closes (n : ℕ) (phase : WritePhase) :
    frameProtocol.run phase (List.replicate (n+1) .close) = some .closed := by
  induction n generalizing phase with
  | zero => rfl
  | succ n ih =>
    rw [List.replicate_succ,Protocol.run_cons]
    exact ih .closed

theorem Orderly.open (h : Orderly ids events server writes calls) (hrunning : Running ids events server)
    {w : Session} {c : Connection} (hfind : server.connections.find w = some c) :
    writes w = .silent ∨ writes w = .talking := by
  rcases hrunning.keepsStatus w c hfind with hpending | hconnected
  · exact Or.inl (h.pending w c hfind hpending).1
  · exact Or.inr (h.connected w c hfind hconnected).1

theorem Orderly.entered (h : Orderly ids events server writes calls) {w : Session}
    (hunseen : ∀ e ∈ events, e.session? ≠ some w) :
    Orderly ids (events ++ [event]) {server with
      sessions := server.sessions.set (ids.nth server.generated) w
      connections := server.connections.set w ⟨ids.nth server.generated,.kPending⟩
      generated := server.generated+1} writes calls where
  written := h.written
  posted := h.posted
  pending := by
    intro w' c hfind hpending
    rcases find_set_iff.mp hfind with ⟨rfl,rfl⟩ | ⟨-,hold⟩
    · exact ⟨h.unseen w hunseen,h.undrawn server.generated le_rfl⟩
    · exact h.pending w' c hold hpending
  connected := by
    intro w' c hfind hconnected
    rcases find_set_iff.mp hfind with ⟨-,rfl⟩ | ⟨-,hold⟩
    · cases hconnected
    · exact h.connected w' c hold hconnected
  unseen w' hw' := h.unseen w' fun e he => hw' e (List.mem_append_left [event] he)
  undrawn n hn := h.undrawn n ((Nat.le_succ _).trans hn)

theorem Orderly.accepted (h : Orderly ids events server writes calls)
    (hrunning : Running ids events server) {w : Session} {c : Connection} {text : Bytes}
    (hfind : server.connections.find w = some c) (hpending : c.status = .kPending)
    (htext : commandOf text = .kConnected) :
    Orderly ids (events ++ [event]) {server with
      connections := server.connections.set w {c with status := .kConnected}
      written := server.written ++ [(w,.send text)]
      posted := server.posted ++ [.onClientConnect .kOk c.id]}
      (Function.update writes w .talking) (Function.update calls c.id .joined) := by
  obtain ⟨hsilent,hunknown⟩ := h.pending w c hfind hpending
  -- the other connections have other ids
  have hother : ∀ w' c', w ≠ w' → server.connections.find w' = some c' →
      Function.update writes w .talking w' = writes w' ∧
        Function.update calls c.id .joined c'.id = calls c'.id := by
    intro w' c' hne hfind'
    refine ⟨Function.update_of_ne (Ne.symm hne) _ _,Function.update_of_ne ?_ _ _⟩
    exact fun hid => hne (hrunning.consistent.session_unique hfind hfind' hid.symm)
  constructor
  · change Follows frameProtocol
      (server.written ++ [SessionAction.send text].map fun action => (w,action)) _
    refine h.written.act ?_
    rw [hsilent,Protocol.run_singleton]
    simp only [frameProtocol,htext]
  · rw [filterMap_client? (show _ = some (c.id,.onClientConnect) from rfl)]
    refine h.posted.act ?_
    rw [hunknown]
    rfl
  · intro w' c' hfind' hpending'
    rcases find_set_iff.mp hfind' with ⟨-,rfl⟩ | ⟨hne,hold⟩
    · cases hpending'
    · obtain ⟨hw,hid⟩ := hother w' c' hne hold
      rw [hw,hid]
      exact h.pending w' c' hold hpending'
  · intro w' c' hfind' hconnected
    rcases find_set_iff.mp hfind' with ⟨rfl,rfl⟩ | ⟨hne,hold⟩
    · exact ⟨Function.update_self _ _ _,Function.update_self _ _ _⟩
    · obtain ⟨hw,hid⟩ := hother w' c' hne hold
      rw [hw,hid]
      exact h.connected w' c' hold hconnected
  · intro w' hunseen
    obtain ⟨e,he,hsession⟩ := hrunning.seen hfind
    have hne : w' ≠ w := fun heq => hunseen e (List.mem_append_left [event] he) (heq ▸ hsession)
    rw [Function.update_of_ne hne]
    exact h.unseen w' fun e he => hunseen e (List.mem_append_left [event] he)
  · intro n hn
    obtain ⟨m,hm,hid⟩ := hrunning.consistent.drawn w c hfind
    have hne : ids.nth n ≠ c.id := by
      intro heq
      have hsame := ids.nth_injective (heq.trans hid)
      exact absurd hm (Nat.not_lt.mpr (hsame ▸ hn))
    rw [Function.update_of_ne hne]
    exact h.undrawn n hn

theorem Orderly.heard (h : Orderly ids events server writes calls) {w : Session} {c : Connection}
    (hfind : server.connections.find w = some c) (hconnected : c.status = .kConnected)
    (ec : StompServerError) (destination requestId message : Bytes) :
    Orderly ids (events ++ [event])
      (server.post (.onClientMessage ec c.id destination requestId message)) writes calls := by
  obtain ⟨-,hjoined⟩ := h.connected w c hfind hconnected
  have hidle := @Orderly.idle _ _ _ _ event _ _ _ h 0
  refine ⟨h.written,?_,hidle.pending,hidle.connected,hidle.unseen,hidle.undrawn⟩
  have hsame : Function.update calls c.id .joined = calls :=
    Function.update_eq_self_iff.mpr hjoined.symm
  rw [post,filterMap_client? (show _ = some (c.id,.onClientMessage) from rfl),← hsame]
  refine h.posted.act ?_
  rw [hjoined]
  rfl

theorem Orderly.lost (h : Orderly ids events server writes calls)
    (hrunning : Running ids events server) {w : Session} {c : Connection} (ec : StompServerError)
    (hfind : server.connections.find w = some c) :
    ∃ calls', Orderly ids (events ++ [event]) {server with
      sessions := server.sessions.erase c.id
      connections := server.connections.erase w
      posted := server.posted ++
        if c.status = .kConnected then [.onClientDisconnect ec c.id] else []} writes calls' := by
  have hidle := @Orderly.idle _ _ _ _ event _ _ _ h 0
  by_cases hconnected : c.status = .kConnected
  · obtain ⟨-,hjoined⟩ := h.connected w c hfind hconnected
    have hother : ∀ w' c', (server.connections.erase w).find w' = some c' →
        server.connections.find w' = some c' ∧
          Function.update calls c.id .left c'.id = calls c'.id := by
      intro w' c' hfind'
      obtain ⟨hne,hold⟩ := find_erase_iff.mp hfind'
      refine ⟨hold,Function.update_of_ne ?_ _ _⟩
      exact fun hid => hne (hrunning.consistent.session_unique hfind hold hid.symm)
    refine ⟨Function.update calls c.id .left,h.written,?_,?_,?_,hidle.unseen,?_⟩
    · rw [if_pos hconnected,
        filterMap_client? (show _ = some (c.id,.onClientDisconnect) from rfl)]
      refine h.posted.act ?_
      rw [hjoined]
      rfl
    · intro w' c' hfind'
      obtain ⟨hold,hid⟩ := hother w' c' hfind'
      rw [hid]
      exact h.pending w' c' hold
    · intro w' c' hfind'
      obtain ⟨hold,hid⟩ := hother w' c' hfind'
      rw [hid]
      exact h.connected w' c' hold
    · intro n hn
      have hne : ids.nth n ≠ c.id := by
        intro heq
        have hunknown := h.undrawn n hn
        rw [heq,hjoined] at hunknown
        cases hunknown
      rw [Function.update_of_ne hne]
      exact h.undrawn n hn
  · refine ⟨calls,h.written,?_,?_,?_,hidle.unseen,h.undrawn⟩
    · rw [if_neg hconnected,List.append_nil]
      exact h.posted
    · exact fun w' c' hfind' => h.pending w' c' (find_erase_iff.mp hfind').2
    · exact fun w' c' hfind' => h.connected w' c' (find_erase_iff.mp hfind').2

theorem Orderly.stopped (h : Orderly ids events server writes calls)
    (hrunning : Running ids events server) :
    ∃ writes', Orderly ids (events ++ [event]) server.stop writes' calls := by
  let keys := server.connections.entries.map Prod.fst
  have hidle := @Orderly.idle _ _ _ _ event _ _ _ h 0
  refine ⟨fun w => if w ∈ keys then .closed else writes w,?_,h.posted,?_,?_,?_,h.undrawn⟩
  · rw [stop_written]
    refine h.written.append fun w => ?_
    rw [actionsOf_map_const]
    by_cases hmem : w ∈ keys
    · obtain ⟨n,hn⟩ := Nat.exists_eq_succ_of_ne_zero (List.count_pos_iff.mpr hmem).ne'
      rw [hn,if_pos hmem]
      exact run_closes n _
    · rw [List.count_eq_zero.mpr hmem,if_neg hmem]
      rfl
  · exact fun w c hfind => by simp [stop] at hfind
  · exact fun w c hfind => by simp [stop] at hfind
  · intro w hunseen
    have hmem : w ∉ keys := by
      intro hkey
      have hsome : server.connections.find w ≠ none :=
        fun hnone => (server.connections.find_eq_none_iff.mp hnone) hkey
      obtain ⟨c,hfind⟩ := Option.ne_none_iff_exists'.mp hsome
      obtain ⟨e,he,hsession⟩ := hrunning.seen hfind
      exact hunseen e (List.mem_append_left [event] he) hsession
    simp only [hmem,if_false]
    exact hidle.unseen w hunseen

theorem Orderly.step (h : Orderly ids events server writes calls)
    (hrunning : Running ids events server) (hfirst : AnnouncedFirst (events ++ [event]))
    (hchange : Change ids event server server') :
    ∃ writes' calls', Orderly ids (events ++ [event]) server' writes' calls' := by
  have hearlier : ∀ {w : Session} {c : Connection}, server.connections.find w = some c →
      ∃ e ∈ events ++ [event], e.session? = some w := by
    intro w c hfind
    obtain ⟨e,he,hsession⟩ := hrunning.seen hfind
    exact ⟨e,List.mem_append_left [event] he,hsession⟩
  cases hchange with
  | silent n => exact ⟨writes,calls,h.idle n⟩
  | refused w hnew hsession =>
    refine ⟨_,calls,h.write ⟨event,by simp,hsession⟩ [.close] .closed rfl rfl rfl
      le_rfl (fun _ _ _ hfind => hfind) ?_⟩
    intro c hfind
    rw [show server.connections.find w = some c from hfind] at hnew
    cases hnew
  | entered w hnew hannounced =>
    exact ⟨writes,calls,h.entered (hfirst.fresh hannounced)⟩
  | dropped w c frames hfind hframes =>
    refine ⟨_,calls,h.write (hearlier hfind) _ _ (run_dropped (h.open hrunning hfind) hframes)
      rfl rfl le_rfl (fun _ _ _ hfind' => (find_erase_iff.mp hfind').2) ?_⟩
    exact fun c' hfind' => absurd rfl (find_erase_iff.mp hfind').1
  | accepted w c frame text hfind hpending hdelivers hhandshake htext =>
    exact ⟨_,_,h.accepted hrunning hfind hpending htext⟩
  | heard w c frame hfind hconnected => exact ⟨writes,calls,h.heard hfind hconnected _ _ _ _⟩
  | lost w c ec hfind => exact ⟨writes,h.lost hrunning ec hfind⟩
  | sent w c text n hfind hconnected htext =>
    obtain ⟨htalking,hjoined⟩ := h.connected w c hfind hconnected
    refine ⟨_,calls,h.write (hearlier hfind) [.send text] .talking ?_ rfl rfl
      (Nat.le_add_right _ n) (fun _ _ _ hfind' => hfind') ?_⟩
    · rw [htalking,Protocol.run_singleton]
      simp only [frameProtocol,htext]
    · intro c' hfind'
      obtain rfl : c = c' := Option.some.inj (hfind.symm.trans hfind')
      exact ⟨hconnected,rfl,hjoined⟩
  | stopped =>
    obtain ⟨writes',hstopped⟩ := h.stopped hrunning
    exact ⟨writes',calls,hstopped⟩
  | ended ec =>
    have hidle := @Orderly.idle _ _ _ _ event _ _ _ h 0
    refine ⟨writes,calls,h.written,?_,hidle.pending,hidle.connected,hidle.unseen,hidle.undrawn⟩
    rw [post,List.filterMap_append,List.filterMap_cons_none rfl,List.filterMap_nil,List.append_nil]
    exact h.posted

theorem run_orderly (hfirst : AnnouncedFirst events)
    (hrun : (started kHost).run ids events = some server) :
    Running ids events server ∧ ∃ writes calls, Orderly ids events server writes calls := by
  obtain ⟨hrunning,horderly⟩ := @run_induction _ _ ids server kHost
    (fun events server => AnnouncedFirst events →
      ∃ writes calls, Orderly ids events server writes calls)
    (fun _ => ⟨_,_,orderly_started ids kHost⟩)
    (fun events event server server' _ hrunning hmotive _ _ hchange hfirst => by
      obtain ⟨writes,calls,h⟩ := hmotive hfirst.left
      exact h.step hrunning hfirst hchange) events hfirst.once hrun
  exact ⟨hrunning,horderly hfirst⟩

/-! The handshakes. -/

theorem Change.kHost_eq (hchange : Change ids event server server') :
    server'.kHost = server.kHost := by
  cases hchange <;> rfl

theorem Change.framesTo_cases (hchange : Change ids event server server') {w : Session}
    (hmem : .kConnected ∈ server'.framesTo w) :
    .kConnected ∈ server.framesTo w ∨
      ∃ frame, event.Delivers w frame ∧ Handshake server.kHost frame := by
  cases hfind : server.connections.find w with
  | none =>
    rw [hchange.framesTo_eq hfind] at hmem
    exact Or.inl hmem
  | some c =>
    have hother : ∀ (w' : Session) (actions : List SessionAction),
        (w' = w → .kConnected ∉ actions.filterMap sentCommand) →
          .kConnected ∈ (actionsOf (server.written ++ actions.map fun a => (w',a)) w).filterMap
            sentCommand → .kConnected ∈ server.framesTo w := by
      intro w' actions hnot hmem
      rw [actionsOf_append,List.filterMap_append,List.mem_append] at hmem
      refine hmem.resolve_right fun hnew => ?_
      by_cases heq : w' = w
      · rw [heq,actionsOf_self] at hnew
        exact hnot heq hnew
      · rw [actionsOf_ne heq] at hnew
        cases hnew
    cases hchange with
    | silent n => exact Or.inl hmem
    | refused w' => exact Or.inl (hother w' [.close] (fun _ => by simp [sentCommand]) hmem)
    | entered w' => exact Or.inl hmem
    | dropped w' c' frames hfind' hframes =>
      refine Or.inl (hother w' _ (fun _ => ?_) hmem)
      rcases hframes with rfl | ⟨text,rfl,htext⟩
      · simp [sentCommand]
      · simp [sentCommand,htext]
    | accepted w' c' frame text hfind' hpending hdelivers hhandshake htext =>
      by_cases heq : w' = w
      · exact Or.inr ⟨frame,heq ▸ hdelivers,hhandshake⟩
      · exact Or.inl (hother w' [.send text] (fun h => absurd h heq) hmem)
    | heard w' c' => exact Or.inl hmem
    | lost w' c' => exact Or.inl hmem
    | sent w' c' text n hfind' hconnected htext =>
      exact Or.inl (hother w' [.send text] (fun _ => by simp [sentCommand,htext]) hmem)
    | stopped => exact Or.inl (framesTo_stop server w ▸ hmem)
    | ended ec => exact Or.inl hmem

theorem Change.callbacksFor_cases (hchange : Change ids event server server')
    (h : Orderly ids events server writes calls) (hserver : Consistent ids server) {id : Bytes}
    (hnew : server'.callbacksFor id ≠ []) (hold : server.callbacksFor id = []) :
    ∃ w, server'.sessions.find id = some w ∧ .kConnected ∈ server'.framesTo w := by
  have hconnected : ∀ w c, server.connections.find w = some c → c.status = .kConnected →
      c.id ≠ id := by
    rintro w c hfind hstatus rfl
    have hjoined := (h.connected w c hfind hstatus).2
    have hrun := h.posted c.id
    rw [show actionsOf _ c.id = [] from hold,Protocol.run_nil,hjoined] at hrun
    cases hrun
  cases hchange with
  | silent n => exact absurd hold hnew
  | refused w => exact absurd hold hnew
  | entered w => exact absurd hold hnew
  | dropped w c => exact absurd hold hnew
  | accepted w c frame text hfind hpending hdelivers hhandshake htext =>
    by_cases heq : c.id = id
    · refine ⟨w,(hserver.sessions_iff id w).mpr ⟨c,hfind,heq⟩,?_⟩
      rw [framesTo,actionsOf_append,List.filterMap_append]
      simp [actionsOf,sentCommand,htext]
    · exact absurd ((actionsOf_client?_ne rfl heq server.posted).trans hold) hnew
  | heard w c frame hfind hstatus =>
    exact absurd ((actionsOf_client?_ne rfl (hconnected w c hfind hstatus) _).trans hold) hnew
  | lost w c ec hfind =>
    rw [callbacksFor] at hnew
    by_cases hstatus : c.status = .kConnected
    · rw [if_pos hstatus] at hnew
      exact absurd ((actionsOf_client?_ne rfl (hconnected w c hfind hstatus) _).trans hold) hnew
    · rw [if_neg hstatus,List.append_nil] at hnew
      exact absurd hold hnew
  | sent w c => exact absurd hold hnew
  | stopped => exact absurd hold hnew
  | ended ec =>
    rw [callbacksFor,post,List.filterMap_append,List.filterMap_cons_none rfl,List.filterMap_nil,
      List.append_nil] at hnew
    exact absurd hold hnew

/-- Answers and callbacks go back to a handshake with the right version and host. -/
structure FollowsHandshakes (ids : IdGenerator) (kHost : Bytes) (events : List (ServerEvent Session))
    (server : StompServer Session) : Prop where
  delivered : ∀ w, .kConnected ∈ server.framesTo w →
    ∃ frame, (∃ event ∈ events, event.Delivers w frame) ∧ Handshake kHost frame
  answered : ∀ id, server.callbacksFor id ≠ [] → ∃ before after earlier w, events = before ++ after ∧
    (started kHost).run ids before = some earlier ∧ earlier.sessions.find id = some w ∧
      .kConnected ∈ earlier.framesTo w

theorem run_followsHandshakes (hfirst : AnnouncedFirst events)
    (hrun : (started kHost).run ids events = some server) :
    FollowsHandshakes ids kHost events server := by
  refine (run_induction (motive := fun events server => AnnouncedFirst events →
    server.kHost = kHost ∧ FollowsHandshakes ids kHost events server) ?_ ?_ hfirst.once hrun).2
      hfirst |>.2
  · intro _
    refine ⟨rfl,fun w hmem => ?_,fun id hne => absurd rfl hne⟩
    cases hmem
  · intro events event server server' hrun hrunning hmotive honce hperform hchange hfirst
    obtain ⟨hhost,hdelivered,hanswered⟩ := hmotive hfirst.left
    refine ⟨hchange.kHost_eq.trans hhost,?_,?_⟩
    · intro w hmem
      rcases hchange.framesTo_cases hmem with hold | ⟨frame,hdelivers,hhandshake⟩
      · obtain ⟨frame,⟨e,he,hdelivers⟩,hhandshake⟩ := hdelivered w hold
        exact ⟨frame,⟨e,List.mem_append_left [event] he,hdelivers⟩,hhandshake⟩
      · exact ⟨frame,⟨event,by simp,hdelivers⟩,hhost ▸ hhandshake⟩
    · intro id hne
      by_cases hold : server.callbacksFor id = []
      · obtain ⟨-,writes,calls,horderly⟩ := run_orderly hfirst.left hrun
        obtain ⟨w,hsession,hmem⟩ := hchange.callbacksFor_cases horderly hrunning.consistent hne hold
        refine ⟨events ++ [event],[],server',w,by simp,?_,hsession,hmem⟩
        rw [run_append,hrun,Option.bind_some,run_singleton,hperform]
      · obtain ⟨before,after,earlier,w,rfl,hearlier,hsession,hmem⟩ := hanswered id hold
        exact ⟨before,after ++ [event],earlier,w,by simp,hearlier,hsession,hmem⟩

/-! The order of a whole run. -/

/-- A session that the server has closed or that has disconnected. -/
def Closed (events : List (ServerEvent Session)) (server : StompServer Session) (w : Session) : Prop :=
  (w,.close) ∈ server.written ∨ ∃ ec, .sessionDisconnect ec w ∈ events

theorem gone_of_closed (hfirst : AnnouncedFirst events)
    (hrun : (started kHost).run ids events = some server) {w : Session}
    (hclosed : Closed events server w) : Gone events server w := by
  rcases hclosed with hclose | ⟨ec,hdisconnect⟩
  · obtain ⟨hrunning,writes,calls,h⟩ := run_orderly hfirst hrun
    have hphase := (frameProtocol_run (h.written w)).2.2 (mem_actionsOf.mpr hclose)
    refine ⟨?_,?_⟩
    · by_contra hunseen
      rw [h.unseen w fun e he hsession => hunseen ⟨e,he,hsession⟩] at hphase
      cases hphase
    · by_contra hsome
      obtain ⟨c,hfind⟩ := Option.ne_none_iff_exists'.mp hsome
      rcases h.open hrunning hfind with hopen | hopen
      · rw [hopen] at hphase
        cases hphase
      · rw [hopen] at hphase
        cases hphase
  · refine ⟨⟨_,hdisconnect,rfl⟩,?_⟩
    obtain ⟨before,after,rfl⟩ := List.append_of_mem hdisconnect
    rw [← List.singleton_append,← List.append_assoc,run_append,Option.bind_eq_some_iff] at hrun
    rw [← List.singleton_append,← List.append_assoc] at hfirst
    obtain ⟨next,hnext,hrest⟩ := hrun
    have hnone : next.connections.find w = none := by
      rw [run_append,Option.bind_eq_some_iff] at hnext
      obtain ⟨earlier,-,hlast⟩ := hnext
      rw [run_singleton] at hlast
      rw [← Option.some.inj hlast,onWsSessionDisconnect]
      cases hfind : earlier.connections.find w with
      | none => exact hfind
      | some c =>
        simp only
        split_ifs <;> simp [post,UnorderedMap.find_erase]
    have hgone : Gone (before ++ [.sessionDisconnect ec w]) next w :=
      ⟨⟨_,List.mem_append_right before List.mem_cons_self,rfl⟩,hnone⟩
    obtain ⟨hrunning,-⟩ := run_orderly hfirst.left hnext
    rw [← hnone]
    refine run_constant (f := fun server => server.connections.find w)
      (motive := fun events server => Gone events server w) ?_ hrunning hgone hfirst hrest
    intro events event server server' hgone hfirst hchange
    have hgone' := hgone.step hfirst hchange
    exact ⟨hgone',hgone'.2.trans hgone.2.symm⟩

structure InOrder (ids : IdGenerator) (kHost : Bytes) (events : List (ServerEvent Session))
    (server : StompServer Session) : Prop extends FollowsHandshakes ids kHost events server where
  frames : ∀ w, FrameOrder (server.framesTo w)
  closes : ∀ w, SilentAfterClose (actionsOf server.written w)
  callbacks : ∀ id, CallbackOrder (server.callbacksFor id)
  gone : ∀ before after earlier, events = before ++ after →
    (started kHost).run ids before = some earlier → ∀ w, Closed before earlier w →
      server.framesTo w = earlier.framesTo w
  forgotten : ∀ before after earlier, events = before ++ after →
    (started kHost).run ids before = some earlier → ∀ id, Forgotten ids earlier id →
      server.callbacksFor id = earlier.callbacksFor id

/-- In every run, each session is written to and each connection is spoken of in order. -/
theorem inOrder_of_run (ids : IdGenerator) (kHost : Bytes) (events : List (ServerEvent Session))
    (hfirst : AnnouncedFirst events) (hrun : (started kHost).run ids events = some server) :
    InOrder ids kHost events server := by
  obtain ⟨hrunning,writes,calls,h⟩ := run_orderly hfirst hrun
  refine ⟨run_followsHandshakes hfirst hrun,?_,?_,?_,?_,?_⟩
  · exact fun w => (frameProtocol_run (h.written w)).1.frameOrder
  · exact fun w => (frameProtocol_run (h.written w)).2.1
  · exact fun id => (callProtocol_posted (h.posted id)).callbackOrder
  · rintro before after earlier rfl hearlier w hclosed
    rw [run_append,hearlier,Option.bind_some] at hrun
    refine run_constant (f := fun server => server.framesTo w)
      (motive := fun events server => Gone events server w) ?_
      (run_orderly hfirst.left hearlier).1 (gone_of_closed hfirst.left hearlier hclosed) hfirst hrun
    exact fun _ _ _ _ hgone hfirst hchange =>
      ⟨hgone.step hfirst hchange,hchange.framesTo_eq hgone.2⟩
  · rintro before after earlier rfl hearlier id hforgotten
    rw [run_append,hearlier,Option.bind_some] at hrun
    refine run_constant (f := fun server => server.callbacksFor id)
      (motive := fun _ server => Forgotten ids server id) ?_
      (run_orderly hfirst.left hearlier).1 hforgotten hfirst hrun
    exact fun _ _ _ _ hforgotten _ hchange =>
      ⟨hforgotten.step hchange,hchange.callbacksFor_eq hforgotten.2⟩

theorem inOrder_twoClients : ∃ server, (started (ascii "localhost")).run .simple twoClients =
    some server ∧ InOrder .simple (ascii "localhost") twoClients server := by
  have hsome : ((started (ascii "localhost")).run .simple twoClients).isSome := by decide +kernel
  obtain ⟨server,hrun⟩ := Option.isSome_iff_exists.mp hsome
  exact ⟨server,hrun,inOrder_of_run .simple (ascii "localhost") twoClients (by decide +kernel) hrun⟩

end StompServer
end QuietRoute
