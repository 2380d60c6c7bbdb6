import QuietRoute.Stomp.ServerRuns

/-! What a client gets that violates the protocol: an ERROR frame, and its session is closed. The
frame names the same error whatever the violation was. -/
namespace QuietRoute
namespace StompServer

open StompFrame

variable {Session : Type} [DecidableEq Session] {ids : IdGenerator} {unspecified : Unspecified}
  {server server' : StompServer Session} {w : Session} {c : Connection} {msg : Bytes}
  {error reported : StompServerError}

/-- A message violates the protocol, and the error that stands for it. -/
inductive Violates (unspecified : Unspecified) (kHost : Bytes) (c : Connection) (msg : Bytes) :
    StompServerError → Prop
  | unparsable (h : ∀ frame, ofString unspecified.uninitialised msg ≠ some (.kOk,frame)) :
      Violates unspecified kHost c msg .kCouldNotParseFrame
  | unsupported {frame : StompFrame} (h : ofString unspecified.uninitialised msg = some (.kOk,frame))
      (hstomp : frame.command ≠ .kStomp) (hsend : frame.command ≠ .kSend) :
      Violates unspecified kHost c msg .kUnsupportedFrame
  | version {frame : StompFrame} (h : ofString unspecified.uninitialised msg = some (.kOk,frame))
      (hstomp : frame.command = .kStomp) (hversion : frame.getHeaderValue .kAcceptVersion ≠ kVersion) :
      Violates unspecified kHost c msg .kInvalidHeaderValueAcceptVersion
  | host {frame : StompFrame} (h : ofString unspecified.uninitialised msg = some (.kOk,frame))
      (hstomp : frame.command = .kStomp) (hversion : frame.getHeaderValue .kAcceptVersion = kVersion)
      (hhost : frame.getHeaderValue .kHost ≠ kHost) :
      Violates unspecified kHost c msg .kInvalidHeaderValueHost
  | reconnect {frame : StompFrame} (h : ofString unspecified.uninitialised msg = some (.kOk,frame))
      (hhandshake : Handshake kHost frame) (hconnected : c.status = .kConnected) :
      Violates unspecified kHost c msg .kClientCannotReconnect

def NamesError (text : Bytes) (error : StompServerError) : Prop :=
  ∀ uninitialised, ∃ frame, ofString uninitialised text = some (.kOk,frame) ∧
    frame.command = .kError ∧ frame.body = error.toString

/-- One ERROR frame and the close of the session, which is forgotten, and nothing else. -/
structure Answers (server server' : StompServer Session) (w : Session) (error : StompServerError) :
    Prop where
  written : ∃ text, server'.written = server.written ++ [(w,.send text),(w,.close)] ∧
    NamesError text error
  connection_gone : server'.connections.find w = none
  session_gone : ∀ id, server'.sessions.find id ≠ some w
  connections_kept : ∀ w', w' ≠ w → server'.connections.find w' = server.connections.find w'
  sessions_kept : ∀ w', w' ≠ w → ∀ id,
    server'.sessions.find id = some w' ↔ server.sessions.find id = some w'
  posted_kept : server'.posted = server.posted

/-! The frame that names an error. -/

theorem errorStrings_spec : (gStompServerErrorStrings.map Prod.snd).Nodup ∧
    ∀ e ∈ gStompServerErrorStrings, null ∉ e.2 ∧ e.2.length < 2^64 := by decide +kernel

theorem mem_errorStrings (error : StompServerError) :
    (error,error.toString) ∈ gStompServerErrorStrings := by
  cases error <;> simp [StompServerError.toString,gStompServerErrorStrings]

theorem toString_injective : Function.Injective StompServerError.toString := by
  intro error error' heq
  have hentry := List.inj_on_of_nodup_map errorStrings_spec.1 (mem_errorStrings error)
    (mem_errorStrings error') heq
  exact congrArg Prod.fst hentry

theorem errorHeaders_nodup : [StompHeader.kContentType,.kVersion].Nodup := by decide

def errorHeaders : Headers :=
  ⟨[(.kContentType,ascii "text/plain"),(.kVersion,kVersion)],errorHeaders_nodup⟩

theorem errorHeaders_legal (error : StompServerError) :
    LegalComponents .kError errorHeaders error.toString := by
  have hspec := errorStrings_spec.2 _ (mem_errorStrings error)
  refine .of_headers (by decide) ?_ (by simp [requiredHeaders]) (by simp) hspec.1 hspec.2
  intro h hmem
  simp only [List.mem_cons,List.not_mem_nil,or_false] at hmem
  rcases hmem with rfl | rfl
  · exact ⟨by decide,by decide +kernel,by decide +kernel⟩
  · exact ⟨by decide,by decide +kernel,by decide +kernel⟩

theorem makeErrorFrame_eq (unspecified : Unspecified) (error : StompServerError) :
    makeErrorFrame unspecified error =
      frameOf (plainText .kError (unspecified.arrange errorHeaders) error.toString) .kError
        (unspecified.arrange errorHeaders).entries error.toString := by
  have hlegal := errorHeaders_legal error
  rw [errorHeaders] at hlegal ⊢
  rw [makeErrorFrame,hlegal.assemble_eq]

theorem ofString_makeErrorFrame (n : ℕ) (unspecified : Unspecified) (error : StompServerError) :
    ofString n (makeErrorFrame unspecified error).plain =
      some (.kOk,makeErrorFrame unspecified error) := by
  have hread := @LegalComponents.ofString_eq n _ _ _ ((errorHeaders_legal error).arrange unspecified) 0
  rw [List.replicate_zero,List.append_nil] at hread
  rw [makeErrorFrame_eq]
  exact hread

theorem namesError_makeErrorFrame : NamesError (makeErrorFrame unspecified reported).plain error ↔
    reported = error := by
  have hbody : (makeErrorFrame unspecified reported).body = reported.toString := by
    rw [makeErrorFrame_eq]
    rfl
  constructor
  · intro hnames
    obtain ⟨frame,hread,-,hnamed⟩ := hnames 0
    rw [ofString_makeErrorFrame] at hread
    obtain ⟨-,rfl⟩ := Prod.mk.inj (Option.some.inj hread)
    exact toString_injective (hbody.symm.trans hnamed)
  · rintro rfl n
    refine ⟨_,ofString_makeErrorFrame n unspecified reported,?_,hbody⟩
    rw [makeErrorFrame_eq]
    rfl

/-! Every violation leads to the same closing. -/

theorem Violates.unsupported_iff {kHost : Bytes} (h : Violates unspecified kHost c msg error) :
    (∃ frame, ofString unspecified.uninitialised msg = some (.kOk,frame) ∧ frame.command ≠ .kStomp ∧
      frame.command ≠ .kSend) ↔ error = .kUnsupportedFrame := by
  have hframe : ∀ frame, ofString unspecified.uninitialised msg = some (.kOk,frame) →
      frame.command = .kStomp →
      ¬∃ frame, ofString unspecified.uninitialised msg = some (.kOk,frame) ∧
        frame.command ≠ .kStomp ∧ frame.command ≠ .kSend := by
    rintro frame hread hstomp ⟨frame',hread',hne,-⟩
    rw [hread] at hread'
    obtain ⟨-,rfl⟩ := Prod.mk.inj (Option.some.inj hread')
    exact hne hstomp
  cases h with
  | unparsable h =>
    refine iff_of_false ?_ (by decide)
    rintro ⟨frame,hread,-⟩
    exact h frame hread
  | @unsupported frame h hstomp hsend => exact iff_of_true ⟨frame,h,hstomp,hsend⟩ rfl
  | version h hstomp hversion => exact iff_of_false (hframe _ h hstomp) (by decide)
  | host h hstomp hversion hhost => exact iff_of_false (hframe _ h hstomp) (by decide)
  | reconnect h hhandshake hconnected =>
    exact iff_of_false (hframe _ h hhandshake.command_eq) (by decide)

theorem Violates.ne_undefined {kHost : Bytes} (h : Violates unspecified kHost c msg error) :
    error ≠ .kUndefinedError := by
  cases h <;> decide

/-- Unless the parser throws, the connection is closed for the error of the violation. -/
theorem onWsSessionMessage_of_violates (hfind : server.connections.find w = some c)
    (hviolates : Violates unspecified server.kHost c msg error)
    (hreturns : ofString unspecified.uninitialised msg ≠ none) :
    server.onWsSessionMessage unspecified false w msg =
      some (server.closeConnection unspecified c w error) := by
  cases hviolates with
  | unparsable h =>
    obtain ⟨⟨ec,frame⟩,hread⟩ := Option.ne_none_iff_exists'.mp hreturns
    have hec : ec ≠ .kOk := by
      rintro rfl
      exact h frame hread
    simp [onWsSessionMessage,hfind,hread,hec]
  | @unsupported frame h hstomp hsend =>
    simp only [onWsSessionMessage,hfind,h]
    rcases frame with ⟨plain,command,headers,body⟩
    cases command <;> first | rfl | contradiction
  | version h hstomp hversion => simp [onWsSessionMessage,hfind,h,hstomp,handleStomp,hversion]
  | host h hstomp hversion hhost =>
    simp [onWsSessionMessage,hfind,h,hstomp,handleStomp,hversion,hhost]
  | reconnect h hhandshake hconnected =>
    simp [onWsSessionMessage,hfind,h,hhandshake.command_eq,handleStomp,hhandshake.version_eq,
      hhandshake.host_eq,hconnected]

theorem closeConnection_written (herror : error ≠ .kUndefinedError) :
    (server.closeConnection unspecified c w error).written = server.written ++
      [(w,.send (makeErrorFrame unspecified .kUnsupportedFrame).plain),(w,.close)] := by
  simp [closeConnection,herror,write]

theorem closeConnection_sessions :
    (server.closeConnection unspecified c w error).sessions = server.sessions.erase c.id := by
  rw [closeConnection]
  split_ifs <;> rfl

theorem closeConnection_answers_iff (hserver : Consistent ids server)
    (hfind : server.connections.find w = some c) (herror : error ≠ .kUndefinedError) :
    Answers server (server.closeConnection unspecified c w error) w reported ↔
      reported = .kUnsupportedFrame := by
  have hid : ∀ id w', server.sessions.find id = some w' → (c.id = id ↔ w' = w) := by
    intro id w' hsession
    obtain ⟨c',hfind',rfl⟩ := (hserver.sessions_iff id w').mp hsession
    constructor
    · intro hid
      exact (hserver.session_unique hfind hfind' hid).symm
    · rintro rfl
      rw [Option.some.inj (hfind.symm.trans hfind')]
  constructor
  · intro hanswers
    obtain ⟨text,hwritten,hnames⟩ := hanswers.written
    rw [closeConnection_written herror] at hwritten
    obtain ⟨hsend,-⟩ := List.cons.inj (List.append_cancel_left hwritten)
    rw [← SessionAction.send.inj (Prod.mk.inj hsend).2] at hnames
    exact (namesError_makeErrorFrame.mp hnames).symm
  · rintro rfl
    refine ⟨⟨_,closeConnection_written herror,namesError_makeErrorFrame.mpr rfl⟩,?_,?_,?_,?_,?_⟩
    · rw [closeConnection_connections,UnorderedMap.find_erase,if_pos rfl]
    · intro id hsession
      rw [closeConnection_sessions,UnorderedMap.find_erase] at hsession
      split_ifs at hsession with heq
      exact heq ((hid id w hsession).mpr rfl)
    · intro w' hne
      rw [closeConnection_connections,UnorderedMap.find_erase,if_neg (Ne.symm hne)]
    · intro w' hne id
      rw [closeConnection_sessions,UnorderedMap.find_erase]
      split_ifs with heq
      · refine iff_of_false (by simp) fun hsession => ?_
        exact hne ((hid id w' hsession).mp heq)
      · rfl
    · exact closeConnection_posted c w error

/-- In every run a violation is answered for what it was exactly if it is a frame with a command
that the server does not support. -/
theorem violation_answered_iff {kHost : Bytes} {events : List (ServerEvent Session)}
    (honce : AnnouncedOnce events) (hrun : (started kHost).run ids events = some server)
    (hfind : server.connections.find w = some c)
    (hviolates : Violates unspecified server.kHost c msg error) :
    (∃ server', server.onWsSessionMessage unspecified false w msg = some server' ∧
        Answers server server' w error) ↔
      ∃ frame, ofString unspecified.uninitialised msg = some (.kOk,frame) ∧
        frame.command ≠ .kStomp ∧ frame.command ≠ .kSend := by
  have hserver := (running_of_run honce hrun).consistent
  rw [hviolates.unsupported_iff]
  by_cases hreturns : ofString unspecified.uninitialised msg = none
  · have hnone : server.onWsSessionMessage unspecified false w msg = none := by
      simp [onWsSessionMessage,hfind,hreturns]
    have hother : error ≠ .kUnsupportedFrame := by
      rw [ne_eq,← hviolates.unsupported_iff,hreturns]
      rintro ⟨frame,hread,-⟩
      cases hread
    simp [hnone,hother]
  · rw [onWsSessionMessage_of_violates hfind hviolates hreturns,
      ← @closeConnection_answers_iff _ _ _ unspecified _ _ _ _ _ hserver hfind
        hviolates.ne_undefined]
    simp only [Option.some.injEq,exists_eq_left']

/-- A `DISCONNECT` frame is answered as an unsupported one, as it is. -/
theorem violation_answered_disconnect : ∃ server',
    ((started (ascii "localhost") : StompServer ℕ).onWsSessionConnect .simple false
      0).onWsSessionMessage 0 false 0 (ascii "DISCONNECT\n\n\x00") = some server' ∧
    Answers ((started (ascii "localhost") : StompServer ℕ).onWsSessionConnect .simple false 0)
      server' 0 .kUnsupportedFrame := by
  have hnull : NullDelimited (ascii "DISCONNECT\n\n\x00") .kDisconnect [] [] :=
    ⟨⟨by decide,by simp,0,by decide +kernel⟩,by simp [HasRequired,requiredHeaders],List.not_mem_nil⟩
  have hread : ofString (0 : Unspecified).uninitialised (ascii "DISCONNECT\n\n\x00") =
      some (.kOk,frameOf (ascii "DISCONNECT\n\n\x00") .kDisconnect [] []) :=
    ofString_ok_iff.mpr ⟨_,[],[],(readable_iff_nullDelimited (by decide +kernel)).mpr hnull,rfl⟩
  have hfind : ((started (ascii "localhost") : StompServer ℕ).onWsSessionConnect .simple false
      0).connections.find 0 = some ⟨ascii "a",.kPending⟩ := rfl
  have hiff := @violation_answered_iff ℕ _ .simple 0 _ 0 _ _ _ (ascii "localhost")
    [.sessionConnect false 0] (by decide) rfl hfind (.unsupported hread (by decide) (by decide))
  exact hiff.mpr ⟨_,hread,by decide,by decide⟩

/-- A message that is no frame is answered as an unsupported one. -/
theorem unparsable_misnamed : ¬∀ (ids : IdGenerator) (kHost : Bytes) (events : List (ServerEvent ℕ))
    (server : StompServer ℕ) (unspecified : Unspecified) (w : ℕ) (c : Connection) (msg : Bytes)
    (error : StompServerError), AnnouncedOnce events →
      (started kHost).run ids events = some server → server.connections.find w = some c →
      Violates unspecified server.kHost c msg error →
      ∃ server', server.onWsSessionMessage unspecified false w msg = some server' ∧
        Answers server server' w error := by
  intro hclaim
  have hread : ofString (0 : Unspecified).uninitialised [] =
      some (.kParsingMissingEolAfterCommand,.default) := rfl
  have hviolates : Violates 0 (ascii "localhost") ⟨ascii "a",.kPending⟩ [] .kCouldNotParseFrame := by
    refine .unparsable fun frame hok => ?_
    rw [hread] at hok
    cases hok
  have hrun : (started (ascii "localhost")).run .simple [.sessionConnect false 0] =
      some ((started (ascii "localhost")).onWsSessionConnect .simple false 0) := rfl
  have hserver := (running_of_run (by decide) hrun).consistent
  obtain ⟨server',hmessage,hanswers⟩ := hclaim .simple (ascii "localhost") [.sessionConnect false 0]
    _ 0 0 ⟨ascii "a",.kPending⟩ [] .kCouldNotParseFrame (by decide) hrun rfl hviolates
  rw [onWsSessionMessage_of_violates rfl hviolates (by simp [hread])] at hmessage
  rw [← Option.some.inj hmessage,closeConnection_answers_iff hserver rfl (by decide)] at hanswers
  cases hanswers

end StompServer
end QuietRoute
