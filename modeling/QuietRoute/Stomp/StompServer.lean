import QuietRoute.Stomp.FrameComponents

/-! The STOMP server over WebSocket sessions. What it writes to sessions and the callbacks that it
posts for its user are recorded in order; all four user callbacks are set. -/
namespace QuietRoute

open StompFrame

inductive StompServerError
  | kOk | kUndefinedError | kClientCannotReconnect | kCouldNotCloseClientConnection
  | kCouldNotParseFrame | kCouldNotSendMessage | kCouldNotStartWebSocketServer
  | kInvalidHeaderValueAcceptVersion | kInvalidHeaderValueHost | kUnsupportedFrame
  | kWebSocketSessionDisconnected | kWebSocketServerDisconnected
  deriving DecidableEq

def gStompServerErrorStrings : List (StompServerError × Bytes) :=
  [(.kOk,ascii "Ok"),(.kUndefinedError,ascii "UndefinedError"),
    (.kClientCannotReconnect,ascii "ClientCannotReconnect"),
    (.kCouldNotCloseClientConnection,ascii "CouldNotCloseClientConnection"),
    (.kCouldNotParseFrame,ascii "CouldNotParseFrame"),
    (.kCouldNotSendMessage,ascii "CouldNotSendMessage"),
    (.kCouldNotStartWebSocketServer,ascii "CouldNotStartWebSocketServer"),
    (.kInvalidHeaderValueAcceptVersion,ascii "InvalidHeaderValueAcceptVersion"),
    (.kInvalidHeaderValueHost,ascii "InvalidHeaderValueHost"),
    (.kUnsupportedFrame,ascii "UnsupportedFrame"),
    (.kWebSocketSessionDisconnected,ascii "WebSocketSessionDisconnected"),
    (.kWebSocketServerDisconnected,ascii "WebSocketServerDisconnected")]

def StompServerError.toString (error : StompServerError) : Bytes :=
  ((gStompServerErrorStrings.find? fun e => e.1 = error).map Prod.snd).getD
    (ascii "UndefinedError")

inductive ConnectionStatus
  | kInvalid | kPending | kConnected
  deriving DecidableEq

structure Connection where
  id : Bytes
  status : ConnectionStatus
  deriving DecidableEq

/-- A call of a user callback that waits in the strand of the server. -/
inductive Callback
  | onClientConnect (ec : StompServerError) (id : Bytes)
  | onClientMessage (ec : StompServerError) (id destination requestId message : Bytes)
  | onClientDisconnect (ec : StompServerError) (id : Bytes)
  | onDisconnect (ec : StompServerError)
  deriving DecidableEq

inductive SessionAction
  | send (message : Bytes)
  | close
  deriving DecidableEq

/-- The random UUIDs in the order in which they are drawn: never one twice, and each a text on one
line. -/
structure IdGenerator where
  nth : ℕ → Bytes
  nth_injective : Function.Injective nth
  nth_ne_nil : ∀ n, nth n ≠ []
  newLine_not_mem_nth : ∀ n, newLine ∉ nth n

def IdGenerator.simple : IdGenerator where
  nth n := List.replicate (n+1) 97
  nth_injective m n h := by simpa using congrArg List.length h
  nth_ne_nil n := by simp
  newLine_not_mem_nth n h := absurd (List.eq_of_mem_replicate h) (by decide)

structure StompServer (Session : Type) where
  kHost : Bytes
  connections : UnorderedMap Session Connection
  sessions : UnorderedMap Bytes Session
  /-- How many ids were drawn. -/
  generated : ℕ
  posted : List Callback
  written : List (Session × SessionAction)

def kVersion : Bytes := ascii "1.2"

/-- `std::to_string` of a `size_t`. -/
def decimal (n : ℕ) : Bytes := ascii (toString n)

/-- The error frame, also where it turned out invalid. -/
def makeErrorFrame (unspecified : Unspecified) (error : StompServerError) : StompFrame :=
  (assemble unspecified .kError
    ⟨[(.kContentType,ascii "text/plain"),(.kVersion,kVersion)],by simp⟩ error.toString).2

namespace StompServer

variable {Session : Type} [DecidableEq Session]

def started (kHost : Bytes) : StompServer Session := ⟨kHost,.empty,.empty,0,[],[]⟩

def write (server : StompServer Session) (wsSession : Session) (action : SessionAction) :
    StompServer Session := {server with written := server.written ++ [(wsSession,action)]}

def post (server : StompServer Session) (callback : Callback) : StompServer Session :=
  {server with posted := server.posted ++ [callback]}

def generateId (ids : IdGenerator) (server : StompServer Session) : Bytes × StompServer Session :=
  (ids.nth server.generated,{server with generated := server.generated+1})

def closeConnection (unspecified : Unspecified) (server : StompServer Session) (connection : Connection)
    (wsSession : Session) (error : StompServerError) : StompServer Session :=
  let server := {server with
    sessions := server.sessions.erase connection.id
    connections := server.connections.erase wsSession}
  let server := if error ≠ .kUndefinedError then
      server.write wsSession (.send (makeErrorFrame unspecified .kUnsupportedFrame).plain)
    else server
  server.write wsSession .close

/-- Send a message to a client; the id of the request is empty when that failed. -/
def send (ids : IdGenerator) (unspecified : Unspecified) (server : StompServer Session)
    (connectionId destination messageContent userRequestId : Bytes) :
    Bytes × StompServer Session :=
  match server.sessions.find connectionId with
  | none => ([],server)
  | some wsSession =>
    match server.connections.find wsSession with
    | none => ([],server.write wsSession .close)
    | some connection =>
      if connection.status ≠ .kConnected then ([],server)
      else
        let (requestId,server) := if userRequestId = [] then server.generateId ids
          else (userRequestId,server)
        let (error,frame) := assemble unspecified .kSend
          ⟨[(.kId,requestId),(.kDestination,destination),
            (.kContentType,ascii "application/json"),
            (.kContentLength,decimal messageContent.length)],by simp⟩ messageContent
        if error ≠ .kOk then ([],server)
        else (requestId,server.write wsSession (.send frame.plain))

def close (unspecified : Unspecified) (server : StompServer Session) (connectionId : Bytes) :
    StompServer Session :=
  match server.sessions.find connectionId with
  | none => server
  | some wsSession =>
    match server.connections.find wsSession with
    | none => server.write wsSession .close
    | some connection =>
      server.closeConnection unspecified connection wsSession .kUndefinedError

/-- Close all connections, in the order in which the map is iterated over. -/
def stop (server : StompServer Session) : StompServer Session :=
  {server with
    connections := .empty
    sessions := .empty
    written := server.written ++ server.connections.entries.map fun e => (e.1,.close)}

/-- `ec` is whether there is an error. -/
def onWsSessionConnect (ids : IdGenerator) (server : StompServer Session) (ec : Bool)
    (wsSession : Session) : StompServer Session :=
  if ec then server.write wsSession .close
  else
    let (id,server) := server.generateId ids
    {server with
      sessions := server.sessions.set id wsSession
      connections := server.connections.set wsSession ⟨id,.kPending⟩}

def handleStomp (unspecified : Unspecified) (server : StompServer Session) (wsSession : Session)
    (connection : Connection) (frame : StompFrame) : StompServer Session :=
  if frame.getHeaderValue .kAcceptVersion ≠ kVersion then
    server.closeConnection unspecified connection wsSession .kInvalidHeaderValueAcceptVersion
  else if frame.getHeaderValue .kHost ≠ server.kHost then
    server.closeConnection unspecified connection wsSession .kInvalidHeaderValueHost
  else if connection.status ≠ .kPending then
    server.closeConnection unspecified connection wsSession .kClientCannotReconnect
  else
    let server := {server with
      connections := server.connections.set wsSession {connection with status := .kConnected}}
    let (error,response) := assemble unspecified .kConnected
      ⟨[(.kVersion,ascii "1.2"),(.kSession,connection.id)],by simp⟩ []
    if error ≠ .kOk then server
    else (server.write wsSession (.send response.plain)).post (.onClientConnect .kOk connection.id)

def handleSend (unspecified : Unspecified) (server : StompServer Session) (wsSession : Session)
    (connection : Connection) (frame : StompFrame) : StompServer Session :=
  if connection.status ≠ .kConnected then
    server.closeConnection unspecified connection wsSession .kUndefinedError
  else server.post (.onClientMessage .kOk connection.id (frame.getHeaderValue .kDestination)
    (frame.getHeaderValue .kId) frame.body)

/-- `none` when parsing the message leaves by an exception. -/
def onWsSessionMessage (unspecified : Unspecified) (server : StompServer Session) (ec : Bool)
    (wsSession : Session) (msg : Bytes) : Option (StompServer Session) :=
  match server.connections.find wsSession with
  | none => some (server.write wsSession .close)
  | some connection =>
    if ec then some server
    else do
      let (error,frame) ← ofString unspecified.uninitialised msg
      if error ≠ .kOk then
        return server.closeConnection unspecified connection wsSession .kCouldNotParseFrame
      else
        match frame.command with
        | .kStomp => return server.handleStomp unspecified wsSession connection frame
        | .kSend => return server.handleSend unspecified wsSession connection frame
        | _ => return server.closeConnection unspecified connection wsSession .kUnsupportedFrame

def onWsSessionDisconnect (server : StompServer Session) (ec : Bool) (wsSession : Session) :
    StompServer Session :=
  match server.connections.find wsSession with
  | none => server
  | some connection =>
    let server := {server with
      sessions := server.sessions.erase connection.id
      connections := server.connections.erase wsSession}
    if connection.status = .kConnected then
      server.post (.onClientDisconnect (if ec then .kWebSocketSessionDisconnected else .kOk)
        connection.id)
    else server

def onWsDisconnect (server : StompServer Session) (ec : Bool) : StompServer Session :=
  server.post (.onDisconnect (if ec then .kWebSocketServerDisconnected else .kOk))

end StompServer
end QuietRoute
