import QuietRoute.Bytes
import QuietRoute.Protocol.Machine

/-! The WebSocket server and its sessions. The asynchronous operations that have not completed are
kept with what runs when they do. They may complete in any order. The three handlers of a session and
the handler of the server are set. -/
namespace QuietRoute

inductive ErrorCode
  | success | operationAborted | closed | other (value : ℕ)
  deriving DecidableEq

/-- `if (ec)`. -/
def ErrorCode.isError (ec : ErrorCode) : Bool := ec ≠ .success

inductive SessionOperation (Handler : Type)
  | dispatch | tlsHandshake | accept | read
  | write (onSend : Option Handler)
  | close (onClose : Option Handler)
  deriving DecidableEq

/-- A call of one of the handlers of a session, or of one that was passed with a message. -/
inductive SessionCall (Handler : Type)
  | onConnect (ec : ErrorCode)
  | onMessage (message : Bytes)
  | onDisconnect (ec : ErrorCode)
  | onSend (handler : Handler) (ec : ErrorCode)
  | onClose (handler : Handler) (ec : ErrorCode)
  deriving DecidableEq

structure WebSocketSession (Handler : Type) where
  rBuffer : Bytes
  closed : Bool
  pending : List (SessionOperation Handler)

namespace WebSocketSession

variable {Handler : Type}

def created : WebSocketSession Handler := ⟨[],false,[]⟩

def start (session : WebSocketSession Handler) (operation : SessionOperation Handler) :
    WebSocketSession Handler := {session with pending := session.pending ++ [operation]}

def send (session : WebSocketSession Handler) (onSend : Option Handler) :
    WebSocketSession Handler := session.start (.write onSend)

def close (session : WebSocketSession Handler) (onClose : Option Handler) :
    WebSocketSession Handler := {session with closed := true}.start (.close onClose)

def connect (session : WebSocketSession Handler) : WebSocketSession Handler :=
  {session with closed := false}.start .dispatch

def onConnect (session : WebSocketSession Handler) : WebSocketSession Handler :=
  session.start .tlsHandshake

/-- Besides the session, the call of a handler if there is one. -/
def listenToIncomingMessage (session : WebSocketSession Handler) (ec : ErrorCode) :
    WebSocketSession Handler × Option (SessionCall Handler) :=
  if ec = .closed ∨ ec = .operationAborted then
    (session,if ¬session.closed then some (.onDisconnect ec) else none)
  else (session.start .read,none)

def onTlsHandshake (session : WebSocketSession Handler) (ec : ErrorCode) :
    WebSocketSession Handler × Option (SessionCall Handler) :=
  if ec.isError then (session,some (.onConnect ec)) else (session.start .accept,none)

def onHandshake (session : WebSocketSession Handler) (ec : ErrorCode) :
    WebSocketSession Handler × Option (SessionCall Handler) :=
  if ec.isError then (session,some (.onConnect ec))
  else ((session.listenToIncomingMessage ec).1,some (.onConnect ec))

def onRead (session : WebSocketSession Handler) (ec : ErrorCode) (nBytes : ℕ) :
    WebSocketSession Handler × Option (SessionCall Handler) :=
  if ec.isError then (session,none)
  else ({session with rBuffer := session.rBuffer.drop nBytes},some (.onMessage session.rBuffer))

/-- The end of an operation. A read has put the bytes `received` into the buffer. -/
def complete (session : WebSocketSession Handler) (ec : ErrorCode) (received : Bytes) :
    SessionOperation Handler → WebSocketSession Handler × Option (SessionCall Handler)
  | .dispatch => (session.onConnect,none)
  | .tlsHandshake => session.onTlsHandshake ec
  | .accept => session.onHandshake ec
  | .read =>
    let (session,message) :=
      {session with rBuffer := session.rBuffer ++ received}.onRead ec received.length
    let (session,disconnect) := session.listenToIncomingMessage ec
    (session,message <|> disconnect)
  | .write onSend => (session,onSend.map fun handler => .onSend handler ec)
  | .close onClose => (session,onClose.map fun handler => .onClose handler ec)

/-- `none` when there is no such operation. -/
def completed (session : WebSocketSession Handler) (idx : ℕ) (ec : ErrorCode) (received : Bytes) :
    Option (WebSocketSession Handler × Option (SessionCall Handler)) :=
  session.pending[idx]?.map
    ({session with pending := session.pending.eraseIdx idx}.complete ec received)

end WebSocketSession

/-- The sessions stand in the order in which they were made, and are named by their place. -/
structure WebSocketServer (Handler : Type) where
  stopped : Bool
  /-- How many `async_accept` have not completed. -/
  accepting : ℕ
  sessions : List (WebSocketSession Handler)

inductive ServerNotice (Handler : Type)
  | session (idx : ℕ) (call : SessionCall Handler)
  | onDisconnect (ec : ErrorCode)
  deriving DecidableEq

inductive SocketEvent
  | accepted (ec : ErrorCode)
  | completed (session idx : ℕ) (ec : ErrorCode) (received : Bytes)

inductive SocketOrder (Handler : Type)
  | send (session : ℕ) (onSend : Option Handler)
  | close (session : ℕ) (onClose : Option Handler)
  | stop

namespace WebSocketServer

variable {Handler : Type}

def created : WebSocketServer Handler := ⟨false,0,[]⟩

def acceptConnection (server : WebSocketServer Handler) (ec : ErrorCode) :
    WebSocketServer Handler × Option (ServerNotice Handler) :=
  if ec.isError then (server,if ¬server.stopped then some (.onDisconnect ec) else none)
  else ({server with accepting := server.accepting+1},none)

def onConnectionAccepted (server : WebSocketServer Handler) (ec : ErrorCode) :
    WebSocketServer Handler :=
  if ec.isError then server
  else {server with sessions := server.sessions ++ [WebSocketSession.created.connect]}

/-- The first error of the acceptor when it opens the endpoint, sets its option, binds and listens. -/
def run (server : WebSocketServer Handler) (openEc setOptionEc bindEc listenEc : ErrorCode) :
    ErrorCode × WebSocketServer Handler :=
  if openEc.isError then (openEc,server)
  else if setOptionEc.isError then (setOptionEc,server)
  else if bindEc.isError then (bindEc,server)
  else if listenEc.isError then (listenEc,server)
  else (listenEc,({server with stopped := false}.acceptConnection listenEc).1)

def stop (server : WebSocketServer Handler) : WebSocketServer Handler :=
  {server with stopped := true}

/-- `none` when there is no such operation. -/
def step (server : WebSocketServer Handler) :
    SocketEvent → Option (WebSocketServer Handler × Option (ServerNotice Handler))
  | .accepted ec =>
    match server.accepting with
    | 0 => none
    | accepting+1 =>
      some ((({server with accepting := accepting}.onConnectionAccepted ec).acceptConnection ec))
  | .completed session idx ec received => do
    let (wsSession,call) ← (← server.sessions[session]?).completed idx ec received
    return ({server with sessions := server.sessions.set session wsSession},
      call.map (.session session))

def obey (server : WebSocketServer Handler) : SocketOrder Handler → WebSocketServer Handler
  | .send session onSend => {server with sessions := server.sessions.modify session (·.send onSend)}
  | .close session onClose =>
    {server with sessions := server.sessions.modify session (·.close onClose)}
  | .stop => server.stop

/-- The server as a machine: events make at most one notice each, and orders make none. -/
def machine : Reporting.Machine (WebSocketServer Handler) (SocketEvent ⊕ SocketOrder Handler)
    (ServerNotice Handler) where
  step server
    | .inl event => (server.step event).map fun next => (next.1,next.2.toList)
    | .inr order => some (server.obey order,[])

def started : WebSocketServer Handler := (created.run .success .success .success .success).2

end WebSocketServer
end QuietRoute
