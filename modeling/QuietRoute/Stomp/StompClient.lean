import QuietRoute.Stomp.StompServer

/-! The STOMP client over a WebSocket. The calls of its user's handlers are recorded in the order in
which they are posted, and the operations of the WebSocket that have not completed are kept with what
runs when they do. -/
namespace QuietRoute

open StompFrame

inductive StompClientError
  | kOk | kUndefinedError | kCouldNotCloseWebSocketConnection | kCouldNotConnectToWebSocketServer
  | kCouldNotParseMessageAsStompFrame | kCouldNotSendMessage | kCouldNotSendStompFrame
  | kCouldNotSendSubscribeFrame | kUnexpectedCouldNotCreateValidFrame
  | kUnexpectedMessageContentType | kUnexpectedSubscriptionMismatch | kWebSocketServerDisconnected
  deriving DecidableEq

/-- A handler that is not set is `none`. -/
structure Subscription (Handler : Type) where
  destination : Bytes
  onSubscribe : Option Handler
  onMessage : Option Handler
  deriving DecidableEq

/-- A call of one of the user's handlers. All but `onSend` wait in the strand of the client. -/
inductive ClientCall (Handler : Type)
  | onConnect (handler : Handler) (ec : StompClientError)
  | onMessage (handler : Handler) (ec : StompClientError) (destination message : Bytes)
  | onDisconnect (handler : Handler) (ec : StompClientError)
  | onClose (handler : Handler) (ec : StompClientError)
  | onSubscribe (handler : Handler) (ec : StompClientError) (subscriptionId : Bytes)
  | onSubscriptionMessage (handler : Handler) (ec : StompClientError) (message : Bytes)
  | onSend (handler : Handler) (ec : StompClientError) (requestId : Bytes)
  deriving DecidableEq

inductive SocketCall
  | connect
  | send (message : Bytes)
  | close
  deriving DecidableEq

inductive Completion (Handler : Type)
  | connect
  | stomp
  | subscribe (subscriptionId : Bytes) (subscription : Subscription Handler)
  | send (requestId : Bytes) (onSend : Option Handler)
  | close (onClose : Option Handler)
  deriving DecidableEq

structure StompClient (Handler : Type) where
  url : Bytes
  username : Bytes
  password : Bytes
  onConnect : Option Handler
  onMessage : Option Handler
  onDisconnect : Option Handler
  subscriptions : UnorderedMap Bytes (Subscription Handler)
  /-- How many ids were drawn. -/
  generated : ℕ
  posted : List (ClientCall Handler)
  asked : List SocketCall
  pending : List (Completion Handler)

namespace StompClient

variable {Handler : Type}

def created (url : Bytes) : StompClient Handler :=
  ⟨url,[],[],none,none,none,.empty,0,[],[],[]⟩

def ask (client : StompClient Handler) (call : SocketCall) (completion : Completion Handler) :
    StompClient Handler :=
  {client with asked := client.asked ++ [call], pending := client.pending ++ [completion]}

def post (client : StompClient Handler) (handler : Option Handler)
    (call : Handler → ClientCall Handler) : StompClient Handler :=
  {client with posted := client.posted ++ handler.toList.map call}

def generateId (ids : IdGenerator) (client : StompClient Handler) : Bytes × StompClient Handler :=
  (ids.nth client.generated,{client with generated := client.generated+1})

def connect (client : StompClient Handler) (username password : Bytes)
    (onConnect onMessage onDisconnect : Option Handler) : StompClient Handler :=
  let client := {client with
    username := username
    password := password
    onConnect := onConnect
    onMessage := onMessage
    onDisconnect := onDisconnect}
  client.ask .connect .connect

def close (client : StompClient Handler) (onClose : Option Handler) : StompClient Handler :=
  let client := {client with subscriptions := .empty}
  client.ask .close (.close onClose)

/-- The id of the subscription is empty when the frame was invalid. -/
def subscribe (ids : IdGenerator) (unspecified : Unspecified) (client : StompClient Handler)
    (destination : Bytes) (onSubscribe onMessage : Option Handler) :
    Bytes × StompClient Handler :=
  let (subscriptionId,client) := client.generateId ids
  let subscription : Subscription Handler := ⟨destination,onSubscribe,onMessage⟩
  let (error,frame) := assemble unspecified .kSubscribe
    ⟨[(.kId,subscriptionId),(.kDestination,destination),(.kAck,ascii "auto"),
      (.kReceipt,subscriptionId)],by simp⟩ []
  if error ≠ .kOk then ([],client)
  else (subscriptionId,client.ask (.send frame.plain) (.subscribe subscriptionId subscription))

theorem nodup_sendHeaders (requestId destination messageContent : Bytes) :
    ([(StompHeader.kId,requestId),(.kDestination,destination),
      (.kContentType,ascii "application/json"),
      (.kContentLength,decimal messageContent.length)].map Prod.fst).Nodup := by simp

/-- The id of the request is empty when the frame was invalid. -/
def send (ids : IdGenerator) (unspecified : Unspecified) (client : StompClient Handler)
    (destination messageContent : Bytes) (onSend : Option Handler) : Bytes × StompClient Handler :=
  let (requestId,client) := client.generateId ids
  let (error,frame) := assemble unspecified .kSend
    ⟨[(.kId,requestId),(.kDestination,destination),(.kContentType,ascii "application/json"),
      (.kContentLength,decimal messageContent.length)],
      nodup_sendHeaders requestId destination messageContent⟩ messageContent
  if error ≠ .kOk then ([],client)
  else (requestId,client.ask (.send frame.plain) (.send requestId onSend))

def stompFrame (unspecified : Unspecified) (client : StompClient Handler) : StompError × StompFrame :=
  assemble unspecified .kStomp
    ⟨[(.kAcceptVersion,ascii "1.2"),(.kHost,client.url),(.kLogin,client.username),
      (.kPasscode,client.password)],by simp⟩ []

/-- `ec` is whether there is an error. -/
def onWsConnect (unspecified : Unspecified) (client : StompClient Handler) (ec : Bool) :
    StompClient Handler :=
  if ec then
    client.post client.onConnect fun onConnect =>
      .onConnect onConnect .kCouldNotConnectToWebSocketServer
  else
    let (error,frame) := client.stompFrame unspecified
    if error ≠ .kOk then
      client.post client.onConnect fun onConnect =>
        .onConnect onConnect .kUnexpectedCouldNotCreateValidFrame
    else client.ask (.send frame.plain) .stomp

def onWsSendStomp (client : StompClient Handler) (ec : Bool) : StompClient Handler :=
  if ec then
    client.post client.onConnect fun onConnect => .onConnect onConnect .kCouldNotSendStompFrame
  else client

def onWsSendSubscribe (client : StompClient Handler) (ec : Bool) (subscriptionId : Bytes)
    (subscription : Subscription Handler) : StompClient Handler :=
  if ¬ec then
    {client with subscriptions := client.subscriptions.emplace subscriptionId subscription}
  else
    client.post subscription.onSubscribe fun onSubscribe =>
      .onSubscribe onSubscribe .kCouldNotSendSubscribeFrame []

def onWsClose (client : StompClient Handler) (ec : Bool) (onClose : Option Handler) :
    StompClient Handler :=
  client.post onClose fun onClose =>
    .onClose onClose (if ec then .kCouldNotCloseWebSocketConnection else .kOk)

/-- The handler that waits for the end of a write in `Send`. -/
def onWsSend (client : StompClient Handler) (ec : Bool) (requestId : Bytes)
    (onSend : Option Handler) : StompClient Handler :=
  client.post onSend fun onSend =>
    .onSend onSend (if ec then .kCouldNotSendMessage else .kOk) requestId

def complete (unspecified : Unspecified) (client : StompClient Handler) (ec : Bool) :
    Completion Handler → StompClient Handler
  | .connect => client.onWsConnect unspecified ec
  | .stomp => client.onWsSendStomp ec
  | .subscribe subscriptionId subscription =>
    client.onWsSendSubscribe ec subscriptionId subscription
  | .send requestId onSend => client.onWsSend ec requestId onSend
  | .close onClose => client.onWsClose ec onClose

def handleConnected (client : StompClient Handler) : StompClient Handler :=
  client.post client.onConnect fun onConnect => .onConnect onConnect .kOk

def handleSubscriptionMessage (client : StompClient Handler) (frame : StompFrame) :
    StompClient Handler :=
  match client.subscriptions.find (frame.getHeaderValue .kSubscription) with
  | none => client
  | some subscription =>
    if frame.getHeaderValue .kDestination ≠ subscription.destination then
      client.post subscription.onMessage fun onMessage =>
        .onSubscriptionMessage onMessage .kUnexpectedSubscriptionMismatch []
    else
      client.post subscription.onMessage fun onMessage =>
        .onSubscriptionMessage onMessage .kOk frame.body

def handleSubscriptionReceipt (client : StompClient Handler) (frame : StompFrame) :
    StompClient Handler :=
  let subscriptionId := frame.getHeaderValue .kReceiptId
  match client.subscriptions.find subscriptionId with
  | none => client
  | some subscription =>
    client.post subscription.onSubscribe fun onSubscribe =>
      .onSubscribe onSubscribe .kOk subscriptionId

def handleMessage (client : StompClient Handler) (frame : StompFrame) : StompClient Handler :=
  client.post client.onMessage fun onMessage =>
    .onMessage onMessage .kOk (frame.getHeaderValue .kDestination) frame.body

/-- An error frame, like any unexpected frame, is only logged. -/
def handleFrame (client : StompClient Handler) (frame : StompFrame) : StompClient Handler :=
  match frame.command with
  | .kConnected => client.handleConnected
  | .kMessage => client.handleSubscriptionMessage frame
  | .kReceipt => client.handleSubscriptionReceipt frame
  | .kSend => client.handleMessage frame
  | _ => client

/-- `none` when parsing the message leaves by an exception. -/
def onWsMessage (unspecified : Unspecified) (client : StompClient Handler) (msg : Bytes) :
    Option (StompClient Handler) := do
  let (error,frame) ← ofString unspecified.uninitialised msg
  if error ≠ .kOk then
    return client.post client.onConnect fun onConnect =>
      .onConnect onConnect .kCouldNotParseMessageAsStompFrame
  else return client.handleFrame frame

def onWsDisconnect (client : StompClient Handler) (ec : Bool) : StompClient Handler :=
  client.post client.onDisconnect fun onDisconnect =>
    .onDisconnect onDisconnect (if ec then .kWebSocketServerDisconnected else .kOk)

end StompClient

/-- What happens to a client: its user's calls, the end of one of its operations, and what the
WebSocket reports. -/
inductive ClientEvent (Handler : Type)
  | connect (username password : Bytes) (onConnect onMessage onDisconnect : Option Handler)
  | subscribe (unspecified : Unspecified) (destination : Bytes) (onSubscribe onMessage : Option Handler)
  | send (unspecified : Unspecified) (destination messageContent : Bytes) (onSend : Option Handler)
  | close (onClose : Option Handler)
  | completed (unspecified : Unspecified) (idx : ℕ) (ec : Bool)
  | message (unspecified : Unspecified) (msg : Bytes)
  | disconnected (ec : Bool)

namespace StompClient

variable {Handler : Type}

/-- `none` when there is no such operation, or when the event leaves by an exception. -/
def perform (ids : IdGenerator) (client : StompClient Handler) :
    ClientEvent Handler → Option (StompClient Handler)
  | .connect username password onConnect onMessage onDisconnect =>
    some (client.connect username password onConnect onMessage onDisconnect)
  | .subscribe unspecified destination onSubscribe onMessage =>
    some (client.subscribe ids unspecified destination onSubscribe onMessage).2
  | .send unspecified destination messageContent onSend =>
    some (client.send ids unspecified destination messageContent onSend).2
  | .close onClose => some (client.close onClose)
  | .completed unspecified idx ec =>
    client.pending[idx]?.map
      ({client with pending := client.pending.eraseIdx idx}.complete unspecified ec)
  | .message unspecified msg => client.onWsMessage unspecified msg
  | .disconnected ec => some (client.onWsDisconnect ec)

def run (ids : IdGenerator) (client : StompClient Handler) (events : List (ClientEvent Handler)) :
    Option (StompClient Handler) := events.foldlM (perform ids) client

end StompClient
end QuietRoute
