import QuietRoute.Bytes
import QuietRoute.Containers.StringView
import QuietRoute.Containers.UnorderedMap

/-! STOMP frames: parsing and validation as `StompFrame` does them, with its positions in the text.
The views a frame holds into its text are the bytes they denote. -/
namespace QuietRoute

open StringView

inductive StompCommand
  | kInvalid | kAbort | kAck | kBegin | kCommit | kConnect | kConnected | kDisconnect | kError
  | kMessage | kNack | kReceipt | kSend | kStomp | kSubscribe | kUnsubscribe
  deriving DecidableEq

inductive StompHeader
  | kInvalid | kAcceptVersion | kAck | kContentLength | kContentType | kDestination | kHeartBeat
  | kHost | kId | kLogin | kMessage | kMessageId | kPasscode | kReceipt | kReceiptId | kSession
  | kSubscription | kTransaction | kServer | kVersion
  deriving DecidableEq

inductive StompError
  | kOk | kUndefinedError | kParsingEmptyHeaderValue | kParsingContentLengthExceedsFrameLength
  | kParsingInvalidContentLength | kParsingJunkAfterBody | kParsingMissingBlankLineAfterHeaders
  | kParsingMissingColonInHeader | kParsingMissingEolAfterCommand
  | kParsingMissingEolAfterHeaderValue | kParsingMissingNullInBody | kParsingUnrecognizedCommand
  | kParsingUnrecognizedHeader | kValidationContentLengthMismatch | kValidationInvalidCommand
  | kValidationInvalidContentLength | kValidationMissingHeader
  deriving DecidableEq

def gStompCommandStrings : List (StompCommand × Bytes) :=
  [(.kAbort,ascii "ABORT"),(.kAck,ascii "ACK"),(.kBegin,ascii "BEGIN"),(.kCommit,ascii "COMMIT"),
    (.kConnect,ascii "CONNECT"),(.kConnected,ascii "CONNECTED"),
    (.kDisconnect,ascii "DISCONNECT"),(.kError,ascii "ERROR"),(.kMessage,ascii "MESSAGE"),
    (.kNack,ascii "NACK"),(.kReceipt,ascii "RECEIPT"),(.kSend,ascii "SEND"),
    (.kStomp,ascii "STOMP"),(.kSubscribe,ascii "SUBSCRIBE"),
    (.kUnsubscribe,ascii "UNSUBSCRIBE")]

def gStompHeaderStrings : List (StompHeader × Bytes) :=
  [(.kAcceptVersion,ascii "accept-version"),(.kAck,ascii "ack"),
    (.kContentLength,ascii "content-length"),(.kContentType,ascii "content-type"),
    (.kDestination,ascii "destination"),(.kHeartBeat,ascii "heart-beat"),(.kHost,ascii "host"),
    (.kId,ascii "id"),(.kLogin,ascii "login"),(.kMessage,ascii "message"),
    (.kMessageId,ascii "message-id"),(.kPasscode,ascii "passcode"),(.kReceipt,ascii "receipt"),
    (.kReceiptId,ascii "receipt-id"),(.kSession,ascii "session"),
    (.kSubscription,ascii "subscription"),(.kTransaction,ascii "transaction"),
    (.kServer,ascii "server"),(.kVersion,ascii "version")]

/-- `ToString`, by the left side of the bimap. -/
def StompCommand.toString (command : StompCommand) : Bytes :=
  ((gStompCommandStrings.find? fun e => e.1 = command).map Prod.snd).getD
    (ascii "StompCommand::kInvalid")

/-- `ToCommand`, by the right side of the bimap. -/
def toCommand (command : Bytes) : StompCommand :=
  ((gStompCommandStrings.find? fun e => e.2 = command).map Prod.fst).getD .kInvalid

def StompHeader.toString (header : StompHeader) : Bytes :=
  ((gStompHeaderStrings.find? fun e => e.1 = header).map Prod.snd).getD
    (ascii "StompHeader::kInvalid")

def toHeader (header : Bytes) : StompHeader :=
  ((gStompHeaderStrings.find? fun e => e.2 = header).map Prod.fst).getD .kInvalid

def null : UInt8 := 0
def colon : UInt8 := 58
def newLine : UInt8 := 10

def isDigit (c : UInt8) : Bool := 48 ≤ c && c ≤ 57

def decimalValue (digits : Bytes) : ℕ := digits.foldl (fun n c => 10*n+(c.toNat-48)) 0

/-- `StoI` over `std::from_chars`: the leading digits count, a result out of range leaves the
variable as it was, and only a text without leading digits fails. -/
def stoI (string : Bytes) (result : ℕ) : Bool × ℕ :=
  let digits := string.takeWhile isDigit
  if digits = [] then (false,result)
  else if decimalValue digits < 2^64 then (true,decimalValue digits)
  else (true,result)

abbrev Headers := UnorderedMap StompHeader Bytes

structure StompFrame where
  plain : Bytes
  command : StompCommand
  headers : Headers
  body : Bytes

namespace StompFrame

def default : StompFrame := ⟨[],.kInvalid,.empty,[]⟩

def hasHeader (frame : StompFrame) (header : StompHeader) : Bool :=
  (frame.headers.find header).isSome

def getHeaderValue (frame : StompFrame) (header : StompHeader) : Bytes :=
  (frame.headers.find header).getD []

end StompFrame

/-- How `ParseFrame` ends early: with an error code, or by an exception. -/
inductive Failure
  | error (ec : StompError)
  | outOfRange
  deriving DecidableEq

/-- A checked access. -/
def orThrow {α : Type} : Option α → Except Failure α
  | none => .error .outOfRange
  | some a => .ok a

/-- A search that has to find something. -/
def orError {α : Type} (ec : StompError) : Option α → Except Failure α
  | none => .error (.error ec)
  | some a => .ok a

def check (ok : Bool) (ec : StompError) : Except Failure Unit :=
  if ok then .ok () else .error (.error ec)

@[simp] theorem ok_bind {α β : Type} (a : α) (f : α → Except Failure β) :
    (Except.ok a >>= f) = f a := rfl

@[simp] theorem error_bind {α β : Type} (failure : Failure) (f : α → Except Failure β) :
    (Except.error failure >>= f) = .error failure := rfl

@[simp] theorem orThrow_some {α : Type} (a : α) : orThrow (some a) = .ok a := rfl

@[simp] theorem orThrow_none {α : Type} : orThrow (none : Option α) = .error .outOfRange := rfl

@[simp] theorem orError_some {α : Type} (ec : StompError) (a : α) : orError ec (some a) = .ok a := rfl

@[simp] theorem orError_none {α : Type} (ec : StompError) :
    orError ec (none : Option α) = .error (.error ec) := rfl

@[simp] theorem check_true (ec : StompError) : check true ec = .ok () := rfl

@[simp] theorem check_false (ec : StompError) : check false ec = .error (.error ec) := rfl

theorem check_pos {p : Prop} [Decidable p] (ec : StompError) (h : p) : check p ec = .ok () := by
  simp [check,h]

theorem check_neg {p : Prop} [Decidable p] (ec : StompError) (h : ¬p) :
    check p ec = .error (.error ec) := by
  simp [check,h]

/-- The body of the loop over the header lines: header, value, and the start of the next line. -/
def parseHeaderLine (plain : Bytes) (headerStart : ℕ) : Except Failure (StompHeader × Bytes × ℕ) := do
  let headerEnd ← orError .kParsingMissingColonInHeader (find plain colon headerStart)
  let header := toHeader (← orThrow (substr plain headerStart (headerEnd-headerStart)))
  check (header ≠ .kInvalid) .kParsingUnrecognizedHeader
  let valueStart := headerEnd+1
  check ((← orThrow (charAt plain valueStart)) ≠ newLine) .kParsingEmptyHeaderValue
  let valueEnd ← orError .kParsingMissingEolAfterHeaderValue (find plain newLine valueStart)
  let value ← orThrow (substr plain valueStart (valueEnd-valueStart))
  return (header,value,valueEnd+1)

/-- The loop over the header lines. Every line moves the start on, so that it ends before this. -/
def parseHeaders (plain : Bytes) : ℕ → ℕ → Headers → Except Failure (Headers × ℕ)
  | 0, headerLineStart, headers => return (headers,headerLineStart)
  | fuel+1, headerLineStart, headers => do
    if headerLineStart < plain.length then
      if (← orThrow (charAt plain headerLineStart)) = newLine then
        return (headers,headerLineStart)
      else
        let (header,value,next) ← parseHeaderLine plain headerLineStart
        parseHeaders plain fuel next (headers.emplace header value)
    else return (headers,headerLineStart)

/-- The position of the NULL octet after the body, by content length or by search. -/
def findBodyEnd (plain : Bytes) (headers : Headers) (bodyStart : ℕ) : Except Failure ℕ :=
  match headers.find .kContentLength with
  | some contentLength => do
    let (ok,bodyLength) := stoI contentLength 0
    check ok .kParsingInvalidContentLength
    check (bodyLength ≠ plain.length-bodyStart) .kParsingMissingNullInBody
    check (bodyLength ≤ plain.length-bodyStart) .kParsingContentLengthExceedsFrameLength
    check ((← orThrow (charAt plain (bodyStart+bodyLength))) = null) .kParsingMissingNullInBody
    return bodyStart+bodyLength
  | none => orError .kParsingMissingNullInBody (find plain null bodyStart)

/-- The blank line and the body; only newlines may follow its NULL octet. -/
def parseBody (plain : Bytes) (headers : Headers) (newLineBeforeBody : ℕ) :
    Except Failure Bytes := do
  check (newLineBeforeBody < plain.length) .kParsingMissingBlankLineAfterHeaders
  check ((← orThrow (charAt plain newLineBeforeBody)) = newLine)
    .kParsingMissingBlankLineAfterHeaders
  let bodyStart := newLineBeforeBody+1
  let bodyEnd ← findBodyEnd plain headers bodyStart
  check ((plain.drop (bodyEnd+1)).all (· = newLine)) .kParsingJunkAfterBody
  orThrow (substr plain bodyStart (bodyEnd-bodyStart))

/-- `ParseFrame` up to its last three assignments. -/
def parseFrame (plain : Bytes) : Except Failure (StompCommand × Headers × Bytes) := do
  let commandEnd ← orError .kParsingMissingEolAfterCommand (find plain newLine 0)
  let command := toCommand (← orThrow (substr plain 0 commandEnd))
  check (command ≠ .kInvalid) .kParsingUnrecognizedCommand
  let (headers,newLineBeforeBody) ← parseHeaders plain plain.length (commandEnd+1) .empty
  let body ← parseBody plain headers newLineBeforeBody
  return (command,headers,body)

def requiredHeaders : StompCommand → List StompHeader
  | .kConnect | .kStomp => [.kAcceptVersion,.kHost]
  | .kConnected => [.kVersion]
  | .kSend => [.kDestination]
  | .kSubscribe => [.kDestination,.kId]
  | .kUnsubscribe => [.kId]
  | .kAck | .kNack => [.kId]
  | .kBegin | .kCommit | .kAbort => [.kTransaction]
  | .kDisconnect => []
  | .kMessage => [.kDestination,.kMessageId,.kSubscription]
  | .kReceipt => [.kReceiptId]
  | .kError => []
  | .kInvalid => []

namespace StompFrame

/-- `uninitialised` is what the variable `length` holds when `StoI` does not write to it. -/
def validateFrame (uninitialised : ℕ) (frame : StompFrame) : StompError :=
  if frame.command = .kInvalid then .kValidationInvalidCommand
  else if ¬(requiredHeaders frame.command).all frame.hasHeader then .kValidationMissingHeader
  else if frame.hasHeader .kContentLength then
    let (ok,length) := stoI (frame.getHeaderValue .kContentLength) uninitialised
    if ¬ok then .kValidationInvalidContentLength
    else if length ≠ frame.body.length then .kValidationContentLengthMismatch
    else .kOk
  else .kOk

/-- `ParseAndValidateFrame` on a frame that holds its text already; `none` is an exception. -/
def parseAndValidateFrame (uninitialised : ℕ) (frame : StompFrame) :
    Option (StompError × StompFrame) :=
  match parseFrame frame.plain with
  | .error .outOfRange => none
  | .error (.error ec) => some (ec,frame)
  | .ok (command,headers,body) =>
    let parsed := {frame with command := command, headers := headers, body := body}
    some (parsed.validateFrame uninitialised,parsed)

def ofString (uninitialised : ℕ) (text : Bytes) : Option (StompError × StompFrame) :=
  {default with plain := text}.parseAndValidateFrame uninitialised

def headerLine (header : StompHeader × Bytes) : Bytes :=
  header.1.toString ++ [colon] ++ header.2 ++ [newLine]

/-- The text that the constructor from components assembles; `headers` in iteration order. -/
def plainText (command : StompCommand) (headers : Headers) (body : Bytes) : Bytes :=
  command.toString ++ [newLine] ++ headers.entries.flatMap headerLine ++ [newLine] ++ body ++ [null]

def ofComponents (uninitialised : ℕ) (command : StompCommand) (headers : Headers) (body : Bytes) :
    Option (StompError × StompFrame) :=
  ofString uninitialised (plainText command headers body)

end StompFrame
end QuietRoute
