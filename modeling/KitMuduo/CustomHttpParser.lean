import KitMuduo.Buffer
import KitMuduo.HttpMessageText
import KitMuduo.WhileLoop

/-!
# The parser written by hand

`CustomHttpParser` of `http_custom_parser.cpp` is a state machine over the unread
bytes of a buffer.  A turn of its loop takes one line, the blank line behind the
headers, or as much of the body as there is, and decides whether the loop goes
on.  The functions keep the names of the source; pointers into the buffer are
offsets from `peek()`.
-/

namespace KitMuduo

open DecimalText ListSearch WhileLoop

/-- `HttpParser::Type`: which message of the context is filled in. -/
inductive HttpParserType
  | UnkownType
  | ReqType
  | RespType
  deriving DecidableEq

namespace StateCode

/-- `FromString` with the map of the messages. -/
def FromStringIn (map : List (Int × Bytes)) (str : Bytes) : Int :=
  if (map.lookup (atoi str)).isSome then atoi str else kUnknow

/-- `FromString` before a code without a message has been printed. -/
def FromString (str : Bytes) : Int :=
  FromStringIn codeMessageMap str

end StateCode

structure CustomHttpParser where
  context : HttpContext := {}
  type : HttpParserType := .ReqType
  expectedBodyLen : Nat := 0
  readLen : Nat := 0
  deriving DecidableEq

namespace CustomHttpParser

def setType (parser : CustomHttpParser) (type : HttpParserType) :
    CustomHttpParser :=
  { parser with type := type }

def setState (parser : CustomHttpParser) (state : HttpParseState) :
    CustomHttpParser :=
  { parser with context := { parser.context with state := state } }

def setRequest (parser : CustomHttpParser) (request : HttpRequest) :
    CustomHttpParser :=
  { parser with context := { parser.context with request := request } }

def setResponse (parser : CustomHttpParser) (response : HttpResponse) :
    CustomHttpParser :=
  { parser with context := { parser.context with response := response } }

def processRequestLine (parser : CustomHttpParser) (line : Bytes) :
    Bool × CustomHttpParser :=
  match line.idxOf? 32 with
  | none => (false, parser)
  | some spacePos =>
      let tmpStr := DelSpaceHelper (line.take spacePos)
      let start := line.drop (spacePos + 1)
      match parser.type with
      | .ReqType =>
          let request := parser.context.request
          if Method.FromString tmpStr = .kInvaild then
            (false, parser)
          else
            let request := { request with method := Method.FromString tmpStr }
            match start.idxOf? 32 with
            | none => (false, parser.setRequest request)
            | some spacePos =>
                (true, parser.setRequest { request with
                  path := DelSpaceHelper (start.take spacePos)
                  version := Version.FromString
                    (DelSpaceHelper (start.drop (spacePos + 1))) })
      | .RespType =>
          let response := parser.context.response
          if Version.FromString tmpStr = .kUnknow then
            (false, parser)
          else
            -- Without a reason phrase the status code ends the line.
            let spacePos := (start.idxOf? 32).getD start.length
            (true, parser.setResponse { response with
              version := Version.FromString tmpStr
              stateCode := StateCode.FromString
                (DelSpaceHelper (start.take spacePos)) })
      | .UnkownType => (true, parser)

/-- `getHeader` of the message the parser fills in. -/
def getHeader (parser : CustomHttpParser) (key : Bytes) : Bytes :=
  match parser.type with
  | .ReqType => parser.context.request.getHeader key
  | .RespType => parser.context.response.getHeader key
  | .UnkownType => []

/-- `addHeader` of the message the parser fills in. -/
def addHeader (parser : CustomHttpParser) (head val : Bytes) :
    CustomHttpParser :=
  match parser.type with
  | .ReqType =>
      parser.setRequest (parser.context.request.addHeaderLine head val).2
  | .RespType =>
      parser.setResponse (parser.context.response.addHeaderLine head val).2
  | .UnkownType => parser

/-- Change the body of the message the parser fills in. -/
def changeBody (parser : CustomHttpParser) (change : Body → Body) :
    CustomHttpParser :=
  match parser.type with
  | .ReqType =>
      parser.setRequest { parser.context.request with
        body := change parser.context.request.body }
  | .RespType =>
      parser.setResponse { parser.context.response with
        body := change parser.context.response.body }
  | .UnkownType => parser

/-- An `int` stored in a `size_t`. -/
def toSize (number : Int) : Nat :=
  (number % 2 ^ 64).toNat

def contentLength (parser : CustomHttpParser) : Nat :=
  toSize (atoi (parser.getHeader (ascii "Content-Length")))

/-- The locals of `parse` in front of a turn of its loop. -/
structure Turn where
  parser : CustomHttpParser
  buf : Buffer
  ok : Bool := true
  hasMore : Bool := true
  deriving DecidableEq

def findCRLF (buf : Buffer) : Option Nat :=
  search kCRLF buf.readable

def expectRequestLine (turn : Turn) : Turn :=
  match findCRLF turn.buf with
  | none => { turn with hasMore := false }
  | some crlfPos =>
      match turn.parser.processRequestLine (turn.buf.peek crlfPos) with
      | (false, parser) =>
          { turn with parser := parser, ok := false, hasMore := false }
      | (true, parser) =>
          { turn with
            parser := parser.setState .kExpectHeaders
            ok := true
            buf := turn.buf.reset (crlfPos + 2) }

/-- The blank line behind the headers. -/
def headersDone (turn : Turn) : Turn :=
  let length := turn.parser.contentLength
  let parser : CustomHttpParser :=
    { turn.parser with expectedBodyLen := length, readLen := length }
  let buf := turn.buf.reset 2
  if length = 0 ∨ parser.getHeader (ascii "Content-Length") = [] then
    { turn with
      parser := parser.setState .kGotAll, buf := buf, hasMore := false }
  else
    let contentType :=
      ContentType.FromString (parser.getHeader (ascii "Content-Type"))
    { turn with
      parser := (parser.changeBody (·.setContentType contentType)).setState
        .kExpectBody
      buf := buf }

def expectHeaders (turn : Turn) : Turn :=
  match findCRLF turn.buf with
  | none => { turn with hasMore := false }
  | some crlfPos =>
      let line := turn.buf.peek crlfPos
      match line.idxOf? 58 with
      | none =>
          if turn.buf.peek 2 = kCRLF then
            headersDone turn
          else
            { turn with ok := false, hasMore := false }
      | some colon =>
          { turn with
            parser :=
              turn.parser.addHeader (line.take colon) (line.drop (colon + 1))
            buf := turn.buf.reset (crlfPos + 2) }

def expectBody (turn : Turn) : Turn :=
  let minLen := min turn.parser.readLen turn.buf.readableBytes
  let parser : CustomHttpParser :=
    { turn.parser with readLen := turn.parser.readLen - minLen }
  let parser := parser.changeBody (·.appendData (turn.buf.peek minLen))
  let buf := turn.buf.reset minLen
  if parser.readLen = 0 then
    { turn with
      parser :=
        { parser with expectedBodyLen := 0, readLen := 0 }.setState .kGotAll
      buf := buf
      hasMore := false }
  else
    { turn with parser := parser, buf := buf }

/-- The body of the loop.  In the state `kGotAll` no branch is taken. -/
def next (turn : Turn) : Turn :=
  match turn.parser.context.state with
  | .kExpectRequestLine => expectRequestLine turn
  | .kExpectHeaders => expectHeaders turn
  | .kExpectBody => expectBody turn
  | .kGotAll => turn

/-- `parse(Buffer &)` with at most `turns` turns of its loop. -/
def parse (turns : Nat) (parser : CustomHttpParser) (buf : Buffer) :
    Option (Bool × CustomHttpParser × Buffer) :=
  if buf.readableBytes = 0 then
    some (false, parser, buf)
  else
    (run Turn.hasMore next turns { parser := parser, buf := buf }).map
      fun turn => (turn.ok, turn.parser, turn.buf)

end CustomHttpParser

end KitMuduo
