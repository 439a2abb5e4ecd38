import KitMuduo.CustomHttpParser

/-!
# The parser on top of llhttp

`LLhttpParser` of `http_llhttp_parser.cpp` hands the unread bytes of a buffer to
llhttp, which calls back with the elements of the message.  The callbacks fill
in the request or the response of the context; the url and the headers are
collected in between.  Of llhttp only the interface is known: its state, what it
calls while it takes in some bytes, its result and where it stopped.
-/

namespace KitMuduo

open WhileLoop

/-- The callbacks the constructor registers, with their arguments.  `onStatus`
also asks for the status code. -/
inductive Callback
  | onMethod (data : Bytes)
  | onStatus (data : Bytes) (statusCode : Int)
  | onStatusComplete
  | onUrl (data : Bytes)
  | onUrlComplete
  | onVersion (data : Bytes)
  | onHeaderField (data : Bytes)
  | onHeaderValue (data : Bytes)
  | onHeadersComplete
  | onBody (data : Bytes)
  | onMessageComplete
  deriving DecidableEq

/-- `llhttp_errno`; the errors are not told apart. -/
inductive Errno
  | HPE_OK
  | HPE_PAUSED
  | HPE_PAUSED_UPGRADE
  | HPE_ERROR
  deriving DecidableEq

/-- A run of `llhttp_execute`.  The position is that of
`llhttp_get_error_pos`, counted from the first byte, and missing for a null
pointer. -/
structure Executed (σ : Type*) where
  parser : σ
  callbacks : List Callback
  errno : Errno
  errorPos : Option Int
  deriving DecidableEq

/-- The functions of llhttp.  The results of the callbacks are fixed, so that
they are not arguments: all return zero except `onMessageComplete`, which asks
for a pause. -/
structure LLhttp (σ : Type*) where
  llhttp_init : σ
  llhttp_resume : σ → σ
  llhttp_execute : σ → Bytes → Executed σ

def IsHexDigit (ch : UInt8) : Bool :=
  (48 ≤ ch && ch ≤ 57) || (97 ≤ ch && ch ≤ 102) || (65 ≤ ch && ch ≤ 70)

def HexToInt (ch : UInt8) : UInt8 :=
  if 48 ≤ ch && ch ≤ 57 then ch - 48
  else if 97 ≤ ch && ch ≤ 102 then ch - 97 + 10
  else if 65 ≤ ch && ch ≤ 70 then ch - 65 + 10
  else 0

/-- An escape takes two more bytes; a percent sign that starts none stands for
itself. -/
def UrlDecode : Bytes → Bytes
  | 37 :: first :: second :: value =>
      if IsHexDigit first && IsHexDigit second then
        (HexToInt first * 16 + HexToInt second) :: UrlDecode value
      else
        37 :: UrlDecode (first :: second :: value)
  | 43 :: value => 32 :: UrlDecode value
  | c :: value => c :: UrlDecode value
  | [] => []

/-- `LLhttpParser::HeaderContext`. -/
structure HeaderContext where
  curHeader : Bytes := []
  url : Bytes := []
  headers : StringMap := ∅
  deriving DecidableEq

namespace HeaderContext

/-- `ctx.headers[ctx.cur_header] += data`, if a header is named. -/
def addValue (ctx : HeaderContext) (data : Bytes) : HeaderContext :=
  if ctx.curHeader = [] then
    ctx
  else
    { ctx with
      headers := ctx.headers.insert ctx.curHeader
        ((ctx.headers.lookup ctx.curHeader).getD [] ++ data) }

end HeaderContext

structure LLhttpParser (σ : Type*) where
  context : HttpContext := {}
  type : HttpParserType := .ReqType
  parser : σ
  headerCtx : HeaderContext := {}
  isPaused : Bool := false
  deriving DecidableEq

namespace LLhttpParser

variable {σ : Type*}

/-- The constructor, in a fresh context. -/
def new (llhttp : LLhttp σ) : LLhttpParser σ where
  parser := llhttp.llhttp_init

def setType (p : LLhttpParser σ) (type : HttpParserType) : LLhttpParser σ :=
  { p with type := type }

def setState (p : LLhttpParser σ) (state : HttpParseState) : LLhttpParser σ :=
  { p with context := { p.context with state := state } }

def setRequest (p : LLhttpParser σ) (request : HttpRequest) : LLhttpParser σ :=
  { p with context := { p.context with request := request } }

def setResponse (p : LLhttpParser σ) (response : HttpResponse) :
    LLhttpParser σ :=
  { p with context := { p.context with response := response } }

def onMethod (p : LLhttpParser σ) (data : Bytes) : LLhttpParser σ :=
  p.setRequest { p.context.request with method := Method.FromString data }

def onStatus (p : LLhttpParser σ) (statusCode : Int) : LLhttpParser σ :=
  p.setResponse { p.context.response with stateCode := statusCode }

def onStatusComplete (p : LLhttpParser σ) : LLhttpParser σ :=
  if p.type = .RespType then p.setState .kExpectHeaders else p

def onUrl (p : LLhttpParser σ) (data : Bytes) : LLhttpParser σ :=
  { p with headerCtx := { p.headerCtx with url := p.headerCtx.url ++ data } }

/-- What the loop of `parseQueryParams` does with the bytes between two
ampersands. -/
def parseQueryParam (request : HttpRequest) (part : Bytes) : HttpRequest :=
  if part = [] then
    request
  else
    let (key, val) :=
      match part.idxOf? 61 with
      | some equal => (part.take equal, part.drop (equal + 1))
      | none => (part, [])
    if UrlDecode key = [] then
      request
    else
      request.addQureyParam (UrlDecode key) (UrlDecode val)

def parseQueryParams (query : Bytes) (request : HttpRequest) : HttpRequest :=
  (query.splitOn 38).foldl parseQueryParam request

def parseUrl (url : Bytes) (request : HttpRequest) : HttpRequest :=
  match url.idxOf? 63 with
  | some queryPos =>
      parseQueryParams (url.drop (queryPos + 1))
        { request with path := url.take queryPos }
  | none => { request with path := url }

def onUrlComplete (p : LLhttpParser σ) : LLhttpParser σ :=
  p.setRequest (parseUrl p.headerCtx.url p.context.request)

def onVersion (p : LLhttpParser σ) (data : Bytes) : LLhttpParser σ :=
  let s := ascii "HTTP/" ++ data
  if p.type = .ReqType then
    p.setRequest { p.context.request with version := Version.FromString s }
  else
    p.setResponse { p.context.response with version := Version.FromString s }

def onHeaderField (p : LLhttpParser σ) (data : Bytes) : LLhttpParser σ :=
  { p with headerCtx := { p.headerCtx with curHeader := data } }

def onHeaderValue (p : LLhttpParser σ) (data : Bytes) : LLhttpParser σ :=
  { p with headerCtx := p.headerCtx.addValue data }

def onHeadersComplete (p : LLhttpParser σ) : LLhttpParser σ :=
  let p :=
    if p.type = .ReqType then
      p.setRequest { p.context.request with headers := p.headerCtx.headers }
    else
      p.setResponse { p.context.response with headers := p.headerCtx.headers }
  p.setState .kExpectBody

/-- The content type `onBody` gives the body, and the bytes behind it. -/
def addBody (body : Body) (contentTypeStr data : Bytes) : Body :=
  (body.setContentType
    (if contentTypeStr = [] then .kOctetStream
    else ContentType.FromString contentTypeStr)).appendData data

def onBody (p : LLhttpParser σ) (data : Bytes) : LLhttpParser σ :=
  if p.type = .ReqType then
    let request := p.context.request
    p.setRequest { request with
      body := addBody request.body (request.getHeader (ascii "Content-Type"))
        data }
  else
    let response := p.context.response
    p.setResponse { response with
      body := addBody response.body (response.getHeader (ascii "Content-Type"))
        data }

def onMessageComplete (p : LLhttpParser σ) : LLhttpParser σ :=
  { p with headerCtx := {} }.setState .kGotAll

def call (p : LLhttpParser σ) : Callback → LLhttpParser σ
  | .onMethod data => p.onMethod data
  | .onStatus _ statusCode => p.onStatus statusCode
  | .onStatusComplete => p.onStatusComplete
  | .onUrl data => p.onUrl data
  | .onUrlComplete => p.onUrlComplete
  | .onVersion data => p.onVersion data
  | .onHeaderField data => p.onHeaderField data
  | .onHeaderValue data => p.onHeaderValue data
  | .onHeadersComplete => p.onHeadersComplete
  | .onBody data => p.onBody data
  | .onMessageComplete => p.onMessageComplete

/-- How many of the `len` bytes are taken off the buffer. -/
def consumedLen (errorPos : Option Int) (len : Nat) : Nat :=
  match errorPos with
  | some pos => if 0 ≤ pos ∧ pos ≤ len then pos.toNat else len
  | none => len

def parse (llhttp : LLhttp σ) (p : LLhttpParser σ) (buf : Buffer) :
    Bool × LLhttpParser σ × Buffer :=
  let data := buf.readable
  let p :=
    if p.isPaused then
      { p with isPaused := false, parser := llhttp.llhttp_resume p.parser }
    else
      p
  let executed := llhttp.llhttp_execute p.parser data
  let p :=
    executed.callbacks.foldl call { p with parser := executed.parser }
  let buf := buf.reset (consumedLen executed.errorPos data.length)
  match executed.errno with
  | .HPE_OK => (true, p, buf)
  | .HPE_PAUSED | .HPE_PAUSED_UPGRADE =>
      (true, { p with isPaused := true }, buf)
  | .HPE_ERROR => (false, p, buf)

/-- `HttpContext::parseRequest(Buffer &, ...)`. -/
def parseRequest (llhttp : LLhttp σ) (p : LLhttpParser σ) (buf : Buffer) :
    Bool × LLhttpParser σ × Buffer :=
  (p.setType .ReqType).parse llhttp buf

end LLhttpParser

end KitMuduo
