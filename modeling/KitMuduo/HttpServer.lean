import KitMuduo.HttpMessage
import KitMuduo.TcpConnection
import KitMuduo.ThreadPool

/-!
# The server with its business pool on one connection

`onMessage` hands every complete request to `handleRequest`, which submits the
work to the pool.  A worker runs the servlet and calls `send` and, if the
connection is to be closed, `shutdown` of the connection from its own thread.
A request that the pool refuses and a malformed one are answered on the loop
thread itself.
-/

namespace KitMuduo

namespace ServiceUnavailable503Servlet

def body : Bytes :=
  ascii ("<html>" ++
    "<head><title>503 Service Unavailable</title></head>" ++
    "<body>" ++
    "<div style=\"text-align:center\">" ++
    "<h1>503 Service Unavailable</h1>" ++
    "<p>kit server</p>" ++
    "</div>" ++
    "</body>" ++
    "</html>")

def Handle (context : HttpContext) : HttpContext :=
  let response :=
    { context.response with
      version := .kHttp11
      stateCode := StateCode.k503ServiceUnavailable
      connectionClosed := true }
  let response := response.addHeader (ascii "Content-Type") (ascii "text/html")
  { context with
    response := { response with body := response.body.appendData body } }

end ServiceUnavailable503Servlet

namespace BadRequest400Servlet

def Handle (context : HttpContext) : HttpContext :=
  { context with
    response :=
      { context.response with
        version := .kHttp11
        stateCode := StateCode.k400BadRequest
        connectionClosed := true
        body := context.response.body.reset } }

end BadRequest400Servlet

/-- What a worker of the pool is doing for the connection.  The number is that
of the request on the connection. -/
inductive WorkerPhase
  | idle
  /-- It has taken the task; the servlet has not finished. -/
  | serving (index : Nat) (context : HttpContext)
  /-- The servlet has returned; `conn->send` comes next. -/
  | sending (index : Nat) (response : HttpResponse)
  /-- It is inside `conn->send` or just past it. -/
  | sent (index : Nat) (closed : Bool)
  /-- It is inside `conn->shutdown` or just past it. -/
  | closing
  deriving DecidableEq

/-- The server as far as one connection is concerned; `W` is the type of the
workers.  `requests` counts the requests of the connection that were handed to
`handleRequest` or found malformed.  `replied` says that the loop thread is
between `conn->send` and `conn->shutdown` of an answer of its own.  `closing`
records that a shutdown is under way: queued by a worker, or part of such an
answer. -/
structure HttpServer (W : Type*) where
  conn : TcpConnection W Nat
  requests : Nat
  tasks : List (Nat × HttpContext)
  workers : W → WorkerPhase
  replied : Bool
  closing : Bool

namespace HttpServer

variable {W : Type*} [DecidableEq W]

def new (hasWriteComplete : Bool) : HttpServer W where
  conn := (TcpConnection.new hasWriteComplete).connectEstablished
  requests := 0
  tasks := []
  workers := fun _ => .idle
  replied := false
  closing := false

/-- The test with which `work_func` decides to close the connection. -/
def closeRequested (request : HttpRequest) : Bool :=
  let connection := request.getHeader (ascii "Connection")
  connection = ascii "close" ∨
    (request.version = .kHttp10 ∧ connection ≠ ascii "keep-alive")

/-- The part of `work_func` in front of `conn->send`; `none` is an exception
of the servlet. -/
def workFunc (handle : HttpContext → Option HttpContext)
    (context : HttpContext) : Option HttpResponse :=
  let closed := closeRequested context.request
  let context :=
    { context with
      response := { context.response with connectionClosed := closed } }
  (handle context).map HttpContext.response

/-- An answer sent on the loop thread, up to `conn->send`. -/
def replyInLoop (s : HttpServer W) (text : Bytes) (result : WriteResult) :
    HttpServer W :=
  { s with
    conn := s.conn.loopSendRecorded ⟨s.requests, text⟩ result
    requests := s.requests + 1
    replied := true
    closing := true }

/-- `handleRequest` for the next request of the connection, in pool mode. -/
def handleRequest (toText : HttpResponse → Bytes) (s : HttpServer W)
    (context : HttpContext) (submitted : SubmitStatus) (result : WriteResult) :
    HttpServer W :=
  match submitted with
  | .kOK =>
      { s with
        tasks := s.tasks ++ [(s.requests, context)]
        requests := s.requests + 1 }
  | .kStopping | .kTimeout =>
      s.replyInLoop
        (toText (ServiceUnavailable503Servlet.Handle context).response) result

/-- The branch of `onMessage` for a request that does not parse. -/
def parseFailed (toText : HttpResponse → Bytes) (s : HttpServer W)
    (context : HttpContext) (result : WriteResult) : HttpServer W :=
  s.replyInLoop (toText (BadRequest400Servlet.Handle context).response) result

/-- A step of the loop thread, of a worker, or of the pool. -/
inductive Action (W : Type*)
  /-- `onMessage` on the loop thread. -/
  | handleRequest (context : HttpContext) (submitted : SubmitStatus)
      (result : WriteResult)
  | parseFailed (context : HttpContext) (result : WriteResult)
  | shutdownReplied
  /-- A worker takes the first task, runs the servlet, calls `conn->send` and
  then `conn->shutdown` if the response says so. -/
  | takeTask (worker : W)
  | serve (worker : W) (handle : HttpContext → Option HttpContext)
  | send (worker : W)
  | shutdownOrDone (worker : W)
  | done (worker : W)
  /-- The second half of a call on the connection. -/
  | queueCall (worker : W)
  /-- The loop thread runs queued functions and handles write events. -/
  | swapPendingFuncs
  | runPendingFunc (result : WriteResult)
  | handleWrite (result : WriteResult)

def setWorker (s : HttpServer W) (worker : W) (phase : WorkerPhase) :
    HttpServer W :=
  { s with workers := Function.update s.workers worker phase }

/-- The loop thread handles no other event before `conn->shutdown` of its
answer, and reads requests outside `doPendingFuncs` only. -/
def loopFree (s : HttpServer W) : Bool :=
  s.replied = false

def withConn (s : HttpServer W) (conn : Option (TcpConnection W Nat)) :
    Option (HttpServer W) :=
  conn.map fun conn => { s with conn := conn }

def step (toText : HttpResponse → Bytes) (s : HttpServer W) :
    Action W → Option (HttpServer W)
  | .handleRequest context submitted result =>
      if s.loopFree = true ∧ s.conn.running = [] then
        some (s.handleRequest toText context submitted result)
      else
        none
  | .parseFailed context result =>
      if s.loopFree = true ∧ s.conn.running = [] then
        some (s.parseFailed toText context result)
      else
        none
  | .shutdownReplied =>
      if s.replied = true then
        some { s with conn := s.conn.loopShutdown, replied := false }
      else
        none
  | .takeTask worker =>
      match s.workers worker, s.tasks with
      | .idle, (index, context) :: rest =>
          some ({ s with tasks := rest }.setWorker worker
            (.serving index context))
      | _, _ => none
  | .serve worker handle =>
      match s.workers worker with
      | .serving index context =>
          match workFunc handle context with
          | none => some (s.setWorker worker .idle)
          | some response => some (s.setWorker worker (.sending index response))
      | _ => none
  | .send worker =>
      match s.workers worker with
      | .sending index response =>
          (s.withConn (s.conn.step
            (.callSend worker ⟨index, toText response⟩))).map
            (·.setWorker worker (.sent index response.connectionClosed))
      | _ => none
  | .shutdownOrDone worker =>
      match s.workers worker, s.conn.calls worker with
      | .sent _ true, none =>
          (s.withConn (s.conn.step (.callShutdown worker))).map
            (·.setWorker worker .closing)
      | .sent _ false, none => some (s.setWorker worker .idle)
      | _, _ => none
  | .done worker =>
      match s.workers worker, s.conn.calls worker with
      | .closing, none => some (s.setWorker worker .idle)
      | _, _ => none
  | .queueCall worker =>
      let closing : Bool :=
        s.closing || (s.conn.calls worker = some .shutdownInLoop)
      { s with closing := closing }.withConn
        (s.conn.step (.queueCall worker))
  | .swapPendingFuncs =>
      if s.loopFree = true then
        s.withConn (s.conn.step .swapPendingFuncs)
      else
        none
  | .runPendingFunc result =>
      if s.loopFree = true then
        s.withConn (s.conn.step (.runPendingFunc result))
      else
        none
  | .handleWrite result =>
      if s.loopFree = true then
        s.withConn (s.conn.step (.handleWrite result))
      else
        none

/-- The connection after a worker has queued what it called for. -/
def connQueued (s : HttpServer W) (worker : W) (func : Func W Nat) :
    TcpConnection W Nat :=
  { s.conn with
    calls := Function.update s.conn.calls worker none }.queueInLoop func

theorem step_queueCall {s later : HttpServer W}
    {toText : HttpResponse → Bytes} {worker : W}
    (taken : s.step toText (.queueCall worker) = some later) :
    ∃ func, s.conn.calls worker = some func ∧
      later = { s with
        closing := s.closing || (func = .shutdownInLoop : Bool)
        conn := s.connQueued worker func } := by
  cases calling : s.conn.calls worker with
  | none => simp [step, TcpConnection.step, calling, withConn] at taken
  | some func =>
      simp only [step, TcpConnection.step, calling, withConn,
        Option.map_some, Option.some.injEq] at taken
      exact ⟨func, rfl, taken.symm⟩

end HttpServer

end KitMuduo
