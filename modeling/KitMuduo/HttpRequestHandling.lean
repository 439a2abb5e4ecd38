import KitMuduo.HttpMessageReprinted
import KitMuduo.HttpServer

/-!
# What becomes of one request

`handleRequest` runs `work_func` on the thread of the caller or hands it to the
pool, where it is a packaged task whose future nobody keeps.  A servlet may call
functions of the connection itself, and it may throw.  Nothing in `work_func`
behind the servlet runs then.
-/

namespace KitMuduo

inductive ConnCall
  | send (data : Bytes)
  | shutdown
  deriving DecidableEq

/-- What a servlet called on the connection, and the context it returned with
unless it threw. -/
structure Served where
  calls : List ConnCall
  context : Option HttpContext

/-- A response on which `toString` is called, with the order in which it meets
the headers. -/
structure PrintedResponse where
  response : HttpResponse
  walk : Traversal response.setOwnHeaders.headers

namespace PrintedResponse

def text (printed : PrintedResponse) : Bytes :=
  (printed.response.toString printed.walk).1

/-- The header `Connection: close` is printed. -/
def SaysClose (printed : PrintedResponse) : Prop :=
  (ascii "Connection", ascii "close") ∈ printed.walk.elements

theorem saysClose_iff (printed : PrintedResponse) :
    printed.SaysClose ↔
      ¬ (printed.response.version = .kHttp11 ∧
        printed.response.connectionClosed = false) := by
  have different : ascii "keep-alive" ≠ ascii "close" := by decide
  rw [SaysClose, printed.walk.mem_iff,
    HttpResponse.lookup_setOwnHeaders_connection, Option.some.injEq,
    HttpResponse.connection]
  split
  · next stays => simp [stays, different]
  · next closes => simp [closes]

end PrintedResponse

/-- What came of a request: what the servlet called on the connection, the
response of the server itself, what was called behind it, and whether an
exception left `handleRequest`. -/
structure Answer where
  servletCalls : List ConnCall
  reply : Option PrintedResponse
  callsBehind : List ConnCall
  threw : Bool

namespace Answer

/-- All calls on the connection in their order. -/
def calls (answer : Answer) : List ConnCall :=
  answer.servletCalls ++
    (answer.reply.map fun printed => .send printed.text).toList ++
      answer.callsBehind

end Answer

namespace HttpRequestHandling

/-- How the header loop of `toString` walks over each map. -/
abbrev Walks := (map : StringMap) → Traversal map

def print (walks : Walks) (response : HttpResponse) : PrintedResponse where
  response := response
  walk := walks response.setOwnHeaders.headers

/-- The context a servlet gets. -/
def prepared (context : HttpContext) : HttpContext :=
  { context with
    response :=
      { context.response with
        connectionClosed := HttpServer.closeRequested context.request } }

def workFunc (walks : Walks) (handle : HttpContext → Served)
    (context : HttpContext) : Answer :=
  let served := handle (prepared context)
  match served.context with
  | none => ⟨served.calls, none, [], true⟩
  | some context =>
      ⟨served.calls, some (print walks context.response),
        if context.response.connectionClosed then [.shutdown] else [], false⟩

/-- `handleRequest`; `submitted` is missing without a pool.  A packaged task
keeps the exception of its function. -/
def handleRequest (walks : Walks) (submitted : Option SubmitStatus)
    (handle : HttpContext → Served) (context : HttpContext) : Answer :=
  match submitted with
  | none => workFunc walks handle context
  | some .kOK => { workFunc walks handle context with threw := false }
  | some .kStopping | some .kTimeout =>
      ⟨[], some (print walks
        (ServiceUnavailable503Servlet.Handle context).response), [.shutdown],
        false⟩

/-- The pool takes no task. -/
def Refuses (submitted : Option SubmitStatus) : Prop :=
  submitted = some .kStopping ∨ submitted = some .kTimeout

instance (submitted : Option SubmitStatus) : Decidable (Refuses submitted) :=
  inferInstanceAs (Decidable (_ ∨ _))

variable {walks : Walks} {submitted : Option SubmitStatus}
  {handle : HttpContext → Served} {context : HttpContext}

theorem handleRequest_of_refuses (refuses : Refuses submitted) :
    handleRequest walks submitted handle context =
      ⟨[], some (print walks
        (ServiceUnavailable503Servlet.Handle context).response), [.shutdown],
        false⟩ := by
  rcases refuses with rfl | rfl <;> rfl

/-- A request that is not refused is handled by `work_func`, and without a pool
its exceptions come out. -/
theorem handleRequest_of_not_refuses (accepts : ¬ Refuses submitted) :
    handleRequest walks submitted handle context =
      { workFunc walks handle context with
        threw := (workFunc walks handle context).threw && submitted.isNone } := by
  cases submitted with
  | none => simp [handleRequest]
  | some status =>
      cases status with
      | kOK => simp [handleRequest]
      | kStopping => exact absurd (.inl rfl) accepts
      | kTimeout => exact absurd (.inr rfl) accepts

theorem workFunc_of_throws
    (throws : (handle (prepared context)).context = none) :
    workFunc walks handle context =
      ⟨(handle (prepared context)).calls, none, [], true⟩ := by
  simp only [workFunc, throws]

theorem workFunc_of_returns {left : HttpContext}
    (returns : (handle (prepared context)).context = some left) :
    workFunc walks handle context =
      ⟨(handle (prepared context)).calls, some (print walks left.response),
        if left.response.connectionClosed then [.shutdown] else [], false⟩ := by
  simp only [workFunc, returns]

/-! ## The connection header -/

/-- A response of the server says `Connection: close` exactly if a shutdown
follows. -/
def TellsTruth (answer : Answer) : Prop :=
  ∀ printed, answer.reply = some printed →
    (printed.SaysClose ↔ .shutdown ∈ answer.callsBehind)

/-- The response a servlet leaves is marked closed or has the version that can
stay open. -/
def LeavesDecided (handle : HttpContext → Served) (context : HttpContext) :
    Prop :=
  ∀ left, (handle (prepared context)).context = some left →
    left.response.connectionClosed = true ∨ left.response.version = .kHttp11

theorem tellsTruth_reply_iff {servletCalls behind : List ConnCall}
    {response : HttpResponse} {threw : Bool} :
    TellsTruth ⟨servletCalls, some (print walks response), behind, threw⟩ ↔
      (¬ (response.version = .kHttp11 ∧ response.connectionClosed = false) ↔
        .shutdown ∈ behind) := by
  have close := (print walks response).saysClose_iff
  constructor
  · intro truth
    exact close.symm.trans (truth _ rfl)
  · rintro same _ ⟨⟩
    exact close.trans same

theorem tellsTruth_workFunc_iff :
    TellsTruth (workFunc walks handle context) ↔
      LeavesDecided handle context := by
  unfold LeavesDecided
  cases returned : (handle (prepared context)).context with
  | none =>
      rw [workFunc_of_throws returned]
      simp [TellsTruth]
  | some left =>
      rw [workFunc_of_returns returned, tellsTruth_reply_iff]
      cases closed : left.response.connectionClosed with
      | false => simp [closed]
      | true => simp [closed]

/-- The header tells the truth exactly if the request is refused, or the servlet
leaves a response whose flag and version do not contradict each other. -/
theorem tellsTruth_iff :
    TellsTruth (handleRequest walks submitted handle context) ↔
      Refuses submitted ∨ LeavesDecided handle context := by
  by_cases refuses : Refuses submitted
  · rw [handleRequest_of_refuses refuses, tellsTruth_reply_iff]
    simp [refuses, ServiceUnavailable503Servlet.Handle, HttpResponse.addHeader]
  · rw [handleRequest_of_not_refuses refuses, or_iff_right refuses]
    exact tellsTruth_workFunc_iff

/-- A request of a client that asks for nothing special. -/
def plainContext : HttpContext :=
  { request := { method := .kGet, path := ascii "/", version := .kHttp11 } }

/-- A servlet that sets the status of the response and nothing else. -/
def statusOnly (context : HttpContext) : Served :=
  ⟨[], some { context with
    response := { context.response with stateCode := StateCode.k200Ok } }⟩

theorem not_tellsTruth_statusOnly :
    ¬ ∀ (walks : Walks) (submitted : Option SubmitStatus)
      (handle : HttpContext → Served) (context : HttpContext),
        TellsTruth (handleRequest walks submitted handle context) := by
  intro always
  have walks : Walks := fun map => (Traversal.nonempty map).some
  have truth := always walks none statusOnly plainContext
  have returned : (statusOnly (prepared plainContext)).context =
      some { prepared plainContext with
        response := { (prepared plainContext).response with
          stateCode := StateCode.k200Ok } } := rfl
  rw [handleRequest, workFunc_of_returns returned, tellsTruth_reply_iff]
    at truth
  exact absurd truth (by decide)

/-! ## Exceptions -/

/-- The client gets a response or the connection is shut down, and nothing is
thrown. -/
def Contained (answer : Answer) : Prop :=
  answer.calls ≠ [] ∧ answer.threw = false

def Returns (handle : HttpContext → Served) (context : HttpContext) : Prop :=
  (handle (prepared context)).context ≠ none

/-- The servlet throws in the pool, behind a call of its own that answered the
request or shut the connection down. -/
def AnsweredItself (submitted : Option SubmitStatus)
    (handle : HttpContext → Served) (context : HttpContext) : Prop :=
  submitted.isSome = true ∧ (handle (prepared context)).calls ≠ []

theorem contained_handleRequest_iff :
    Contained (handleRequest walks submitted handle context) ↔
      Refuses submitted ∨ Returns handle context ∨
        AnsweredItself submitted handle context := by
  by_cases refuses : Refuses submitted
  · rw [handleRequest_of_refuses refuses]
    simp [Contained, Answer.calls, refuses]
  · rw [handleRequest_of_not_refuses refuses, or_iff_right refuses, Returns,
      AnsweredItself]
    cases returned : (handle (prepared context)).context with
    | none =>
        rw [workFunc_of_throws returned]
        simp [Contained, Answer.calls, and_comm]
    | some left =>
        rw [workFunc_of_returns returned]
        simp [Contained, Answer.calls]

end HttpRequestHandling

end KitMuduo
