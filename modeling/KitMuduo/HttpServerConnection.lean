import KitMuduo.HttpRequestHandling
import KitMuduo.RequestScanner

/-!
# A connection of the server with its requests

`onMessage` parses what a read has brought, hands every complete request to
`handleRequest` and puts a fresh context in its place.  It answers a malformed
request itself and returns.  What it knows of a shutdown is nothing: the loop
and later reads go on as before.
-/

namespace KitMuduo

open GuardedRuns HttpRequestHandling

variable {σ T : Type*}

/-- What the loop of `onMessage` has met. -/
inductive HandledRequest
  | dispatched (request : HttpRequest) (answer : Answer)
  | malformed

namespace HandledRequest

/-- `conn->shutdown()` was called for it. -/
def Closes : HandledRequest → Prop
  | dispatched _ answer => .shutdown ∈ answer.calls
  | malformed => True

instance : DecidablePred Closes
  | dispatched _ answer => inferInstanceAs (Decidable (_ ∈ answer.calls))
  | malformed => .isTrue trivial

end HandledRequest

/-- A connection, its context and its input buffer, and the record of what was
handled.  `escaped` says that an exception has left `onMessage`, and with it the
event loop, which catches none. -/
structure HttpConnection (σ T : Type*) where
  conn : TcpConnection T Unit
  parser : LLhttpParser σ
  inputBuffer : Buffer
  inOnMessage : Bool
  handled : List HandledRequest
  escaped : Bool

namespace HttpConnection

/-- The connection callback has put a context in place. -/
def new (llhttp : LLhttp σ) (hasWriteComplete : Bool) : HttpConnection σ T where
  conn := (TcpConnection.new hasWriteComplete).connectEstablished
  parser := .new llhttp
  inputBuffer := .new Buffer.kInitSize
  inOnMessage := false
  handled := []
  escaped := false

/-- A call on the loop thread. -/
def callConn (conn : TcpConnection T Unit) (result : WriteResult) :
    ConnCall → TcpConnection T Unit
  | .send data => conn.loopSendRecorded ⟨(), data⟩ result
  | .shutdown => conn.loopShutdown

/-- Calls one after another; `results` says what `write` answers in each. -/
def callsConn (results : Nat → WriteResult) (conn : TcpConnection T Unit)
    (calls : List ConnCall) : TcpConnection T Unit :=
  calls.zipIdx.foldl (fun conn (call, i) => callConn conn (results i) call) conn

/-- The answer to a malformed request. -/
def badRequestCalls (walks : Walks) (context : HttpContext) : List ConnCall :=
  [.send (print walks (BadRequest400Servlet.Handle context).response).text,
    .shutdown]

/-- The call of `_httpCallBack` for a complete request, and what follows it.
What is submitted to the pool calls the connection later, from a thread of the
pool. -/
def httpCallBack (llhttp : LLhttp σ) (walks : Walks)
    (submitted : Option SubmitStatus) (handle : HttpContext → Served)
    (results : Nat → WriteResult) (s : HttpConnection σ T)
    (context : HttpContext) : HttpConnection σ T :=
  let answer := handleRequest walks submitted handle context
  let called : HttpConnection σ T :=
    { s with
      conn := if submitted = some .kOK then s.conn
        else callsConn results s.conn answer.calls
      handled := s.handled ++ [.dispatched context.request answer] }
  if answer.threw = true then
    { called with escaped := true, inOnMessage := false }
  else
    { called with parser := .new llhttp }

/-- The body of the loop of `onMessage`. -/
def parseNext (llhttp : LLhttp σ) (walks : Walks)
    (submitted : Option SubmitStatus) (handle : HttpContext → Served)
    (results : Nat → WriteResult) (s : HttpConnection σ T) :
    HttpConnection σ T :=
  let (ok, parser, buf) := s.parser.parseRequest llhttp s.inputBuffer
  let parsed : HttpConnection σ T :=
    { s with parser := parser, inputBuffer := buf }
  if ok = false then
    { parsed with
      conn := callsConn results s.conn (badRequestCalls walks parser.context)
      handled := s.handled ++ [.malformed]
      inOnMessage := false }
  else if parser.context.gotAll = false then
    { parsed with inOnMessage := false }
  else
    httpCallBack llhttp walks submitted handle results parsed parser.context

/-- A read brings bytes and calls `onMessage`; its loop turns; the connection
takes another step. -/
inductive Action (T : Type*)
  | handleRead (read : Bytes)
  | onMessage (submitted : Option SubmitStatus)
      (handle : HttpContext → Served) (results : Nat → WriteResult)
  | conn (action : TcpConnection.Action T Unit)

/-- The calls of other threads. -/
def ofOtherThread : TcpConnection.Action T Unit → Bool
  | .callSend _ _ | .callShutdown _ | .queueCall _ => true
  | _ => false

/-- The loop thread is at none of its functions for the connection. -/
def loopFree (s : HttpConnection σ T) : Bool :=
  !s.inOnMessage && !s.escaped

def step [DecidableEq T] (llhttp : LLhttp σ) (walks : Walks)
    (s : HttpConnection σ T) : Action T → Option (HttpConnection σ T)
  | .handleRead read =>
      if s.loopFree = true ∧ s.conn.reading = true ∧ s.conn.running = [] ∧
          read ≠ [] then
        some { s with
          inputBuffer := s.inputBuffer.append read
          inOnMessage := true }
      else
        none
  | .onMessage submitted handle results =>
      if s.inOnMessage = true then
        if s.inputBuffer.readableBytes = 0 then
          some { s with inOnMessage := false }
        else
          some (s.parseNext llhttp walks submitted handle results)
      else
        none
  | .conn action =>
      if ofOtherThread action = true ∨ s.loopFree = true then
        (s.conn.step action).map fun conn => { s with conn := conn }
      else
        none

variable {llhttp : LLhttp σ} {walks : Walks} {s t : HttpConnection σ T}
  {submitted : Option SubmitStatus} {handle : HttpContext → Served}
  {results : Nat → WriteResult}

/-- The context of the request that the unread bytes complete. -/
def completed (llhttp : LLhttp σ) (s : HttpConnection σ T) :
    Option HttpContext :=
  if s.inputBuffer.readableBytes = 0 then
    none
  else
    let (ok, parser, _) := s.parser.parseRequest llhttp s.inputBuffer
    if ok = true ∧ parser.context.gotAll = true then
      some parser.context
    else
      none

/-- A turn of the loop on a complete request. -/
theorem parseNext_of_completed {context : HttpContext}
    (complete : s.completed llhttp = some context) :
    ∃ (parser : LLhttpParser σ) (buf : Buffer),
      s.parseNext llhttp walks submitted handle results =
        httpCallBack llhttp walks submitted handle results
          { s with parser := parser, inputBuffer := buf } context := by
  unfold completed at complete
  split at complete
  · cases complete
  · split at complete
    next ok parser buf parsed =>
      split at complete
      · next both =>
          cases complete
          refine ⟨parser, buf, ?_⟩
          simp only [parseNext, parsed]
          rw [if_neg (by simp [both.1]), if_neg (by simp [both.2])]
      · cases complete

theorem handled_of_not_completed (some : s.inputBuffer.readableBytes ≠ 0)
    (incomplete : s.completed llhttp = none) :
    (s.parseNext llhttp walks submitted handle results).handled = s.handled ∨
      (s.parseNext llhttp walks submitted handle results).handled =
        s.handled ++ [.malformed] := by
  unfold completed at incomplete
  rw [if_neg some] at incomplete
  split at incomplete
  next ok parser buf parsed =>
    split at incomplete
    · cases incomplete
    · next notBoth =>
        simp only [parseNext, parsed]
        split
        · exact .inr rfl
        · next accepted =>
            have notAll : parser.context.gotAll = false := by
              simpa [accepted] using notBoth
            rw [if_pos notAll]
            exact .inl rfl

theorem handled_httpCallBack (context : HttpContext) :
    (httpCallBack llhttp walks submitted handle results s context).handled =
      s.handled ++ [.dispatched context.request
        (handleRequest walks submitted handle context)] := by
  unfold httpCallBack
  dsimp only
  split <;> rfl

theorem escaped_httpCallBack (context : HttpContext)
    (inLoop : s.escaped = false) :
    (httpCallBack llhttp walks submitted handle results s context).escaped =
      (handleRequest walks submitted handle context).threw := by
  unfold httpCallBack
  dsimp only
  split
  · next threw => exact threw.symm
  · next notThrew => rw [inLoop, Bool.eq_false_of_not_eq_true notThrew]

theorem unread_of_completed {context : HttpContext}
    (complete : s.completed llhttp = some context) :
    s.inputBuffer.readableBytes ≠ 0 := by
  intro empty
  simp [completed, empty] at complete

variable [DecidableEq T] {action : Action T}

theorem step_onMessage (inLoop : s.inOnMessage = true)
    (unread : s.inputBuffer.readableBytes ≠ 0) :
    s.step llhttp walks (.onMessage submitted handle results) =
      some (s.parseNext llhttp walks submitted handle results) := by
  simp only [step, if_pos inLoop, if_neg unread]

/-- The step is a turn of the loop that meets a complete request. -/
def Meets (llhttp : LLhttp σ) (s : HttpConnection σ T) (action : Action T) :
    Prop :=
  (∃ submitted handle results, action = .onMessage submitted handle results) ∧
    s.completed llhttp ≠ none

/-- What a step adds to the requests handled. -/
theorem handled_step (taken : s.step llhttp walks action = some t) :
    ¬ s.Meets llhttp action ∧
        (t.handled = s.handled ∨ t.handled = s.handled ++ [.malformed]) ∨
      s.Meets llhttp action ∧
        ∃ request answer,
          t.handled = s.handled ++ [.dispatched request answer] := by
  cases action with
  | handleRead read =>
      simp only [step] at taken
      split at taken
      · cases taken
        exact .inl ⟨by simp [Meets], .inl rfl⟩
      · cases taken
  | onMessage submitted handle results =>
      simp only [step] at taken
      split at taken
      · split at taken
        · next empty =>
            cases taken
            exact .inl ⟨by simp [Meets, completed, empty], .inl rfl⟩
        · next some =>
            cases taken
            cases complete : s.completed llhttp with
            | none =>
                exact .inl ⟨by simp [Meets, complete],
                  handled_of_not_completed some complete⟩
            | some context =>
                obtain ⟨parser, buf, turned⟩ := parseNext_of_completed complete
                rw [turned]
                exact .inr ⟨by simp [Meets, complete], _, _,
                  handled_httpCallBack context⟩
      · cases taken
  | conn action =>
      simp only [step] at taken
      split at taken
      · obtain ⟨conn, _, rfl⟩ := Option.map_eq_some_iff.mp taken
        exact .inl ⟨by simp [Meets], .inl rfl⟩
      · cases taken

/-! ## Requests behind a shutdown -/

/-- Behind a request for which the connection was shut down none is
dispatched. -/
def NoneBehindClose (s : HttpConnection σ T) : Prop :=
  s.handled.Pairwise fun first later => first.Closes → later = .malformed

/-- The server has no pool. -/
def WithoutPool (_ : HttpConnection σ T) : Action T → Prop
  | .onMessage submitted _ _ => submitted = none
  | _ => True

instance (s : HttpConnection σ T) (action : Action T) :
    Decidable (s.WithoutPool action) :=
  match action with
  | .onMessage submitted _ _ => inferInstanceAs (Decidable (submitted = none))
  | .handleRead _ | .conn _ => .isTrue trivial

/-- If the loop meets a complete request, the connection was not shut down for
an earlier one. -/
def MeetsBeforeClose (llhttp : LLhttp σ) (s : HttpConnection σ T)
    (action : Action T) : Prop :=
  s.Meets llhttp action → ∀ earlier ∈ s.handled, ¬ earlier.Closes

theorem noneBehindClose_step_iff (before : s.NoneBehindClose)
    (taken : s.step llhttp walks action = some t) :
    t.NoneBehindClose ↔ s.MeetsBeforeClose llhttp action := by
  have added : ∀ last, t.handled = s.handled ++ [last] →
      (t.NoneBehindClose ↔
        ∀ earlier ∈ s.handled, earlier.Closes → last = .malformed) := by
    intro last handled
    rw [NoneBehindClose, handled, List.pairwise_append]
    simp only [List.pairwise_singleton, List.mem_singleton, forall_eq, true_and]
    exact and_iff_right before
  rcases handled_step taken with
    ⟨meetsNot, same | malformed⟩ | ⟨meets, request, answer, dispatched⟩
  · have after : t.NoneBehindClose := by
      rw [NoneBehindClose, same]
      exact before
    exact iff_of_true after fun meets => absurd meets meetsNot
  · have after := (added _ malformed).mpr fun _ _ _ => rfl
    exact iff_of_true after fun meets => absurd meets meetsNot
  · rw [added _ dispatched, MeetsBeforeClose]
    constructor
    · intro behind _ earlier member closes
      cases behind earlier member closes
    · intro open_ earlier member closes
      exact absurd closes (open_ meets earlier member)

/-- No run dispatches a request behind a shutdown exactly if none of its steps
meets a complete one there. -/
theorem noneBehindClose_run_iff {hasWriteComplete : Bool}
    {actions : List (Action T)} {s : HttpConnection σ T}
    (run : Reaches (step llhttp walks) WithoutPool (new llhttp hasWriteComplete)
      actions s) :
    (∀ earlier state, earlier <+: actions →
      Reaches (step llhttp walks) WithoutPool (new llhttp hasWriteComplete)
        earlier state → state.NoneBehindClose) ↔
    Reaches (step llhttp walks)
      (fun s action => WithoutPool s action ∧ s.MeetsBeforeClose llhttp action)
      (new llhttp hasWriteComplete) actions s := by
  have initially : (new llhttp hasWriteComplete :
      HttpConnection σ T).NoneBehindClose := List.Pairwise.nil
  exact Reaches.throughout_iff (fun _ => trivial) initially
    (fun _ before _ taken => noneBehindClose_step_iff before taken) run

/-- A read brings two requests, for which a servlet sets the status. -/
def pipelinedRun (first second : Bytes) : List (Action Empty) :=
  [.handleRead (first ++ second),
    .onMessage none statusOnly fun _ => .wouldBlock,
    .onMessage none statusOnly fun _ => .wouldBlock]

def keepAliveRequest : Bytes :=
  ascii "GET / HTTP/1.1\r\nHost: kit\r\n\r\n"

def closeRequest : Bytes :=
  ascii "GET / HTTP/1.1\r\nConnection: close\r\n\r\n"

/-- For which of the requests the connection was shut down. -/
def closings (s : HttpConnection σ T) : List Bool :=
  s.handled.map fun handled => decide handled.Closes

set_option maxRecDepth 10000 in
theorem closings_keepAliveFirst (walks : Walks) :
    (evaluate (step RequestScanner.llhttp walks) WithoutPool
      (new RequestScanner.llhttp false)
        (pipelinedRun keepAliveRequest closeRequest)).map closings =
      some [false, true] :=
  rfl

set_option maxRecDepth 10000 in
theorem closings_closeFirst (walks : Walks) :
    (evaluate (step RequestScanner.llhttp walks) WithoutPool
      (new RequestScanner.llhttp false)
        (pipelinedRun closeRequest keepAliveRequest)).map closings =
      some [true, false] :=
  rfl

theorem noneBehindClose_keepAliveFirst :
    ∃ walks s, Reaches (step RequestScanner.llhttp walks) WithoutPool
        (new RequestScanner.llhttp false)
          (pipelinedRun keepAliveRequest closeRequest) s ∧
      ((∀ earlier state,
          earlier <+: pipelinedRun keepAliveRequest closeRequest →
          Reaches (step RequestScanner.llhttp walks) WithoutPool
            (new RequestScanner.llhttp false) earlier state →
              state.NoneBehindClose) ↔
        Reaches (step RequestScanner.llhttp walks)
          (fun s action => WithoutPool s action ∧
            s.MeetsBeforeClose RequestScanner.llhttp action)
          (new RequestScanner.llhttp false)
            (pipelinedRun keepAliveRequest closeRequest) s) := by
  let walks : Walks := fun map => (Traversal.nonempty map).some
  obtain ⟨s, result, _⟩ :=
    Option.map_eq_some_iff.mp (closings_keepAliveFirst walks)
  have run := reaches_of_evaluate result
  exact ⟨walks, s, run, noneBehindClose_run_iff run⟩

theorem not_noneBehindClose_closeFirst :
    ¬ ∀ (walks : Walks) (actions : List (Action Empty))
      (s : HttpConnection RequestScanner Empty),
      Reaches (step RequestScanner.llhttp walks) WithoutPool
        (new RequestScanner.llhttp false) actions s → s.NoneBehindClose := by
  intro always
  let walks : Walks := fun map => (Traversal.nonempty map).some
  obtain ⟨s, result, closings⟩ :=
    Option.map_eq_some_iff.mp (closings_closeFirst walks)
  have none := always walks _ s (reaches_of_evaluate result)
  obtain ⟨first, rest, handled, firstCloses, closings⟩ :=
    List.map_eq_cons_iff.mp closings
  obtain ⟨second, _, rfl, secondOpen, _⟩ := List.map_eq_cons_iff.mp closings
  rw [NoneBehindClose, handled, List.pairwise_cons] at none
  have malformed := none.1 second List.mem_cons_self
    (of_decide_eq_true firstCloses)
  exact of_decide_eq_false secondOpen (malformed ▸ trivial)

/-! ## Exceptions -/

/-- The request is answered or its connection shut down, and the loop gets no
exception. -/
def HarmsOnlyItself (s t : HttpConnection σ T) : Prop :=
  t.escaped = false ∧ ∃ request answer,
    t.handled = s.handled ++ [.dispatched request answer] ∧ answer.calls ≠ []

/-- A turn of the loop on a complete request contains the exceptions of its
servlet exactly if there are none, the pool refuses the request, or the servlet
throws in the pool behind an answer of its own. -/
theorem harmsOnlyItself_iff {context : HttpContext}
    (inLoop : s.inOnMessage = true) (notEscaped : s.escaped = false)
    (complete : s.completed llhttp = some context)
    (taken : s.step llhttp walks (.onMessage submitted handle results) =
      some t) :
    s.HarmsOnlyItself t ↔
      Refuses submitted ∨ Returns handle context ∨
        AnsweredItself submitted handle context := by
  rw [step_onMessage inLoop (unread_of_completed complete), Option.some.injEq]
    at taken
  obtain ⟨parser, buf, turned⟩ := parseNext_of_completed complete
  let parsed : HttpConnection σ T :=
    { s with parser := parser, inputBuffer := buf }
  have escaped : (httpCallBack llhttp walks submitted handle results parsed
      context).escaped = (handleRequest walks submitted handle context).threw :=
    escaped_httpCallBack context notEscaped
  have contained :
      Contained (handleRequest walks submitted handle context) ↔ _ :=
    contained_handleRequest_iff
  rw [← contained, ← taken, turned, HarmsOnlyItself, escaped,
    handled_httpCallBack]
  simp [Contained, and_comm]

/-- The loop of `onMessage` in front of a complete request. -/
def received : HttpConnection RequestScanner Empty :=
  { new RequestScanner.llhttp false with
    inputBuffer := (Buffer.new Buffer.kInitSize).append keepAliveRequest
    inOnMessage := true }

set_option maxRecDepth 10000 in
theorem completed_received :
    (received.completed RequestScanner.llhttp).isSome = true :=
  rfl

theorem harmsOnlyItself_statusOnly :
    ∃ walks context t,
      received.completed RequestScanner.llhttp = some context ∧
      received.step RequestScanner.llhttp walks
        (.onMessage none statusOnly fun _ => .wouldBlock) = some t ∧
      (received.HarmsOnlyItself t ↔
        Refuses none ∨ Returns statusOnly context ∨
          AnsweredItself none statusOnly context) := by
  let walks : Walks := fun map => (Traversal.nonempty map).some
  obtain ⟨context, complete⟩ := Option.isSome_iff_exists.mp completed_received
  have inLoop : received.inOnMessage = true := rfl
  have notEscaped : received.escaped = false := rfl
  have taken : received.step RequestScanner.llhttp walks
      (.onMessage none statusOnly fun _ => .wouldBlock) =
        some (received.parseNext RequestScanner.llhttp walks none statusOnly
          fun _ => .wouldBlock) :=
    step_onMessage inLoop (unread_of_completed complete)
  exact ⟨walks, context, _, complete, taken,
    harmsOnlyItself_iff inLoop notEscaped complete taken⟩

/-- A servlet that throws at once. -/
def throwing (_ : HttpContext) : Served :=
  ⟨[], none⟩

set_option maxRecDepth 10000 in
theorem escaped_throwing (walks : Walks) :
    (received.parseNext RequestScanner.llhttp walks none throwing
      fun _ => .wouldBlock).escaped = true :=
  rfl

theorem not_harmsOnlyItself_throwing :
    ¬ ∀ (walks : Walks) (submitted : Option SubmitStatus)
      (handle : HttpContext → Served) (results : Nat → WriteResult)
      (s t : HttpConnection RequestScanner Empty) (context : HttpContext),
      s.inOnMessage = true → s.escaped = false →
      s.completed RequestScanner.llhttp = some context →
      s.step RequestScanner.llhttp walks
        (.onMessage submitted handle results) = some t →
      s.HarmsOnlyItself t := by
  intro always
  let walks : Walks := fun map => (Traversal.nonempty map).some
  obtain ⟨context, complete⟩ := Option.isSome_iff_exists.mp completed_received
  have inLoop : received.inOnMessage = true := rfl
  have notEscaped : received.escaped = false := rfl
  have taken : received.step RequestScanner.llhttp walks
      (.onMessage none throwing fun _ => .wouldBlock) =
        some (received.parseNext RequestScanner.llhttp walks none throwing
          fun _ => .wouldBlock) :=
    step_onMessage inLoop (unread_of_completed complete)
  have harmless := always walks none throwing (fun _ => .wouldBlock) received _
    context inLoop notEscaped complete taken
  exact absurd ((escaped_throwing walks).symm.trans harmless.1) (by decide)

end HttpConnection

end KitMuduo
