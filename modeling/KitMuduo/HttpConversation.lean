import KitMuduo.HttpConnectionStream
import KitMuduo.HttpDispatchedResponse
import KitMuduo.LLhttpAwaited

/-!
# A conversation with a server without a pool

A client writes its requests without waiting for responses.  They come in reads
of any size, and between the turns of `onMessage` the loop hands bytes to the
socket as it takes them.  What the client reads are the responses, one for each
request in the order of the requests, up to the first that closes the
connection.
-/

namespace KitMuduo

open GuardedRuns HttpRequestHandling CustomHttpParser

/-- A servlet that leaves the connection alone and does not throw. -/
def quietly (serve : HttpContext → HttpContext) (context : HttpContext) :
    Served :=
  ⟨[], some (serve context)⟩

/-- The response to a request. -/
def responseTo (serve : HttpContext → HttpContext) (request : HttpRequest) :
    HttpResponse :=
  (serve (prepared (.ofRequest request))).response

/-- The calls on the connection for a response. -/
def responseCalls (walks : Walks) (response : HttpResponse) : List ConnCall :=
  .send (print walks response).text ::
    if response.connectionClosed then [.shutdown] else []

variable {walks : Walks} {serve : HttpContext → HttpContext}

theorem handleRequest_quietly (walks : Walks)
    (serve : HttpContext → HttpContext) (request : HttpRequest) :
    (handleRequest walks none (quietly serve) (.ofRequest request)).threw =
        false ∧
      (handleRequest walks none (quietly serve) (.ofRequest request)).calls =
        responseCalls walks (responseTo serve request) :=
  ⟨rfl, rfl⟩

namespace HttpConnection

variable {σ T : Type*}

/-- The loop serves the connection alone, every request in this way. -/
def Serves (serve : HttpContext → HttpContext) (s : HttpConnection σ T)
    (action : Action T) : Prop :=
  s.Alone action ∧ ∀ submitted handle results,
    action = .onMessage submitted handle results → handle = quietly serve

def Action.reads : Action T → List Bytes
  | .handleRead read => [read]
  | .onMessage _ _ _ | .conn _ => []

/-- The record of a request that was served. -/
def servedRequest (walks : Walks) (serve : HttpContext → HttpContext)
    (d : Delivery) : HandledRequest :=
  .dispatched d.fragments.assembled (handleRequest walks none (quietly serve)
    (.ofRequest d.fragments.assembled))

/-- The first requests are served, the others are awaited. -/
structure Serving (llhttp : LLhttp σ) (walks : Walks)
    (serve : HttpContext → HttpContext) (reads : List Bytes)
    (served left : List Delivery) (s : HttpConnection σ T) : Prop where
  valid : s.inputBuffer.Valid
  idle : s.inOnMessage = false → s.inputBuffer.readable = []
  awaits : s.parser.Awaits llhttp s.inputBuffer.readable reads left
  handled : s.handled = served.map (servedRequest walks serve)

variable {llhttp : LLhttp σ} {s t : HttpConnection σ T} {reads : List Bytes}
  {deliveries served left : List Delivery}

/-- A turn of the loop serves the next request, or none. -/
theorem Serving.parseNext
    (serving : s.Serving llhttp walks serve reads served left)
    (inLoop : s.inOnMessage = true) (some : s.inputBuffer.readable ≠ [])
    (results : Nat → WriteResult) :
    ∃ servedNow leftNow, servedNow ++ leftNow = served ++ left ∧
      (s.parseNext llhttp walks none (quietly serve) results).Serving llhttp
        walks serve reads servedNow leftNow := by
  have turned := serving.awaits.parseRequest serving.valid some
  generalize parsed : s.parser.parseRequest llhttp s.inputBuffer = result
    at turned
  cases turned with
  | @incomplete _ p buf notAll valid empty awaits =>
      have turn : s.parseNext llhttp walks none (quietly serve) results =
          { s with parser := p, inputBuffer := buf, inOnMessage := false } := by
        simp [HttpConnection.parseNext, parsed, notAll]
      rw [turn]
      exact ⟨served, left, rfl, valid, fun _ => empty, by rwa [empty],
        serving.handled⟩
  | @complete d later p buf context valid awaits =>
      have gotAll :
          (HttpContext.ofRequest d.fragments.assembled).gotAll = true := rfl
      have turn : s.parseNext llhttp walks none (quietly serve) results =
          httpCallBack llhttp walks none (quietly serve) results
            { s with parser := p, inputBuffer := buf }
            (.ofRequest d.fragments.assembled) := by
        simp only [HttpConnection.parseNext, parsed, gotAll, context,
          Bool.true_eq_false, if_false]
      have returns := (handleRequest_quietly walks serve
        d.fragments.assembled).1
      refine ⟨served ++ [d], later, by rw [List.append_assoc]; rfl, ?_⟩
      rw [turn, httpCallBack, if_neg (by simp [returns])]
      exact ⟨valid, fun idle => absurd (inLoop.symm.trans idle) (by simp),
        awaits, by rw [List.map_append, ← serving.handled]; rfl⟩

variable [DecidableEq T]

theorem Serving.step {action : Action T}
    (serving : s.Serving llhttp walks serve (action.reads ++ reads) served left)
    (serves : s.Serves serve action)
    (taken : s.step llhttp walks action = some t) :
    ∃ servedNow leftNow, servedNow ++ leftNow = served ++ left ∧
      t.Serving llhttp walks serve reads servedNow leftNow := by
  cases action with
  | handleRead read =>
      simp only [HttpConnection.step] at taken
      split at taken
      · next ready =>
          cases taken
          have free : s.inOnMessage = false := by
            have both := ready.1
            rw [loopFree, Bool.and_eq_true] at both
            simpa using both.1
          have empty := serving.idle free
          have grown : (s.inputBuffer.append read).readable = read := by
            rw [Buffer.append_readable serving.valid, empty, List.nil_append]
          have awaits := serving.awaits
          rw [empty] at awaits
          refine ⟨served, left, rfl, Buffer.append_valid serving.valid read,
            fun idle => absurd idle (by simp), ?_, serving.handled⟩
          rw [grown]
          exact awaits.receive
      · cases taken
  | onMessage submitted handle results =>
      obtain ⟨⟨rfl, _⟩, same⟩ := serves
      obtain rfl := same _ _ _ rfl
      have nothing_iff :=
        TcpConnection.readableBytes_eq_zero_iff serving.valid
      simp only [HttpConnection.step] at taken
      split at taken
      · next inLoop =>
          split at taken
          · next empty =>
              cases taken
              exact ⟨served, left, rfl, serving.valid,
                fun _ => nothing_iff.mp empty, serving.awaits, serving.handled⟩
          · next unread =>
              cases taken
              have some : s.inputBuffer.readable ≠ [] :=
                fun empty => unread (nothing_iff.mpr empty)
              exact serving.parseNext inLoop some results
      · cases taken
  | conn action =>
      simp only [HttpConnection.step] at taken
      split at taken
      · obtain ⟨conn, _, rfl⟩ := Option.map_eq_some_iff.mp taken
        exact ⟨served, left, rfl, serving.valid, serving.idle, serving.awaits,
          serving.handled⟩
      · cases taken

end HttpConnection

end KitMuduo
