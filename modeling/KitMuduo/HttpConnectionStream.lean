import KitMuduo.HttpServerConnection
import KitMuduo.TcpConnectionShutdown

/-!
# What the client reads from a server without a pool

For every request `onMessage` makes some calls on the connection: those of the
servlet, the response, the shutdown.  The client reads what was sent in these
calls, request by request, up to the first shutdown.  The server goes on to
parse and dispatch behind it, but nothing of that gets out.
-/

namespace KitMuduo

open GuardedRuns HttpRequestHandling

/-- What calls on a connection put on the wire. -/
def onWire : List ConnCall → Bytes
  | [] => []
  | .send data :: rest => data ++ onWire rest
  | .shutdown :: _ => []

theorem onWire_append (calls : List ConnCall) (call : ConnCall) :
    onWire (calls ++ [call]) =
      onWire calls ++ if .shutdown ∈ calls then [] else onWire [call] := by
  induction calls with
  | nil => simp [onWire]
  | cons first rest ih =>
      cases first with
      | send data => simp [onWire, ih]
      | shutdown => simp [onWire]

namespace HttpConnection

variable {σ T : Type*}

/-- The calls on the connection in a turn of the loop, for each request it
handles. -/
def callsOf (llhttp : LLhttp σ) (walks : Walks) (s : HttpConnection σ T) :
    Action T → List (List ConnCall)
  | .onMessage submitted handle _ =>
      if s.inputBuffer.readableBytes = 0 then
        []
      else
        let (ok, parser, _) := s.parser.parseRequest llhttp s.inputBuffer
        if ok = false then
          [badRequestCalls walks parser.context]
        else if parser.context.gotAll = false then
          []
        else
          [(handleRequest walks submitted handle parser.context).calls]
  | .handleRead _ | .conn _ => []

/-- The calls that belong to what was handled. -/
def Made (walks : Walks) : HandledRequest → List ConnCall → Prop
  | .dispatched _ answer, calls => calls = answer.calls
  | .malformed, calls => ∃ context, calls = badRequestCalls walks context

/-- The loop serves the connection alone, from requests: no pool, no other
thread, no close, and no error of the socket. -/
def Alone (_ : HttpConnection σ T) : Action T → Prop
  | .handleRead _ => True
  | .onMessage submitted _ results =>
      submitted = none ∧ ∀ i, results i ≠ .error
  | .conn (.runPendingFunc result) | .conn (.handleWrite result) =>
      result ≠ .error
  | .conn action => action = .swapPendingFuncs

end HttpConnection

namespace TcpConnection

variable {T : Type*}

/-- The connection has carried out these calls and no others. -/
structure Carries (conn : TcpConnection T Unit) (calls : List ConnCall) :
    Prop where
  streaming : conn.Streaming
  atFin : conn.FinishedAtFin
  sent_eq : (conn.sent.map fun entry => entry.2.data).flatten = onWire calls
  closing_iff : conn.state = .kDisconnecting ↔ .shutdown ∈ calls
  callbacks : ∀ func ∈ conn.running ++ conn.pendingFuncs,
    func = .writeCompleteCallback

variable {conn : TcpConnection T Unit} {calls : List ConnCall}

theorem Carries.connected (carries : conn.Carries calls)
    (open_ : .shutdown ∉ calls) : conn.state = .kConnected :=
  carries.streaming.open_.resolve_right fun closing =>
    open_ (carries.closing_iff.mp closing)

theorem Frame.callbacks {c later : TcpConnection T Unit} (frame : Frame c later)
    (before : ∀ func ∈ c.running ++ c.pendingFuncs,
      func = .writeCompleteCallback) :
    ∀ func ∈ later.running ++ later.pendingFuncs,
      func = .writeCompleteCallback := by
  obtain ⟨callbacks, pending, all⟩ := frame.pending
  intro func member
  rw [frame.running, pending, ← List.append_assoc] at member
  rcases List.mem_append.mp member with old | new
  · exact before func old
  · exact all func new

/-- A call behind a shutdown does nothing. -/
theorem callConn_of_closing (closing : conn.state = .kDisconnecting)
    (result : WriteResult) (call : ConnCall) :
    HttpConnection.callConn conn result call = conn := by
  cases call with
  | send data =>
      rw [HttpConnection.callConn, loopSendRecorded_eq]
      exact sendRecorded_of_ne (by simp [closing]) _ _ _
  | shutdown =>
      simp [HttpConnection.callConn, loopShutdown, closing]

theorem Carries.callConn (carries : conn.Carries calls) {result : WriteResult}
    (noError : result ≠ .error) (call : ConnCall) :
    (HttpConnection.callConn conn result call).Carries (calls ++ [call]) := by
  by_cases closing : .shutdown ∈ calls
  · have state := carries.closing_iff.mpr closing
    rw [callConn_of_closing state]
    refine { carries with sent_eq := ?_, closing_iff := ?_ }
    · rw [onWire_append, if_pos closing, List.append_nil, carries.sent_eq]
    · simp [state, closing]
  · have connected := carries.connected closing
    cases call with
    | send data =>
        have sends : HttpConnection.callConn conn result (.send data) =
            conn.sendRecorded none ⟨(), data⟩ result :=
          loopSendRecorded_eq ..
        let logged : TcpConnection T Unit :=
          { conn with sent := conn.sent ++ [(none, ⟨(), data⟩)] }
        have running : conn.sendRecorded none ⟨(), data⟩ result =
            logged.writeOrBuffer data result :=
          sendRecorded_connected connected ..
        have frame := writeOrBuffer_frame logged data result
        rw [sends]
        refine
          { streaming := carries.streaming.sendRecorded none ⟨(), data⟩ noError
            atFin := ?_
            sent_eq := ?_
            closing_iff := ?_
            callbacks := ?_ }
        · intro fin
          rw [sendRecorded_shutdownWrites] at fin
          exact absurd connected (carries.atFin fin).notConnected
        · rw [running, frame.sent, onWire_append, if_neg closing]
          simp [logged, onWire, carries.sent_eq]
        · rw [sendRecorded_state, connected]
          simp [closing]
        · rw [running]
          exact frame.callbacks carries.callbacks
    | shutdown =>
        have shuts : HttpConnection.callConn conn result .shutdown =
            conn.shutdownInLoop := if_pos connected
        have frame := shutdownInLoop_frame conn
        rw [shuts]
        refine
          { streaming := carries.streaming.shutdownInLoop
            atFin := carries.atFin.shutdownInLoop
            sent_eq := ?_
            closing_iff := ?_
            callbacks := frame.callbacks carries.callbacks }
        · rw [frame.sent, onWire_append, if_neg closing]
          simp [onWire, carries.sent_eq]
        · simp [shutdownInLoop_state]

/-- The calls of a turn, one after another. -/
theorem Carries.callsConn (carries : conn.Carries calls)
    {results : Nat → WriteResult} (noError : ∀ i, results i ≠ .error)
    (more : List ConnCall) :
    (HttpConnection.callsConn results conn more).Carries (calls ++ more) := by
  have from_ : ∀ start, ((more.zipIdx start).foldl (fun conn numbered =>
      HttpConnection.callConn conn (results numbered.2) numbered.1)
        conn).Carries (calls ++ more) := by
    induction more generalizing conn calls with
    | nil =>
        intro start
        rw [List.append_nil]
        exact carries
    | cons call rest ih =>
        intro start
        have next := ih (carries.callConn (noError start) call) (start + 1)
        rw [List.append_assoc] at next
        exact next
  exact from_ 0

/-- The loop runs what it has queued, or gives bytes to the socket. -/
theorem Carries.step [DecidableEq T] (carries : conn.Carries calls)
    {action : Action T Unit} {later : TcpConnection T Unit}
    (alone : action = .swapPendingFuncs ∨
      ∃ result : WriteResult, result ≠ .error ∧
        (action = .runPendingFunc result ∨ action = .handleWrite result))
    (taken : conn.step action = some later) : later.Carries calls := by
  have staysOpen : StaysOpen action := by
    rcases alone with rfl | ⟨result, noError, rfl | rfl⟩
    · trivial
    · exact noError
    · exact noError
  have streaming := carries.streaming.step staysOpen taken
  have atFin := carries.atFin.step taken
  rcases alone with rfl | ⟨result, noError, rfl | rfl⟩
  · obtain ⟨idle, moved⟩ := Option.ite_none_right_eq_some.mp taken
    cases moved
    refine ⟨streaming, atFin, carries.sent_eq, carries.closing_iff, ?_⟩
    intro func member
    apply carries.callbacks
    rw [List.append_nil] at member
    exact List.mem_append_right _ member
  · cases batch : conn.running with
    | nil => simp [TcpConnection.step, batch] at taken
    | cons func rest =>
        have callback : func = .writeCompleteCallback :=
          carries.callbacks func (by simp [batch])
        subst callback
        simp only [TcpConnection.step, batch,
          runFuncRecorded_writeCompleteCallback,
          Option.some.injEq] at taken
        subst taken
        refine ⟨streaming, atFin, carries.sent_eq, carries.closing_iff, ?_⟩
        intro func member
        apply carries.callbacks
        rw [batch, List.cons_append]
        exact List.mem_cons_of_mem _ member
  · cases batch : conn.running with
    | cons func rest => simp [TcpConnection.step, batch] at taken
    | nil =>
        simp only [TcpConnection.step, batch, Option.some.injEq] at taken
        subst taken
        have frame := handleWrite_frame conn result
        refine ⟨streaming, atFin, ?_, ?_, frame.callbacks carries.callbacks⟩
        · rw [frame.sent, carries.sent_eq]
        · rw [handleWrite_state, carries.closing_iff]

end TcpConnection

namespace HttpConnection

variable {σ T : Type*} {llhttp : LLhttp σ} {walks : Walks}
  {s t : HttpConnection σ T} {handle : HttpContext → Served}
  {results : Nat → WriteResult}

theorem conn_httpCallBack (context : HttpContext) :
    (httpCallBack llhttp walks none handle results s context).conn =
      callsConn results s.conn
        (handleRequest walks none handle context).calls := by
  unfold httpCallBack
  dsimp only
  split <;> simp

/-- A turn of the loop makes its calls on the connection. -/
theorem conn_parseNext (unread : s.inputBuffer.readableBytes ≠ 0) :
    (s.parseNext llhttp walks none handle results).conn =
      callsConn results s.conn
        (s.callsOf llhttp walks (.onMessage none handle results)).flatten := by
  rcases parsed : s.parser.parseRequest llhttp s.inputBuffer with
    ⟨ok, parser, buf⟩
  simp only [parseNext, callsOf, parsed, if_neg unread]
  split
  · simp
  · split
    · rfl
    · rw [conn_httpCallBack]
      simp

/-- For each request that is handled the calls are kept. -/
theorem made_parseNext (llhttp : LLhttp σ) (walks : Walks)
    (handle : HttpContext → Served) (results : Nat → WriteResult)
    (unread : s.inputBuffer.readableBytes ≠ 0) :
    ∃ handled, (s.parseNext llhttp walks none handle results).handled =
        s.handled ++ handled ∧
      List.Forall₂ (Made walks) handled
        (s.callsOf llhttp walks (.onMessage none handle results)) := by
  rcases parsed : s.parser.parseRequest llhttp s.inputBuffer with
    ⟨ok, parser, buf⟩
  simp only [parseNext, callsOf, parsed, if_neg unread]
  split
  · exact ⟨[.malformed], rfl, .cons ⟨_, rfl⟩ .nil⟩
  · split
    · exact ⟨[], (List.append_nil _).symm, .nil⟩
    · exact ⟨_, handled_httpCallBack _, .cons rfl .nil⟩

/-- The connection carries out the calls for each request in turn. -/
def Answers (walks : Walks) (s : HttpConnection σ T) : Prop :=
  ∃ calls, List.Forall₂ (Made walks) s.handled calls ∧
    s.conn.Carries calls.flatten

variable [DecidableEq T]

theorem Answers.step (answers : s.Answers walks) {action : Action T}
    (alone : s.Alone action) (taken : s.step llhttp walks action = some t) :
    t.Answers walks := by
  obtain ⟨calls, made, carries⟩ := answers
  cases action with
  | handleRead read =>
      simp only [HttpConnection.step] at taken
      split at taken
      · cases taken
        exact ⟨calls, made, carries⟩
      · cases taken
  | onMessage submitted handle results =>
      obtain ⟨rfl, noError⟩ := alone
      simp only [HttpConnection.step] at taken
      split at taken
      · split at taken
        · cases taken
          exact ⟨calls, made, carries⟩
        · next unread =>
            cases taken
            obtain ⟨handled, more, madeNow⟩ :=
              made_parseNext llhttp walks handle results unread
            refine ⟨calls ++ s.callsOf llhttp walks
              (.onMessage none handle results), ?_, ?_⟩
            · rw [more]
              exact List.rel_append made madeNow
            · rw [conn_parseNext unread, List.flatten_append]
              exact carries.callsConn noError _
      · cases taken
  | conn action =>
      simp only [HttpConnection.step] at taken
      split at taken
      · obtain ⟨later, stepped, rfl⟩ := Option.map_eq_some_iff.mp taken
        refine ⟨calls, made, carries.step ?_ stepped⟩
        cases action with
        | swapPendingFuncs => exact .inl rfl
        | runPendingFunc result => exact .inr ⟨result, alone, .inl rfl⟩
        | handleWrite result => exact .inr ⟨result, alone, .inr rfl⟩
        | _ => cases alone
      · cases taken

end HttpConnection

end KitMuduo
