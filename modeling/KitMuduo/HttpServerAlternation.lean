import KitMuduo.HttpServerOrder

/-!
# One request at a time

A client that waits for the response before it sends the next request, and
sends none behind a response that closes the connection, gets every response in
order, whatever the workers do.
-/

namespace KitMuduo

/-- The worker has called for a response that closes the connection. -/
def WorkerPhase.closes : WorkerPhase → Bool
  | .sent _ closed => closed
  | .closing => true
  | .idle | .serving _ _ | .sending _ _ => false

namespace HttpServer

open GuardedRuns ItemCustody TcpConnection

variable {W : Type*}

/-- A request comes when all earlier responses have been sent and none of them
closes the connection; servlets do not throw. -/
def OneAtATime (s : HttpServer W) : Action W → Prop
  | .handleRequest _ _ _ | .parseFailed _ _ =>
      s.closing = false ∧ s.conn.sent.length = s.requests ∧
        ∀ worker, (s.workers worker).closes = false
  | .serve worker handle => s.InOrder (.serve worker handle)
  | _ => True

/-- At most one response is missing, and none once a worker has queued one that
closes the connection. -/
structure Alternating (s : HttpServer W) : Prop where
  orderly : s.Orderly
  outstanding : s.requests ≤ s.conn.handed.length + 1
  closes : ∀ worker, (s.workers worker).closes = true →
    s.holder worker = none → s.conn.handed.length = s.requests

variable {s later : HttpServer W} {toText : HttpResponse → Bytes}

theorem new_alternating (hasWriteComplete : Bool) :
    (new hasWriteComplete : HttpServer W).Alternating where
  orderly := new_orderly hasWriteComplete
  outstanding := Nat.zero_le _
  closes := fun _ closing => Bool.noConfusion closing

theorem Alternating.congr (alternating : s.Alternating)
    (orderly : later.Orderly) (handed : later.conn.handed = s.conn.handed)
    (requests : later.requests = s.requests)
    (closes : ∀ worker, (later.workers worker).closes = true →
      later.holder worker = none →
        (s.workers worker).closes = true ∧ s.holder worker = none) :
    later.Alternating where
  orderly := orderly
  outstanding := by
    rw [handed, requests]
    exact alternating.outstanding
  closes := by
    intro worker closing queued
    obtain ⟨wasClosing, wasQueued⟩ := closes worker closing queued
    rw [handed, requests]
    exact alternating.closes worker wasClosing wasQueued

/-- Nobody has moved. -/
theorem Alternating.inLoop (alternating : s.Alternating)
    (orderly : later.Orderly) (handed : later.conn.handed = s.conn.handed)
    (requests : later.requests = s.requests)
    (workers : later.workers = s.workers)
    (calls : later.conn.calls = s.conn.calls) : later.Alternating := by
  apply alternating.congr orderly handed requests
  intro worker closing queued
  simp only [holder, workers, calls] at closing queued
  exact ⟨closing, queued⟩

/-- All requests have been answered, or the response of the last one has just
been queued. -/
theorem Alternating.of_answered (orderly : later.Orderly)
    (answered : later.requests ≤ later.conn.handed.length) :
    later.Alternating where
  orderly := orderly
  outstanding := Nat.le_succ_of_le answered
  closes := fun _ _ _ => Nat.le_antisymm orderly.handed_le answered

/-- The response a worker queues is the only one missing. -/
theorem Alternating.handed_of_sending (alternating : s.Alternating)
    {worker owner : W} {message : Message Nat}
    (calling : s.conn.calls worker = some (.sendInLoop owner message)) :
    s.conn.handed.length = message.label ∧ s.requests = message.label + 1 := by
  have holds := (alternating.orderly.sent_of_calling calling).2.2
  have isWaiting : s.waiting message.label :=
    alternating.orderly.custody.present_of_located (.worker worker) _ holds
  have outstanding := alternating.outstanding
  simp only [waiting] at isWaiting
  omega

theorem Alternating.closing_of_shutdown (alternating : s.Alternating)
    {worker : W} (calling : s.conn.calls worker = some .shutdownInLoop) :
    s.conn.handed.length = s.requests := by
  have fits := alternating.orderly.calls worker _ calling
  cases phase : s.workers worker with
  | closing =>
      exact alternating.closes worker (by rw [phase]; rfl)
        (by simp [holder, phase])
  | sent index closed => simp [phase, CallFits] at fits
  | idle | serving | sending => simp [phase, CallFits] at fits

/-- One request at a time is enough for the order. -/
theorem Alternating.inOrder (alternating : s.Alternating) {action : Action W}
    (oneAtATime : s.OneAtATime action) : s.InOrder action := by
  have mem (index : Nat) := alternating.orderly.mem_handed_iff index
  cases action with
  | handleRequest context submitted result =>
      cases submitted with
      | kOK => exact oneAtATime.1
      | kStopping | kTimeout => exact ⟨oneAtATime.1, oneAtATime.2.1⟩
  | parseFailed context result => exact ⟨oneAtATime.1, oneAtATime.2.1⟩
  | serve worker handle => exact oneAtATime
  | queueCall worker =>
      simp only [InOrder]
      split
      · next owner message calling =>
          intro earlier before
          rw [mem, (alternating.handed_of_sending calling).1]
          exact before
      · next calling =>
          intro earlier before
          rw [mem, alternating.closing_of_shutdown calling]
          exact before
      · trivial
  | _ => trivial

section

variable [DecidableEq W]

/-- Only one worker moves, and its response is not queued yet or does not close
the connection. -/
theorem Alternating.ofWorker (alternating : s.Alternating) {worker : W}
    (orderly : later.Orderly) (handed : later.conn.handed = s.conn.handed)
    (requests : later.requests = s.requests)
    (workers : ∀ other ≠ worker, later.workers other = s.workers other)
    (calls : ∀ other ≠ worker, later.conn.calls other = s.conn.calls other)
    (closes : (later.workers worker).closes = true →
      later.holder worker = none →
        (s.workers worker).closes = true ∧ s.holder worker = none) :
    later.Alternating := by
  apply alternating.congr orderly handed requests
  intro other closing queued
  by_cases same : other = worker
  · subst same
    exact closes closing queued
  · simp only [holder, workers other same, calls other same] at closing queued
    exact ⟨closing, queued⟩

theorem Alternating.send (alternating : s.Alternating) {worker : W}
    (orderly : later.Orderly)
    (taken : s.step toText (.send worker) = some later) :
    later.Alternating := by
  simp only [HttpServer.step] at taken
  split at taken
  · next index response phase =>
      have noCall : s.conn.calls worker = none :=
        alternating.orderly.calls_eq_none (by simp [phase, CallFits])
      have holds : s.locatedAt (.worker worker) index := by
        simp [locatedAt, holder, phase]
      obtain ⟨_, connected, _⟩ := alternating.orderly.connected_of_waiting
        (alternating.orderly.custody.present_of_located _ _ holds)
      simp only [TcpConnection.step, noCall, withConn, callSend, recordIssued,
        TcpConnection.beginCall, connected, if_pos, Option.map_some,
        Option.some.injEq] at taken
      subst later
      apply alternating.ofWorker orderly rfl rfl
      · exact fun other different => Function.update_of_ne different _ _
      · exact fun other different => Function.update_of_ne different _ _
      · intro _ queued
        simp [holder, HttpServer.setWorker] at queued
  · cases taken

/-- Who goes on behind its response to `conn->shutdown` has queued it. -/
theorem Alternating.shutdownOrDone (alternating : s.Alternating) {worker : W}
    (orderly : later.Orderly)
    (taken : s.step toText (.shutdownOrDone worker) = some later) :
    later.Alternating := by
  simp only [HttpServer.step] at taken
  split at taken
  · next index phase noCall =>
      simp only [TcpConnection.step, noCall, withConn, callShutdown,
        Option.map_some, Option.some.injEq] at taken
      subst later
      have begun (func : Func W Nat) :
          (s.conn.beginCall worker func).handed = s.conn.handed ∧
            ∀ other ≠ worker,
              (s.conn.beginCall worker func).calls other =
                s.conn.calls other := by
        unfold TcpConnection.beginCall
        split
        · exact ⟨rfl, fun other different =>
            Function.update_of_ne different _ _⟩
        · exact ⟨rfl, fun _ _ => rfl⟩
      apply alternating.ofWorker orderly (begun _).1 rfl
      · exact fun other different => Function.update_of_ne different _ _
      · exact (begun _).2
      · intro _ _
        rw [phase]
        exact ⟨rfl, by simp [holder, phase, noCall]⟩
  · next index phase noCall =>
      cases taken
      apply alternating.ofWorker orderly rfl rfl
      · exact fun other different => Function.update_of_ne different _ _
      · exact fun _ _ => rfl
      · intro closing
        simp [HttpServer.setWorker, WorkerPhase.closes] at closing
  · cases taken

/-- A worker that goes to a phase in which it closes nothing. -/
theorem Alternating.setWorker (alternating : s.Alternating) {worker : W}
    {tasks : List (Nat × HttpContext)} {phase : WorkerPhase}
    (orderly : ({ s with tasks := tasks }.setWorker worker phase).Orderly)
    (open_ : phase.closes = false) :
    ({ s with tasks := tasks }.setWorker worker phase).Alternating := by
  apply alternating.ofWorker orderly rfl rfl
  · exact fun other different => Function.update_of_ne different _ _
  · exact fun _ _ => rfl
  · intro closing
    simp [HttpServer.setWorker, open_] at closing

theorem Alternating.queueCall (alternating : s.Alternating) {worker : W}
    (orderly : later.Orderly)
    (taken : s.step toText (.queueCall worker) = some later) :
    later.Alternating := by
  obtain ⟨func, calling, rfl⟩ := step_queueCall taken
  apply Alternating.of_answered orderly
  have handed := s.connQueued_handed worker func
  change s.requests ≤ (s.connQueued worker func).handed.length
  rw [handed, List.length_append]
  cases func with
  | sendInLoop owner message =>
      obtain ⟨length, requests⟩ := alternating.handed_of_sending calling
      simp [labelsOf, length, requests]
  | shutdownInLoop =>
      have all := alternating.closing_of_shutdown calling
      omega
  | writeCompleteCallback =>
      have fits := alternating.orderly.calls worker _ calling
      cases phase : s.workers worker <;> simp [phase, CallFits] at fits

theorem Alternating.loopStep (alternating : s.Alternating)
    (orderly : later.Orderly) {action : TcpConnection.Action W Nat}
    (inLoop : action = .swapPendingFuncs ∨
      (∃ result, action = .runPendingFunc result) ∨
      ∃ result, action = .handleWrite result)
    (taken : (if s.loopFree = true then s.withConn (s.conn.step action)
      else none) = some later) : later.Alternating := by
  split at taken
  · obtain ⟨conn, stepped, rfl⟩ := Option.map_eq_some_iff.mp taken
    obtain ⟨_, handed, calls, _⟩ :=
      alternating.orderly.queueing.step inLoop stepped
    exact alternating.inLoop orderly handed rfl rfl calls
  · cases taken

theorem Alternating.step (alternating : s.Alternating) {action : Action W}
    (oneAtATime : s.OneAtATime action)
    (taken : s.step toText action = some later) : later.Alternating := by
  have orderly := alternating.orderly.step toText
    (alternating.inOrder oneAtATime) taken
  cases action with
  | handleRequest context submitted result =>
      simp only [HttpServer.step] at taken
      split at taken
      · cases taken
        cases submitted with
        | kOK =>
            obtain ⟨_, answered, open_⟩ := oneAtATime
            have sent : s.conn.sent.length ≤ s.conn.handed.length := by
              simp [handed, sentLabels]
            refine ⟨orderly, ?_, ?_⟩
            · change s.requests + 1 ≤ s.conn.handed.length + 1
              omega
            · intro worker closing
              have stays : (s.workers worker).closes = true := closing
              rw [open_ worker] at stays
              cases stays
        | kStopping | kTimeout =>
            exact .of_answered orderly (orderly.closing_all rfl).ge
      · cases taken
  | parseFailed context result =>
      simp only [HttpServer.step] at taken
      split at taken
      · cases taken
        exact .of_answered orderly (orderly.closing_all rfl).ge
      · cases taken
  | shutdownReplied =>
      simp only [HttpServer.step] at taken
      split at taken
      · cases taken
        have frame : Frame s.conn s.conn.loopShutdown := by
          unfold loopShutdown
          split
          · exact shutdownInLoop_frame _
          · exact Frame.refl _
        exact alternating.inLoop orderly frame.handed rfl rfl frame.calls
      · cases taken
  | takeTask worker =>
      simp only [HttpServer.step] at taken
      split at taken
      · cases taken
        exact alternating.setWorker orderly rfl
      · cases taken
  | serve worker handle =>
      simp only [HttpServer.step] at taken
      split at taken
      · split at taken
        · cases taken
          exact alternating.setWorker orderly rfl
        · cases taken
          exact alternating.setWorker orderly rfl
      · cases taken
  | send worker => exact alternating.send orderly taken
  | shutdownOrDone worker => exact alternating.shutdownOrDone orderly taken
  | done worker =>
      simp only [HttpServer.step] at taken
      split at taken
      · cases taken
        exact alternating.setWorker orderly rfl
      · cases taken
  | queueCall worker => exact alternating.queueCall orderly taken
  | swapPendingFuncs => exact alternating.loopStep orderly (.inl rfl) taken
  | runPendingFunc result =>
      exact alternating.loopStep orderly (.inr (.inl ⟨result, rfl⟩)) taken
  | handleWrite result =>
      exact alternating.loopStep orderly (.inr (.inr ⟨result, rfl⟩)) taken

/-- A client with one request at a time gets every response once and in
order. -/
theorem answeredInOrder_of_oneAtATime (hasWriteComplete : Bool)
    {actions : List (Action W)}
    (reached : Reaches (HttpServer.step toText) OneAtATime
      (new hasWriteComplete) actions s) : s.AnsweredInOrder := by
  have alternating : s.Alternating :=
    reached.invariant (new_alternating hasWriteComplete)
      fun _ _ _ before oneAtATime taken => before.step oneAtATime taken
  exact alternating.orderly.answered

end

instance (s : HttpServer Bool) (action : Action Bool) :
    Decidable (s.OneAtATime action) := by
  unfold OneAtATime
  split <;> infer_instance

/-- The second request comes when the first one is answered, and closes the
connection. -/
def alternatingRun : List (Action Bool) :=
  [.handleRequest firstContext .kOK .wouldBlock, .takeTask false,
    .serve false some, .send false, .queueCall false, .swapPendingFuncs,
    .runPendingFunc (.accepted 0),
    .handleRequest closingContext .kOK .wouldBlock, .takeTask true,
    .shutdownOrDone false, .serve true some, .send true, .queueCall true,
    .shutdownOrDone true, .queueCall true, .done true, .swapPendingFuncs,
    .runPendingFunc (.accepted 0), .runPendingFunc (.accepted 0)]

theorem answeredInOrder_alternatingRun :
    ∃ s : HttpServer Bool,
      Reaches (HttpServer.step fun _ => []) OneAtATime (new false)
          alternatingRun s ∧
        s.conn.sentLabels = [0, 1] ∧ s.AnsweredInOrder := by
  have possible : (evaluate (HttpServer.step fun _ => []) OneAtATime
      (new false : HttpServer Bool) alternatingRun).map
        (fun s => s.conn.sentLabels) = some [0, 1] := by
    decide
  obtain ⟨s, result, labels⟩ := Option.map_eq_some_iff.mp possible
  have reached := reaches_of_evaluate result
  exact ⟨s, reached, labels, answeredInOrder_of_oneAtATime false reached⟩

end HttpServer

end KitMuduo
