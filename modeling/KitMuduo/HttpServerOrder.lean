import KitMuduo.HttpServer
import KitMuduo.ItemCustody
import KitMuduo.TcpConnectionQueue

/-!
# The order of responses in pool mode

Nothing in the server keeps the responses of one connection in the order of
its requests: a worker queues its response when it has it.  The file proves
under which condition on the steps of a run every request still gets exactly
one response, in order, and gives a run of two workers that breaks the order.
-/

namespace KitMuduo

namespace HttpServer

open GuardedRuns ItemCustody TcpConnection

variable {W : Type*}

/-- Where a request without a queued response can be. -/
inductive Place (W : Type*)
  | queue
  | worker (worker : W)

/-- The request a worker holds; once its response is queued it holds none. -/
def holder (s : HttpServer W) (worker : W) : Option Nat :=
  match s.workers worker with
  | .idle | .closing => none
  | .serving index _ | .sending index _ => some index
  | .sent index _ =>
      match s.conn.calls worker with
      | some (.sendInLoop _ _) => some index
      | _ => none

def locatedAt (s : HttpServer W) : Place W → Nat → Prop
  | .queue, index => index ∈ s.tasks.map Prod.fst
  | .worker worker, index => s.holder worker = some index

/-- A request whose response is neither sent nor queued. -/
def waiting (s : HttpServer W) (index : Nat) : Prop :=
  s.conn.handed.length ≤ index ∧ index < s.requests

/-- The call a worker may be inside, by its phase. -/
def CallFits (worker : W) (func : Func W Nat) : WorkerPhase → Prop
  | .sent index _ => ∃ text, func = .sendInLoop worker ⟨index, text⟩
  | .closing => func = .shutdownInLoop
  | _ => False

/-- The invariant of runs that keep the order. -/
structure Orderly (s : HttpServer W) : Prop where
  handed_eq : s.conn.handed = List.range s.conn.handed.length
  handed_le : s.conn.handed.length ≤ s.requests
  custody : Custody s.locatedAt s.waiting
  tasks_nodup : (s.tasks.map Prod.fst).Nodup
  queueing : s.conn.Queueing s.closing
  closing_all : s.closing = true → s.conn.handed.length = s.requests
  replied : s.replied = true →
    s.closing = true ∧ labelsOf s.conn.funcs = []
  calls : ∀ worker func, s.conn.calls worker = some func →
    CallFits worker func (s.workers worker)

/-- The condition on a step.  A refused or malformed request is answered when
all earlier responses have been sent; a worker queues a response when all
earlier ones are queued or sent, and a shutdown when all are; no request
follows a shutdown; servlets do not throw. -/
def InOrder (s : HttpServer W) : Action W → Prop
  | .handleRequest _ .kOK _ => s.closing = false
  | .handleRequest _ _ _ | .parseFailed _ _ =>
      s.closing = false ∧ s.conn.sent.length = s.requests
  | .serve worker handle =>
      match s.workers worker with
      | .serving _ context => (workFunc handle context).isSome
      | _ => True
  | .queueCall worker =>
      match s.conn.calls worker with
      | some (.sendInLoop _ message) =>
          ∀ earlier < message.label, earlier ∈ s.conn.handed
      | some .shutdownInLoop =>
          ∀ earlier < s.requests, earlier ∈ s.conn.handed
      | _ => True
  | _ => True

/-- Nothing is left to do for the connection. -/
def Quiet (s : HttpServer W) : Prop :=
  s.tasks = [] ∧ (∀ worker, s.workers worker = .idle) ∧ s.conn.funcs = []

/-- The responses sent are those of the first requests, in order, one each;
when nothing is left to do they are those of all requests. -/
def AnsweredInOrder (s : HttpServer W) : Prop :=
  ∃ count ≤ s.requests, s.conn.sentLabels = List.range count ∧
    (s.Quiet → count = s.requests)

/-- While a request waits, nobody has shut the connection down. -/
theorem Orderly.connected_of_waiting {s : HttpServer W} (orderly : s.Orderly)
    {index : Nat} (isWaiting : s.waiting index) :
    s.closing = false ∧ s.conn.state = .kConnected ∧
      .shutdownInLoop ∉ s.conn.funcs := by
  have notClosing : s.closing = false := by
    by_contra closing
    have all := orderly.closing_all (by simpa using closing)
    have bounds := isWaiting
    simp only [waiting] at bounds
    omega
  exact ⟨notClosing, orderly.queueing.connected notClosing⟩

theorem Orderly.mem_handed_iff {s : HttpServer W} (orderly : s.Orderly)
    (index : Nat) : index ∈ s.conn.handed ↔ index < s.conn.handed.length := by
  constructor
  · intro member
    rw [orderly.handed_eq] at member
    exact List.mem_range.mp member
  · intro bound
    rw [orderly.handed_eq]
    exact List.mem_range.mpr bound

theorem Orderly.answered {s : HttpServer W} (orderly : s.Orderly) :
    s.AnsweredInOrder := by
  have sentPrefix : s.conn.sentLabels <+: List.range s.conn.handed.length := by
    rw [← orderly.handed_eq]
    exact List.prefix_append _ _
  have sentEq := List.prefix_iff_eq_take.mp sentPrefix
  rw [List.take_range] at sentEq
  have sentLe : s.conn.sentLabels.length ≤ s.conn.handed.length := by
    simpa using sentPrefix.length_le
  rw [Nat.min_eq_left sentLe] at sentEq
  refine ⟨s.conn.sentLabels.length, sentLe.trans orderly.handed_le, sentEq, ?_⟩
  rintro ⟨noTasks, allIdle, noFuncs⟩
  have allSent : s.conn.handed = s.conn.sentLabels := by
    simp [handed, noFuncs, labelsOf]
  rw [← allSent]
  by_contra different
  have lt := Nat.lt_of_le_of_ne orderly.handed_le different
  obtain ⟨place, located⟩ := orderly.custody.exists_place
    s.conn.handed.length ⟨Nat.le_refl _, lt⟩
  cases place with
  | queue => simp [locatedAt, noTasks] at located
  | worker worker => simp [locatedAt, holder, allIdle worker] at located

theorem new_orderly (hasWriteComplete : Bool) :
    (new hasWriteComplete : HttpServer W).Orderly where
  handed_eq := rfl
  handed_le := Nat.le_refl _
  custody :=
    { present_of_located := by
        intro place item located
        cases place <;> simp [locatedAt, holder, new] at located
      unique := by
        intro place other item located
        cases place <;> simp [locatedAt, holder, new] at located
      exists_place := by
        intro item present
        have bound : item < 0 := present.2
        omega }
  tasks_nodup := List.nodup_nil
  queueing := ⟨fun _ => ⟨rfl, by simp [new, funcs, connectEstablished,
    TcpConnection.new]⟩, trivial, fun _ => rfl⟩
  closing_all := fun closing => by cases closing
  replied := fun replied => by cases replied
  calls := fun worker func called => by cases called

/-- Steps that move no request and add none. -/
theorem Orderly.congr {s later : HttpServer W} (orderly : s.Orderly)
    (handed : later.conn.handed = s.conn.handed)
    (requests : later.requests = s.requests) (tasks : later.tasks = s.tasks)
    (holder : ∀ worker, later.holder worker = s.holder worker)
    (queueing : later.conn.Queueing later.closing)
    (closing_all : later.closing = true →
      s.conn.handed.length = s.requests)
    (replied : later.replied = true →
      later.closing = true ∧ labelsOf later.conn.funcs = [])
    (calls : ∀ worker func, later.conn.calls worker = some func →
      CallFits worker func (later.workers worker)) : later.Orderly where
  handed_eq := by
    rw [handed]
    exact orderly.handed_eq
  handed_le := by
    rw [handed, requests]
    exact orderly.handed_le
  custody := by
    apply orderly.custody.congr
    · intro place item
      cases place with
      | queue => simp only [locatedAt, tasks]
      | worker worker => simp only [locatedAt, holder]
    · intro item
      simp only [waiting, handed, requests]
  tasks_nodup := tasks ▸ orderly.tasks_nodup
  queueing := queueing
  closing_all := by
    rw [handed, requests]
    exact closing_all
  replied := replied
  calls := calls

/-- A worker whose phase fits no call is not inside one. -/
theorem Orderly.calls_eq_none {s : HttpServer W} (orderly : s.Orderly)
    {worker : W}
    (unfit : ∀ func, ¬ CallFits worker func (s.workers worker)) :
    s.conn.calls worker = none := by
  cases called : s.conn.calls worker with
  | none => rfl
  | some func => exact absurd (orderly.calls worker func called) (unfit func)

theorem Orderly.handleRequest_ok {s : HttpServer W} (orderly : s.Orderly)
    (toText : HttpResponse → Bytes) (context : HttpContext)
    (result : WriteResult) (notClosing : s.closing = false) :
    (s.handleRequest toText context .kOK result).Orderly where
  handed_eq := orderly.handed_eq
  handed_le := Nat.le_succ_of_le orderly.handed_le
  custody := by
    have isNew : ¬ s.waiting s.requests :=
      fun isWaiting => Nat.lt_irrefl _ isWaiting.2
    apply orderly.custody.add s.requests .queue isNew
    · intro place item
      cases place with
      | worker worker => simp [locatedAt, holder, handleRequest]
      | queue =>
          simp only [locatedAt, handleRequest, List.map_append,
            List.mem_append, List.map_cons, List.map_nil,
            List.mem_singleton, true_and]
    · intro item
      have bound := orderly.handed_le
      simp only [waiting, handleRequest]
      omega
  tasks_nodup := by
    have absent : s.requests ∉ s.tasks.map Prod.fst := by
      intro member
      have isWaiting := orderly.custody.present_of_located .queue _ member
      exact Nat.lt_irrefl _ isWaiting.2
    simp only [handleRequest, List.map_append, List.map_cons, List.map_nil]
    rw [← List.concat_eq_append]
    exact orderly.tasks_nodup.concat absent
  queueing := orderly.queueing
  closing_all := fun closing => by
    rw [show s.closing = true from closing] at notClosing
    cases notClosing
  replied := orderly.replied
  calls := orderly.calls

/-- An answer on the loop thread when all earlier responses have been sent. -/
theorem Orderly.replyInLoop {s : HttpServer W} (orderly : s.Orderly)
    (text : Bytes) (result : WriteResult) (notClosing : s.closing = false)
    (allSent : s.conn.sent.length = s.requests) :
    (s.replyInLoop text result).Orderly := by
  have connected := (orderly.queueing.connected notClosing).1
  have lengths : s.conn.handed.length =
      s.requests + (labelsOf s.conn.funcs).length := by
    rw [handed, List.length_append, sentLabels, List.length_map, allSent]
  have noneQueued : labelsOf s.conn.funcs = [] := by
    have := orderly.handed_le
    exact List.eq_nil_of_length_eq_zero (by omega)
  obtain ⟨frame, state⟩ :=
    sendRecorded_frame connected none ⟨s.requests, text⟩ result
  have conn : (s.replyInLoop text result).conn =
      s.conn.sendRecorded none ⟨s.requests, text⟩ result :=
    loopSendRecorded_eq ..
  have handedAfter : (s.replyInLoop text result).conn.handed =
      s.conn.handed ++ [s.requests] := by
    let message : Message Nat := ⟨s.requests, text⟩
    have logged : { s.conn with
        sent := s.conn.sent ++ [(none, message)] }.handed =
          s.conn.sentLabels ++ [s.requests] ++ labelsOf s.conn.funcs := by
      simp only [handed, sentLabels, List.map_append, List.map_cons,
        List.map_nil]
      rfl
    rw [conn, frame.handed, logged, handed, noneQueued, List.append_nil,
      List.append_nil]
  have all : s.conn.handed.length = s.requests := by
    simp [lengths, noneQueued]
  have labels : labelsOf (s.replyInLoop text result).conn.funcs = [] := by
    rw [conn, frame.labelsOf_funcs]
    exact noneQueued
  exact
    { handed_eq := by
        rw [handedAfter, List.length_append, List.length_singleton,
          List.range_succ, ← orderly.handed_eq, all]
      handed_le := by
        rw [handedAfter, List.length_append, all]
        exact Nat.le_refl _
      custody := by
        apply orderly.custody.congr
        · intro place item
          cases place with
          | queue => exact Iff.rfl
          | worker worker =>
              simp only [locatedAt, holder, conn, frame.calls]
              exact Iff.rfl
        · intro item
          simp only [waiting, handedAfter, List.length_append, all,
            List.length_singleton]
          change _ ∧ item < s.requests + 1 ↔ _
          omega
      tasks_nodup := orderly.tasks_nodup
      queueing :=
        ⟨fun closing => Bool.noConfusion closing,
          sendsFirst_of_labelsOf_eq_nil labels, fun _ => labels⟩
      closing_all := fun _ => by
        rw [handedAfter, List.length_append, all]
        rfl
      replied := fun _ => ⟨rfl, labels⟩
      calls := by
        rw [conn, frame.calls]
        exact orderly.calls }

theorem Orderly.shutdownReplied {s : HttpServer W} (orderly : s.Orderly)
    (isReplied : s.replied = true) :
    { s with conn := s.conn.loopShutdown, replied := false }.Orderly := by
  obtain ⟨closing, noneQueued⟩ := orderly.replied isReplied
  have frame : Frame s.conn s.conn.loopShutdown := by
    unfold loopShutdown
    split
    · exact shutdownInLoop_frame _
    · exact Frame.refl _
  have labels : labelsOf s.conn.loopShutdown.funcs = [] := by
    rw [frame.labelsOf_funcs]
    exact noneQueued
  let later : HttpServer W :=
    { s with conn := s.conn.loopShutdown, replied := false }
  have calls : later.conn.calls = s.conn.calls := frame.calls
  have queueing : later.conn.Queueing later.closing :=
    ⟨fun notClosing => absurd closing (by simpa using notClosing),
      sendsFirst_of_labelsOf_eq_nil labels, fun _ => labels⟩
  have holders : ∀ worker, later.holder worker = s.holder worker := by
    intro worker
    simp only [holder, calls]
    rfl
  exact orderly.congr frame.handed rfl rfl holders queueing
    orderly.closing_all (fun replied => Bool.noConfusion replied)
    (calls ▸ orderly.calls)

section

variable [DecidableEq W]

/-- Changing the phase of one worker leaves what the others hold. -/
theorem holder_setWorker_of_ne (s : HttpServer W) {worker other : W}
    (phase : WorkerPhase) (different : other ≠ worker) :
    (s.setWorker worker phase).holder other = s.holder other := by
  simp only [holder, setWorker, Function.update_of_ne different]

/-- A worker changes its phase and keeps what it holds. -/
theorem Orderly.setWorker {s : HttpServer W} (orderly : s.Orderly)
    {worker : W} (phase : WorkerPhase)
    (holds : (s.setWorker worker phase).holder worker = s.holder worker)
    (noCall : s.conn.calls worker = none) :
    (s.setWorker worker phase).Orderly := by
  refine orderly.congr rfl rfl rfl ?_ orderly.queueing orderly.closing_all
    orderly.replied ?_
  · intro other
    by_cases same : other = worker
    · exact same ▸ holds
    · exact holder_setWorker_of_ne s phase same
  · intro other func called
    by_cases same : other = worker
    · subst other
      rw [show s.conn.calls worker = some func from called] at noCall
      cases noCall
    · simp only [HttpServer.setWorker, Function.update_of_ne same]
      exact orderly.calls other func called

theorem Orderly.takeTask {s : HttpServer W} (orderly : s.Orderly)
    {worker : W} {index : Nat} {context : HttpContext}
    {rest : List (Nat × HttpContext)} (idle : s.workers worker = .idle)
    (tasks : s.tasks = (index, context) :: rest) :
    ({ s with tasks := rest }.setWorker worker
      (.serving index context)).Orderly := by
  let later := { s with tasks := rest }.setWorker worker
    (.serving index context)
  have nodup := orderly.tasks_nodup
  rw [tasks, List.map_cons, List.nodup_cons] at nodup
  have inQueue : s.locatedAt .queue index := by
    simp [locatedAt, tasks]
  have noCall : s.conn.calls worker = none :=
    orderly.calls_eq_none (by simp [idle, CallFits])
  have holderWorker : later.holder worker = some index := by
    simp [later, holder, HttpServer.setWorker]
  have holderOther (other : W) (different : other ≠ worker) :
      later.holder other = s.holder other :=
    holder_setWorker_of_ne _ _ different
  exact
    { handed_eq := orderly.handed_eq
      handed_le := orderly.handed_le
      custody := by
        apply orderly.custody.move index (.worker worker)
          (orderly.custody.present_of_located _ _ inQueue)
        · intro place
          cases place with
          | queue =>
              apply iff_of_false nodup.1
              intro same
              cases same
          | worker other =>
              by_cases same : other = worker
              · subst other
                exact iff_of_true holderWorker rfl
              · refine iff_of_false ?_ (fun equal => same (by cases equal; rfl))
                intro held
                have held' : s.locatedAt (.worker other) index :=
                  (holderOther other same).symm.trans held
                cases orderly.custody.unique _ _ _ inQueue held'
        · intro place item different
          cases place with
          | queue => simp [locatedAt, HttpServer.setWorker, tasks, different]
          | worker other =>
              by_cases same : other = worker
              · subst other
                refine iff_of_false ?_ (by simp [locatedAt, holder, idle])
                intro held
                rw [show later.holder worker = some item from held,
                  Option.some.injEq] at holderWorker
                exact different holderWorker
              · exact iff_of_eq (congrArg (· = some item)
                  (holderOther other same))
      tasks_nodup := nodup.2
      queueing := orderly.queueing
      closing_all := orderly.closing_all
      replied := orderly.replied
      calls := by
        intro other func called
        by_cases same : other = worker
        · subst other
          rw [show s.conn.calls worker = some func from called] at noCall
          cases noCall
        · simp only [HttpServer.setWorker, Function.update_of_ne same]
          exact orderly.calls other func called }

/-- A worker enters a call of its own on a connection that is open. -/
theorem Orderly.beginCall {s : HttpServer W} (orderly : s.Orderly)
    {worker : W} {conn : TcpConnection W Nat} {phase : WorkerPhase}
    {func : Func W Nat}
    (sent : conn.sent = s.conn.sent) (funcs : conn.funcs = s.conn.funcs)
    (state : conn.state = s.conn.state)
    (calls : conn.calls = Function.update s.conn.calls worker (some func) ∨
      conn.calls = s.conn.calls ∧ s.conn.calls worker = none)
    (fits : CallFits worker func phase)
    (holds : ({ s with conn := conn }.setWorker worker phase).holder worker =
      s.holder worker) :
    ({ s with conn := conn }.setWorker worker phase).Orderly := by
  have callsOther (other : W) (different : other ≠ worker) :
      conn.calls other = s.conn.calls other := by
    rcases calls with calls | ⟨calls, _⟩
    · rw [calls, Function.update_of_ne different]
    · rw [calls]
  refine orderly.congr ?_ rfl rfl ?_ (orderly.queueing.congr funcs state)
    orderly.closing_all ?_ ?_
  · change conn.handed = s.conn.handed
    rw [handed, handed, sentLabels, sentLabels, sent, funcs]
  · intro other
    by_cases same : other = worker
    · exact same ▸ holds
    · simp only [holder, HttpServer.setWorker, Function.update_of_ne same,
        callsOther other same]
  · intro replied
    obtain ⟨closing, noneQueued⟩ := orderly.replied replied
    exact ⟨closing, (congrArg labelsOf funcs).trans noneQueued⟩
  · intro other called isCalling
    by_cases same : other = worker
    · subst other
      simp only [HttpServer.setWorker, Function.update_self]
      rcases calls with calls | ⟨calls, none⟩
      · have isFunc : conn.calls worker = some called := isCalling
        rw [calls, Function.update_self, Option.some.injEq] at isFunc
        exact isFunc ▸ fits
      · have isFunc : conn.calls worker = some called := isCalling
        rw [calls, none] at isFunc
        cases isFunc
    · simp only [HttpServer.setWorker, Function.update_of_ne same]
      apply orderly.calls other called
      rw [← callsOther other same]
      exact isCalling

theorem connQueued_funcs (s : HttpServer W) (worker : W) (func : Func W Nat) :
    (s.connQueued worker func).funcs = s.conn.funcs ++ [func] := by
  simp [connQueued, queueInLoop, funcs]

theorem connQueued_handed (s : HttpServer W) (worker : W)
    (func : Func W Nat) :
    (s.connQueued worker func).handed = s.conn.handed ++ labelsOf [func] := by
  rw [handed, connQueued_funcs, labelsOf_append, ← List.append_assoc]
  rfl

/-- A call that is over fits any phase. -/
theorem Orderly.calls_queued {s : HttpServer W} (orderly : s.Orderly)
    (worker : W) (func : Func W Nat) (other : W) (called : Func W Nat)
    (isCalling : (s.connQueued worker func).calls other = some called) :
    CallFits other called (s.workers other) := by
  change Function.update s.conn.calls worker none other = some called
    at isCalling
  by_cases same : other = worker
  · subst other
    simp at isCalling
  · rw [Function.update_of_ne same] at isCalling
    exact orderly.calls other called isCalling

omit [DecidableEq W] in
/-- Who is inside `conn->send` holds the request of its response. -/
theorem Orderly.sent_of_calling {s : HttpServer W} (orderly : s.Orderly)
    {worker owner : W} {message : Message Nat}
    (calling : s.conn.calls worker = some (.sendInLoop owner message)) :
    owner = worker ∧ (∃ closed, s.workers worker = .sent message.label closed) ∧
      s.holder worker = some message.label := by
  have fits := orderly.calls worker _ calling
  cases phase : s.workers worker with
  | sent index closed =>
      obtain ⟨text, same⟩ : ∃ text, Func.sendInLoop owner message =
          .sendInLoop worker ⟨index, text⟩ := by
        simpa only [phase, CallFits] using fits
      injection same with sameOwner sameMessage
      subst sameMessage
      exact ⟨sameOwner, ⟨closed, rfl⟩, by simp [holder, phase, calling]⟩
  | closing => simp [phase, CallFits] at fits
  | idle | serving | sending => simp [phase, CallFits] at fits

/-- A worker queues its response when all earlier ones are sent or queued. -/
theorem Orderly.queueResponse {s : HttpServer W} (orderly : s.Orderly)
    {worker owner : W} {message : Message Nat}
    (calling : s.conn.calls worker = some (.sendInLoop owner message))
    (earlier : ∀ index < message.label, index ∈ s.conn.handed) :
    { s with
      conn := s.connQueued worker (.sendInLoop owner message) }.Orderly := by
  let later : HttpServer W :=
    { s with conn := s.connQueued worker (.sendInLoop owner message) }
  obtain ⟨rfl, ⟨closed, phase⟩, holds⟩ := orderly.sent_of_calling calling
  obtain ⟨index, text⟩ := message
  replace holds : s.locatedAt (.worker owner) index := holds
  have isWaiting := orderly.custody.present_of_located _ _ holds
  obtain ⟨notClosing, connected, noShutdown⟩ :=
    orderly.connected_of_waiting isWaiting
  have indexEq : index = s.conn.handed.length := by
    have notLess : ¬ s.conn.handed.length < index := by
      intro less
      have member := earlier s.conn.handed.length less
      exact Nat.lt_irrefl _ ((orderly.mem_handed_iff _).mp member)
    have bounds := isWaiting.1
    omega
  have handedAfter : later.conn.handed = s.conn.handed ++ [index] :=
    connQueued_handed s owner _
  have lengthAfter : later.conn.handed.length = s.conn.handed.length + 1 := by
    rw [handedAfter, List.length_append, List.length_singleton]
  have funcsAfter : later.conn.funcs =
      s.conn.funcs ++ [.sendInLoop owner ⟨index, text⟩] :=
    connQueued_funcs s owner _
  have holderOwner : later.holder owner = none := by
    simp [later, holder, phase, connQueued, queueInLoop]
  have holderOther (other : W) (different : other ≠ owner) :
      later.holder other = s.holder other := by
    simp [later, holder, connQueued, queueInLoop,
      Function.update_of_ne different]
  exact
    { handed_eq := by
        rw [lengthAfter, handedAfter, List.range_succ, ← orderly.handed_eq,
          indexEq]
      handed_le := by
        rw [lengthAfter, ← indexEq]
        exact isWaiting.2
      custody := by
        apply orderly.custody.retire index
        · intro place item
          cases place with
          | queue =>
              refine ⟨fun member => ⟨member, ?_⟩, fun both => both.1⟩
              rintro rfl
              have inQueue : s.locatedAt .queue item := member
              cases orderly.custody.unique _ _ _ holds inQueue
          | worker other =>
              by_cases isOwner : other = owner
              · subst other
                refine iff_of_false ?_ ?_
                · intro held
                  rw [show later.holder owner = some item from held]
                    at holderOwner
                  cases holderOwner
                · rintro ⟨held, different⟩
                  have : s.holder owner = some index := holds
                  rw [show s.holder owner = some item from held,
                    Option.some.injEq] at this
                  exact different this
              · change later.holder other = some item ↔
                  s.holder other = some item ∧ item ≠ index
                rw [holderOther other isOwner]
                refine ⟨fun held => ⟨held, ?_⟩, fun both => both.1⟩
                rintro rfl
                have equal := orderly.custody.unique _ (.worker other) _
                  holds held
                injection equal with equal
                exact isOwner equal.symm
        · intro item
          change later.conn.handed.length ≤ item ∧ item < s.requests ↔
            (s.conn.handed.length ≤ item ∧ item < s.requests) ∧ item ≠ index
          rw [lengthAfter]
          omega
      tasks_nodup := orderly.tasks_nodup
      queueing := by
        refine ⟨?_, ?_, fun stopped => absurd connected stopped⟩
        · intro _
          refine ⟨connected, ?_⟩
          rw [funcsAfter]
          simpa using noShutdown
        · rw [funcsAfter]
          exact sendsFirst_append_of_not_mem noShutdown _
      closing_all := fun closing => by
        rw [show s.closing = true from closing] at notClosing
        cases notClosing
      replied := fun replied => by
        rw [(orderly.replied replied).1] at notClosing
        cases notClosing
      calls := orderly.calls_queued owner _ }

/-- A worker queues a shutdown when all responses are sent or queued. -/
theorem Orderly.queueShutdown {s : HttpServer W} (orderly : s.Orderly)
    {worker : W} (calling : s.conn.calls worker = some .shutdownInLoop)
    (all : ∀ index < s.requests, index ∈ s.conn.handed) :
    { s with
      conn := s.connQueued worker .shutdownInLoop
      closing := true }.Orderly := by
  let later : HttpServer W :=
    { s with conn := s.connQueued worker .shutdownInLoop, closing := true }
  have funcsAfter : later.conn.funcs = s.conn.funcs ++ [.shutdownInLoop] :=
    connQueued_funcs s worker _
  have labelsAfter : labelsOf later.conn.funcs = labelsOf s.conn.funcs := by
    rw [funcsAfter, labelsOf_append]
    exact List.append_nil _
  have handedAfter : later.conn.handed = s.conn.handed := by
    rw [show later.conn.handed = s.conn.handed ++ labelsOf [.shutdownInLoop]
      from connQueued_handed s worker _]
    exact List.append_nil _
  have allHanded : s.conn.handed.length = s.requests := by
    by_contra different
    have lt := Nat.lt_of_le_of_ne orderly.handed_le different
    exact Nat.lt_irrefl _ ((orderly.mem_handed_iff _).mp (all _ lt))
  have holders : ∀ other, later.holder other = s.holder other := by
    intro other
    by_cases same : other = worker
    · subst other
      have fits := orderly.calls worker _ calling
      cases phase : s.workers worker with
      | sent index closed => simp [phase, CallFits] at fits
      | closing | idle | serving | sending =>
          simp [later, holder, phase]
    · simp [later, holder, connQueued, queueInLoop,
        Function.update_of_ne same]
  have queueing : later.conn.Queueing later.closing := by
    refine ⟨fun notClosing => Bool.noConfusion notClosing, ?_, ?_⟩
    · rw [funcsAfter]
      exact orderly.queueing.sendsFirst.append rfl
    · intro stopped
      rw [labelsAfter]
      exact orderly.queueing.stopped stopped
  refine orderly.congr handedAfter rfl rfl holders queueing
    (fun _ => allHanded) ?_ (orderly.calls_queued worker _)
  intro replied
  exact ⟨rfl, labelsAfter.trans (orderly.replied replied).2⟩

/-- The loop thread works on its queue or on the socket. -/
theorem Orderly.inLoop {s : HttpServer W} (orderly : s.Orderly)
    {conn : TcpConnection W Nat} {action : TcpConnection.Action W Nat}
    (inLoop : action = .swapPendingFuncs ∨
      (∃ result, action = .runPendingFunc result) ∨
      ∃ result, action = .handleWrite result)
    (taken : s.conn.step action = some conn) :
    { s with conn := conn }.Orderly := by
  obtain ⟨queueing, handed, calls, labels⟩ :=
    orderly.queueing.step inLoop taken
  let later : HttpServer W := { s with conn := conn }
  have holders : ∀ worker, later.holder worker = s.holder worker := by
    intro worker
    simp only [later, holder, calls]
  refine orderly.congr handed rfl rfl holders queueing orderly.closing_all
    ?_ (calls ▸ orderly.calls)
  intro replied
  obtain ⟨closing, noneQueued⟩ := orderly.replied replied
  rw [noneQueued] at labels
  exact ⟨closing, List.suffix_nil.mp labels⟩

theorem Orderly.requested {s later : HttpServer W} (orderly : s.Orderly)
    {toText : HttpResponse → Bytes} {context : HttpContext}
    {submitted : SubmitStatus} {result : WriteResult}
    (inOrder : s.InOrder (.handleRequest context submitted result))
    (taken : s.step toText (.handleRequest context submitted result) =
      some later) : later.Orderly := by
  simp only [HttpServer.step] at taken
  split at taken
  · cases taken
    cases submitted with
    | kOK => exact orderly.handleRequest_ok toText context result inOrder
    | kStopping | kTimeout =>
        exact orderly.replyInLoop _ result inOrder.1 inOrder.2
  · cases taken

theorem Orderly.serve {s later : HttpServer W} (orderly : s.Orderly)
    {toText : HttpResponse → Bytes} {worker : W}
    {handle : HttpContext → Option HttpContext}
    (inOrder : s.InOrder (.serve worker handle))
    (taken : s.step toText (.serve worker handle) = some later) :
    later.Orderly := by
  simp only [HttpServer.step] at taken
  split at taken
  · next index context phase =>
      have noCall : s.conn.calls worker = none :=
        orderly.calls_eq_none (by simp [phase, CallFits])
      cases served : workFunc handle context with
      | none => simp [InOrder, phase, served] at inOrder
      | some response =>
          rw [served] at taken
          cases taken
          exact orderly.setWorker _
            (by simp [holder, HttpServer.setWorker, phase]) noCall
  · cases taken

theorem Orderly.send {s later : HttpServer W} (orderly : s.Orderly)
    {toText : HttpResponse → Bytes} {worker : W}
    (taken : s.step toText (.send worker) = some later) : later.Orderly := by
  simp only [HttpServer.step] at taken
  split at taken
  · next index response phase =>
      have noCall : s.conn.calls worker = none :=
        orderly.calls_eq_none (by simp [phase, CallFits])
      have holds : s.locatedAt (.worker worker) index := by
        simp [locatedAt, holder, phase]
      obtain ⟨_, connected, _⟩ := orderly.connected_of_waiting
        (orderly.custody.present_of_located _ _ holds)
      simp only [TcpConnection.step, noCall, withConn, callSend, recordIssued,
        TcpConnection.beginCall, connected, if_pos, Option.map_some,
        Option.some.injEq] at taken
      subst later
      exact orderly.beginCall rfl rfl connected.symm (Or.inl rfl) ⟨_, rfl⟩
        (by simp [holder, HttpServer.setWorker, phase])
  · cases taken

theorem Orderly.shutdownOrDone {s later : HttpServer W} (orderly : s.Orderly)
    {toText : HttpResponse → Bytes} {worker : W}
    (taken : s.step toText (.shutdownOrDone worker) = some later) :
    later.Orderly := by
  simp only [HttpServer.step] at taken
  split at taken
  · next index phase noCall =>
      simp only [TcpConnection.step, noCall, withConn, callShutdown,
        Option.map_some, Option.some.injEq] at taken
      subst later
      have holds (conn : TcpConnection W Nat) :
          ({ s with conn := conn }.setWorker worker .closing).holder worker =
            s.holder worker := by
        simp [holder, HttpServer.setWorker, phase, noCall]
      unfold TcpConnection.beginCall
      split
      · exact orderly.beginCall rfl rfl rfl (Or.inl rfl) rfl (holds _)
      · exact orderly.beginCall rfl rfl rfl (Or.inr ⟨rfl, noCall⟩) rfl (holds _)
  · next index phase noCall =>
      cases taken
      exact orderly.setWorker _
        (by simp [holder, HttpServer.setWorker, phase, noCall]) noCall
  · cases taken

theorem Orderly.done {s later : HttpServer W} (orderly : s.Orderly)
    {toText : HttpResponse → Bytes} {worker : W}
    (taken : s.step toText (.done worker) = some later) : later.Orderly := by
  simp only [HttpServer.step] at taken
  split at taken
  · next phase noCall =>
      cases taken
      exact orderly.setWorker _
        (by simp [holder, HttpServer.setWorker, phase]) noCall
  · cases taken

theorem Orderly.queueCall {s later : HttpServer W} (orderly : s.Orderly)
    {toText : HttpResponse → Bytes} {worker : W}
    (inOrder : s.InOrder (.queueCall worker))
    (taken : s.step toText (.queueCall worker) = some later) :
    later.Orderly := by
  obtain ⟨func, calling, rfl⟩ := step_queueCall taken
  simp only [InOrder, calling] at inOrder
  cases func with
  | sendInLoop owner message =>
      simpa using orderly.queueResponse calling inOrder
  | shutdownInLoop =>
      simpa using orderly.queueShutdown calling inOrder
  | writeCompleteCallback =>
      have fits := orderly.calls worker _ calling
      cases phase : s.workers worker <;> simp [phase, CallFits] at fits

/-- The steps of the loop thread between its answers. -/
theorem Orderly.loopStep {s later : HttpServer W} (orderly : s.Orderly)
    {action : TcpConnection.Action W Nat}
    (inLoop : action = .swapPendingFuncs ∨
      (∃ result, action = .runPendingFunc result) ∨
      ∃ result, action = .handleWrite result)
    (taken : (if s.loopFree = true then s.withConn (s.conn.step action)
      else none) = some later) : later.Orderly := by
  split at taken
  · obtain ⟨conn, stepped, rfl⟩ := Option.map_eq_some_iff.mp taken
    exact orderly.inLoop inLoop stepped
  · cases taken

/-- Every step that meets the condition keeps the invariant. -/
theorem Orderly.step {s later : HttpServer W} (orderly : s.Orderly)
    (toText : HttpResponse → Bytes) {action : Action W}
    (inOrder : s.InOrder action) (taken : s.step toText action = some later) :
    later.Orderly := by
  cases action with
  | handleRequest context submitted result =>
      exact orderly.requested inOrder taken
  | parseFailed context result =>
      simp only [HttpServer.step] at taken
      split at taken
      · cases taken
        exact orderly.replyInLoop _ result inOrder.1 inOrder.2
      · cases taken
  | shutdownReplied =>
      simp only [HttpServer.step] at taken
      split at taken
      · next isReplied =>
          cases taken
          exact orderly.shutdownReplied isReplied
      · cases taken
  | takeTask worker =>
      simp only [HttpServer.step] at taken
      split at taken
      · next index context rest idle tasks =>
          cases taken
          exact orderly.takeTask idle tasks
      · cases taken
  | serve worker handle => exact orderly.serve inOrder taken
  | send worker => exact orderly.send taken
  | shutdownOrDone worker => exact orderly.shutdownOrDone taken
  | done worker => exact orderly.done taken
  | queueCall worker => exact orderly.queueCall inOrder taken
  | swapPendingFuncs => exact orderly.loopStep (.inl rfl) taken
  | runPendingFunc result =>
      exact orderly.loopStep (.inr (.inl ⟨result, rfl⟩)) taken
  | handleWrite result =>
      exact orderly.loopStep (.inr (.inr ⟨result, rfl⟩)) taken

/-- In every run whose steps meet the condition, the responses sent are those
of the first requests, one each and in order, and those of all requests once
nothing is left to do. -/
theorem answeredInOrder_of_inOrder (toText : HttpResponse → Bytes)
    (hasWriteComplete : Bool) {actions : List (Action W)}
    {s : HttpServer W}
    (reached : Reaches (HttpServer.step toText) InOrder
      (new hasWriteComplete) actions s) : s.AnsweredInOrder := by
  have orderly : s.Orderly :=
    reached.invariant (new_orderly hasWriteComplete)
      fun _ _ _ before inOrder taken => before.step toText inOrder taken
  exact orderly.answered

end

instance (s : HttpServer W) (action : Action W) :
    Decidable (s.InOrder action) := by
  unfold InOrder
  split <;> try infer_instance
  all_goals split <;> infer_instance

/-- A parsed `GET` request. -/
def getContext (path : Bytes) (headers : StringMap) : HttpContext where
  state := .kGotAll
  request := { method := .kGet, path, version := .kHttp11, headers }

def firstContext : HttpContext :=
  getContext (ascii "/one") ∅

def secondContext : HttpContext :=
  getContext (ascii "/two") ∅

def closingContext : HttpContext :=
  getContext (ascii "/two")
    (Finmap.singleton (ascii "Connection") (ascii "close"))

/-- Two requests are answered one after the other; the second one closes the
connection. -/
def closingRun : List (Action Nat) :=
  [.handleRequest firstContext .kOK .wouldBlock,
    .handleRequest closingContext .kOK .wouldBlock, .takeTask 0, .takeTask 1,
    .serve 0 some, .serve 1 some, .send 0, .queueCall 0, .send 1,
    .queueCall 1, .shutdownOrDone 1, .queueCall 1, .shutdownOrDone 0, .done 1,
    .swapPendingFuncs, .runPendingFunc (.accepted 0),
    .runPendingFunc (.accepted 0), .runPendingFunc (.accepted 0)]

theorem answeredInOrder_closingRun :
    ∃ s : HttpServer Nat,
      Reaches (HttpServer.step fun _ => []) InOrder (new false) closingRun s ∧
        s.AnsweredInOrder := by
  obtain ⟨s, result⟩ : ∃ s : HttpServer Nat,
      evaluate (HttpServer.step fun _ => []) InOrder (new false) closingRun =
        some s :=
    Option.isSome_iff_exists.mp (by decide)
  have reached := reaches_of_evaluate result
  exact ⟨s, reached, answeredInOrder_of_inOrder _ false reached⟩

/-- The second of two workers is faster and its response goes first. -/
def overtakingRun : List (Action Nat) :=
  [.handleRequest firstContext .kOK .wouldBlock,
    .handleRequest secondContext .kOK .wouldBlock, .takeTask 0, .takeTask 1,
    .serve 1 some, .send 1, .queueCall 1, .serve 0 some, .send 0,
    .queueCall 0, .swapPendingFuncs, .runPendingFunc (.accepted 0),
    .runPendingFunc (.accepted 0)]

theorem not_answeredInOrder_overtakingRun :
    ∃ s : HttpServer Nat,
      Reaches (HttpServer.step fun _ => []) (fun _ _ => True) (new true)
        overtakingRun s ∧ ¬ s.AnsweredInOrder := by
  obtain ⟨s, result⟩ : ∃ s : HttpServer Nat,
      evaluate (HttpServer.step fun _ => []) (fun _ _ => True) (new true)
        overtakingRun = some s :=
    Option.isSome_iff_exists.mp (by decide)
  have labels : (evaluate (HttpServer.step fun _ => []) (fun _ _ => True)
      (new true) overtakingRun).map (fun s => s.conn.sentLabels) =
        some [1, 0] := by
    decide
  rw [result, Option.map_some, Option.some.injEq] at labels
  refine ⟨s, reaches_of_evaluate result, ?_⟩
  rintro ⟨count, _, sent, _⟩
  rw [labels] at sent
  match count with
  | 0 | 1 | 2 => simp [List.range, List.range.loop] at sent
  | count + 3 =>
      have := congrArg List.length sent
      simp at this

end HttpServer

end KitMuduo
