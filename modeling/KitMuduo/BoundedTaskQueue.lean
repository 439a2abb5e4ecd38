import KitMuduo.ItemCustody
import KitMuduo.MutexOwnership
import Mathlib.Data.List.Nodup
import Mathlib.Logic.Function.Basic

/-!
# A bounded queue of tasks under a mutex

Threads submit tasks to a queue of bounded length and take them from it, both
under one mutex; a counter follows the length of the queue, and a flag closes
the queue for good.  A task is named by the thread that submits it.  The
invariant says that nothing is lost or done twice, that the counter is right
whenever the mutex is free, and that the queue stays empty once a thread has
left because it found the queue closed and empty.
-/

namespace BoundedTaskQueue

open ItemCustody MutexOwnership

/-- Where a thread is with respect to the queue. -/
inductive Phase (Thread : Type*)
  /-- Without the mutex and without a task. -/
  | outside
  /-- With the mutex, nothing being known. -/
  | inside
  /-- With the mutex, after finding room for a task or the queue closed. -/
  | admitted
  | pushing
  /-- The task is in the queue and not yet counted. -/
  | counting
  /-- The task has been handed over. -/
  | accepted
  /-- With the mutex, after finding a task or the queue closed. -/
  | sawWork
  | popping
  /-- A task has been taken and is still counted. -/
  | discounting (task : Thread)
  | carrying (task : Thread)
  /-- Left for good after finding the queue closed and empty. -/
  | gone

variable {Thread : Type*}

def Phase.holds : Phase Thread → Bool
  | inside | admitted | pushing | counting | sawWork | popping
  | discounting _ => true
  | _ => false

/-- The task of the thread is in the system. -/
def Phase.isAccepted : Phase Thread → Bool
  | counting | accepted => true
  | _ => false

/-- The task a thread has taken. -/
def Phase.hand : Phase Thread → Option Thread
  | discounting task | carrying task => some task
  | _ => none

/-- What the counter is behind or ahead of the queue while a thread with the
mutex is there. -/
def Phase.offset : Phase Thread → Int
  | counting => -1
  | discounting _ => 1
  | _ => 0

/-- The thread is about to change the queue or the counter. -/
def Phase.isBusy : Phase Thread → Bool
  | pushing | counting | discounting _ => true
  | _ => false

structure State (Thread : Type*) where
  isOpen : Bool
  queue : List Thread
  count : Int
  holder : Option Thread
  phase : Thread → Phase Thread
  done : List Thread

/-- What the counter is behind or ahead of the queue. -/
def State.offset (s : State Thread) : Int :=
  match s.holder with
  | none => 0
  | some thread => (s.phase thread).offset

/-- Closed, empty, and nobody is about to change that. -/
structure State.Sealed (s : State Thread) : Prop where
  closed : s.isOpen = false
  empty : s.queue = []
  quiet : ∀ thread, (s.phase thread).isBusy = false

inductive Place (Thread : Type*)
  | queue
  | hand (thread : Thread)
  | done

def State.locatedAt (s : State Thread) : Place Thread → Thread → Prop
  | .queue, task => task ∈ s.queue
  | .hand thread, task => (s.phase thread).hand = some task
  | .done, task => task ∈ s.done

def State.present (s : State Thread) (task : Thread) : Prop :=
  (s.phase task).isAccepted = true

/-- What a thread knows by being where it is. -/
def State.Knows (capacity : Nat) (s : State Thread) : Phase Thread → Prop
  | .admitted => s.count < (capacity : Int) ∨ s.isOpen = false
  | .pushing => s.count < (capacity : Int)
  | .sawWork => s.queue ≠ [] ∨ s.isOpen = false
  | .popping => s.queue ≠ []
  | .gone => s.Sealed
  | _ => True

/-- The mutex and the counter. -/
structure State.Locked (capacity : Nat) (s : State Thread) : Prop where
  held : Held Phase.holds s.phase s.holder
  count_eq : s.count = s.queue.length + s.offset
  length_le : s.queue.length ≤ capacity
  knows : ∀ thread, s.Knows capacity (s.phase thread)

/-- The whereabouts of the tasks. -/
structure State.Tracked (s : State Thread) : Prop where
  custody : Custody s.locatedAt s.present
  queue_nodup : s.queue.Nodup
  done_nodup : s.done.Nodup

variable {capacity : Nat} {s t : State Thread} {thread other : Thread}

theorem isBusy_of_offset {phase : Phase Thread} (quiet : phase.isBusy = false) :
    phase.offset = 0 := by
  cases phase <;> simp_all [Phase.isBusy, Phase.offset]

theorem offset_of_free (free : s.holder = none) : s.offset = 0 := by
  simp [State.offset, free]

theorem offset_of_holder (thread : Thread) (holder : s.holder = some thread) :
    s.offset = (s.phase thread).offset := by
  simp [State.offset, holder]

theorem isBusy_of_not_holds {phase : Phase Thread}
    (released : phase.holds = false) : phase.isBusy = false := by
  cases phase <;> simp_all [Phase.holds, Phase.isBusy]

/-- A thread without the mutex knows nothing, unless it has left. -/
theorem knows_of_not_holds {phase : Phase Thread}
    (released : phase.holds = false) (left : phase = .gone → t.Sealed) :
    t.Knows capacity phase := by
  cases phase <;> simp_all [Phase.holds, State.Knows]

/-- The counter as the thread with the mutex sees it. -/
theorem State.Locked.count_eq_of_holds (locked : s.Locked capacity)
    (holding : (s.phase thread).holds = true) :
    s.count = s.queue.length + (s.phase thread).offset := by
  rw [locked.count_eq, offset_of_holder thread (locked.held.owner_eq holding)]

/-- What is known stays known when the queue and the counter stay as they are
and the queue is not opened. -/
theorem State.Knows.keep {phase : Phase Thread} (known : s.Knows capacity phase)
    (queue : t.queue = s.queue) (count : t.count = s.count)
    (closed : s.isOpen = false → t.isOpen = false)
    (isSealed : s.Sealed → t.Sealed) : t.Knows capacity phase := by
  cases phase with
  | admitted => exact known.imp (fun room => by rwa [count]) closed
  | pushing =>
      change t.count < (capacity : Int)
      rwa [count]
  | sawWork => exact known.imp (fun work => by rwa [queue]) closed
  | popping =>
      change t.queue ≠ []
      rwa [queue]
  | gone => exact isSealed known
  | outside | inside | counting | accepted | discounting task
  | carrying task => trivial

/-- Nothing has been submitted and no thread has begun. -/
def State.start (Thread : Type*) : State Thread where
  isOpen := true
  queue := []
  count := 0
  holder := none
  phase := fun _ => .outside
  done := []

theorem State.Locked.start :
    (State.start Thread).Locked capacity where
  held := fun thread => by simp [State.start, Phase.holds]
  count_eq := rfl
  length_le := Nat.zero_le _
  knows := fun _ => trivial

theorem State.Tracked.start : (State.start Thread).Tracked where
  custody := by
    refine ⟨?_, ?_, ?_⟩
    · intro place task located
      cases place <;> simp [State.locatedAt, State.start, Phase.hand] at located
    · intro place other task located
      cases place <;> simp [State.locatedAt, State.start, Phase.hand] at located
    · intro task isPresent
      simp [State.present, State.start, Phase.isAccepted] at isPresent
  queue_nodup := List.nodup_nil
  done_nodup := List.nodup_nil

/-- Once the queue is closed and empty, a task that was handed over is done or
in a hand. -/
theorem State.Tracked.done_of_sealed (tracked : s.Tracked)
    (isSealed : s.Sealed) {task : Thread} (isPresent : s.present task)
    (idle : ∀ thread, (s.phase thread).hand ≠ some task) : task ∈ s.done := by
  obtain ⟨place, located⟩ := tracked.custody.exists_place task isPresent
  cases place with
  | queue =>
      have inQueue : task ∈ s.queue := located
      rw [isSealed.empty] at inQueue
      cases inQueue
  | hand thread => exact absurd located (idle thread)
  | done => exact located

variable [DecidableEq Thread]

def State.move (s : State Thread) (thread : Thread) (phase : Phase Thread) :
    State Thread :=
  { s with phase := Function.update s.phase thread phase }

/-- The steps of the threads. -/
inductive Step (capacity : Nat) : State Thread → State Thread → Prop
  | acquire {s : State Thread} (thread) (here : s.phase thread = .outside)
      (free : s.holder = none) :
      Step capacity s ({ s with holder := some thread }.move thread .inside)
  | release {s : State Thread} (thread) (here : s.phase thread = .inside) :
      Step capacity s ({ s with holder := none }.move thread .outside)
  | allow {s : State Thread} (thread) (here : s.phase thread = .inside)
      (room : s.count < (capacity : Int) ∨ s.isOpen = false) :
      Step capacity s (s.move thread .admitted)
  | refuse {s : State Thread} (thread) (here : s.phase thread = .admitted) :
      Step capacity s ({ s with holder := none }.move thread .outside)
  | enter {s : State Thread} (thread) (here : s.phase thread = .admitted)
      (isOpen : s.isOpen = true) :
      Step capacity s (s.move thread .pushing)
  | push {s : State Thread} (thread) (here : s.phase thread = .pushing) :
      Step capacity s
        ({ s with queue := s.queue ++ [thread] }.move thread .counting)
  | count {s : State Thread} (thread) (here : s.phase thread = .counting) :
      Step capacity s
        ({ s with count := s.count + 1, holder := none }.move thread .accepted)
  | see {s : State Thread} (thread) (here : s.phase thread = .inside)
      (work : s.count > 0 ∨ s.queue ≠ [] ∨ s.isOpen = false) :
      Step capacity s (s.move thread .sawWork)
  | pick {s : State Thread} (thread) (here : s.phase thread = .sawWork)
      (work : ¬ (s.isOpen = false ∧ s.queue = [])) :
      Step capacity s (s.move thread .popping)
  | pop {s : State Thread} (thread) {task : Thread} {rest : List Thread}
      (here : s.phase thread = .popping) (first : s.queue = task :: rest) :
      Step capacity s ({ s with queue := rest }.move thread (.discounting task))
  | discount {s : State Thread} (thread) {task : Thread}
      (here : s.phase thread = .discounting task) :
      Step capacity s
        ({ s with count := s.count - 1, holder := none }.move thread
          (.carrying task))
  | finish {s : State Thread} (thread) {task : Thread}
      (here : s.phase thread = .carrying task) :
      Step capacity s
        ({ s with done := s.done ++ [task] }.move thread .outside)
  | leave {s : State Thread} (thread) (here : s.phase thread = .sawWork)
      (closed : s.isOpen = false) (empty : s.queue = []) :
      Step capacity s ({ s with holder := none }.move thread .gone)
  | pass {s : State Thread} (thread) (here : s.phase thread = .inside)
      (closed : s.isOpen = false) (empty : s.count = 0) :
      Step capacity s ({ s with holder := none }.move thread .gone)
  | close {s : State Thread} : Step capacity s { s with isOpen := false }

@[simp]
theorem move_phase (s : State Thread) (thread : Thread)
    (phase : Phase Thread) :
    (s.move thread phase).phase = Function.update s.phase thread phase := rfl

theorem State.Sealed.move (isSealed : s.Sealed) {phase : Phase Thread}
    (quiet : phase.isBusy = false)
    (phases : t.phase = Function.update s.phase thread phase)
    (closed : t.isOpen = false) (empty : t.queue = []) : t.Sealed where
  closed := closed
  empty := empty
  quiet := by
    intro other
    rw [phases]
    by_cases same : other = thread
    · rw [same, Function.update_self]
      exact quiet
    · rw [Function.update_of_ne same]
      exact isSealed.quiet other

/-- A queue that is closed and empty stays so. -/
theorem State.Sealed.step (isSealed : s.Sealed)
    (step : Step capacity s t) : t.Sealed := by
  have busy : ∀ thread, (s.phase thread).isBusy = true → t.Sealed := by
    intro thread isBusy
    rw [isSealed.quiet thread] at isBusy
    cases isBusy
  cases step with
  | acquire thread here free | release thread here | allow thread here room
  | refuse thread here | see thread here work | pick thread here work
  | finish thread here | leave thread here closed empty
  | pass thread here closed empty =>
      exact isSealed.move (by rfl) rfl isSealed.closed isSealed.empty
  | enter thread here isOpen =>
      rw [isSealed.closed] at isOpen
      cases isOpen
  | push thread here | count thread here | discount thread here =>
      exact busy thread (by rw [here]; rfl)
  | pop thread here first =>
      rw [isSealed.empty] at first
      cases first
  | close => exact ⟨rfl, isSealed.empty, isSealed.quiet⟩

/-- Once the queue is closed and empty, no task is handed over any more. -/
theorem State.Sealed.present_of_step (isSealed : s.Sealed)
    (step : Step capacity s t) {task : Thread} (isPresent : t.present task) :
    s.present task := by
  have moved : ∀ {thread : Thread} {phase : Phase Thread},
      phase.isAccepted = false →
      (Function.update s.phase thread phase task).isAccepted = true →
      s.present task := by
    intro thread phase absent after
    by_cases same : task = thread
    · rw [same, Function.update_self, absent] at after
      cases after
    · rwa [Function.update_of_ne same] at after
  have busy : ∀ thread, (s.phase thread).isBusy = true → s.present task := by
    intro thread isBusy
    rw [isSealed.quiet thread] at isBusy
    cases isBusy
  cases step with
  | acquire thread here free | release thread here | allow thread here room
  | refuse thread here | enter thread here isOpen | see thread here work
  | pick thread here work | pop thread here first | discount thread here
  | finish thread here | leave thread here closed empty
  | pass thread here closed empty => exact moved rfl isPresent
  | push thread here | count thread here =>
      exact busy thread (by rw [here]; rfl)
  | close => exact isPresent

/-- What the other threads know when a thread moves that is the only one with
the mutex, or that takes it. -/
theorem State.Locked.knows_move (locked : s.Locked capacity)
    (step : Step capacity s t) {phase : Phase Thread}
    (phases : t.phase = Function.update s.phase thread phase)
    (alone : ∀ other, other ≠ thread → (s.phase other).holds = false)
    (new : t.Knows capacity phase) (other : Thread) :
    t.Knows capacity (t.phase other) := by
  rw [phases]
  by_cases same : other = thread
  · rw [same, Function.update_self]
    exact new
  · rw [Function.update_of_ne same]
    apply knows_of_not_holds (alone other same)
    intro left
    have isSealed : s.Sealed := by
      have known := locked.knows other
      rw [left] at known
      exact known
    exact isSealed.step step

/-- A step of the thread with the mutex. -/
theorem State.Locked.move (locked : s.Locked capacity) (thread : Thread)
    (step : Step capacity s t) {phase : Phase Thread}
    (phases : t.phase = Function.update s.phase thread phase)
    (holding : (s.phase thread).holds = true)
    (holder : t.holder = if phase.holds then some thread else none)
    (count_eq : t.count = t.queue.length +
      if phase.holds then phase.offset else 0)
    (length_le : t.queue.length ≤ capacity) (new : t.Knows capacity phase) :
    t.Locked capacity := by
  have owned : s.holder = some thread := locked.held.owner_eq holding
  have held : Held Phase.holds s.phase (some thread) := owned ▸ locked.held
  refine ⟨?_, ?_, length_le, ?_⟩
  · rw [phases, holder]
    cases kept : phase.holds with
    | true => exact held.keep (by rw [kept, holding])
    | false => exact held.release kept
  · rw [count_eq, State.offset, holder, phases]
    cases phase.holds <;> simp
  · exact locked.knows_move step phases (fun other different =>
      held.not_holds_of_ne different) new

/-- The thread with the mutex leaves a queue that is closed and empty. -/
theorem State.Locked.sealed_of_leaving (locked : s.Locked capacity)
    (thread : Thread) (holding : (s.phase thread).holds = true)
    (phases : t.phase = Function.update s.phase thread .gone)
    (closed : t.isOpen = false) (empty : t.queue = []) : t.Sealed where
  closed := closed
  empty := empty
  quiet := by
    intro other
    rw [phases]
    by_cases same : other = thread
    · rw [same, Function.update_self]
      rfl
    · rw [Function.update_of_ne same]
      have held : Held Phase.holds s.phase (some thread) :=
        locked.held.owner_eq holding ▸ locked.held
      exact isBusy_of_not_holds (held.not_holds_of_ne same)

/-- A thread that moves without touching the mutex leaves the counter
right. -/
theorem offset_move {phase : Phase Thread}
    (same : (s.phase thread).offset = phase.offset)
    (holder : t.holder = s.holder) :
    State.offset { t with phase := Function.update s.phase thread phase } =
      s.offset := by
  unfold State.offset
  rw [holder]
  cases s.holder with
  | none => rfl
  | some owner =>
      by_cases equal : owner = thread
      · simp [equal, same]
      · simp [Function.update_of_ne equal]

omit [DecidableEq Thread] in
theorem State.Locked.counted (locked : s.Locked capacity) {thread : Thread}
    {phase : Phase Thread} (here : s.phase thread = phase)
    (holding : phase.holds = true) :
    s.count = s.queue.length + phase.offset := by
  subst here
  exact locked.count_eq_of_holds holding

omit [DecidableEq Thread] in
/-- The counter is right outside of the two sections that change it. -/
theorem State.Locked.settled (locked : s.Locked capacity) {thread : Thread}
    {phase : Phase Thread} (here : s.phase thread = phase)
    (holding : phase.holds = true) (exact : phase.offset = 0) :
    s.count = s.queue.length := by
  have count := locked.counted here holding
  rwa [exact, Int.add_zero] at count

omit [DecidableEq Thread] in
theorem State.Locked.known (locked : s.Locked capacity) {thread : Thread}
    {phase : Phase Thread} (here : s.phase thread = phase) :
    s.Knows capacity phase := by
  subst here
  exact locked.knows thread

/-- A step of the thread with the mutex that keeps it. -/
theorem State.Locked.stay (locked : s.Locked capacity) {thread : Thread}
    (step : Step capacity s t) {phase : Phase Thread}
    (phases : t.phase = Function.update s.phase thread phase)
    (holding : (s.phase thread).holds = true) (stays : phase.holds = true)
    (holder : t.holder = s.holder)
    (count_eq : t.count = t.queue.length + phase.offset)
    (length_le : t.queue.length ≤ capacity) (new : t.Knows capacity phase) :
    t.Locked capacity := by
  apply locked.move thread step phases holding _ _ length_le new
  · rw [holder, if_pos stays]
    exact locked.held.owner_eq holding
  · rw [count_eq, if_pos stays]

/-- A step with which the thread lets go of the mutex. -/
theorem State.Locked.letGo (locked : s.Locked capacity) {thread : Thread}
    (step : Step capacity s t) {phase : Phase Thread}
    (phases : t.phase = Function.update s.phase thread phase)
    (holding : (s.phase thread).holds = true) (lets : phase.holds = false)
    (holder : t.holder = none) (count_eq : t.count = t.queue.length)
    (queue : t.queue = s.queue) (new : t.Knows capacity phase) :
    t.Locked capacity := by
  apply locked.move thread step phases holding _ _ _ new
  · rw [holder, lets]
    rfl
  · rw [count_eq, lets]
    exact (Int.add_zero _).symm
  · rw [queue]
    exact locked.length_le

theorem State.Locked.acquire (locked : s.Locked capacity) {thread : Thread}
    (here : s.phase thread = .outside) (free : s.holder = none) :
    ({ s with holder := some thread }.move thread .inside).Locked capacity := by
  have held : Held Phase.holds s.phase none := free ▸ locked.held
  refine ⟨held.acquire rfl, ?_, locked.length_le, ?_⟩
  · rw [offset_of_holder thread rfl, move_phase, Function.update_self]
    exact locked.count_eq.trans (by rw [offset_of_free free]; rfl)
  · exact locked.knows_move (.acquire thread here free) rfl
      (fun other _ => held.not_holds_of_free other) trivial

/-- There is room for the task that is handed over. -/
theorem State.Locked.push (locked : s.Locked capacity) {thread : Thread}
    (here : s.phase thread = .pushing) :
    ({ s with queue := s.queue ++ [thread] }.move thread
      .counting).Locked capacity := by
  have count := locked.counted here rfl
  have room : s.count < (capacity : Int) := locked.known here
  apply locked.stay (.push thread here) rfl (by rw [here]; rfl) rfl rfl
  · simp only [State.move, Phase.offset, List.length_append,
      List.length_singleton] at count ⊢
    omega
  · simp only [State.move, Phase.offset, List.length_append,
      List.length_singleton] at count ⊢
    omega
  · trivial

theorem State.Locked.count (locked : s.Locked capacity) {thread : Thread}
    (here : s.phase thread = .counting) :
    ({ s with count := s.count + 1, holder := none }.move thread
      .accepted).Locked capacity := by
  have count := locked.counted here rfl
  apply locked.letGo (.count thread here) rfl (by rw [here]; rfl) rfl rfl
  · simp only [State.move, Phase.offset] at count ⊢
    omega
  · rfl
  · trivial

/-- Who sees work has a task to take, or the queue is closed. -/
theorem State.Locked.see (locked : s.Locked capacity) {thread : Thread}
    (here : s.phase thread = .inside)
    (work : s.count > 0 ∨ s.queue ≠ [] ∨ s.isOpen = false) :
    (s.move thread .sawWork).Locked capacity := by
  have count := locked.counted here rfl
  apply locked.stay (.see thread here work) rfl (by rw [here]; rfl) rfl rfl
    count locked.length_le
  rcases work with positive | work
  · left
    intro empty
    have isEmpty : s.queue = [] := empty
    rw [count, isEmpty] at positive
    exact absurd positive (by simp [Phase.offset])
  · exact work

theorem State.Locked.pick (locked : s.Locked capacity) {thread : Thread}
    (here : s.phase thread = .sawWork)
    (work : ¬ (s.isOpen = false ∧ s.queue = [])) :
    (s.move thread .popping).Locked capacity := by
  have count := locked.counted here rfl
  apply locked.stay (.pick thread here work) rfl (by rw [here]; rfl) rfl rfl
    count locked.length_le
  intro empty
  rcases locked.known here with nonempty | closed
  · exact nonempty empty
  · exact work ⟨closed, empty⟩

theorem State.Locked.pop (locked : s.Locked capacity) {thread task : Thread}
    {rest : List Thread} (here : s.phase thread = .popping)
    (first : s.queue = task :: rest) :
    ({ s with queue := rest }.move thread
      (.discounting task)).Locked capacity := by
  have count := locked.counted here rfl
  have bound := locked.length_le
  rw [first] at count bound
  apply locked.stay (.pop thread here first) rfl (by rw [here]; rfl) rfl rfl
  · simpa [State.move, Phase.offset] using count
  · exact Nat.le_of_succ_le bound
  · trivial

theorem State.Locked.discount (locked : s.Locked capacity)
    {thread task : Thread} (here : s.phase thread = .discounting task) :
    ({ s with count := s.count - 1, holder := none }.move thread
      (.carrying task)).Locked capacity := by
  have count := locked.counted here rfl
  apply locked.letGo (.discount thread here) rfl (by rw [here]; rfl) rfl rfl
  · simp only [State.move, Phase.offset] at count ⊢
    omega
  · rfl
  · trivial

/-- A task is finished without the mutex. -/
theorem State.Locked.finish (locked : s.Locked capacity)
    {thread task : Thread} (here : s.phase thread = .carrying task) :
    ({ s with done := s.done ++ [task] }.move thread
      .outside).Locked capacity := by
  have step : Step capacity s
      ({ s with done := s.done ++ [task] }.move thread .outside) :=
    .finish thread here
  refine ⟨locked.held.keep (by rw [here]; rfl), ?_, locked.length_le, ?_⟩
  · refine locked.count_eq.trans (congrArg _ ?_)
    exact (offset_move (by rw [here]; rfl) rfl).symm
  · intro other
    by_cases same : other = thread
    · rw [same, move_phase, Function.update_self]
      trivial
    · rw [move_phase, Function.update_of_ne same]
      exact (locked.knows other).keep rfl rfl id
        (fun isSealed => isSealed.step step)

/-- A thread that finds the queue closed and empty goes for good. -/
theorem State.Locked.leave (locked : s.Locked capacity) {thread : Thread}
    (step : Step capacity s ({ s with holder := none }.move thread .gone))
    {phase : Phase Thread} (here : s.phase thread = phase)
    (holding : phase.holds = true) (exact : phase.offset = 0)
    (closed : s.isOpen = false) (empty : s.queue = []) :
    ({ s with holder := none }.move thread .gone).Locked capacity := by
  have holds : (s.phase thread).holds = true := here ▸ holding
  apply locked.letGo step rfl holds rfl rfl
  · exact locked.settled here holding exact
  · rfl
  · exact locked.sealed_of_leaving thread holds rfl closed empty

omit [DecidableEq Thread] in
theorem State.Locked.queue_eq_nil (locked : s.Locked capacity)
    {thread : Thread} (here : s.phase thread = .inside)
    (empty : s.count = 0) : s.queue = [] := by
  have count := locked.settled here rfl rfl
  rw [empty] at count
  exact List.eq_nil_of_length_eq_zero (Int.natCast_eq_zero.mp count.symm)

theorem State.Locked.step (locked : s.Locked capacity)
    (step : Step capacity s t) : t.Locked capacity := by
  cases step with
  | acquire thread here free => exact locked.acquire here free
  | release thread here =>
      exact locked.letGo (.release thread here) rfl (by rw [here]; rfl) rfl rfl
        (locked.settled here rfl rfl) rfl trivial
  | allow thread here room =>
      have count := locked.counted here rfl
      exact locked.stay (.allow thread here room) rfl (by rw [here]; rfl) rfl
        rfl count locked.length_le room
  | refuse thread here =>
      exact locked.letGo (.refuse thread here) rfl (by rw [here]; rfl) rfl rfl
        (locked.settled here rfl rfl) rfl trivial
  | enter thread here isOpen =>
      have count := locked.counted here rfl
      have room := locked.known here
      exact locked.stay (.enter thread here isOpen) rfl (by rw [here]; rfl) rfl
        rfl count locked.length_le
        (room.resolve_right (by simp [isOpen]))
  | push thread here => exact locked.push here
  | count thread here => exact locked.count here
  | see thread here work => exact locked.see here work
  | pick thread here work => exact locked.pick here work
  | pop thread here first => exact locked.pop here first
  | discount thread here => exact locked.discount here
  | finish thread here => exact locked.finish here
  | leave thread here closed empty =>
      exact locked.leave (.leave thread here closed empty) here rfl rfl closed
        empty
  | pass thread here closed empty =>
      exact locked.leave (.pass thread here closed empty) here rfl rfl closed
        (locked.queue_eq_nil here empty)
  | close =>
      refine ⟨locked.held, locked.count_eq, locked.length_le, fun thread => ?_⟩
      exact (locked.knows thread).keep rfl rfl (fun _ => rfl)
        (fun isSealed => isSealed.step (Step.close : Step capacity s _))

/-- A thread that neither hands over a task nor takes or finishes one leaves
every task where it is. -/
theorem State.Tracked.keep (tracked : s.Tracked) {phase : Phase Thread}
    (phases : t.phase = Function.update s.phase thread phase)
    (accepted : phase.isAccepted = (s.phase thread).isAccepted)
    (hand : phase.hand = (s.phase thread).hand)
    (queue : t.queue = s.queue) (done : t.done = s.done) : t.Tracked where
  custody := by
    refine tracked.custody.congr ?_ ?_
    · intro place task
      cases place with
      | queue => simp only [State.locatedAt, queue]
      | done => simp only [State.locatedAt, done]
      | hand other =>
          simp only [State.locatedAt, phases]
          by_cases same : other = thread
          · rw [same, Function.update_self, hand]
          · rw [Function.update_of_ne same]
    · intro task
      simp only [State.present, phases]
      by_cases same : task = thread
      · rw [same, Function.update_self, accepted]
      · rw [Function.update_of_ne same]
  queue_nodup := queue ▸ tracked.queue_nodup
  done_nodup := done ▸ tracked.done_nodup

theorem State.Tracked.push (tracked : s.Tracked)
    (here : s.phase thread = .pushing) :
    State.Tracked
      ({ s with queue := s.queue ++ [thread] }.move thread .counting) where
  custody := by
    have isNew : ¬ s.present thread := by
      simp [State.present, here, Phase.isAccepted]
    refine tracked.custody.add thread .queue isNew ?_ ?_
    · intro place task
      cases place with
      | queue => simp [State.locatedAt, State.move]
      | done => simp [State.locatedAt, State.move]
      | hand other =>
          by_cases same : other = thread
          · simp [State.locatedAt, same, here, Phase.hand]
          · simp [State.locatedAt, Function.update_of_ne same]
    · intro task
      by_cases same : task = thread
      · simp [State.present, same, Phase.isAccepted]
      · simp [State.present, same]
  queue_nodup := by
    have absent : thread ∉ s.queue := by
      intro here'
      have isPresent :=
        tracked.custody.present_of_located .queue thread here'
      simp [State.present, here, Phase.isAccepted] at isPresent
    simpa [State.move] using tracked.queue_nodup.concat absent
  done_nodup := tracked.done_nodup

theorem State.Tracked.pop (tracked : s.Tracked) {task : Thread}
    {rest : List Thread} (here : s.phase thread = .popping)
    (first : s.queue = task :: rest) :
    State.Tracked
      ({ s with queue := rest }.move thread (.discounting task)) where
  custody := by
    have nodup : (task :: rest).Nodup := first ▸ tracked.queue_nodup
    have inQueue : s.locatedAt .queue task := by
      simp [State.locatedAt, first]
    have onlyQueue : ∀ place, s.locatedAt place task → place = .queue :=
      fun place located =>
        tracked.custody.unique place .queue task located inQueue
    refine Custody.congr (tracked.custody.move task (.hand thread)
      (tracked.custody.present_of_located _ _ inQueue) ?_ ?_)
      (fun _ _ => Iff.rfl) ?_
    · intro place
      cases place with
      | queue =>
          simp [State.locatedAt, State.move, (List.nodup_cons.mp nodup).1]
      | done =>
          have absent : task ∉ s.done := fun isDone => by
            cases onlyQueue .done isDone
          simp [State.locatedAt, State.move, absent]
      | hand other =>
          by_cases same : other = thread
          · simp [State.locatedAt, same, Phase.hand]
          · have absent : (s.phase other).hand ≠ some task := fun inHand => by
              cases onlyQueue (.hand other) inHand
            simp [State.locatedAt, same, absent]
    · intro place item different
      cases place with
      | queue => simp [State.locatedAt, State.move, first, different]
      | done => simp [State.locatedAt, State.move]
      | hand other =>
          by_cases same : other = thread
          · simp [State.locatedAt, same, here, Phase.hand, Ne.symm different]
          · simp [State.locatedAt, Function.update_of_ne same]
    · intro item
      by_cases same : item = thread
      · simp [State.present, same, here, Phase.isAccepted]
      · simp [State.present, Function.update_of_ne same]
  queue_nodup := by
    have nodup : (task :: rest).Nodup := first ▸ tracked.queue_nodup
    exact (List.nodup_cons.mp nodup).2
  done_nodup := tracked.done_nodup

theorem State.Tracked.finish (tracked : s.Tracked) {task : Thread}
    (here : s.phase thread = .carrying task) :
    State.Tracked
      ({ s with done := s.done ++ [task] }.move thread .outside) where
  custody := by
    have inHand : s.locatedAt (.hand thread) task := by
      simp [State.locatedAt, here, Phase.hand]
    have onlyHand : ∀ place, s.locatedAt place task → place = .hand thread :=
      fun place located =>
        tracked.custody.unique place (.hand thread) task located inHand
    refine Custody.congr (tracked.custody.move task .done
      (tracked.custody.present_of_located _ _ inHand) ?_ ?_)
      (fun _ _ => Iff.rfl) ?_
    · intro place
      cases place with
      | queue =>
          have absent : task ∉ s.queue := fun inQueue => by
            cases onlyHand .queue inQueue
          simp [State.locatedAt, State.move, absent]
      | done => simp [State.locatedAt, State.move]
      | hand other =>
          by_cases same : other = thread
          · simp [State.locatedAt, same, Phase.hand]
          · have absent : (s.phase other).hand ≠ some task := fun other' => by
              cases onlyHand (.hand other) other'
              exact same rfl
            simp [State.locatedAt, Function.update_of_ne same, absent]
    · intro place item different
      cases place with
      | queue => simp [State.locatedAt, State.move]
      | done => simp [State.locatedAt, State.move, different]
      | hand other =>
          by_cases same : other = thread
          · simp [State.locatedAt, same, here, Phase.hand, Ne.symm different]
          · simp [State.locatedAt, Function.update_of_ne same]
    · intro item
      by_cases same : item = thread
      · simp [State.present, same, here, Phase.isAccepted]
      · simp [State.present, Function.update_of_ne same]
  queue_nodup := tracked.queue_nodup
  done_nodup := by
    have absent : task ∉ s.done := by
      intro isDone
      have place := tracked.custody.unique .done (.hand thread) task isDone
        (by simp [State.locatedAt, here, Phase.hand])
      cases place
    simpa [State.move] using tracked.done_nodup.concat absent

theorem State.Tracked.step (tracked : s.Tracked)
    (step : Step capacity s t) : t.Tracked := by
  cases step with
  | acquire thread here free | release thread here | allow thread here room
  | refuse thread here | enter thread here isOpen | count thread here
  | see thread here work | pick thread here work | discount thread here
  | leave thread here closed empty | pass thread here closed empty =>
      exact tracked.keep rfl (by rw [here]; rfl) (by rw [here]; rfl) rfl rfl
  | push thread here => exact tracked.push here
  | pop thread here first => exact tracked.pop here first
  | finish thread here => exact tracked.finish here
  | close =>
      exact ⟨tracked.custody, tracked.queue_nodup, tracked.done_nodup⟩

end BoundedTaskQueue
