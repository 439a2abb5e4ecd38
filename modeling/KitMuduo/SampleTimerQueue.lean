import KitMuduo.ComparerSet
import KitMuduo.GuardedRuns
import Mathlib.Algebra.Group.Int.Defs
import Mathlib.Algebra.Order.Ring.Int
import Mathlib.Data.List.AList
import Mathlib.Logic.Function.Basic

/-!
# The timer queue

The loop thread adds timers, cancels them and runs the expired ones; the
callback of a timer is whatever the thread does between the beginning and the
end of the callback.  A `Timer` object is named by a number, the position in
which it was created.  A failed assertion ends the program.
-/

namespace KitMuduo

/-- The `int64_t` that a sum or a difference comes to.  Overflow is undefined in
C++; here the value wraps around, as it does on the machine. -/
def int64 (value : Int) : Int :=
  value.bmod (2 ^ 64)

/-- The value is in the range of `int64_t`. -/
def FitsInt64 (value : Int) : Prop :=
  -2 ^ 63 ≤ value ∧ value < 2 ^ 63

instance : DecidablePred FitsInt64 := fun value =>
  inferInstanceAs (Decidable (-2 ^ 63 ≤ value ∧ value < 2 ^ 63))

theorem int64_of_fits {value : Int} (fits : FitsInt64 value) :
    int64 value = value :=
  Int.bmod_eq_of_le (by obtain ⟨low, _⟩ := fits; omega)
    (by obtain ⟨_, high⟩ := fits; omega)

/-- The fields of `Timer` but the callback. -/
structure Timer where
  expiration : Int
  interval : Int
  repeated : Bool
  sequence : Int
  deriving DecidableEq

namespace Timer

/-- `s_createNum++`, a 32-bit atomic that wraps around. -/
def nextNum (createNum : Int) : Int :=
  if createNum = 2 ^ 31 - 1 then -2 ^ 31 else createNum + 1

def new (whenMs interval createNum : Int) : Timer where
  expiration := whenMs
  interval := interval
  repeated := interval > 0
  sequence := createNum

def restart (timer : Timer) (now : Int) : Timer :=
  if timer.repeated = true then
    { timer with expiration := int64 (now + timer.interval) }
  else
    { timer with expiration := 0 }

end Timer

/-- The key of a timer in the ordered set, and the timer. -/
abbrev WillExpiredTimer := Int × Nat

abbrev ActiveTimerMap := AList fun _ : Int => Nat

/-- `insert` of an unordered map: a key that is there keeps its value. -/
def ActiveTimerMap.insertNew (map : ActiveTimerMap) (sequence : Int)
    (timer : Nat) : ActiveTimerMap :=
  if sequence ∈ map then map else map.insert sequence timer

/-- Where the loop thread is.  In a batch it knows all timers that expired, those
it has not come to, and the timer whose callback it is running. -/
inductive LoopPhase
  | idle
  | batch (now : Int) (expired rest : List WillExpiredTimer)
      (running : Option Nat)
  | aborted
  deriving DecidableEq

inductive TimerEvent
  | cancelInLoop (timer : Nat)
  | run (timer : Nat)
  deriving DecidableEq

/-- A call of `timerfd_settime`: its moment, the time it arms the timerfd for,
and how long before it the clock was read. -/
structure Arming where
  moment : Int
  due : Int
  took : Nat
  deriving DecidableEq

/-- The fields of `SampleTimerQueue`, the `Timer` objects, the timers whose
`addTimerInLoop` is still to run, the timerfd (the time it is armed for and
whether it has fired and was not read), the clock, how long the loop thread will
take in `resetTimerFd` from the clock to the timerfd, and the record of what
happened: how the timerfd was last armed, and which timers ran. -/
structure SampleTimerQueue where
  createNum : Int
  timerOf : Nat → Timer
  created : Nat
  queuedAdds : List Nat
  timers : List WillExpiredTimer
  activeTimers : ActiveTimerMap
  callingExpiredTimers : Bool
  cancelingTimers : ActiveTimerMap
  runningTimers : ActiveTimerMap
  deadline : Option Int
  readable : Bool
  clock : Int
  armingTakes : Nat
  phase : LoopPhase
  arming : Option Arming
  history : List TimerEvent

namespace SampleTimerQueue

def new (createNum clock : Int) : SampleTimerQueue where
  createNum := createNum
  timerOf := fun _ => Timer.new 0 0 0
  created := 0
  queuedAdds := []
  timers := []
  activeTimers := ∅
  callingExpiredTimers := false
  cancelingTimers := ∅
  runningTimers := ∅
  deadline := none
  readable := false
  clock := clock
  armingTakes := 0
  phase := .idle
  arming := none
  history := []

def sequence (s : SampleTimerQueue) (timer : Nat) : Int :=
  (s.timerOf timer).sequence

def expiration (s : SampleTimerQueue) (timer : Nat) : Int :=
  (s.timerOf timer).expiration

def repeated (s : SampleTimerQueue) (timer : Nat) : Bool :=
  (s.timerOf timer).repeated

/-- `WillExpiredTimerComparer` on the keys and the sequence numbers. -/
def compareKeys (first second : Int × Int) : Bool :=
  if ¬ first.1 = second.1 then first.1 < second.1
  else first.2 < second.2

def less (s : SampleTimerQueue) (first second : WillExpiredTimer) : Bool :=
  compareKeys (first.1, s.sequence first.2) (second.1, s.sequence second.2)

/-- `HowManyFromNow`, in milliseconds. -/
def howManyFromNow (s : SampleTimerQueue) (nextExpired : Int) : Int :=
  let interval := int64 (nextExpired - s.clock)
  if interval ≤ 0 then 1 else interval

/-- The clock is read, and later the timerfd is armed for the interval from then
on.  Arming a timerfd takes back what it has fired. -/
def resetTimerFd (s : SampleTimerQueue) (nextExpired : Int) :
    SampleTimerQueue :=
  let moment := s.clock + s.armingTakes
  let due := moment + s.howManyFromNow nextExpired
  { s with
    clock := moment
    deadline := some due
    readable := false
    arming := some ⟨moment, due, s.armingTakes⟩ }

/-- Whether the timer would be the earliest of the queue. -/
def earliest (s : SampleTimerQueue) (timer : Nat) : Bool :=
  match s.timers with
  | [] => true
  | first :: _ => s.expiration timer < first.1

def insert (s : SampleTimerQueue) (timer : Nat) : SampleTimerQueue :=
  { s with
    activeTimers := s.activeTimers.insertNew (s.sequence timer) timer
    timers :=
      ComparerSet.insert s.less (s.expiration timer, timer) s.timers }

def addTimerInLoop (s : SampleTimerQueue) (timer : Nat) : SampleTimerQueue :=
  if s.earliest timer = true then
    (s.insert timer).resetTimerFd (s.expiration timer)
  else
    s.insert timer

/-- `none` stands for a failed assertion. -/
def cancelInLoop (s : SampleTimerQueue) (timer : Nat) :
    Option SampleTimerQueue :=
  match s.activeTimers.lookup (s.sequence timer) with
  | some active =>
      some { s with
        timers :=
          ComparerSet.erase s.less (s.expiration active, active) s.timers
        activeTimers := s.activeTimers.erase (s.sequence timer) }
  | none =>
      if s.callingExpiredTimers = true then
        if s.sequence timer ∈ s.cancelingTimers then
          none
        else if ComparerSet.find s.less (s.expiration timer, timer)
              s.timers ≠ none ∨
            s.sequence timer ∈ s.runningTimers then
          some { s with
            cancelingTimers :=
              s.cancelingTimers.insertNew (s.sequence timer) timer }
        else
          some s
      else
        some s

/-- The loop of `getExpired` that takes the expired timers out of the map of
active ones. -/
def startRunning (s : SampleTimerQueue) :
    List WillExpiredTimer → Option SampleTimerQueue
  | [] => some s
  | entry :: rest =>
      match s.activeTimers.lookup (s.sequence entry.2) with
      | none => none
      | some active =>
          startRunning { s with
            runningTimers :=
              s.runningTimers.insertNew (s.sequence entry.2) active
            activeTimers := s.activeTimers.erase (s.sequence entry.2) } rest

/-- A timer is constructed for the comparison and takes a number. -/
def getExpired (s : SampleTimerQueue) (now : Int) :
    Option (SampleTimerQueue × List WillExpiredTimer) :=
  if s.timers.length = s.activeTimers.entries.length then
    match s.timers with
    | [] => some (s, [])
    | first :: _ =>
        if now < first.1 then
          some (s, [])
        else
          let isBefore := fun entry : WillExpiredTimer =>
            compareKeys (entry.1, s.sequence entry.2) (now, 2 ^ 63 - 2)
          let expired := s.timers.takeWhile isBefore
          let taken := startRunning { s with
            createNum := Timer.nextNum s.createNum
            timers := s.timers.dropWhile isBefore
            runningTimers := ∅ } expired
          taken.bind fun later =>
            if later.timers.length = later.activeTimers.entries.length then
              some (later, expired)
            else
              none
  else
    none

/-- The first part of `handleRead`, up to the loop over the expired timers. -/
def handleRead (s : SampleTimerQueue) : SampleTimerQueue :=
  match { s with readable := false }.getExpired s.clock with
  | none => { s with phase := .aborted }
  | some (later, expired) =>
      { later with
        callingExpiredTimers := true
        cancelingTimers := ∅
        phase := .batch s.clock expired expired none }

/-- The body of the loop of `reset`. -/
def resetTimer (now : Int) (s : SampleTimerQueue) (entry : WillExpiredTimer) :
    SampleTimerQueue :=
  if s.repeated entry.2 = true ∧
      s.sequence entry.2 ∉ s.cancelingTimers then
    { s with
      timerOf := Function.update s.timerOf entry.2
        ((s.timerOf entry.2).restart now) }.insert entry.2
  else
    s

/-- The next time to wake up, zero if there is none. -/
def nextExpired (s : SampleTimerQueue) : Int :=
  match s.timers with
  | [] => 0
  | first :: _ => s.expiration first.2

def reset (s : SampleTimerQueue) (expired : List WillExpiredTimer)
    (now : Int) : SampleTimerQueue :=
  let restarted := expired.foldl (resetTimer now) s
  if restarted.nextExpired > 0 then
    restarted.resetTimerFd restarted.nextExpired
  else
    restarted

/-- The loop thread may add and cancel timers: it runs a functor or a
callback. -/
def mayCall (s : SampleTimerQueue) : Bool :=
  match s.phase with
  | .idle | .batch _ _ _ (some _) => true
  | _ => false

/-- A timer is created by any thread and its `addTimerInLoop` runs on the loop
thread; another queue takes a number; time passes; the next calls of
`resetTimerFd` will take this long; the timerfd fires; `handleRead` takes the
expired timers, comes to the next of them, returns from its callback, and
ends. -/
inductive Action
  | addTimer (whenMs interval : Int)
  | takeNum
  | addTimerInLoop (timer : Nat)
  | cancelInLoop (timer : Nat)
  | elapse (ms : Nat)
  | armingTakes (ms : Nat)
  | expire
  | handleRead
  | nextTimer
  | callbackReturns
  | reset
  deriving DecidableEq

def step (s : SampleTimerQueue) : Action → Option SampleTimerQueue
  | .addTimer whenMs interval =>
      if s.phase = .aborted then
        none
      else
        some { s with
          createNum := Timer.nextNum s.createNum
          timerOf := Function.update s.timerOf s.created
            (Timer.new whenMs interval s.createNum)
          created := s.created + 1
          queuedAdds := s.queuedAdds ++ [s.created] }
  | .takeNum => some { s with createNum := Timer.nextNum s.createNum }
  | .addTimerInLoop timer =>
      if s.mayCall = true ∧ timer ∈ s.queuedAdds then
        some ({ s with
          queuedAdds := s.queuedAdds.erase timer }.addTimerInLoop timer)
      else
        none
  | .cancelInLoop timer =>
      if s.mayCall = true ∧ timer < s.created then
        match s.cancelInLoop timer with
        | none => some { s with phase := .aborted }
        | some later =>
            some { later with
              history := s.history ++ [.cancelInLoop timer] }
      else
        none
  | .elapse ms => some { s with clock := s.clock + ms }
  | .armingTakes ms => some { s with armingTakes := ms }
  | .expire =>
      match s.deadline with
      | none => none
      | some deadline =>
          if deadline ≤ s.clock then
            some { s with deadline := none, readable := true }
          else
            none
  | .handleRead =>
      if s.phase = .idle then some s.handleRead else none
  | .nextTimer =>
      match s.phase with
      | .batch now expired (entry :: rest) none =>
          if s.sequence entry.2 ∈ s.cancelingTimers then
            some { s with phase := .batch now expired rest none }
          else
            some { s with
              phase := .batch now expired rest (some entry.2)
              history := s.history ++ [.run entry.2] }
      | _ => none
  | .callbackReturns =>
      match s.phase with
      | .batch now expired rest (some timer) =>
          some { s with
            runningTimers := s.runningTimers.erase (s.sequence timer)
            phase := .batch now expired rest none }
      | _ => none
  | .reset =>
      match s.phase with
      | .batch now expired [] none =>
          some ({ s with
            callingExpiredTimers := false
            phase := .idle }.reset expired now)
      | _ => none

end SampleTimerQueue

end KitMuduo
