import KitMuduo.GuardedRuns
import KitMuduo.Logger
import KitMuduo.MutexOwnership

/-!
# Records arrive whole and in order

Whatever the threads do, each appender is handed the records of a logger in the
order in which the logger took them on, as often as it is among the logger's
appenders, and a stream that nothing else writes to is the records of its
appender one behind the other, as its formatters printed them.  No thread in
front of a mutex waits for ever: some thread inside can always go on.
-/

namespace KitMuduo

open GuardedRuns MutexOwnership

namespace LogPlace

variable {L A : Type*} [DecidableEq L] [DecidableEq A]

def holdsLogger (logger : L) : LogPlace L A → Bool
  | .inLoop other _ _ | .writing other _ _ _ _ => decide (other = logger)
  | _ => false

def holdsFormatter (appender : A) : LogPlace L A → Bool
  | .writing _ _ other _ _ => decide (other = appender)
  | _ => false

/-- What the thread still has to hand the appender for the logger. -/
def owed (logger : L) (appender : A) : LogPlace L A → List LogAttr
  | .inLoop other attr left | .writing other attr _ _ left =>
      if other = logger then List.replicate (left.count (some appender)) attr
      else []
  | _ => []

/-- What the thread still has to put into the appender's stream. -/
def unput (appender : A) : LogPlace L A → Bytes
  | .writing _ _ other text _ => if other = appender then text else []
  | _ => []

end LogPlace

namespace LogAppender

variable {strftime : Bytes → Nat → Bytes} {appender : LogAppender}

/-- An appender puts what it has to into its stream. -/
theorem log_text {L : Type*} (logger : L) (reopens : Bool) (attr : LogAttr) :
    (appender.log strftime reopens attr).2 =
      HandedRecord.text strftime ⟨logger, attr, appender, reopens⟩ := by
  rw [log, HandedRecord.text]
  by_cases low : attr.level.toNat < appender.level.toNat
  · rw [if_pos low, if_pos low]
  · rw [if_neg low, if_neg low]
    cases isFile : appender.isFile with
    | false => cases appender.formatter <;> simp
    | true =>
        by_cases opens : appender.isOpen = true ∨ reopens = true
        · have isOpen : ¬ (appender.isOpen = false ∧ reopens = false) := by
            rintro ⟨closed, fails⟩
            simp [closed, fails] at opens
          cases appender.formatter <;> simp [opens, isOpen]
        · have closed : appender.isOpen = false ∧ reopens = false := by
            simpa using opens
          simp [closed]

theorem log_isFile (reopens : Bool) (attr : LogAttr) :
    (appender.log strftime reopens attr).1.isFile = appender.isFile := by
  rw [log]
  repeat' split
  all_goals rfl

/-- A file appender counts the bytes it puts into the stream. -/
theorem log_curSize (isFile : appender.isFile = true) (reopens : Bool)
    (attr : LogAttr) :
    (appender.log strftime reopens attr).1.curSize =
      appender.curSize + (appender.log strftime reopens attr).2.length := by
  rw [log, if_pos isFile]
  split
  · rfl
  · split
    · split <;> rfl
    · rfl

end LogAppender

namespace Logging

variable {L A T S : Type*} [DecidableEq L] [DecidableEq A]

/-- The records of the logger that the appender was handed. -/
def recordsOf (s : Logging L A T S) (logger : L) (appender : A) :
    List LogAttr :=
  ((s.handed appender).filter fun record => record.logger = logger).map
    HandedRecord.attr

/-- What the logger has taken on and not yet handed the appender. -/
def owed (s : Logging L A T S) (logger : L) (appender : A) : List LogAttr :=
  (s.appendersMtx logger).elim [] fun thread =>
    (s.place thread).owed logger appender

/-- What the appender was to be handed by the logger. -/
def due (s : Logging L A T S) (logger : L) (appender : A) : List LogAttr :=
  (s.taken logger).flatMap fun entry =>
    List.replicate (entry.2.count (some appender)) entry.1

/-- What the appender still has to put into its stream. -/
def unput (s : Logging L A T S) (appender : A) : Bytes :=
  (s.formatterMtx appender).elim [] fun thread =>
    (s.place thread).unput appender

/-- What has to be in the stream of what the appender was handed. -/
def texts (strftime : Bytes → Nat → Bytes) (s : Logging L A T S)
    (appender : A) : Bytes :=
  (s.handed appender).flatMap (·.text strftime)

/-- No other appender has the stream. -/
def Own (stream : A → S) (appender : A) : Prop :=
  ∀ other, stream other = stream appender → other = appender

/-- Nothing but records was printed to the appender's stream. -/
def Unmixed (stream : A → S) (s : Logging L A T S) (appender : A) : Prop :=
  s.foreign (stream appender) = []

/-- No thread is logging, and nothing was logged. -/
structure Fresh (s : Logging L A T S) : Prop where
  appendersMtx : ∀ logger, s.appendersMtx logger = none
  formatterMtx : ∀ appender, s.formatterMtx appender = none
  place : ∀ thread, s.place thread = .outside
  streams : ∀ stream, s.streams stream = []
  flushed : ∀ stream, s.flushed stream = 0
  taken : ∀ logger, s.taken logger = []
  handed : ∀ appender, s.handed appender = []
  curSize : ∀ appender, (s.appender appender).curSize = 0

/-- What holds between two steps. -/
structure Sound (strftime : Bytes → Nat → Bytes) (stream : A → S)
    (s : Logging L A T S) : Prop where
  loggers : ∀ logger, Held (LogPlace.holdsLogger logger) s.place
    (s.appendersMtx logger)
  formatters : ∀ appender, Held (LogPlace.holdsFormatter appender) s.place
    (s.formatterMtx appender)
  order : ∀ logger appender,
    s.recordsOf logger appender ++ s.owed logger appender =
      s.due logger appender
  whole : ∀ appender, Own stream appender → s.Unmixed stream appender →
    s.streams (stream appender) ++ s.unput appender =
      s.texts strftime appender
  unflushed : ∀ appender, Own stream appender → s.Unmixed stream appender →
    (s.appender appender).isFile = true →
      (s.streams (stream appender)).length + (s.unput appender).length =
        s.flushed (stream appender) + (s.appender appender).curSize
  small : ∀ appender, s.formatterMtx appender = none →
    (s.appender appender).isFile = true →
      (s.appender appender).curSize = 0 ∨
        (s.appender appender).curSize < (s.appender appender).writeMaxSize

variable {strftime : Bytes → Nat → Bytes} {stream : A → S}
  {s t : Logging L A T S} {cout : S}

theorem Fresh.sound (fresh : s.Fresh) : s.Sound strftime stream where
  loggers := by
    intro logger thread
    simp [fresh.place, fresh.appendersMtx, LogPlace.holdsLogger]
  formatters := by
    intro appender thread
    simp [fresh.place, fresh.formatterMtx, LogPlace.holdsFormatter]
  order := by
    intro logger appender
    simp [recordsOf, owed, due, fresh.handed, fresh.appendersMtx, fresh.taken]
  whole := by
    intro appender _ _
    simp [unput, texts, fresh.streams, fresh.formatterMtx, fresh.handed]
  unflushed := by
    intro appender _ _ _
    simp [unput, fresh.streams, fresh.formatterMtx, fresh.flushed,
      fresh.curSize]
  small := fun appender _ _ => .inl (fresh.curSize appender)

variable [DecidableEq T]

theorem owed_move {thread : T} {next : LogPlace L A} {logger : L}
    {appender : A}
    (same : next.owed logger appender =
      (s.place thread).owed logger appender) :
    (s.move thread next).owed logger appender = s.owed logger appender := by
  rw [owed, owed]
  cases holder : s.appendersMtx logger with
  | none => simp [move, holder]
  | some other =>
      by_cases own : other = thread
      · simp [move, holder, own, same]
      · simp [move, holder, Function.update_of_ne own]

omit [DecidableEq L] in
theorem unput_move {thread : T} {next : LogPlace L A} {appender : A}
    (same : next.unput appender = (s.place thread).unput appender) :
    (s.move thread next).unput appender = s.unput appender := by
  rw [unput, unput]
  cases holder : s.formatterMtx appender with
  | none => simp [move, holder]
  | some other =>
      by_cases own : other = thread
      · simp [move, holder, own, same]
      · simp [move, holder, Function.update_of_ne own]

/-- A thread goes on without a change that any lock or appender sees. -/
theorem Sound.move (sound : s.Sound strftime stream) {thread : T}
    {next : LogPlace L A}
    (loggers : ∀ logger, next.holdsLogger logger =
      (s.place thread).holdsLogger logger)
    (formatters : ∀ appender, next.holdsFormatter appender =
      (s.place thread).holdsFormatter appender)
    (owed : ∀ logger appender, next.owed logger appender =
      (s.place thread).owed logger appender)
    (unput : ∀ appender, next.unput appender =
      (s.place thread).unput appender) :
    (s.move thread next).Sound strftime stream where
  loggers := fun logger => (sound.loggers logger).keep (loggers logger)
  formatters := fun appender =>
    (sound.formatters appender).keep (formatters appender)
  order := by
    intro logger appender
    rw [owed_move (owed logger appender)]
    exact sound.order logger appender
  whole := by
    intro appender own unmixed
    rw [unput_move (unput appender)]
    exact sound.whole appender own unmixed
  unflushed := by
    intro appender own unmixed isFile
    rw [unput_move (unput appender)]
    exact sound.unflushed appender own unmixed isFile
  small := sound.small

theorem Sound.lockLogger (sound : s.Sound strftime stream) {thread : T}
    {logger : L} {attr : LogAttr}
    (here : s.place thread = .waiting logger attr)
    (free : s.appendersMtx logger = none) :
    (s.lockLogger thread logger attr).Sound strftime stream := by
  have kept (appender : A) :
      (s.lockLogger thread logger attr).unput appender = s.unput appender :=
    unput_move (by simp [here, LogPlace.unput])
  exact
    { loggers := by
        intro other
        by_cases same : other = logger
        · subst same
          have held := sound.loggers other
          rw [free] at held
          have acquired : Held (LogPlace.holdsLogger other)
              (Function.update s.place thread
                (.inLoop other attr (s.appenders other))) (some thread) :=
            held.acquire (by simp [LogPlace.holdsLogger])
          simpa [Logging.lockLogger, Logging.move] using acquired
        · simp only [Logging.lockLogger, Logging.move,
            Function.update_of_ne same]
          refine (sound.loggers other).keep ?_
          simp [here, LogPlace.holdsLogger, Ne.symm same]
      formatters := by
        intro appender
        refine (sound.formatters appender).keep ?_
        simp [here, LogPlace.holdsFormatter]
      order := by
        intro other appender
        have before := sound.order other appender
        by_cases same : other = logger
        · subst same
          have none : s.owed other appender = [] := by simp [owed, free]
          rw [none, List.append_nil] at before
          simpa [owed, due, recordsOf, Logging.lockLogger, Logging.move,
            LogPlace.owed] using before
        · have moved : (s.move thread (.inLoop logger attr
              (s.appenders logger))).owed other appender =
                s.owed other appender :=
            owed_move (by simp [here, LogPlace.owed, Ne.symm same])
          have others : (s.lockLogger thread logger attr).owed other appender =
              s.owed other appender := by
            rw [← moved]
            simp [owed, Logging.lockLogger, Logging.move,
              Function.update_of_ne same]
          rw [others]
          simpa [due, recordsOf, Logging.lockLogger, Logging.move,
            Function.update_of_ne same] using before
      whole := by
        intro appender own unmixed
        rw [kept]
        exact sound.whole appender own unmixed
      unflushed := by
        intro appender own unmixed isFile
        rw [kept]
        exact sound.unflushed appender own unmixed isFile
      small := sound.small }

/-- The loop over the appenders has come to its end. -/
theorem Sound.unlockLogger (sound : s.Sound strftime stream) {thread : T}
    {logger : L} {attr : LogAttr}
    (here : s.place thread = .inLoop logger attr []) :
    (s.unlockLogger thread logger).Sound strftime stream := by
  have owner : s.appendersMtx logger = some thread :=
    (sound.loggers logger).owner_eq (by simp [here, LogPlace.holdsLogger])
  have kept (appender : A) :
      (s.unlockLogger thread logger).unput appender = s.unput appender :=
    unput_move (by simp [here, LogPlace.unput])
  have moved (other : L) (appender : A) :
      (s.move thread .outside).owed other appender = s.owed other appender :=
    owed_move (by simp [here, LogPlace.owed])
  exact
    { loggers := by
        intro other
        by_cases same : other = logger
        · subst same
          have held := sound.loggers other
          rw [owner] at held
          have released : Held (LogPlace.holdsLogger other)
              (Function.update s.place thread .outside) none :=
            held.release rfl
          simpa [Logging.unlockLogger, Logging.move] using released
        · simp only [Logging.unlockLogger, Logging.move,
            Function.update_of_ne same]
          refine (sound.loggers other).keep ?_
          simp [here, LogPlace.holdsLogger, Ne.symm same]
      formatters := by
        intro appender
        refine (sound.formatters appender).keep ?_
        simp [here, LogPlace.holdsFormatter]
      order := by
        intro other appender
        have before := sound.order other appender
        by_cases same : other = logger
        · subst same
          have none : s.owed other appender = [] := by
            simp [owed, owner, here, LogPlace.owed]
          rw [none] at before
          simpa [owed, due, recordsOf, Logging.unlockLogger, Logging.move]
            using before
        · rw [← moved other appender] at before
          simpa [owed, due, recordsOf, Logging.unlockLogger, Logging.move,
            Function.update_of_ne same] using before
      whole := by
        intro appender own unmixed
        rw [kept]
        exact sound.whole appender own unmixed
      unflushed := by
        intro appender own unmixed isFile
        rw [kept]
        exact sound.unflushed appender own unmixed isFile
      small := sound.small }

/-- Some of the text goes from the thread to the stream. -/
theorem Sound.putText [DecidableEq S] (sound : s.Sound strftime stream)
    {thread : T} {logger : L} {attr : LogAttr} {appender : A} {text : Bytes}
    {left : List (Option A)} (count : Nat)
    (here : s.place thread = .writing logger attr appender text left) :
    (s.putText stream thread count logger attr appender text left).Sound
      strftime stream := by
  have owner : s.formatterMtx appender = some thread :=
    (sound.formatters appender).owner_eq
      (by simp [here, LogPlace.holdsFormatter])
  have all : s.unput appender = text := by
    simp [unput, owner, here, LogPlace.unput]
  have rest : (s.putText stream thread count logger attr appender text
      left).unput appender = text.drop count := by
    simp [unput, Logging.putText, Logging.move, owner, LogPlace.unput]
  have others {other : A} (different : other ≠ appender) :
      (s.putText stream thread count logger attr appender text left).unput
        other = s.unput other :=
    unput_move (by simp [here, LogPlace.unput, Ne.symm different])
  have streams {other : A} (own : Own stream other)
      (different : other ≠ appender) :
      (s.putText stream thread count logger attr appender text left).streams
        (stream other) = s.streams (stream other) :=
    Function.update_of_ne
      (fun equal => different (own appender equal.symm).symm) _ _
  have taken : (s.putText stream thread count logger attr appender text
      left).streams (stream appender) =
        s.streams (stream appender) ++ text.take count :=
    Function.update_self ..
  exact
    { loggers := by
        intro other
        refine (sound.loggers other).keep ?_
        simp [here, LogPlace.holdsLogger]
      formatters := by
        intro other
        refine (sound.formatters other).keep ?_
        simp [here, LogPlace.holdsFormatter]
      order := by
        intro other current
        have moved : (s.putText stream thread count logger attr appender text
            left).owed other current = s.owed other current :=
          owed_move (by simp [here, LogPlace.owed])
        rw [moved]
        exact sound.order other current
      whole := by
        intro other own unmixed
        have before := sound.whole other own unmixed
        by_cases same : other = appender
        · subst same
          rw [all] at before
          rw [taken, rest, List.append_assoc, List.take_append_drop]
          exact before
        · rw [streams own same, others same]
          exact before
      unflushed := by
        intro other own unmixed isFile
        have before := sound.unflushed other own unmixed isFile
        by_cases same : other = appender
        · subst same
          rw [all] at before
          rw [taken, rest, List.length_append, Nat.add_assoc,
            ← List.length_append, List.take_append_drop]
          exact before
        · rw [streams own same, others same]
          exact before
      small := sound.small }

/-- The appender takes the record over from the loop. -/
theorem beginAppend_order {thread : T} {reopens : Bool} {logger : L}
    {attr : LogAttr} {appender : A} {left : List (Option A)}
    (owner : s.appendersMtx logger = some thread)
    (here : s.place thread = .inLoop logger attr (some appender :: left))
    (other : L) (current : A) :
    (s.beginAppend strftime thread reopens logger attr appender
        left).recordsOf other current ++
      (s.beginAppend strftime thread reopens logger attr appender left).owed
        other current =
      s.recordsOf other current ++ s.owed other current := by
  by_cases sameLogger : other = logger
  · subst sameLogger
    have before : s.owed other current =
        List.replicate ((some appender :: left).count (some current)) attr := by
      simp [owed, owner, here, LogPlace.owed]
    have after : (s.beginAppend strftime thread reopens other attr appender
        left).owed other current =
          List.replicate (left.count (some current)) attr := by
      simp [owed, Logging.beginAppend, Logging.move, owner, LogPlace.owed]
    rw [before, after]
    by_cases same : current = appender
    · subst same
      simp [recordsOf, Logging.beginAppend, Logging.move, List.replicate_succ]
    · simp [recordsOf, Logging.beginAppend, Logging.move,
        Function.update_of_ne same, Ne.symm same]
  · have owed : (s.beginAppend strftime thread reopens logger attr appender
        left).owed other current = s.owed other current :=
      owed_move (by simp [here, LogPlace.owed, Ne.symm sameLogger])
    rw [owed]
    by_cases same : current = appender
    · subst same
      simp [recordsOf, Logging.beginAppend, Logging.move, Ne.symm sameLogger]
    · simp [recordsOf, Logging.beginAppend, Logging.move,
        Function.update_of_ne same]

omit [DecidableEq L] in
/-- The text of the record is what the thread has to write. -/
theorem unput_beginAppend_self {thread : T} (reopens : Bool) {logger : L}
    {attr : LogAttr} {appender : A} {left : List (Option A)} :
    (s.beginAppend strftime thread reopens logger attr appender left).unput
        appender =
      ((s.appender appender).log strftime reopens attr).2 := by
  simp [unput, Logging.beginAppend, Logging.move, LogPlace.unput]

omit [DecidableEq L] in
theorem unput_beginAppend_of_ne {thread : T} (reopens : Bool) {logger : L}
    {attr : LogAttr} {appender other : A} {left : List (Option A)}
    (here : s.place thread = .inLoop logger attr (some appender :: left))
    (different : other ≠ appender) :
    (s.beginAppend strftime thread reopens logger attr appender left).unput
        other =
      s.unput other := by
  have moved : (s.move thread (.writing logger attr appender
      ((s.appender appender).log strftime reopens attr).2 left)).unput other =
        s.unput other :=
    unput_move (by simp [here, LogPlace.unput, Ne.symm different])
  rw [← moved]
  simp [unput, Logging.beginAppend, Logging.move,
    Function.update_of_ne different]

/-- The thread takes the appender's mutex. -/
theorem Sound.beginAppend_formatters (sound : s.Sound strftime stream)
    {thread : T} {logger : L} {attr : LogAttr} {appender : A}
    {left : List (Option A)} (reopens : Bool)
    (here : s.place thread = .inLoop logger attr (some appender :: left))
    (free : s.formatterMtx appender = none) (other : A) :
    Held (LogPlace.holdsFormatter other)
      (s.beginAppend strftime thread reopens logger attr appender left).place
      ((s.beginAppend strftime thread reopens logger attr appender
        left).formatterMtx other) := by
  by_cases same : other = appender
  · subst same
    have held := sound.formatters other
    rw [free] at held
    have acquired : Held (LogPlace.holdsFormatter other)
        (Function.update s.place thread (.writing logger attr other
          ((s.appender other).log strftime reopens attr).2 left))
        (some thread) :=
      held.acquire (by simp [LogPlace.holdsFormatter])
    simpa [Logging.beginAppend, Logging.move] using acquired
  · simp only [Logging.beginAppend, Logging.move, Function.update_of_ne same]
    refine (sound.formatters other).keep ?_
    simp [here, LogPlace.holdsFormatter, Ne.symm same]

theorem Sound.beginAppend (sound : s.Sound strftime stream) {thread : T}
    {logger : L} {attr : LogAttr} {appender : A} {left : List (Option A)}
    (reopens : Bool)
    (here : s.place thread = .inLoop logger attr (some appender :: left))
    (free : s.formatterMtx appender = none) :
    (s.beginAppend strftime thread reopens logger attr appender left).Sound
      strftime stream := by
  have owner : s.appendersMtx logger = some thread :=
    (sound.loggers logger).owner_eq (by simp [here, LogPlace.holdsLogger])
  have nothing : s.unput appender = [] := by simp [unput, free]
  have kept {other : A} (different : other ≠ appender) :
      (s.beginAppend strftime thread reopens logger attr appender
        left).appender other = s.appender other :=
    Function.update_of_ne different _ _
  have changed : (s.beginAppend strftime thread reopens logger attr appender
      left).appender appender =
        ((s.appender appender).log strftime reopens attr).1 :=
    Function.update_self ..
  exact
    { loggers := by
        intro other
        refine (sound.loggers other).keep ?_
        simp [here, LogPlace.holdsLogger]
      formatters := sound.beginAppend_formatters reopens here free
      order := by
        intro other current
        rw [beginAppend_order owner here]
        exact sound.order other current
      whole := by
        intro other own unmixed
        have before := sound.whole other own unmixed
        by_cases same : other = appender
        · subst same
          rw [nothing, List.append_nil] at before
          rw [unput_beginAppend_self, LogAppender.log_text logger]
          simp only [texts, Logging.beginAppend, Logging.move,
            Function.update_self, List.flatMap_append, List.flatMap_cons,
            List.flatMap_nil, List.append_nil]
          exact congrArg (· ++ _) before
        · rw [unput_beginAppend_of_ne reopens here same]
          simpa [texts, Logging.beginAppend, Logging.move,
            Function.update_of_ne same] using before
      unflushed := by
        intro other own unmixed isFile
        by_cases same : other = appender
        · subst same
          rw [changed, LogAppender.log_isFile] at isFile
          have before := sound.unflushed other own unmixed isFile
          rw [nothing] at before
          rw [unput_beginAppend_self, changed, LogAppender.log_curSize isFile,
            ← Nat.add_assoc]
          exact congrArg (· + _) before
        · rw [kept same] at isFile ⊢
          rw [unput_beginAppend_of_ne reopens here same]
          exact sound.unflushed other own unmixed isFile
      small := by
        intro other unlocked isFile
        by_cases same : other = appender
        · subst same
          simp [Logging.beginAppend, Logging.move] at unlocked
        · rw [kept same] at isFile ⊢
          simp only [Logging.beginAppend, Logging.move,
            Function.update_of_ne same] at unlocked
          exact sound.small other unlocked isFile }

omit [DecidableEq T] in
/-- One appender changes, with what is flushed of its stream. -/
theorem Sound.setAppender (sound : s.Sound strftime stream) {appender : A}
    {changed : LogAppender} {flushed : S → Nat}
    (isFile : changed.isFile = (s.appender appender).isFile)
    (unflushed : Own stream appender → s.Unmixed stream appender →
      changed.isFile = true →
      (s.streams (stream appender)).length + (s.unput appender).length =
        flushed (stream appender) + changed.curSize)
    (others : ∀ other ≠ stream appender, flushed other = s.flushed other)
    (small : s.formatterMtx appender = none → changed.isFile = true →
      changed.curSize = 0 ∨ changed.curSize < changed.writeMaxSize) :
    ({ s with
      appender := Function.update s.appender appender changed
      flushed := flushed } : Logging L A T S).Sound strftime stream where
  loggers := sound.loggers
  formatters := sound.formatters
  order := sound.order
  whole := sound.whole
  unflushed := by
    intro other own unmixed isFileAfter
    by_cases same : other = appender
    · subst same
      simp only [Function.update_self] at isFileAfter ⊢
      exact unflushed own unmixed isFileAfter
    · have apart : stream other ≠ stream appender := fun equal =>
        same (own appender equal.symm).symm
      simp only [Function.update_of_ne same] at isFileAfter ⊢
      rw [others _ apart]
      exact sound.unflushed other own unmixed isFileAfter
  small := by
    intro other unlocked isFileAfter
    by_cases same : other = appender
    · subst same
      simp only [Function.update_self] at isFileAfter ⊢
      exact small unlocked isFileAfter
    · simp only [Function.update_of_ne same] at isFileAfter ⊢
      exact sound.small other unlocked isFileAfter

/-- The whole text is in the stream, and the appender's mutex is released. -/
theorem Sound.release (sound : s.Sound strftime stream) {thread : T}
    {logger : L} {attr : LogAttr} {appender : A} {left : List (Option A)}
    (here : s.place thread = .writing logger attr appender [] left)
    (small : (s.appender appender).isFile = true →
      (s.appender appender).curSize = 0 ∨
        (s.appender appender).curSize < (s.appender appender).writeMaxSize) :
    (({ s with
      formatterMtx := Function.update s.formatterMtx appender none } :
        Logging L A T S).move thread (.inLoop logger attr left)).Sound
          strftime stream := by
  have owner : s.formatterMtx appender = some thread :=
    (sound.formatters appender).owner_eq
      (by simp [here, LogPlace.holdsFormatter])
  have kept (other : A) : (({ s with
      formatterMtx := Function.update s.formatterMtx appender none } :
        Logging L A T S).move thread (.inLoop logger attr left)).unput other =
          s.unput other := by
    by_cases same : other = appender
    · subst same
      simp [unput, Logging.move, owner, here, LogPlace.unput]
    · have moved : (s.move thread (.inLoop logger attr left)).unput other =
          s.unput other :=
        unput_move (by simp [here, LogPlace.unput])
      rw [← moved]
      simp [unput, Logging.move, Function.update_of_ne same]
  exact
    { loggers := by
        intro other
        refine (sound.loggers other).keep ?_
        simp [here, LogPlace.holdsLogger]
      formatters := by
        intro other
        by_cases same : other = appender
        · subst same
          have held := sound.formatters other
          rw [owner] at held
          have released : Held (LogPlace.holdsFormatter other)
              (Function.update s.place thread (.inLoop logger attr left))
              none :=
            held.release rfl
          simpa [Logging.move] using released
        · simp only [Logging.move, Function.update_of_ne same]
          refine (sound.formatters other).keep ?_
          simp [here, LogPlace.holdsFormatter, Ne.symm same]
      order := by
        intro other current
        have moved : (({ s with
            formatterMtx := Function.update s.formatterMtx appender none } :
              Logging L A T S).move thread (.inLoop logger attr left)).owed
                other current = s.owed other current :=
          owed_move (by simp [here, LogPlace.owed])
        rw [moved]
        exact sound.order other current
      whole := by
        intro other own unmixed
        rw [kept]
        exact sound.whole other own unmixed
      unflushed := by
        intro other own unmixed isFile
        rw [kept]
        exact sound.unflushed other own unmixed isFile
      small := by
        intro other unlocked isFile
        by_cases same : other = appender
        · subst same
          exact small isFile
        · simp only [Logging.move, Function.update_of_ne same] at unlocked
          exact sound.small other unlocked isFile }

theorem Sound.endAppend [DecidableEq S] (sound : s.Sound strftime stream)
    {thread : T} {logger : L} {attr : LogAttr} {appender : A}
    {left : List (Option A)}
    (here : s.place thread = .writing logger attr appender [] left) :
    (s.endAppend stream thread logger attr appender left).Sound strftime
      stream := by
  have owner : s.formatterMtx appender = some thread :=
    (sound.formatters appender).owner_eq
      (by simp [here, LogPlace.holdsFormatter])
  have nothing : s.unput appender = [] := by
    simp [unput, owner, here, LogPlace.unput]
  rw [Logging.endAppend]
  split
  · have flushed : ({ s with
        appender := Function.update s.appender appender
          { s.appender appender with curSize := 0 }
        flushed := Function.update s.flushed (stream appender)
          (s.streams (stream appender)).length } :
            Logging L A T S).Sound strftime stream := by
      refine sound.setAppender rfl ?_ ?_ ?_
      · intro _ _ _
        simp [nothing]
      · intro other different
        exact Function.update_of_ne different _ _
      · exact fun _ _ => .inl rfl
    exact flushed.release here fun _ => by simp
  · next notFull =>
      refine sound.release here fun isFile => ?_
      simp only [LogAppender.flushes, isFile, true_and, decide_eq_true_eq,
        Nat.not_le] at notFull
      exact .inr notFull

variable [DecidableEq S]

omit [DecidableEq T] in
/-- Something else is printed, and the stream is no longer unmixed. -/
theorem Sound.printTo (sound : s.Sound strftime stream) (cout : S)
    (text : Bytes) : (s.printTo cout text).Sound strftime stream := by
  have elsewhere {appender : A}
      (unmixed : (s.printTo cout text).Unmixed stream appender) :
      s.Unmixed stream appender ∧
        (s.printTo cout text).streams (stream appender) =
          s.streams (stream appender) := by
    rw [Unmixed, Logging.printTo] at unmixed
    by_cases same : stream appender = cout
    · simp only [same, Function.update_self, List.append_eq_nil_iff] at unmixed
      obtain ⟨before, rfl⟩ := unmixed
      exact ⟨by rwa [Unmixed, same], by simp [Logging.printTo, same]⟩
    · simp only [Function.update_of_ne same] at unmixed
      exact ⟨unmixed, Function.update_of_ne same _ _⟩
  exact
    { loggers := sound.loggers
      formatters := sound.formatters
      order := sound.order
      whole := by
        intro appender own unmixed
        obtain ⟨before, same⟩ := elsewhere unmixed
        rw [same]
        exact sound.whole appender own before
      unflushed := by
        intro appender own unmixed isFile
        obtain ⟨before, same⟩ := elsewhere unmixed
        rw [same]
        exact sound.unflushed appender own before isFile
      small := sound.small }

omit [DecidableEq T] [DecidableEq S] in
theorem Sound.setFormatter (sound : s.Sound strftime stream) (appender : A)
    (formatter : Option (List FormatItem)) :
    (s.setFormatter appender formatter).Sound strftime stream := by
  refine sound.setAppender rfl ?_ (fun _ _ => rfl) ?_
  · exact fun own unmixed isFile => sound.unflushed appender own unmixed isFile
  · exact fun unlocked isFile => sound.small appender unlocked isFile

theorem Sound.output (sound : s.Sound strftime stream) {thread : T}
    {logger : L} {attr : LogAttr}
    (taken : s.step strftime cout stream (.output thread logger attr) =
      some t) : t.Sound strftime stream := by
  rw [Logging.step] at taken
  split at taken
  · next here =>
      split at taken
      · cases taken
        apply sound.move
        · simp [here, LogPlace.holdsLogger]
        · simp [here, LogPlace.holdsFormatter]
        · simp [here, LogPlace.owed]
        · simp [here, LogPlace.unput]
      · cases taken
        exact sound
  · cases taken

theorem Sound.log (sound : s.Sound strftime stream) {thread : T}
    (taken : s.step strftime cout stream (.log thread) = some t) :
    t.Sound strftime stream := by
  rw [Logging.step] at taken
  split at taken
  · next here =>
      split at taken
      all_goals
        cases taken
        apply sound.move
        · simp [here, LogPlace.holdsLogger]
        · simp [here, LogPlace.holdsFormatter]
        · simp [here, LogPlace.owed]
        · simp [here, LogPlace.unput]
  · cases taken

/-- The loop goes on to the next appender. -/
theorem Sound.append (sound : s.Sound strftime stream) {thread : T}
    {reopens : Bool}
    (taken : s.step strftime cout stream (.append thread reopens) = some t) :
    t.Sound strftime stream := by
  rw [Logging.step] at taken
  split at taken
  · next here =>
      cases taken
      apply sound.move
      · simp [here, LogPlace.holdsLogger]
      · simp [here, LogPlace.holdsFormatter]
      · simp [here, LogPlace.owed]
      · simp [here, LogPlace.unput]
  · next here =>
      rw [Option.ite_none_right_eq_some] at taken
      obtain ⟨free, taken⟩ := taken
      cases taken
      exact sound.beginAppend reopens here free
  · cases taken

theorem Sound.step (sound : s.Sound strftime stream) {action : Action L A T}
    (taken : s.step strftime cout stream action = some t) :
    t.Sound strftime stream := by
  cases action with
  | output thread logger attr => exact sound.output taken
  | log thread => exact sound.log taken
  | lock thread =>
      rw [Logging.step] at taken
      split at taken
      · next here =>
          rw [Option.ite_none_right_eq_some] at taken
          obtain ⟨free, taken⟩ := taken
          cases taken
          exact sound.lockLogger here free
      · cases taken
  | append thread reopens => exact sound.append taken
  | put thread count =>
      rw [Logging.step] at taken
      split at taken
      · next here =>
          rw [Option.ite_none_right_eq_some] at taken
          obtain ⟨_, taken⟩ := taken
          cases taken
          exact sound.putText count here
      · cases taken
  | appended thread =>
      rw [Logging.step] at taken
      split at taken
      · next here =>
          cases taken
          exact sound.endAppend here
      · cases taken
  | unlock thread =>
      rw [Logging.step] at taken
      split at taken
      · next here =>
          cases taken
          exact sound.unlockLogger here
      · cases taken
  | addAppender logger appender | delAppender logger appender =>
      simp only [Logging.step, Option.ite_none_right_eq_some,
        Option.some.injEq] at taken
      obtain ⟨_, rfl⟩ := taken
      exact ⟨sound.loggers, sound.formatters, sound.order, sound.whole,
        sound.unflushed, sound.small⟩
  | setFomatter appender formatter =>
      simp only [Logging.step, Option.ite_none_right_eq_some,
        Option.some.injEq] at taken
      obtain ⟨_, rfl⟩ := taken
      exact sound.setFormatter appender formatter
  | setPattern appender pattern =>
      simp only [Logging.step, Option.ite_none_right_eq_some,
        Option.some.injEq] at taken
      obtain ⟨_, rfl⟩ := taken
      exact (sound.printTo cout _).setFormatter appender _
  | print text =>
      cases taken
      exact sound.printTo cout text
  | setLevel logger level =>
      cases taken
      exact ⟨sound.loggers, sound.formatters, sound.order, sound.whole,
        sound.unflushed, sound.small⟩

theorem sound_run {start : Logging L A T S} (fresh : start.Fresh)
    {actions : List (Action L A T)}
    (reached : Reaches (step strftime cout stream) (fun _ _ => True) start
      actions s) : s.Sound strftime stream :=
  reached.invariant fresh.sound fun _ _ _ sound _ taken => sound.step taken

/-- In every interleaving each appender is handed a logger's records in the
order in which the logger took them on, as often as it was among the logger's
appenders; a stream of its own, to which nothing else was printed, is what its
formatters made of the records, one behind the other; and while nobody is in a
file appender, fewer bytes than its limit are not flushed. -/
theorem logged_run {start : Logging L A T S} (fresh : start.Fresh)
    {actions : List (Action L A T)}
    (reached : Reaches (step strftime cout stream) (fun _ _ => True) start
      actions s) :
    (∀ logger appender,
        s.recordsOf logger appender ++ s.owed logger appender =
          s.due logger appender) ∧
      (∀ appender, Own stream appender → s.Unmixed stream appender →
        s.streams (stream appender) ++ s.unput appender =
          s.texts strftime appender) ∧
      ∀ appender, Own stream appender → s.Unmixed stream appender →
        s.formatterMtx appender = none → (s.appender appender).isFile = true →
          (s.streams (stream appender)).length <
            s.flushed (stream appender) +
              max 1 (s.appender appender).writeMaxSize := by
  have sound := sound_run fresh reached
  refine ⟨sound.order, sound.whole, ?_⟩
  intro appender own unmixed free isFile
  have nothing : s.unput appender = [] := by simp [unput, free]
  have unflushed := sound.unflushed appender own unmixed isFile
  rw [nothing, List.length_nil] at unflushed
  rcases sound.small appender free isFile with none | few
  · omega
  · omega

/-- A logger with a console and a file, the file with lines. -/
def consoleAndFile : Logging Unit Bool Bool Bool where
  level := fun _ => .DEBUG
  appenders := fun _ => [some false, some true]
  appender := fun isFile =>
    { isFile := isFile
      formatter := some (if isFile then [.content, .newLine] else [.content]) }

theorem fresh_consoleAndFile : consoleAndFile.Fresh where
  appendersMtx := fun _ => rfl
  formatterMtx := fun _ => rfl
  place := fun _ => rfl
  streams := fun _ => rfl
  flushed := fun _ => rfl
  taken := fun _ => rfl
  handed := fun _ => rfl
  curSize := fun _ => rfl

/-- The second thread has the logger while the first waits for it. -/
def overtaking : List (Action Unit Bool Bool) :=
  [.output false () { level := .INFO, content := [97] },
    .output true () { level := .WARN, content := [98] },
    .log false, .log true, .lock true]

def appendBoth (thread : Bool) : List (Action Unit Bool Bool) :=
  [.append thread false, .put thread 1, .appended thread,
    .append thread true, .put thread 2, .appended thread, .unlock thread]

/-- Something is printed to the console, and between the two records the file
gets another formatter. -/
def reformatting : List (Action Unit Bool Bool) :=
  .print [120] :: overtaking ++ appendBoth true ++
    .setPattern true (ascii "%m%m") :: .lock false :: appendBoth false

theorem logged_overtaking :
    ∃ s, Reaches (step (fun _ _ => []) false id) (fun _ _ => True)
        consoleAndFile reformatting s ∧
      s.streams false = [120, 98, 97] ∧ s.streams true = [98, 10, 97, 97] ∧
      s.recordsOf () false ++ s.owed () false = s.due () false ∧
      s.streams true ++ s.unput true = s.texts (fun _ _ => []) true := by
  have evaluated : (evaluate (step (fun _ _ => []) false id) (fun _ _ => True)
      consoleAndFile reformatting).map
        (fun s => (s.streams false, s.streams true, s.foreign true)) =
          some ([120, 98, 97], [98, 10, 97, 97], []) := by
    decide +kernel
  obtain ⟨s, result, streams⟩ := Option.map_eq_some_iff.mp evaluated
  have reached := reaches_of_evaluate result
  obtain ⟨order, whole, _⟩ := logged_run fresh_consoleAndFile reached
  rw [Prod.mk.injEq, Prod.mk.injEq] at streams
  obtain ⟨console, file, unmixed⟩ := streams
  exact ⟨s, reached, console, file, order () false,
    whole true (fun other same => same) unmixed⟩

/-! ## No thread is stuck -/

/-- The thread takes the action inside `log`. -/
def Action.IsOf (thread : T) : Action L A T → Prop
  | .log other | .lock other | .append other _ | .put other _ | .appended other
  | .unlock other => other = thread
  | _ => False

/-- Some action of the thread is possible. -/
def GoesOn (strftime : Bytes → Nat → Bytes) (cout : S) (stream : A → S)
    (s : Logging L A T S) (thread : T) : Prop :=
  ∃ action next, action.IsOf thread ∧
    s.step strftime cout stream action = some next

theorem goesOn_of_writing {thread : T} {logger : L} {attr : LogAttr}
    {appender : A} {text : Bytes} {left : List (Option A)}
    (here : s.place thread = .writing logger attr appender text left) :
    s.GoesOn strftime cout stream thread := by
  cases text with
  | nil =>
      exact ⟨.appended thread, s.endAppend stream thread logger attr appender
        left, rfl, by simp [Logging.step, here]⟩
  | cons byte text =>
      exact ⟨.put thread 1, s.putText stream thread 1 logger attr appender
        (byte :: text) left, rfl, by simp [Logging.step, here]⟩

/-- Behind an appender's mutex nobody waits for another one. -/
theorem Sound.goesOn_of_inLoop (sound : s.Sound strftime stream) {thread : T}
    {logger : L} {attr : LogAttr} {left : List (Option A)}
    (here : s.place thread = .inLoop logger attr left) :
    ∃ other, s.GoesOn strftime cout stream other := by
  cases left with
  | nil =>
      exact ⟨thread, .unlock thread, s.unlockLogger thread logger, rfl,
        by simp [Logging.step, here]⟩
  | cons first left =>
      cases first with
      | none =>
          exact ⟨thread, .append thread false,
            s.move thread (.inLoop logger attr left), rfl,
            by simp [Logging.step, here]⟩
      | some appender =>
          cases holder : s.formatterMtx appender with
          | none =>
              exact ⟨thread, .append thread false, s.beginAppend strftime thread
                false logger attr appender left, rfl,
                by simp [Logging.step, here, holder]⟩
          | some other =>
              have holds := (sound.formatters appender other).mpr holder
              cases there : s.place other with
              | writing logger attr current text left =>
                  exact ⟨other, goesOn_of_writing there⟩
              | outside | destroying | waiting | inLoop =>
                  rw [there] at holds
                  cases holds

/-- In every state of every run in which a thread is logging, some thread can
go on. -/
theorem goesOn_run {start : Logging L A T S} (fresh : start.Fresh)
    {actions : List (Action L A T)}
    (reached : Reaches (step strftime cout stream) (fun _ _ => True) start
      actions s) {thread : T} (inside : s.place thread ≠ .outside) :
    ∃ other, s.GoesOn strftime cout stream other := by
  have sound := sound_run fresh reached
  cases here : s.place thread with
  | outside => exact absurd here inside
  | destroying logger attr =>
      refine ⟨thread, .log thread, ?_⟩
      by_cases low : attr.level.toNat < (s.level logger).toNat
      · exact ⟨s.move thread .outside, rfl, by simp [Logging.step, here, low]⟩
      · exact ⟨s.move thread (.waiting logger attr), rfl,
          by simp [Logging.step, here, low]⟩
  | waiting logger attr =>
      cases holder : s.appendersMtx logger with
      | none =>
          exact ⟨thread, .lock thread, s.lockLogger thread logger attr, rfl,
            by simp [Logging.step, here, holder]⟩
      | some other =>
          have holds := (sound.loggers logger other).mpr holder
          cases there : s.place other with
          | inLoop current attr left => exact sound.goesOn_of_inLoop there
          | writing current attr appender text left =>
              exact ⟨other, goesOn_of_writing there⟩
          | outside | destroying | waiting =>
              rw [there] at holds
              cases holds
  | inLoop logger attr left => exact sound.goesOn_of_inLoop here
  | writing logger attr appender text left =>
      exact ⟨thread, goesOn_of_writing here⟩

theorem goesOn_overtaking :
    ∃ s, Reaches (step (fun _ _ => []) false id) (fun _ _ => True)
        consoleAndFile overtaking s ∧
      s.place false = .waiting () { level := .INFO, content := [97] } ∧
      s.appendersMtx () = some true ∧
      ∃ other, s.GoesOn (fun _ _ => []) false id other := by
  have evaluated : (evaluate (step (fun _ _ => []) false id) (fun _ _ => True)
      consoleAndFile overtaking).map
        (fun s => (s.place false, s.appendersMtx ())) =
          some (.waiting () { level := .INFO, content := [97] },
            some true) := by
    decide
  obtain ⟨s, result, outcome⟩ := Option.map_eq_some_iff.mp evaluated
  have reached := reaches_of_evaluate result
  rw [Prod.mk.injEq] at outcome
  have inside : s.place false ≠ .outside := by simp [outcome.1]
  exact ⟨s, reached, outcome.1, outcome.2,
    goesOn_run fresh_consoleAndFile reached inside⟩

end Logging

end KitMuduo
