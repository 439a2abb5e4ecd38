import KitMuduo.SampleTimerQueue

/-!
# The steps of the timer queue as a relation

`step` as an inductive relation: each thing that an action can do has a
constructor of its own, with what has to hold in front of it.
-/

namespace KitMuduo

namespace SampleTimerQueue

inductive Steps (s : SampleTimerQueue) : Action → SampleTimerQueue → Prop
  | addTimer (whenMs interval : Int) (goesOn : s.phase ≠ .aborted) :
      Steps s (.addTimer whenMs interval) { s with
        createNum := Timer.nextNum s.createNum
        timerOf := Function.update s.timerOf s.created
          (Timer.new whenMs interval s.createNum)
        created := s.created + 1
        queuedAdds := s.queuedAdds ++ [s.created] }
  | takeNum :
      Steps s .takeNum { s with createNum := Timer.nextNum s.createNum }
  | addTimerInLoop {timer : Nat} (may : s.mayCall = true)
      (waits : timer ∈ s.queuedAdds) :
      Steps s (.addTimerInLoop timer) ({ s with
        queuedAdds := s.queuedAdds.erase timer }.addTimerInLoop timer)
  | fail {timer : Nat} (may : s.mayCall = true) (created : timer < s.created)
      (fails : s.cancelInLoop timer = none) :
      Steps s (.cancelInLoop timer) { s with phase := .aborted }
  | cancelInLoop {timer : Nat} (may : s.mayCall = true)
      (created : timer < s.created) {later : SampleTimerQueue}
      (result : s.cancelInLoop timer = some later) :
      Steps s (.cancelInLoop timer) { later with
        history := s.history ++ [.cancelInLoop timer] }
  | elapse (ms : Nat) : Steps s (.elapse ms) { s with clock := s.clock + ms }
  | armingTakes (ms : Nat) :
      Steps s (.armingTakes ms) { s with armingTakes := ms }
  | expire {deadline : Int} (armed : s.deadline = some deadline)
      (passed : deadline ≤ s.clock) :
      Steps s .expire { s with deadline := none, readable := true }
  | handleRead (idle : s.phase = .idle) : Steps s .handleRead s.handleRead
  | skip {now : Int} {expired rest : List WillExpiredTimer}
      {entry : WillExpiredTimer}
      (phase : s.phase = .batch now expired (entry :: rest) none)
      (cancelled : s.sequence entry.2 ∈ s.cancelingTimers) :
      Steps s .nextTimer { s with phase := .batch now expired rest none }
  | run {now : Int} {expired rest : List WillExpiredTimer}
      {entry : WillExpiredTimer}
      (phase : s.phase = .batch now expired (entry :: rest) none)
      (notCancelled : s.sequence entry.2 ∉ s.cancelingTimers) :
      Steps s .nextTimer { s with
        phase := .batch now expired rest (some entry.2)
        history := s.history ++ [.run entry.2] }
  | callbackReturns {now : Int} {expired rest : List WillExpiredTimer}
      {timer : Nat} (phase : s.phase = .batch now expired rest (some timer)) :
      Steps s .callbackReturns { s with
        runningTimers := s.runningTimers.erase (s.sequence timer)
        phase := .batch now expired rest none }
  | reset {now : Int} {expired : List WillExpiredTimer}
      (phase : s.phase = .batch now expired [] none) :
      Steps s .reset ({ s with
        callingExpiredTimers := false
        phase := .idle }.reset expired now)

theorem step_cases {s t : SampleTimerQueue} {action : Action}
    (taken : s.step action = some t) : Steps s action t := by
  cases action with
  | addTimer whenMs interval =>
      simp only [step] at taken
      split at taken
      next => cases taken
      next goesOn =>
        cases taken
        exact .addTimer whenMs interval goesOn
  | takeNum =>
      cases taken
      exact .takeNum
  | addTimerInLoop timer =>
      simp only [step] at taken
      split at taken
      next may =>
        cases taken
        exact .addTimerInLoop may.1 may.2
      next => cases taken
  | cancelInLoop timer =>
      simp only [step] at taken
      split at taken
      next may =>
        split at taken
        next fails =>
          cases taken
          exact .fail may.1 may.2 fails
        next later result =>
          cases taken
          exact .cancelInLoop may.1 may.2 result
      next => cases taken
  | elapse ms =>
      cases taken
      exact .elapse ms
  | armingTakes ms =>
      cases taken
      exact .armingTakes ms
  | expire =>
      simp only [step] at taken
      split at taken
      next => cases taken
      next deadline armed =>
        split at taken
        next passed =>
          cases taken
          exact .expire armed passed
        next => cases taken
  | handleRead =>
      simp only [step] at taken
      split at taken
      next idle =>
        cases taken
        exact .handleRead idle
      next => cases taken
  | nextTimer =>
      simp only [step] at taken
      split at taken
      next now expired entry rest phase =>
        split at taken
        next cancelled =>
          cases taken
          exact .skip phase cancelled
        next notCancelled =>
          cases taken
          exact .run phase notCancelled
      next => cases taken
  | callbackReturns =>
      simp only [step] at taken
      split at taken
      next now expired rest timer phase =>
        cases taken
        exact .callbackReturns phase
      next => cases taken
  | reset =>
      simp only [step] at taken
      split at taken
      next now expired phase =>
        cases taken
        exact .reset phase
      next => cases taken

end SampleTimerQueue

end KitMuduo
