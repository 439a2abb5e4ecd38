import Mathlib.Data.Int.CardIntervalMod
import KitMuduo.TcpServer

/-!
# The loops of a server's threads

The pool starts a loop for each of its threads and hands its loops out in turn;
without threads it hands out the base loop.
-/

namespace KitMuduo

structure EventLoopThreadPool where
  threadNums : Int := 0
  next : Int := -1
  loops : List LoopId := []
  deriving DecidableEq

namespace EventLoopThreadPool

def setThreadNum (pool : EventLoopThreadPool) (nums : Int) :
    EventLoopThreadPool :=
  { pool with threadNums := nums }

/-- `start` adds a loop for each thread. -/
def start (pool : EventLoopThreadPool) : EventLoopThreadPool :=
  { pool with
    loops := pool.loops ++ (List.range pool.threadNums.toNat).map
      fun i => pool.loops.length + 1 + i }

/-- `getNextLoop`.  There is no loop to return where the remainder is not
defined or is no index. -/
def getNextLoop (pool : EventLoopThreadPool) :
    EventLoopThreadPool × Option LoopId :=
  if pool.loops.isEmpty = true then
    ({ pool with next := 0 }, some baseLoop)
  else
    let next := (pool.next + 1).tmod pool.threadNums
    ({ pool with next := next },
      if pool.threadNums = 0 ∨ next < 0 then none
      else pool.loops[next.toNat]?)

def getAllLoops (pool : EventLoopThreadPool) : List LoopId :=
  if pool.loops.isEmpty = true then [baseLoop] else pool.loops

/-- The pool was started with its number of threads, and `count` loops have
been taken from it. -/
structure Turn (pool : EventLoopThreadPool) (count : Nat) : Prop where
  loops : pool.loops = (List.range pool.threadNums.toNat).map fun i => 1 + i
  nonneg : 0 ≤ pool.next + 1
  next : 0 < pool.threadNums →
    (pool.next + 1) % pool.threadNums = (count : Int) % pool.threadNums

variable {pool : EventLoopThreadPool} {count : Nat}

theorem turn_start (unused : pool.loops = []) (first : pool.next = -1) :
    pool.start.Turn 0 where
  loops := by simp [start, unused]
  nonneg := by simp [start, first]
  next := by simp [start, first]

theorem Turn.getAllLoops_of_pos (turn : pool.Turn count)
    (positive : 0 < pool.threadNums) : pool.getAllLoops = pool.loops := by
  have threads : pool.threadNums.toNat ≠ 0 := by omega
  simp [getAllLoops, turn.loops, threads]

theorem Turn.loops_of_nonpos (turn : pool.Turn count)
    (none : ¬ 0 < pool.threadNums) : pool.loops = [] := by
  have threads : pool.threadNums.toNat = 0 := by omega
  rw [turn.loops, threads]
  rfl

theorem Turn.nodup (turn : pool.Turn count) : pool.getAllLoops.Nodup := by
  by_cases positive : 0 < pool.threadNums
  · rw [turn.getAllLoops_of_pos positive, turn.loops]
    exact List.nodup_range.map (add_right_injective 1)
  · simp [getAllLoops, turn.loops_of_nonpos positive]

theorem Turn.length_pos (turn : pool.Turn count) :
    0 < pool.getAllLoops.length := by
  by_cases positive : 0 < pool.threadNums
  · rw [turn.getAllLoops_of_pos positive, turn.loops]
    simpa using positive
  · simp [getAllLoops, turn.loops_of_nonpos positive]

theorem Turn.getNextLoop_of_pos (turn : pool.Turn count)
    (positive : 0 < pool.threadNums) :
    pool.getNextLoop =
      ({ pool with next := (count : Int) % pool.threadNums },
        pool.loops[count % pool.loops.length]?) := by
  have length : pool.loops.length = pool.threadNums.toNat := by
    simp [turn.loops]
  have nonempty : ¬ pool.loops.isEmpty = true := by
    rw [List.isEmpty_iff_length_eq_zero]
    omega
  have next : (pool.next + 1).tmod pool.threadNums =
      (count : Int) % pool.threadNums := by
    rw [Int.tmod_eq_emod_of_nonneg turn.nonneg, turn.next positive]
  have lower := Int.emod_nonneg (count : Int) positive.ne'
  have inRange : ¬ (pool.threadNums = 0 ∨
      (count : Int) % pool.threadNums < 0) := by omega
  have index : ((count : Int) % pool.threadNums).toNat =
      count % pool.loops.length := by
    have threads : (pool.threadNums.toNat : Int) = pool.threadNums := by omega
    rw [length, ← threads, ← Int.natCast_mod, Int.toNat_natCast,
      Int.toNat_natCast]
  simp only [getNextLoop, if_neg nonempty, next, if_neg inRange, index]

/-- The loops are handed out in turn. -/
theorem Turn.getNextLoop (turn : pool.Turn count) :
    pool.getNextLoop.2 =
        pool.getAllLoops[count % pool.getAllLoops.length]? ∧
      pool.getNextLoop.1.getAllLoops = pool.getAllLoops ∧
      pool.getNextLoop.1.Turn (count + 1) := by
  by_cases positive : 0 < pool.threadNums
  · have lower := Int.emod_nonneg (count : Int) positive.ne'
    rw [turn.getAllLoops_of_pos positive, turn.getNextLoop_of_pos positive]
    refine ⟨rfl, turn.getAllLoops_of_pos positive, ?_⟩
    exact
      { loops := turn.loops
        nonneg := by simp only; omega
        next := fun _ => by simp [Int.add_emod] }
  · have empty := turn.loops_of_nonpos positive
    have only : pool.getAllLoops = [baseLoop] := by simp [getAllLoops, empty]
    have next : pool.getNextLoop =
        ({ pool with next := 0 }, some baseLoop) := by
      simp [EventLoopThreadPool.getNextLoop, empty]
    rw [only, next]
    refine ⟨by simp [Nat.mod_one], only, ?_⟩
    exact
      { loops := turn.loops
        nonneg := by simp
        next := fun threads => absurd threads positive }

end EventLoopThreadPool

end KitMuduo
