import KitMuduo.LruCacheRefinement
import KitMuduo.GuardedRuns
import KitMuduo.MutexOwnership

/-!
# A cache that threads share

The operations of `LruCache` cut into the sections that `rw_mutex_` and
`pending_mutex_` protect.  A section of `pending_mutex_` takes no other lock and
is one step; `put`, `promote` and `clear` keep `rw_mutex_` exclusively over
several steps, `tail` keeps it shared over two, and `tryGet` and `erase` give it
back in front of their second section.  In a thread alone the sections make up
the operations: `put_eq_sections`, `promote_eq_sections`, `erase_eq_sections`.
-/

namespace KitMuduo

open RecencyList

/-- What a successful lookup read, and the puts that had acquired `rw_mutex_`
before it. -/
structure CacheHit (K V : Type*) where
  key : K
  value : V
  before : List (K × V)
  deriving DecidableEq

/-- What `tryGet` and `tail` return; a result of `false` has no value. -/
inductive CacheReply (K V : Type*)
  | tryGet (key : K) (value : Option V)
  | tail (value : Option V)
  deriving DecidableEq

/-- Where a thread is in an operation: in front of its first section, or between
two sections.  `put` carries the iterator to its node through
`promoteUnLocked`, which `promote` calls without one. -/
inductive CachePc (K V : Type*)
  | idle
  | put (key : K) (value : V)
  | promote
  | swapping (stored : Option Nat)
  | promoting (stored : Option Nat) (promotions : List K)
  | tryGet (key : K)
  | logging (hit : CacheHit K V)
  | tail
  | loggingTail (key : K) (value : V)
  | erase (key : K)
  | purging (key : K)
  | clear
  | clearing
  deriving DecidableEq

namespace CachePc

variable {K V : Type*}

/-- The thread holds `rw_mutex_` exclusively. -/
def holdsExclusive : CachePc K V → Bool
  | swapping _ | promoting _ _ | clearing => true
  | _ => false

/-- The thread is in `put`, between its insertion and its eviction. -/
def isPutting : CachePc K V → Bool
  | swapping stored | promoting stored _ => stored.isSome
  | _ => false

end CachePc

namespace LruCache

variable {K V : Type*} [DecidableEq K]

/-- The loop of `promoteUnLocked` over the log that it has swapped out. -/
def promoteAll (promotions : List K) (c : LruCache K V) : LruCache K V :=
  { c with
    list := promotions.foldl
      (fun list key =>
        match c.map.lookup key with
        | none => list
        | some it => splice it list)
      c.list }

/-- `put` behind `promoteUnLocked`; `none` is a failing assertion. -/
def finishPut (it : Nat) (c : LruCache K V) : Option (LruCache K V) :=
  let moved := { c with list := splice it c.list }
  if moved.size > moved.capacity then moved.eliminateUnLocked else some moved

/-- The first section of `erase`. -/
def eraseAt (key : K) (it : Nat) (c : LruCache K V) : LruCache K V :=
  { c with list := forget LruNode.address it c.list, map := c.map.erase key }

/-- Without other threads the sections of `put` are `put`. -/
theorem put_eq_sections (c : LruCache K V) (key : K) (value : V) :
    c.put key value =
      (promoteAll (c.store key value).2.pendingPromotions
        { (c.store key value).2 with pendingPromotions := [] }).finishPut
          (c.store key value).1 :=
  rfl

theorem promote_eq_sections (c : LruCache K V) :
    c.promote = promoteAll c.pendingPromotions
      { c with pendingPromotions := [] } :=
  rfl

theorem erase_eq_sections (c : LruCache K V) {key : K} {it : Nat}
    (found : c.map.lookup key = some it) :
    c.erase key = (c.eraseAt key it).purgePending key := by
  simp [erase, found, eraseAt]

end LruCache

/-- A cache, its mutexes and the threads that use it, with the record of the
puts in the order in which they acquired `rw_mutex_`, of the lookups that
returned a value, and of what was returned in each thread.  `aborted` says that
an assertion has failed or an iterator was dangling. -/
structure SharedCache (K V : Type*) [DecidableEq K] where
  cache : LruCache K V
  exclusive : Option Nat := none
  shared : List Nat := []
  aborted : Bool := false
  threads : Nat → CachePc K V := fun _ => .idle
  puts : List (K × V) := []
  hits : List (CacheHit K V) := []
  replies : Nat → List (CacheReply K V) := fun _ => []

namespace SharedCache

variable {K V : Type*} [DecidableEq K]

def setThread (s : SharedCache K V) (thread : Nat) (pc : CachePc K V) :
    SharedCache K V :=
  { s with threads := Function.update s.threads thread pc }

/-- The operation of the thread returns. -/
def reply (s : SharedCache K V) (thread : Nat) (result : CacheReply K V) :
    SharedCache K V :=
  { s with
    replies := Function.update s.replies thread
      (s.replies thread ++ [result]) }

/-- `rw_mutex_` can be taken exclusively. -/
def isFree (s : SharedCache K V) : Bool :=
  s.exclusive = none ∧ s.shared = []

/-- One section of the operation a thread is in. -/
def threadStep (s : SharedCache K V) (thread : Nat) :
    Option (SharedCache K V) :=
  match s.threads thread with
  | .idle => none
  | .put key value =>
      if s.isFree = true then
        some ({ s with
          cache := (s.cache.store key value).2
          exclusive := some thread
          puts := s.puts ++ [(key, value)] }.setThread thread
            (.swapping (some (s.cache.store key value).1)))
      else
        none
  | .promote =>
      if s.isFree = true then
        some ({ s with exclusive := some thread }.setThread thread
          (.swapping none))
      else
        none
  | .swapping stored =>
      some ({ s with
        cache := { s.cache with pendingPromotions := [] } }.setThread thread
          (.promoting stored s.cache.pendingPromotions))
  | .promoting none promotions =>
      some ({ s with
        cache := s.cache.promoteAll promotions
        exclusive := none }.setThread thread .idle)
  | .promoting (some it) promotions =>
      match (s.cache.promoteAll promotions).finishPut it with
      | some cache =>
          some ({ s with
            cache := cache
            exclusive := none }.setThread thread .idle)
      | none => some { s with aborted := true }
  | .tryGet key =>
      if s.exclusive = none then
        match s.cache.map.lookup key with
        | none => some ((s.reply thread (.tryGet key none)).setThread thread
            .idle)
        | some it =>
            match s.cache.nodeAt it with
            | some node =>
                some (s.setThread thread (.logging ⟨key, node.value, s.puts⟩))
            | none => some { s with aborted := true }
      else
        none
  | .logging hit =>
      some ({ s with
        cache := s.cache.logAccess hit.key
        hits := s.hits ++ [hit] }.reply thread
          (.tryGet hit.key (some hit.value)) |>.setThread thread .idle)
  | .tail =>
      if s.exclusive = none then
        match s.cache.list.getLast? with
        | none => some ((s.reply thread (.tail none)).setThread thread .idle)
        | some node =>
            some ({ s with shared := thread :: s.shared }.setThread thread
              (.loggingTail node.key node.value))
      else
        none
  | .loggingTail key value =>
      some ({ s with
        cache := s.cache.logAccess key
        shared := s.shared.erase thread }.reply thread
          (.tail (some value)) |>.setThread thread .idle)
  | .erase key =>
      if s.isFree = true then
        match s.cache.map.lookup key with
        | none => some (s.setThread thread .idle)
        | some it =>
            some ({ s with
              cache := s.cache.eraseAt key it }.setThread thread
                (.purging key))
      else
        none
  | .purging key =>
      some ({ s with
        cache := s.cache.purgePending key }.setThread thread .idle)
  | .clear =>
      if s.isFree = true then
        some ({ s with
          cache := { s.cache with list := [], map := ∅ }
          exclusive := some thread }.setThread thread .clearing)
      else
        none
  | .clearing =>
      some ({ s with
        cache := { s.cache with pendingPromotions := [] }
        exclusive := none }.setThread thread .idle)

/-- The operations. -/
inductive Operation (K V : Type*)
  | put (key : K) (value : V)
  | tryGet (key : K)
  | tail
  | erase (key : K)
  | clear
  | promote
  deriving DecidableEq

/-- Where an operation begins. -/
def Operation.entry : Operation K V → CachePc K V
  | put key value => .put key value
  | tryGet key => .tryGet key
  | tail => .tail
  | erase key => .erase key
  | clear => .clear
  | promote => .promote

/-- A thread begins an operation, or goes on with the one it is in. -/
inductive Action (K V : Type*)
  | call (thread : Nat) (operation : Operation K V)
  | thread (thread : Nat)
  deriving DecidableEq

/-- A program whose assertion has failed does not go on. -/
def step (s : SharedCache K V) (action : Action K V) :
    Option (SharedCache K V) :=
  if s.aborted = true then
    none
  else
    match action with
    | .call thread operation =>
        match s.threads thread with
        | .idle => some (s.setThread thread operation.entry)
        | _ => none
    | .thread thread => s.threadStep thread

end SharedCache

end KitMuduo
