import KitMuduo.LinearizationPoints
import KitMuduo.LruCacheThreadsRuns
import Mathlib.Data.Finmap

/-!
# The shared cache as a sequential map

Every operation on a cache that threads share takes effect in one of its
sections, as if it were alone.  What takes effect, in the order of the sections,
is a run of a sequential map of bounded size: a lookup finds what the map holds
or misses what it does not hold, and a key that was put leaves the map only when
it is erased, or when the map is over its capacity behind the put of another
key.
-/

namespace KitMuduo

open GuardedRuns LinearizationPoints MutexOwnership RecencyList

/-- What an operation does when it takes effect; an eviction belongs to the
`put` in front of it. -/
inductive MapEffect (K V : Type*)
  | put (key : K) (value : V)
  | evict (victim : K)
  | found (key : K) (value : V)
  | missed (key : K)
  | last (entry : Option (K × V))
  | erase (key : K)
  | clear
  | promote
  deriving DecidableEq

/-- A sequential map, with the key that was put last. -/
structure EvictingMap (K V : Type*) [DecidableEq K] where
  entries : Finmap fun _ : K => V
  newest : Option K

namespace EvictingMap

variable {K V : Type*} [DecidableEq K] [DecidableEq V]

def empty : EvictingMap K V where
  entries := ∅
  newest := none

omit [DecidableEq V] in
def size (m : EvictingMap K V) : Nat :=
  m.entries.keys.card

/-- An effect on a map that is not over its capacity. -/
def atomically (m : EvictingMap K V) :
    MapEffect K V → Option (EvictingMap K V)
  | .put key value => some ⟨m.entries.insert key value, some key⟩
  | .evict _ => none
  | .found key value =>
      if m.entries.lookup key = some value then some m else none
  | .missed key => if m.entries.lookup key = none then some m else none
  | .last none => if m.entries = ∅ then some m else none
  | .last (some (key, value)) =>
      if m.entries.lookup key = some value then some m else none
  | .erase key => some { m with entries := m.entries.erase key }
  | .clear => some { m with entries := ∅ }
  | .promote => some m

/-- A map over its capacity loses a key, not the one put last unless nothing
else is there to lose; otherwise nothing is evicted. -/
def apply (capacity : Nat) (m : EvictingMap K V) (effect : MapEffect K V) :
    Option (EvictingMap K V) :=
  match effect with
  | .evict victim =>
      if capacity < m.size ∧ victim ∈ m.entries ∧
          (m.newest = some victim → capacity = 0) then
        some { m with entries := m.entries.erase victim }
      else
        none
  | effect => if m.size ≤ capacity then m.atomically effect else none

/-- What happens in a thread. -/
def step (capacity : Nat) (m : EvictingMap K V)
    (happened : Nat × MapEffect K V) : Option (EvictingMap K V) :=
  m.apply capacity happened.2

end EvictingMap

namespace MapEffect

variable {K V : Type*}

/-- The operation that takes effect. -/
def operation : MapEffect K V → Option (SharedCache.Operation K V)
  | put key value => some (.put key value)
  | evict _ => none
  | found key _ | missed key => some (.tryGet key)
  | last _ => some .tail
  | erase key => some (.erase key)
  | clear => some .clear
  | promote => some .promote

/-- What the operation returns, if it returns anything. -/
def reply : MapEffect K V → Option (CacheReply K V)
  | found key value => some (.tryGet key (some value))
  | missed key => some (.tryGet key none)
  | last entry => some (.tail (entry.map Prod.snd))
  | put _ _ | evict _ | erase _ | clear | promote => none

end MapEffect

namespace CachePc

variable {K V : Type*}

/-- The operation of the thread, as long as it has not taken effect. -/
def underWay : CachePc K V → Option (SharedCache.Operation K V)
  | put key value => some (.put key value)
  | promote => some .promote
  | tryGet key => some (.tryGet key)
  | tail => some .tail
  | erase key => some (.erase key)
  | clear => some .clear
  | idle | swapping _ | promoting _ _ | logging _ | loggingTail _ _ | purging _
  | clearing => none

/-- What the thread has read and not yet returned. -/
def unreturned : CachePc K V → Option (CacheReply K V)
  | logging hit => some (.tryGet hit.key (some hit.value))
  | loggingTail _ value => some (.tail (some value))
  | _ => none

/-- The iterator that `put` has to the node it has stored. -/
def stored : CachePc K V → Option Nat
  | swapping stored | promoting stored _ => stored
  | _ => none

end CachePc

namespace SharedCache

variable {K V : Type*} [DecidableEq K] {s after : SharedCache K V}
  {thread : Nat}

/-- What the next section of a thread makes take effect.  `put`, `promote` and
`clear` take effect when they take the mutex, a lookup when it reads the map. -/
def threadEffect (s : SharedCache K V) (thread : Nat) :
    Option (MapEffect K V) :=
  match s.threads thread with
  | .put key value => some (.put key value)
  | .promote => some .promote
  | .promoting (some it) promotions =>
      let list := LruCache.splice it (s.cache.promoteAll promotions).list
      if s.cache.size > s.cache.capacity then
        list.getLast?.map fun node => .evict node.key
      else
        none
  | .tryGet key =>
      match s.cache.lookup key with
      | none => some (.missed key)
      | some value => some (.found key value)
  | .tail =>
      some (.last (s.cache.list.getLast?.map fun node =>
        (node.key, node.value)))
  | .erase key => some (.erase key)
  | .clear => some .clear
  | .idle | .swapping _ | .promoting none _ | .logging _ | .loggingTail _ _
  | .purging _ | .clearing => none

/-- What takes effect in a step, with its thread. -/
def effect (s : SharedCache K V) : Action K V → Option (Nat × MapEffect K V)
  | .call _ _ => none
  | .thread thread => (s.threadEffect thread).map (thread, ·)

/-- The operation the thread begins in a step. -/
def begun (thread : Nat) : Action K V → Option (Operation K V)
  | .call caller operation => if caller = thread then some operation else none
  | .thread _ => none

/-- The operation of the thread that takes effect. -/
def performed (thread : Nat) (happened : Nat × MapEffect K V) :
    Option (Operation K V) :=
  if happened.1 = thread then happened.2.operation else none

/-- What the operation of the thread that takes effect returns. -/
def answered (thread : Nat) (happened : Nat × MapEffect K V) :
    Option (CacheReply K V) :=
  if happened.1 = thread then happened.2.reply else none

end SharedCache

/-! ## The contents of the cache -/

namespace LruCache

variable {K V : Type*} [DecidableEq K] {c d : LruCache K V} {key : K}

theorem lookup_iff (coherent : c.Coherent) {value : V} :
    c.lookup key = some value ↔
      ∃ node ∈ c.list, node.key = key ∧ node.value = value := by
  rw [lookup_eq_some_iff coherent, mem_view_iff]

theorem lookup_eq_none_iff (coherent : c.Coherent) :
    c.lookup key = none ↔ ∀ node ∈ c.list, node.key ≠ key := by
  rw [Option.eq_none_iff_forall_ne_some]
  constructor
  · intro absent node member same
    exact absent node.value
      ((lookup_iff coherent).mpr ⟨node, member, same, rfl⟩)
  · intro others value found
    obtain ⟨node, member, same, _⟩ := (lookup_iff coherent).mp found
    exact others node member same

/-- The order of the nodes does not matter for the contents. -/
theorem lookup_eq_of_perm (coherent : c.Coherent) (other : d.Coherent)
    (reordered : d.list.Perm c.list) (key : K) :
    d.lookup key = c.lookup key := by
  apply Option.ext
  intro value
  rw [lookup_iff other, lookup_iff coherent]
  simp only [reordered.mem_iff]

/-- The nodes of one key do not matter for the other keys. -/
theorem lookup_eq_of_forget (coherent : c.Coherent) (other : d.Coherent)
    {changed : K}
    (others : (forget LruNode.key changed d.list).Perm
      (forget LruNode.key changed c.list)) (different : key ≠ changed) :
    d.lookup key = c.lookup key := by
  have kept (list : List (LruNode K V)) (value : V) :
      (∃ node ∈ list, node.key = key ∧ node.value = value) ↔
        ∃ node ∈ forget LruNode.key changed list,
          node.key = key ∧ node.value = value := by
    constructor
    · rintro ⟨node, member, rfl, same⟩
      exact ⟨node, List.mem_filter.mpr ⟨member, decide_eq_true different⟩, rfl,
        same⟩
    · rintro ⟨node, member, both⟩
      exact ⟨node, List.mem_of_mem_filter member, both⟩
  apply Option.ext
  intro value
  rw [lookup_iff other, lookup_iff coherent, kept d.list, kept c.list]
  simp only [others.mem_iff]

theorem Stored.lookup_eq {value : V} {it : Nat} (coherent : c.Coherent)
    (is : Stored c key value it d) (other : K) :
    d.lookup other = if other = key then some value else c.lookup other := by
  split
  · next same =>
      subst same
      have isNew : (⟨it, other, value⟩ : LruNode K V) ∈
          RecencyList.only LruNode.key other d.list := by
        rw [is.only]
        exact List.mem_singleton_self _
      exact (lookup_iff is.coherent).mpr
        ⟨_, List.mem_of_mem_filter isNew, rfl, rfl⟩
  · next different =>
      exact lookup_eq_of_forget coherent is.coherent (.of_eq is.others)
        different

theorem logAccess_capacity (c : LruCache K V) (key : K) :
    (c.logAccess key).capacity = c.capacity := by
  unfold logAccess
  split <;> rfl

theorem finishPut_of_fits (fits : ¬ c.size > c.capacity) (it : Nat) :
    c.finishPut it = some { c with list := splice it c.list } :=
  if_neg fits

/-- The eviction of `put`: the last node of the list that has the node of `put`
in front. -/
structure Evicted (c : LruCache K V) (node last : LruNode K V)
    (after : LruCache K V) : Prop where
  last_eq : (splice node.address c.list).getLast? = some last
  result : c.finishPut node.address = some after
  coherent : after.Coherent
  capacity : after.capacity = c.capacity
  listed : last ∈ c.list
  gone : ∀ other ∈ after.list, other.key ≠ last.key
  others : (forget LruNode.key last.key after.list).Perm
    (forget LruNode.key last.key c.list)
  newest : node.key = last.key → c.capacity = 0

theorem finishPut_evicts (coherent : c.Coherent) (full : c.size > c.capacity)
    {node : LruNode K V} (member : node ∈ c.list) :
    ∃ last after, Evicted c node last after := by
  have reordered : (splice node.address c.list).Perm c.list :=
    touch_perm LruNode.address node.address c.list
  have moved := coherent.of_perm reordered c.pendingPromotions
  have front : splice node.address c.list =
      node :: forget LruNode.address node.address c.list := by
    rw [splice, touch, only_of_mem LruNode.address coherent.addresses member,
      List.singleton_append]
  have nonempty : splice node.address c.list ≠ [] := by
    rw [front]
    exact List.cons_ne_nil _ _
  obtain ⟨after, result, afterCoherent, list, capacity, _⟩ :=
    eliminateUnLocked_spec moved nonempty
  have split := List.dropLast_append_getLast nonempty
  generalize (splice node.address c.list).getLast nonempty = last at split
  rw [← list] at split
  have distinct := moved.keys
  change ((splice node.address c.list).map LruNode.key).Nodup at distinct
  rw [← split, List.map_append, List.nodup_append] at distinct
  have gone : ∀ other ∈ after.list, other.key ≠ last.key := by
    intro other inFront same
    exact distinct.2.2 _ (List.mem_map_of_mem inFront) _ (by simp) same
  refine ⟨last, after, ?_, (if_pos full).trans result, afterCoherent, capacity,
    ?_, gone, ?_, ?_⟩
  · rw [← split, List.getLast?_concat]
  · rw [← reordered.mem_iff, ← split]
    simp
  · have dropped : forget LruNode.key last.key (splice node.address c.list) =
        forget LruNode.key last.key after.list := by
      rw [← split, forget_append]
      simp [forget]
    rw [← dropped]
    exact reordered.filter _
  · intro same
    -- otherwise the node in front and the last one are two
    by_contra positive
    have length : 1 < (splice node.address c.list).length := by
      rw [reordered.length_eq, ← size_eq_length coherent]
      omega
    have inFront : node ∈ after.list := by
      rw [front] at split length
      cases inner : after.list with
      | nil =>
          rw [inner, List.nil_append] at split
          rw [← split] at length
          exact absurd length (by simp)
      | cons first rest =>
          rw [inner, List.cons_append] at split
          rw [(List.cons.inj split).1]
          exact List.mem_cons_self
    exact gone node inFront same

end LruCache

namespace SharedCache

variable {K V : Type*} [DecidableEq K] {s after : SharedCache K V}
  {m : EvictingMap K V} {capacity thread : Nat}

/-- The map holds what the cache holds, and the thread that is in `put` has put
the newest key. -/
structure Agrees (capacity : Nat) (s : SharedCache K V) (m : EvictingMap K V) :
    Prop where
  capacity : s.cache.capacity = capacity
  entries : ∀ key, m.entries.lookup key = s.cache.lookup key
  newest : ∀ thread it, (s.threads thread).stored = some it →
    ∃ node ∈ s.cache.list, node.address = it ∧ m.newest = some node.key

theorem Agrees.mem_iff (agrees : Agrees capacity s m) (sound : s.Sound)
    (key : K) : key ∈ m.entries ↔ key ∈ s.cache.list.map LruNode.key := by
  rw [← Finmap.lookup_isSome, agrees.entries, Option.isSome_iff_exists,
    List.mem_map]
  constructor
  · rintro ⟨value, found⟩
    obtain ⟨node, member, same, _⟩ :=
      (LruCache.lookup_iff sound.coherent).mp found
    exact ⟨node, member, same⟩
  · rintro ⟨node, member, same⟩
    exact ⟨node.value, (LruCache.lookup_iff sound.coherent).mpr
      ⟨node, member, same, rfl⟩⟩

theorem Agrees.size_eq (agrees : Agrees capacity s m) (sound : s.Sound) :
    m.size = s.cache.size := by
  have keys : m.entries.keys = (s.cache.list.map LruNode.key).toFinset := by
    ext key
    rw [Finmap.mem_keys, agrees.mem_iff sound, List.mem_toFinset]
  rw [EvictingMap.size, keys,
    List.toFinset_card_of_nodup sound.coherent.keys, List.length_map,
    LruCache.size_eq_length sound.coherent]

/-- While the mutex is free the map is not over its capacity. -/
theorem Agrees.fits (agrees : Agrees capacity s m) (sound : s.Sound)
    (free : s.exclusive = none) : m.size ≤ capacity := by
  rw [agrees.size_eq sound, ← agrees.capacity]
  exact sound.fits_of_free free

/-- A section that reorders the list at most. -/
theorem Agrees.reorder (agrees : Agrees capacity s m) (sound : s.Sound)
    (later : after.Sound) {pc : CachePc K V}
    (reordered : after.cache.list.Perm s.cache.list)
    (same : after.cache.capacity = s.cache.capacity)
    (threads : after.threads = Function.update s.threads thread pc)
    (stored : pc.stored = none ∨ pc.stored = (s.threads thread).stored) :
    Agrees capacity after m where
  capacity := same.trans agrees.capacity
  entries := by
    intro key
    rw [LruCache.lookup_eq_of_perm sound.coherent later.coherent reordered]
    exact agrees.entries key
  newest := by
    intro other it here
    have before : (s.threads other).stored = some it := by
      rw [threads] at here
      by_cases mine : other = thread
      · subst mine
        rw [Function.update_self] at here
        rcases stored with none | kept
        · rw [none] at here
          cases here
        · rwa [← kept]
      · rwa [Function.update_of_ne mine] at here
    obtain ⟨node, member, both⟩ := agrees.newest other it before
    exact ⟨node, reordered.mem_iff.mpr member, both⟩

omit [DecidableEq K] in
theorem stored_of_outside {pc : CachePc K V}
    (outside : pc.holdsExclusive = false) : pc.stored = none := by
  cases pc with
  | swapping stored | promoting stored promotions => cases outside
  | _ => rfl

/-- Only the owner of the mutex is in `put`. -/
theorem Sound.stored_of_free (sound : s.Sound) (free : s.exclusive = none)
    (other : Nat) : (s.threads other).stored = none := by
  have held := sound.held
  rw [free] at held
  exact stored_of_outside (held.not_holds_of_free other)

theorem Sound.stored_of_ne (sound : s.Sound) (owner : s.exclusive = some thread)
    {other : Nat} (different : other ≠ thread) :
    (s.threads other).stored = none := by
  have held := sound.held
  rw [owner] at held
  exact stored_of_outside (held.not_holds_of_ne different)

omit [DecidableEq K] in
/-- Nobody else is in `put`, and this thread is not in it any more. -/
theorem stored_update {threads : Nat → CachePc K V}
    (others : ∀ other, other ≠ thread → (threads other).stored = none)
    {pc : CachePc K V} (outside : pc.stored = none) (other : Nat) :
    (Function.update threads thread pc other).stored = none := by
  by_cases mine : other = thread
  · rw [mine, Function.update_self, outside]
  · rw [Function.update_of_ne mine]
    exact others other mine

/-- `put` stores its value. -/
theorem Agrees.store (agrees : Agrees capacity s m) (sound : s.Sound)
    (free : s.exclusive = none) (key : K) (value : V)
    (cache : after.cache = (s.cache.store key value).2)
    (threads : after.threads = Function.update s.threads thread
      (.swapping (some (s.cache.store key value).1))) :
    Agrees capacity after ⟨m.entries.insert key value, some key⟩ := by
  have stored := LruCache.store_spec sound.coherent key value
  rw [← cache] at stored
  constructor
  · exact stored.capacity.trans agrees.capacity
  · intro other
    rw [stored.lookup_eq sound.coherent]
    split
    · next same =>
        subst same
        exact Finmap.lookup_insert m.entries
    · next different =>
        rw [Finmap.lookup_insert_of_ne _ different]
        exact agrees.entries other
  · intro other it here
    by_cases mine : other = thread
    · have isNew : (⟨(s.cache.store key value).1, key, value⟩ : LruNode K V) ∈
          only LruNode.key key after.cache.list := by
        rw [stored.only]
        exact List.mem_singleton_self _
      rw [threads, mine, Function.update_self] at here
      obtain rfl := Option.some.inj here
      exact ⟨_, List.mem_of_mem_filter isNew, rfl, rfl⟩
    · rw [threads, Function.update_of_ne mine, sound.stored_of_free free]
        at here
      cases here

/-- The nodes of a key leave the list, and nobody is in `put`. -/
theorem Agrees.remove (agrees : Agrees capacity s m) (sound : s.Sound)
    (coherent : after.cache.Coherent) {key : K}
    (gone : ∀ node ∈ after.cache.list, node.key ≠ key)
    (others : (forget LruNode.key key after.cache.list).Perm
      (forget LruNode.key key s.cache.list))
    (same : after.cache.capacity = s.cache.capacity)
    (outside : ∀ other, (after.threads other).stored = none) :
    Agrees capacity after { m with entries := m.entries.erase key } where
  capacity := same.trans agrees.capacity
  entries := by
    intro other
    by_cases this : other = key
    · rw [this, Finmap.lookup_erase,
        (LruCache.lookup_eq_none_iff coherent).mpr gone]
    · rw [Finmap.lookup_erase_ne this,
        LruCache.lookup_eq_of_forget sound.coherent coherent others this]
      exact agrees.entries other
  newest := by
    intro other it here
    rw [outside] at here
    cases here

theorem Agrees.clear (agrees : Agrees capacity s m)
    (coherent : after.cache.Coherent) (empty : after.cache.list = [])
    (same : after.cache.capacity = s.cache.capacity)
    (outside : ∀ other, (after.threads other).stored = none) :
    Agrees capacity after { m with entries := ∅ } where
  capacity := same.trans agrees.capacity
  entries := by
    intro key
    have gone : ∀ node ∈ after.cache.list, node.key ≠ key := by
      simp [empty]
    rw [(LruCache.lookup_eq_none_iff coherent).mpr gone, Finmap.lookup_empty]
  newest := by
    intro other it here
    rw [outside] at here
    cases here

/-! ## What takes effect -/

/-- What takes effect is the operation of the thread. -/
theorem threadEffect_operation (s : SharedCache K V) (thread : Nat) :
    (s.threadEffect thread).bind MapEffect.operation =
      (s.threads thread).underWay := by
  cases here : s.threads thread with
  | tryGet key =>
      simp only [threadEffect, here]
      cases s.cache.lookup key <;> rfl
  | promoting stored promotions =>
      cases stored with
      | none => simp [threadEffect, here, CachePc.underWay]
      | some it =>
          simp only [threadEffect, here]
          split
          · cases (LruCache.splice it
              (s.cache.promoteAll promotions).list).getLast? <;> rfl
          · rfl
  | _ => simp [threadEffect, here, CachePc.underWay, MapEffect.operation]

/-- A section of a thread leaves nothing to take effect, and what takes effect
is returned in it or later. -/
structure Progress (s after : SharedCache K V) (thread : Nat)
    (pc : CachePc K V) : Prop where
  threads : after.threads = Function.update s.threads thread pc
  underWay : pc.underWay = none
  others : ∀ other ≠ thread, after.replies other = s.replies other
  returned : after.replies thread ++ pc.unreturned.toList =
    s.replies thread ++ (s.threads thread).unreturned.toList ++
      ((s.threadEffect thread).bind MapEffect.reply).toList

/-- A section of an operation that returns nothing. -/
theorem Progress.plain {pc : CachePc K V}
    (threads : after.threads = Function.update s.threads thread pc)
    (replies : after.replies = s.replies) (underWay : pc.underWay = none)
    (before : (s.threads thread).unreturned = none)
    (later : pc.unreturned = none)
    (silent : (s.threadEffect thread).bind MapEffect.reply = none) :
    Progress s after thread pc where
  threads := threads
  underWay := underWay
  others := fun _ _ => by rw [replies]
  returned := by simp [replies, before, later, silent]

/-- A section in which the operation returns. -/
theorem Progress.returns {result : CacheReply K V}
    (threads : after.threads = Function.update s.threads thread .idle)
    (replies : after.replies = Function.update s.replies thread
      (s.replies thread ++ [result]))
    (now : (s.threads thread).unreturned.toList ++
      ((s.threadEffect thread).bind MapEffect.reply).toList = [result]) :
    Progress s after thread .idle where
  threads := threads
  underWay := rfl
  others := fun other different => by
    rw [replies, Function.update_of_ne different]
  returned := by
    rw [replies, Function.update_self, List.append_assoc, List.append_assoc,
      now]
    rfl

/-- A section that reads what the operation returns later. -/
theorem Progress.reads {pc : CachePc K V} {result : CacheReply K V}
    (threads : after.threads = Function.update s.threads thread pc)
    (replies : after.replies = s.replies) (underWay : pc.underWay = none)
    (before : (s.threads thread).unreturned = none)
    (later : pc.unreturned = some result)
    (read : (s.threadEffect thread).bind MapEffect.reply = some result) :
    Progress s after thread pc where
  threads := threads
  underWay := underWay
  others := fun _ _ => by rw [replies]
  returned := by simp [replies, before, later, read]

theorem Sound.progress_tryGet (sound : s.Sound) {key : K}
    (here : s.threads thread = .tryGet key)
    (taken : s.threadStep thread = some after) :
    ∃ pc, Progress s after thread pc := by
  simp only [SharedCache.threadStep, here] at taken
  split at taken
  · split at taken
    · next absent =>
        cases taken
        have missed : s.cache.lookup key = none := by
          simp [LruCache.lookup, absent]
        exact ⟨.idle, .returns rfl rfl (by
          simp [threadEffect, here, missed, CachePc.unreturned,
            MapEffect.reply])⟩
    · next it found =>
        obtain ⟨node, deref, _⟩ := sound.lookup found
        simp only [deref, Option.some.injEq] at taken
        subst taken
        have value : s.cache.lookup key = some node.value := by
          simp [LruCache.lookup, found, deref]
        exact ⟨_, .reads rfl rfl rfl (by rw [here]; rfl) rfl (by
          simp [threadEffect, here, value, MapEffect.reply])⟩
  · cases taken

theorem progress_tail (here : s.threads thread = .tail)
    (taken : s.threadStep thread = some after) :
    ∃ pc, Progress s after thread pc := by
  simp only [SharedCache.threadStep, here] at taken
  split at taken
  · split at taken
    · next empty =>
        cases taken
        exact ⟨.idle, .returns rfl rfl (by
          simp [threadEffect, here, empty, CachePc.unreturned,
            MapEffect.reply])⟩
    · next node last =>
        cases taken
        exact ⟨_, .reads rfl rfl rfl (by rw [here]; rfl) rfl (by
          simp [threadEffect, here, last, MapEffect.reply])⟩
  · cases taken

theorem Sound.progress (sound : s.Sound)
    (taken : s.threadStep thread = some after) :
    ∃ pc, Progress s after thread pc := by
  have unread {place : CachePc K V} (here : s.threads thread = place)
      (nothing : place.unreturned = none) :
      (s.threads thread).unreturned = none := by rw [here, nothing]
  cases here : s.threads thread with
  | idle => simp [SharedCache.threadStep, here] at taken
  | put key value | promote | clear =>
      simp only [SharedCache.threadStep, here] at taken
      split at taken
      · cases taken
        exact ⟨_, .plain rfl rfl rfl (unread here rfl) rfl
          (by simp [threadEffect, here, MapEffect.reply])⟩
      · cases taken
  | swapping stored | purging key | clearing =>
      simp only [SharedCache.threadStep, here, Option.some.injEq] at taken
      subst taken
      exact ⟨_, .plain rfl rfl rfl (unread here rfl) rfl
        (by simp [threadEffect, here])⟩
  | promoting stored promotions =>
      cases stored with
      | none =>
          simp only [SharedCache.threadStep, here, Option.some.injEq] at taken
          subst taken
          exact ⟨_, .plain rfl rfl rfl (unread here rfl) rfl
            (by simp [threadEffect, here])⟩
      | some it =>
          obtain ⟨cache, result, _⟩ := sound.finish here
          simp only [SharedCache.threadStep, here, result, Option.some.injEq]
            at taken
          subst taken
          refine ⟨_, .plain rfl rfl rfl (unread here rfl) rfl ?_⟩
          simp only [threadEffect, here]
          split
          · cases (LruCache.splice it
              (s.cache.promoteAll promotions).list).getLast? <;> rfl
          · rfl
  | tryGet key => exact sound.progress_tryGet here taken
  | tail => exact progress_tail here taken
  | logging hit | loggingTail key value =>
      simp only [SharedCache.threadStep, here, Option.some.injEq] at taken
      subst taken
      exact ⟨.idle, .returns rfl rfl (by
        simp [threadEffect, here, CachePc.unreturned])⟩
  | erase key =>
      simp only [SharedCache.threadStep, here] at taken
      split at taken
      · split at taken
        all_goals
          cases taken
          exact ⟨_, .plain rfl rfl rfl (unread here rfl) rfl
            (by simp [threadEffect, here, MapEffect.reply])⟩
      · cases taken

/-- A call makes nothing take effect. -/
theorem call_eq_some {operation : Operation K V} (sound : s.Sound)
    (taken : s.step (.call thread operation) = some after) :
    s.threads thread = .idle ∧
      after = s.setThread thread operation.entry := by
  simp only [SharedCache.step, sound.running] at taken
  cases here : s.threads thread with
  | idle =>
      simp only [here, Bool.false_eq_true, if_false, Option.some.injEq]
        at taken
      exact ⟨rfl, taken.symm⟩
  | _ => simp [here] at taken

theorem thread_eq_some (sound : s.Sound)
    (taken : s.step (.thread thread) = some after) :
    s.threadStep thread = some after := by
  simpa [SharedCache.step, sound.running] using taken

omit [DecidableEq K] in
theorem entry_underWay (operation : Operation K V) :
    operation.entry.underWay = some operation := by
  cases operation <;> rfl

omit [DecidableEq K] in
theorem entry_unreturned (operation : Operation K V) :
    operation.entry.unreturned = none := by
  cases operation <;> rfl

omit [DecidableEq K] in
theorem entry_stored (operation : Operation K V) :
    operation.entry.stored = none := by
  cases operation <;> rfl

/-! ## What the map allows -/

variable [DecidableEq V]

/-- An effect while the mutex is free. -/
theorem Agrees.apply_eq (agrees : Agrees capacity s m) (sound : s.Sound)
    (free : s.exclusive = none) {effect : MapEffect K V}
    {later : EvictingMap K V} (done : m.atomically effect = some later) :
    m.apply capacity effect = some later := by
  have fits := agrees.fits sound free
  cases effect with
  | evict victim => cases done
  | _ => simpa [EvictingMap.apply, fits] using done

/-- A lookup finds what the map holds. -/
theorem Agrees.lookup (agrees : Agrees capacity s m) (sound : s.Sound)
    (free : s.exclusive = none) {key : K}
    (here : s.threads thread = .tryGet key) :
    Explains (EvictingMap.apply capacity) m (s.threadEffect thread) m := by
  simp only [threadEffect, here]
  cases found : s.cache.lookup key with
  | none =>
      exact agrees.apply_eq sound free
        (if_pos ((agrees.entries key).trans found))
  | some value =>
      exact agrees.apply_eq sound free
        (if_pos ((agrees.entries key).trans found))

/-- The last node of the list is in the map. -/
theorem Agrees.last (agrees : Agrees capacity s m) (sound : s.Sound)
    (free : s.exclusive = none) (here : s.threads thread = .tail) :
    Explains (EvictingMap.apply capacity) m (s.threadEffect thread) m := by
  simp only [threadEffect, here]
  apply agrees.apply_eq sound free
  cases last : s.cache.list.getLast? with
  | none =>
      have empty : m.entries = ∅ := by
        apply Finmap.ext_lookup
        intro key
        rw [agrees.entries, Finmap.lookup_empty,
          LruCache.lookup_eq_none_iff sound.coherent,
          List.getLast?_eq_none_iff.mp last]
        simp
      exact if_pos empty
  | some node =>
      have member := List.mem_of_getLast? last
      exact if_pos ((agrees.entries node.key).trans
        ((LruCache.lookup_iff sound.coherent).mpr
          ⟨node, member, rfl, rfl⟩))

/-- The last section of `put` evicts the last node, if the cache is over its
capacity. -/
theorem Agrees.finish (agrees : Agrees capacity s m) (sound : s.Sound)
    {it : Nat} {promotions : List K}
    (here : s.threads thread = .promoting (some it) promotions)
    (taken : s.threadStep thread = some after) :
    ∃ later, Explains (EvictingMap.apply capacity) m (s.threadEffect thread)
        later ∧ Agrees capacity after later := by
  have later := sound.threadStep taken
  have coherent := LruCache.promoteAll_coherent sound.coherent promotions
  have reordered := LruCache.promoteAll_perm sound.coherent promotions
  have owner : s.exclusive = some thread :=
    sound.held.owner_eq (by rw [here]; rfl)
  obtain ⟨node, member, rfl, newest⟩ :=
    agrees.newest thread it (by rw [here]; rfl)
  by_cases full : s.cache.size > s.cache.capacity
  · obtain ⟨last, cache, evicted⟩ := LruCache.finishPut_evicts coherent full
      (reordered.mem_iff.mpr member)
    simp only [SharedCache.threadStep, here, evicted.result,
      Option.some.injEq] at taken
    subst taken
    have inMap : last.key ∈ m.entries := by
      rw [agrees.mem_iff sound]
      exact List.mem_map_of_mem (reordered.mem_iff.mp evicted.listed)
    have crowded : capacity < m.size := by
      rw [agrees.size_eq sound, ← agrees.capacity]
      exact full
    have spared : m.newest = some last.key → capacity = 0 := by
      intro same
      rw [newest] at same
      exact agrees.capacity.symm.trans (evicted.newest (Option.some.inj same))
    refine ⟨{ m with entries := m.entries.erase last.key }, ?_, ?_⟩
    · simp only [threadEffect, here, if_pos full, evicted.last_eq,
        Option.map_some]
      exact if_pos ⟨crowded, inMap, spared⟩
    · apply agrees.remove sound evicted.coherent evicted.gone
      · exact evicted.others.trans (reordered.filter _)
      · exact evicted.capacity
      · exact stored_update (fun other => sound.stored_of_ne owner) rfl
  · have result := @LruCache.finishPut_of_fits _ _ _
      (s.cache.promoteAll promotions) full node.address
    simp only [SharedCache.threadStep, here, result, Option.some.injEq]
      at taken
    subst taken
    refine ⟨m, ?_, ?_⟩
    · simp only [threadEffect, here, if_neg full]
      exact rfl
    · have spliced := touch_perm LruNode.address node.address
        (s.cache.promoteAll promotions).list
      exact agrees.reorder sound later (spliced.trans reordered) rfl rfl
        (.inl rfl)

/-- `put` takes the mutex. -/
theorem Agrees.put (agrees : Agrees capacity s m) (sound : s.Sound) {key : K}
    {value : V} (here : s.threads thread = .put key value)
    (taken : s.threadStep thread = some after) :
    ∃ later, Explains (EvictingMap.apply capacity) m (s.threadEffect thread)
        later ∧ Agrees capacity after later := by
  simp only [SharedCache.threadStep, here] at taken
  split at taken
  · next free =>
      cases taken
      have unlocked := isFree_exclusive free
      refine ⟨⟨m.entries.insert key value, some key⟩, ?_,
        agrees.store sound unlocked key value rfl rfl⟩
      simp only [threadEffect, here]
      exact agrees.apply_eq sound unlocked rfl
  · cases taken

/-- `promote` takes the mutex. -/
theorem Agrees.promote (agrees : Agrees capacity s m) (sound : s.Sound)
    (here : s.threads thread = .promote)
    (taken : s.threadStep thread = some after) :
    ∃ later, Explains (EvictingMap.apply capacity) m (s.threadEffect thread)
        later ∧ Agrees capacity after later := by
  have later := sound.threadStep taken
  simp only [SharedCache.threadStep, here] at taken
  split at taken
  · next free =>
      cases taken
      refine ⟨m, ?_, agrees.reorder sound later (.refl _) rfl rfl (.inl rfl)⟩
      simp only [threadEffect, here]
      exact agrees.apply_eq sound (isFree_exclusive free) rfl
  · cases taken

theorem Agrees.tryGet (agrees : Agrees capacity s m) (sound : s.Sound)
    {key : K} (here : s.threads thread = .tryGet key)
    (taken : s.threadStep thread = some after) :
    ∃ later, Explains (EvictingMap.apply capacity) m (s.threadEffect thread)
        later ∧ Agrees capacity after later := by
  have later := sound.threadStep taken
  simp only [SharedCache.threadStep, here] at taken
  split at taken
  · next free =>
      refine ⟨m, agrees.lookup sound free here, ?_⟩
      split at taken
      · cases taken
        exact agrees.reorder sound later (.refl _) rfl rfl (.inl rfl)
      · next it found =>
          obtain ⟨node, deref, _⟩ := sound.lookup found
          simp only [deref, Option.some.injEq] at taken
          subst taken
          exact agrees.reorder sound later (.refl _) rfl rfl (.inl rfl)
  · cases taken

theorem Agrees.tail (agrees : Agrees capacity s m) (sound : s.Sound)
    (here : s.threads thread = .tail)
    (taken : s.threadStep thread = some after) :
    ∃ later, Explains (EvictingMap.apply capacity) m (s.threadEffect thread)
        later ∧ Agrees capacity after later := by
  have later := sound.threadStep taken
  simp only [SharedCache.threadStep, here] at taken
  split at taken
  · next free =>
      refine ⟨m, agrees.last sound free here, ?_⟩
      split at taken
      · cases taken
        exact agrees.reorder sound later (.refl _) rfl rfl (.inl rfl)
      · cases taken
        exact agrees.reorder sound later (.refl _) rfl rfl (.inl rfl)
  · cases taken

/-- The exclusive section of `erase` removes the key if it is there. -/
theorem Agrees.erase (agrees : Agrees capacity s m) (sound : s.Sound)
    {key : K} (here : s.threads thread = .erase key)
    (taken : s.threadStep thread = some after) :
    ∃ later, Explains (EvictingMap.apply capacity) m (s.threadEffect thread)
        later ∧ Agrees capacity after later := by
  have later := sound.threadStep taken
  simp only [SharedCache.threadStep, here] at taken
  split at taken
  · next free =>
      have unlocked := isFree_exclusive free
      refine ⟨{ m with entries := m.entries.erase key }, ?_, ?_⟩
      · simp only [threadEffect, here]
        exact agrees.apply_eq sound unlocked rfl
      have others (pc : CachePc K V) (outside : pc.stored = none) :=
        stored_update (fun other (_ : other ≠ thread) =>
          sound.stored_of_free unlocked other) outside
      split at taken
      · next absent =>
          cases taken
          refine agrees.remove sound later.coherent ?_ (.refl _) rfl
            (others _ rfl)
          intro node member same
          have mapped := (LruCache.mem_map_iff sound.coherent key).mpr
            (same ▸ List.mem_map_of_mem member)
          exact AList.lookup_eq_none.mp absent mapped
      · next it found =>
          cases taken
          have byKey := forget_congr LruNode.key LruNode.address
            (LruCache.address_eq_iff sound.coherent found)
          apply agrees.remove sound later.coherent _ _ rfl (others _ rfl)
          · intro node member
            change node ∈ forget LruNode.address it s.cache.list at member
            rw [← byKey] at member
            exact of_decide_eq_true (List.mem_filter.mp member).2
          · change (forget LruNode.key key
              (forget LruNode.address it s.cache.list)).Perm _
            rw [← byKey, forget_forget]
  · cases taken

/-- The first section of `clear` removes all keys. -/
theorem Agrees.clears (agrees : Agrees capacity s m) (sound : s.Sound)
    (here : s.threads thread = .clear)
    (taken : s.threadStep thread = some after) :
    ∃ later, Explains (EvictingMap.apply capacity) m (s.threadEffect thread)
        later ∧ Agrees capacity after later := by
  have later := sound.threadStep taken
  simp only [SharedCache.threadStep, here] at taken
  split at taken
  · next free =>
      cases taken
      have unlocked := isFree_exclusive free
      refine ⟨{ m with entries := ∅ }, ?_, agrees.clear later.coherent rfl
        rfl (stored_update (fun other _ =>
          sound.stored_of_free unlocked other) rfl)⟩
      simp only [threadEffect, here]
      exact agrees.apply_eq sound unlocked rfl
  · cases taken

/-- The sections in which nothing takes effect reorder the list at most. -/
theorem Agrees.silent (agrees : Agrees capacity s m) (sound : s.Sound)
    (later : after.Sound) {pc : CachePc K V}
    (nothing : s.threadEffect thread = none)
    (reordered : after.cache.list.Perm s.cache.list)
    (same : after.cache.capacity = s.cache.capacity)
    (threads : after.threads = Function.update s.threads thread pc)
    (stored : pc.stored = none ∨ pc.stored = (s.threads thread).stored) :
    ∃ later, Explains (EvictingMap.apply capacity) m (s.threadEffect thread)
        later ∧ Agrees capacity after later := by
  refine ⟨m, ?_, agrees.reorder sound later reordered same threads stored⟩
  rw [nothing]
  exact rfl

/-- What takes effect in a section of a thread is allowed by the map. -/
theorem Agrees.threadStep (agrees : Agrees capacity s m) (sound : s.Sound)
    (taken : s.threadStep thread = some after) :
    ∃ later, Explains (EvictingMap.apply capacity) m (s.threadEffect thread)
        later ∧ Agrees capacity after later := by
  have later := sound.threadStep taken
  cases here : s.threads thread with
  | idle => simp [SharedCache.threadStep, here] at taken
  | put key value => exact agrees.put sound here taken
  | promote => exact agrees.promote sound here taken
  | tryGet key => exact agrees.tryGet sound here taken
  | tail => exact agrees.tail sound here taken
  | erase key => exact agrees.erase sound here taken
  | clear => exact agrees.clears sound here taken
  | swapping stored =>
      simp only [SharedCache.threadStep, here, Option.some.injEq] at taken
      subst taken
      exact agrees.silent sound later (by simp [threadEffect, here]) (.refl _)
        rfl rfl (.inr (by rw [here]; rfl))
  | promoting stored promotions =>
      cases stored with
      | none =>
          simp only [SharedCache.threadStep, here, Option.some.injEq] at taken
          subst taken
          exact agrees.silent sound later (by simp [threadEffect, here])
            (LruCache.promoteAll_perm sound.coherent promotions) rfl rfl
            (.inl rfl)
      | some it => exact agrees.finish sound here taken
  | logging hit =>
      simp only [SharedCache.threadStep, here, Option.some.injEq] at taken
      subst taken
      exact agrees.silent sound later (by simp [threadEffect, here])
        (.of_eq (LruCache.logAccess_list s.cache hit.key))
        (LruCache.logAccess_capacity s.cache hit.key) rfl (.inl rfl)
  | loggingTail key value =>
      simp only [SharedCache.threadStep, here, Option.some.injEq] at taken
      subst taken
      exact agrees.silent sound later (by simp [threadEffect, here])
        (.of_eq (LruCache.logAccess_list s.cache key))
        (LruCache.logAccess_capacity s.cache key) rfl (.inl rfl)
  | purging key | clearing =>
      simp only [SharedCache.threadStep, here, Option.some.injEq] at taken
      subst taken
      exact agrees.silent sound later (by simp [threadEffect, here]) (.refl _)
        rfl rfl (.inl rfl)

theorem Agrees.step (agrees : Agrees capacity s m) (sound : s.Sound)
    {action : Action K V} (taken : s.step action = some after) :
    ∃ later, Explains (EvictingMap.step capacity) m (s.effect action) later ∧
      Agrees capacity after later := by
  have later := sound.step taken
  cases action with
  | call thread operation =>
      obtain ⟨_, rfl⟩ := call_eq_some sound taken
      exact ⟨m, rfl, agrees.reorder sound later (.refl _) rfl rfl
        (.inl (entry_stored operation))⟩
  | thread thread =>
      obtain ⟨content, explains, agreesLater⟩ :=
        agrees.threadStep sound (thread_eq_some sound taken)
      refine ⟨content, ?_, agreesLater⟩
      rw [effect]
      cases happened : s.threadEffect thread with
      | none => rwa [happened] at explains
      | some effect => rwa [happened] at explains

/-! ## Runs -/

omit [DecidableEq V] in
/-- What has taken effect, in its order. -/
def history (capacity : Nat) (actions : List (Action K V)) :
    List (Nat × MapEffect K V) :=
  effects step effect { cache := LruCache.new capacity } actions

omit [DecidableEq V] in
theorem sound_run {actions : List (Action K V)}
    (run : Reaches step (fun _ _ => True)
      ({ cache := LruCache.new capacity } : SharedCache K V) actions s) :
    s.Sound := by
  apply run.invariant (new_sound capacity)
  intro before action after sound _ taken
  exact sound.step taken

omit [DecidableEq V] in
/-- Every operation of a thread takes effect once, in the order in which the
thread begins them; the last one may not have yet. -/
theorem accounted_run {actions : List (Action K V)}
    (run : Reaches step (fun _ _ => True)
      ({ cache := LruCache.new capacity } : SharedCache K V) actions s)
    (thread : Nat) :
    actions.filterMap (begun thread) =
      (history capacity actions).filterMap (performed thread) ++
        (s.threads thread).underWay.toList := by
  refine accounted (fun s thread => (s.threads thread).underWay)
    (fun _ => rfl) ?_ run thread
  intro earlier before action after earlierRun _ taken thread
  have sound := sound_run earlierRun
  cases action with
  | call caller operation =>
      obtain ⟨idle, rfl⟩ := call_eq_some sound taken
      by_cases mine : caller = thread
      · subst mine
        have waiting : (before.threads caller).underWay = none := by
          rw [idle]
          rfl
        simp [waiting, begun, effect, setThread, entry_underWay]
      · simp [begun, effect, setThread, mine, Ne.symm mine,
          Function.update_of_ne]
  | thread mover =>
      obtain ⟨pc, progress⟩ := sound.progress (thread_eq_some sound taken)
      have operation := before.threadEffect_operation mover
      rw [progress.threads]
      by_cases mine : mover = thread
      · subst mine
        rw [Function.update_self, progress.underWay, ← operation]
        cases happened : before.threadEffect mover <;>
          simp [begun, effect, happened, performed]
      · rw [Function.update_of_ne (Ne.symm mine)]
        cases happened : before.threadEffect mover <;>
          simp [begun, effect, happened, performed, mine]

omit [DecidableEq V] in
/-- What the operations of a thread return is what they found when they took
effect; the last one may not have returned yet. -/
theorem answered_run {actions : List (Action K V)}
    (run : Reaches step (fun _ _ => True)
      ({ cache := LruCache.new capacity } : SharedCache K V) actions s)
    (thread : Nat) :
    (history capacity actions).filterMap (answered thread) =
      s.replies thread ++ (s.threads thread).unreturned.toList := by
  refine recorded (fun history (s : SharedCache K V) =>
    history.filterMap (answered thread) =
      s.replies thread ++ (s.threads thread).unreturned.toList) rfl ?_ run
  intro earlier before action after history earlierRun _ taken recorded
  have sound := sound_run earlierRun
  rw [List.filterMap_append, recorded]
  cases action with
  | call caller operation =>
      obtain ⟨idle, rfl⟩ := call_eq_some sound taken
      by_cases mine : thread = caller
      · subst mine
        have waiting : (before.threads thread).unreturned = none := by
          rw [idle]
          rfl
        simp [waiting, effect, setThread, entry_unreturned]
      · simp [effect, setThread, Function.update_of_ne mine]
  | thread mover =>
      obtain ⟨pc, progress⟩ := sound.progress (thread_eq_some sound taken)
      rw [progress.threads]
      by_cases mine : thread = mover
      · subst mine
        rw [Function.update_self, progress.returned]
        cases happened : before.threadEffect thread with
        | none => simp [effect, happened]
        | some result =>
            cases answer : result.reply <;>
              simp [effect, happened, answered, answer]
      · rw [Function.update_of_ne mine, progress.others thread mine]
        cases happened : before.threadEffect mover <;>
          simp [effect, happened, answered, Ne.symm mine]

/-- The operations of the threads take effect as operations of a sequential
map, each once and in the order of its thread, and the map holds what the cache
holds; what `tryGet` and `tail` return in a thread, one after another, is what
they find in the map. -/
theorem linearizable_run (capacity : Nat) {actions : List (Action K V)}
    (run : Reaches step (fun _ _ => True)
      ({ cache := LruCache.new capacity } : SharedCache K V) actions s) :
    ∃ m, Reaches (EvictingMap.step capacity) (fun _ _ => True)
        EvictingMap.empty (history capacity actions) m ∧
      (∀ key, m.entries.lookup key = s.cache.lookup key) ∧
      (∀ thread, actions.filterMap (begun thread) =
        (history capacity actions).filterMap (performed thread) ++
          (s.threads thread).underWay.toList) ∧
      ∀ thread, (history capacity actions).filterMap (answered thread) =
        s.replies thread ++ (s.threads thread).unreturned.toList := by
  have initially : Agrees capacity
      ({ cache := LruCache.new capacity } : SharedCache K V)
      EvictingMap.empty :=
    ⟨rfl, fun _ => rfl, by rintro _ _ ⟨⟩⟩
  obtain ⟨m, explains, agrees⟩ := explained initially
    (fun earlier _ taken agrees => agrees.step (sound_run earlier) taken) run
  exact ⟨m, explains, agrees.entries, accounted_run run, answered_run run⟩

/-- The lookup of the first key comes in front of the put that evicts it, and
returns what it found. -/
theorem linearizable_evictedLookup :
    ∃ s m, Reaches step (fun _ _ => True)
        ({ cache := LruCache.new 1 } : SharedCache Nat Nat) evictedLookupRun
          s ∧
      s.replies 1 = [.tryGet 1 (some 7), .tryGet 2 (some 8)] ∧
      Reaches (EvictingMap.step 1) (fun _ _ => True) EvictingMap.empty
        [(0, .put 1 7), (1, .found 1 7), (0, .put 2 8), (0, .evict 1),
          (1, .found 2 8)] m ∧
      ∀ key, m.entries.lookup key = s.cache.lookup key := by
  have possible : (evaluate step (fun _ _ => True)
      ({ cache := LruCache.new 1 } : SharedCache Nat Nat)
      evictedLookupRun).isSome = true := by
    decide
  obtain ⟨s, result⟩ := Option.isSome_iff_exists.mp possible
  have returned : (evaluate step (fun _ _ => True)
      ({ cache := LruCache.new 1 } : SharedCache Nat Nat)
      evictedLookupRun).map (fun s => s.replies 1) =
        some [.tryGet 1 (some 7), .tryGet 2 (some 8)] := by
    decide
  rw [result, Option.map_some, Option.some.injEq] at returned
  have run := reaches_of_evaluate result
  obtain ⟨m, explains, entries, _⟩ := linearizable_run 1 run
  have happened : history 1 evictedLookupRun =
      [(0, .put 1 7), (1, .found 1 7), (0, .put 2 8), (0, .evict 1),
        (1, .found 2 8)] := by
    decide
  rw [happened] at explains
  exact ⟨s, m, run, returned, explains, entries⟩

end SharedCache

end KitMuduo
