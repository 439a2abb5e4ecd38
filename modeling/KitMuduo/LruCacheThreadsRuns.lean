import KitMuduo.LruCacheThreads

/-!
# Runs of a shared cache

The map and the list agree after every section, whatever the log holds: a key of
the log that the map does not have is passed over, and the keys that it has only
reorder the list.  Between the sections of `put` the cache may hold one node
more than its capacity.
-/

namespace KitMuduo

open GuardedRuns MutexOwnership RecencyList

namespace LruCache

variable {K V : Type*} [DecidableEq K] {c : LruCache K V}

theorem promoteAll_perm (coherent : c.Coherent) (promotions : List K) :
    (c.promoteAll promotions).list.Perm c.list := by
  have logged : { c with pendingPromotions := promotions }.Coherent :=
    coherent.of_perm (List.Perm.refl _) promotions
  have replayed := promoteUnLocked_list logged
  change (c.promoteAll promotions).list = _ at replayed
  rw [replayed]
  exact replay_perm _ _ _

theorem promoteAll_coherent (coherent : c.Coherent) (promotions : List K) :
    (c.promoteAll promotions).Coherent :=
  coherent.of_perm (promoteAll_perm coherent promotions) c.pendingPromotions

/-- A new key makes the list longer by one. -/
theorem Stored.length_le {key : K} {value : V} {it : Nat}
    {stored : LruCache K V} (is : Stored c key value it stored) :
    stored.list.length ≤ c.list.length + 1 := by
  have split := (touch_perm LruNode.key key stored.list).length_eq
  have fewer : (forget LruNode.key key c.list).length ≤ c.list.length :=
    List.length_filter_le ..
  rw [touch, is.only, is.others] at split
  simp only [List.length_append, List.length_singleton] at split
  omega

/-- Behind its promotions `put` brings the cache back to its capacity, and its
assertions hold. -/
theorem finishPut_spec (coherent : c.Coherent)
    (overfull : c.size ≤ c.capacity + 1) (it : Nat) :
    ∃ after, c.finishPut it = some after ∧ after.Coherent ∧
      after.size ≤ after.capacity ∧ ∀ node ∈ after.list, node ∈ c.list := by
  have reordered := touch_perm LruNode.address it c.list
  have moved := coherent.of_perm reordered c.pendingPromotions
  have length := size_eq_length moved
  by_cases full : c.size > c.capacity
  · have nonempty : splice it c.list ≠ [] := by
      intro empty
      have same := size_eq_length coherent
      rw [← reordered.length_eq] at same
      change c.size = (splice it c.list).length at same
      rw [empty, List.length_nil] at same
      omega
    obtain ⟨after, result, afterCoherent, list, capacity, _⟩ :=
      eliminateUnLocked_spec moved nonempty
    refine ⟨after, (if_pos full).trans result, afterCoherent, ?_, ?_⟩
    · rw [size_eq_length afterCoherent, list, capacity, List.length_dropLast]
      change c.size = (splice it c.list).length at length
      change (splice it c.list).length - 1 ≤ c.capacity
      omega
    · intro node member
      rw [list] at member
      exact reordered.subset (List.dropLast_subset _ member)
  · refine ⟨_, if_neg full, moved, Nat.le_of_not_lt full, ?_⟩
    exact fun node member => reordered.subset member

theorem logAccess_eq (c : LruCache K V) (key : K) :
    c.logAccess key = { c with
      pendingPromotions := (c.logAccess key).pendingPromotions } := by
  unfold logAccess
  split <;> rfl

theorem eraseAt_coherent (coherent : c.Coherent) {key : K} {it : Nat}
    (found : c.map.lookup key = some it) : (c.eraseAt key it).Coherent := by
  have byKey : forget LruNode.address it c.list =
      forget LruNode.key key c.list :=
    (forget_congr LruNode.key LruNode.address
      (address_eq_iff coherent found)).symm
  unfold eraseAt
  rw [byKey]
  exact coherent.remove key c.pendingPromotions

end LruCache

/-- The value of the last put of a key. -/
def lastPut {K V : Type*} [DecidableEq K] (key : K) (puts : List (K × V)) :
    Option V :=
  (puts.reverse.find? fun put => put.1 = key).map Prod.snd

theorem lastPut_append_self {K V : Type*} [DecidableEq K] (key : K) (value : V)
    (puts : List (K × V)) :
    lastPut key (puts ++ [(key, value)]) = some value := by
  simp [lastPut]

theorem lastPut_append_of_ne {K V : Type*} [DecidableEq K] {key other : K}
    (different : other ≠ key) (value : V) (puts : List (K × V)) :
    lastPut other (puts ++ [(key, value)]) = lastPut other puts := by
  simp [lastPut, Ne.symm different]

/-- The lookup read the value of the latest put of its key. -/
def CacheHit.IsLatest {K V : Type*} [DecidableEq K] (hit : CacheHit K V) :
    Prop :=
  lastPut hit.key hit.before = some hit.value

namespace SharedCache

variable {K V : Type*} [DecidableEq K] {s after : SharedCache K V}
  {thread : Nat}

/-- While nobody holds `rw_mutex_` exclusively the map and the list describe the
same nodes of distinct keys, and no more than the capacity; no assertion has
failed; and what a lookup returned is the value of the latest put. -/
structure Consistent (s : SharedCache K V) : Prop where
  running : s.aborted = false
  coherent : s.exclusive = none → s.cache.Coherent
  bounded : s.exclusive = none → s.cache.size ≤ s.cache.capacity
  hits : ∀ hit ∈ s.hits, hit.IsLatest

/-- What every section keeps. -/
structure Sound (s : SharedCache K V) : Prop where
  running : s.aborted = false
  held : Held CachePc.holdsExclusive s.threads s.exclusive
  coherent : s.cache.Coherent
  fits : (∀ thread, (s.threads thread).isPutting = false) →
    s.cache.size ≤ s.cache.capacity
  overfull : s.cache.size ≤ s.cache.capacity + 1
  latest : ∀ node ∈ s.cache.list, lastPut node.key s.puts = some node.value
  hits : ∀ hit ∈ s.hits, hit.IsLatest
  logging : ∀ thread hit, s.threads thread = .logging hit → hit.IsLatest

theorem new_sound (capacity : Nat) :
    ({ cache := LruCache.new capacity } : SharedCache K V).Sound where
  running := rfl
  held := fun _ => by simp [CachePc.holdsExclusive]
  coherent := LruCache.new_coherent capacity
  fits := fun _ => Nat.zero_le _
  overfull := Nat.zero_le _
  latest := fun _ member => nomatch member
  hits := fun _ member => nomatch member
  logging := fun _ _ here => nomatch here

/-- Nobody is in `put` behind its insertion while nobody holds the mutex. -/
theorem Sound.fits_of_free (sound : s.Sound) (free : s.exclusive = none) :
    s.cache.size ≤ s.cache.capacity := by
  apply sound.fits
  intro thread
  have outside := sound.held
  rw [free] at outside
  have here := outside.not_holds_of_free thread
  cases place : s.threads thread with
  | swapping put | promoting put promotions =>
      rw [place] at here
      cases here
  | _ => rfl

theorem Sound.consistent (sound : s.Sound) : s.Consistent where
  running := sound.running
  coherent := fun _ => sound.coherent
  bounded := sound.fits_of_free
  hits := sound.hits

/-- A section that keeps some of the nodes, as they are. -/
theorem Sound.update (sound : s.Sound) (thread : Nat) (pc : CachePc K V)
    (threads : after.threads = Function.update s.threads thread pc)
    (running : after.aborted = false)
    (held : Held CachePc.holdsExclusive after.threads after.exclusive)
    (coherent : after.cache.Coherent)
    (subset : ∀ node ∈ after.cache.list, node ∈ s.cache.list)
    (puts : after.puts = s.puts)
    (fits : (∀ other, (after.threads other).isPutting = false) →
      after.cache.size ≤ after.cache.capacity)
    (overfull : after.cache.size ≤ after.cache.capacity + 1)
    (hits : ∀ hit ∈ after.hits, hit.IsLatest)
    (logging : ∀ hit, pc = .logging hit → hit.IsLatest) : after.Sound where
  running := running
  held := held
  coherent := coherent
  fits := fits
  overfull := overfull
  latest := by
    intro node member
    rw [puts]
    exact sound.latest node (subset node member)
  hits := hits
  logging := by
    intro other hit here
    rw [threads] at here
    by_cases same : other = thread
    · rw [same, Function.update_self] at here
      exact logging hit here
    · rw [Function.update_of_ne same] at here
      exact sound.logging other hit here

/-- A section that at most reorders the list. -/
theorem Sound.reorder (sound : s.Sound) (thread : Nat) (pc : CachePc K V)
    {list : List (LruNode K V)} (reordered : list.Perm s.cache.list)
    (pending : List K)
    (cache : after.cache = { s.cache with
      list := list, pendingPromotions := pending })
    (threads : after.threads = Function.update s.threads thread pc)
    (running : after.aborted = s.aborted)
    (held : Held CachePc.holdsExclusive after.threads after.exclusive)
    (puts : after.puts = s.puts)
    (putting : pc.isPutting = (s.threads thread).isPutting)
    (hits : ∀ hit ∈ after.hits, hit.IsLatest)
    (logging : ∀ hit, pc = .logging hit → hit.IsLatest) : after.Sound := by
  have size : after.cache.size = s.cache.size := by
    rw [cache]
    rfl
  have capacity : after.cache.capacity = s.cache.capacity := by
    rw [cache]
  apply sound.update thread pc threads (running.trans sound.running) held
    (cache ▸ sound.coherent.of_perm reordered pending)
  · intro node member
    rw [cache] at member
    exact reordered.subset member
  · exact puts
  · intro nobody
    rw [size, capacity]
    apply sound.fits
    intro other
    have outside := nobody other
    rw [threads] at outside
    by_cases same : other = thread
    · rw [same, Function.update_self, putting] at outside
      rwa [same]
    · rwa [Function.update_of_ne same] at outside
  · rw [size, capacity]
    exact sound.overfull
  · exact hits
  · exact logging

/-- A section that leaves the list alone. -/
theorem Sound.log (sound : s.Sound) (thread : Nat) (pc : CachePc K V)
    (pending : List K)
    (cache : after.cache = { s.cache with pendingPromotions := pending })
    (threads : after.threads = Function.update s.threads thread pc)
    (running : after.aborted = s.aborted)
    (held : Held CachePc.holdsExclusive after.threads after.exclusive)
    (puts : after.puts = s.puts)
    (putting : pc.isPutting = (s.threads thread).isPutting)
    (hits : ∀ hit ∈ after.hits, hit.IsLatest)
    (logging : ∀ hit, pc = .logging hit → hit.IsLatest) : after.Sound :=
  sound.reorder thread pc (List.Perm.refl _) pending cache threads running
    held puts putting hits logging

/-- `rw_mutex_` is free for an exclusive section. -/
theorem isFree_exclusive (free : s.isFree = true) : s.exclusive = none := by
  simp only [isFree, decide_eq_true_eq] at free
  exact free.1

/-- `put` takes `rw_mutex_` and stores its value. -/
theorem Sound.store (sound : s.Sound) {key : K} {value : V}
    (free : s.isFree = true) :
    ({ s with
      cache := (s.cache.store key value).2
      exclusive := some thread
      puts := s.puts ++ [(key, value)] }.setThread thread
        (.swapping (some (s.cache.store key value).1))).Sound := by
  have unlocked := isFree_exclusive free
  have stored := LruCache.store_spec sound.coherent key value
  have fits := sound.fits_of_free unlocked
  have held := sound.held
  rw [unlocked] at held
  constructor
  · exact sound.running
  · exact held.acquire rfl
  · exact stored.coherent
  · intro nobody
    have mine := nobody thread
    simp [setThread, CachePc.isPutting] at mine
  · have length := stored.length_le
    have before := LruCache.size_eq_length sound.coherent
    have later := LruCache.size_eq_length stored.coherent
    change (s.cache.store key value).2.size ≤
      (s.cache.store key value).2.capacity + 1
    rw [stored.capacity]
    omega
  · intro node member
    change node ∈ (s.cache.store key value).2.list at member
    change lastPut node.key (s.puts ++ [(key, value)]) = _
    by_cases same : node.key = key
    · have isNew : node ∈ only LruNode.key key
          (s.cache.store key value).2.list :=
        List.mem_filter.mpr ⟨member, decide_eq_true same⟩
      rw [stored.only, List.mem_singleton] at isNew
      rw [isNew]
      exact lastPut_append_self key value s.puts
    · have isOld : node ∈ forget LruNode.key key
          (s.cache.store key value).2.list :=
        List.mem_filter.mpr ⟨member, decide_eq_true same⟩
      rw [stored.others] at isOld
      rw [lastPut_append_of_ne same]
      exact sound.latest node (List.mem_of_mem_filter isOld)
  · exact sound.hits
  · intro other hit here
    by_cases same : other = thread
    · simp [setThread, same] at here
    · simp only [setThread, Function.update_of_ne same] at here
      exact sound.logging other hit here

/-- A section that changes the places of threads only. -/
theorem Sound.move (sound : s.Sound) (pc : CachePc K V)
    (before : (s.threads thread).holdsExclusive = false)
    (outside : pc.holdsExclusive = false)
    (logging : ∀ hit, pc = .logging hit → hit.IsLatest) (shared : List Nat)
    (replies : Nat → List (CacheReply K V)) :
    ({ s with shared := shared, replies := replies }.setThread thread
      pc).Sound := by
  have putting : pc.isPutting = (s.threads thread).isPutting := by
    have notPutting (place : CachePc K V)
        (elsewhere : place.holdsExclusive = false) :
        place.isPutting = false := by
      cases place with
      | swapping stored | promoting stored promotions => cases elsewhere
      | _ => rfl
    rw [notPutting pc outside, notPutting _ before]
  exact sound.log thread pc s.cache.pendingPromotions rfl rfl rfl
    (sound.held.keep (outside.trans before.symm)) rfl putting sound.hits
    logging

/-- The exclusive section of `erase`. -/
theorem Sound.erase (sound : s.Sound) {key : K} {it : Nat}
    (here : s.threads thread = .erase key) (free : s.isFree = true)
    (found : s.cache.map.lookup key = some it) :
    ({ s with cache := s.cache.eraseAt key it }.setThread thread
      (.purging key)).Sound := by
  have coherent := LruCache.eraseAt_coherent sound.coherent found
  have fewer : (s.cache.eraseAt key it).size ≤ s.cache.size := by
    rw [LruCache.size_eq_length coherent,
      LruCache.size_eq_length sound.coherent]
    exact List.length_filter_le ..
  have bound := Nat.le_trans fewer
    (sound.fits_of_free (isFree_exclusive free))
  apply sound.update thread (.purging key) rfl
  · exact sound.running
  · apply sound.held.keep
    rw [here]
    rfl
  · exact coherent
  · exact fun node member => List.mem_of_mem_filter member
  · rfl
  · exact fun _ => bound
  · exact Nat.le_succ_of_le bound
  · exact sound.hits
  · exact nofun

/-- The first section of `clear`. -/
theorem Sound.clear (sound : s.Sound) (free : s.isFree = true) :
    ({ s with
      cache := { s.cache with list := [], map := ∅ }
      exclusive := some thread }.setThread thread .clearing).Sound := by
  have held := sound.held
  rw [isFree_exclusive free] at held
  apply sound.update thread .clearing rfl
  · exact sound.running
  · exact held.acquire rfl
  · exact (LruCache.clear_coherent s.cache).of_perm (List.Perm.refl _) _
  · exact fun node member => nomatch member
  · rfl
  · exact fun _ => Nat.zero_le _
  · exact Nat.zero_le _
  · exact sound.hits
  · exact nofun

/-- The last section of `put`. -/
theorem Sound.finish (sound : s.Sound) {it : Nat} {promotions : List K}
    (here : s.threads thread = .promoting (some it) promotions) :
    ∃ cache, (s.cache.promoteAll promotions).finishPut it = some cache ∧
      ({ s with
        cache := cache
        exclusive := none }.setThread thread .idle).Sound := by
  have coherent := LruCache.promoteAll_coherent sound.coherent promotions
  have reordered := LruCache.promoteAll_perm sound.coherent promotions
  obtain ⟨cache, result, finished, bound, kept⟩ :=
    LruCache.finishPut_spec coherent sound.overfull it
  have owner : s.exclusive = some thread :=
    sound.held.owner_eq (by rw [here]; rfl)
  have held := sound.held
  rw [owner] at held
  refine ⟨cache, result, ?_⟩
  apply sound.update thread .idle rfl
  · exact sound.running
  · exact held.release rfl
  · exact finished
  · exact fun node member => reordered.subset (kept node member)
  · rfl
  · exact fun _ => bound
  · exact Nat.le_succ_of_le bound
  · exact sound.hits
  · exact nofun

/-- A lookup that succeeds reads the value of the latest put. -/
theorem Sound.lookup (sound : s.Sound) {key : K} {it : Nat}
    (found : s.cache.map.lookup key = some it) :
    ∃ node, s.cache.nodeAt it = some node ∧
      CacheHit.IsLatest ⟨key, node.value, s.puts⟩ := by
  obtain ⟨node, member, rfl, rfl⟩ :=
    (sound.coherent.map_iff key it).mp found
  exact ⟨node, LruCache.nodeAt_eq sound.coherent member,
    sound.latest node member⟩

theorem Sound.promote (sound : s.Sound) (here : s.threads thread = .promote)
    (taken : s.threadStep thread = some after) : after.Sound := by
  simp only [SharedCache.threadStep, here] at taken
  split at taken
  · next free =>
      cases taken
      have held := sound.held
      rw [isFree_exclusive free] at held
      exact sound.log thread (.swapping none) s.cache.pendingPromotions
        rfl rfl rfl (held.acquire rfl) rfl (by rw [here]; rfl) sound.hits
        (by rintro _ ⟨⟩)
  · cases taken

/-- `promote` lets the lock go behind the replay. -/
theorem Sound.promoted (sound : s.Sound) {promotions : List K}
    (here : s.threads thread = .promoting none promotions)
    (taken : s.threadStep thread = some after) : after.Sound := by
  simp only [SharedCache.threadStep, here, Option.some.injEq] at taken
  subst taken
  have owner : s.exclusive = some thread :=
    sound.held.owner_eq (by rw [here]; rfl)
  have held := sound.held
  rw [owner] at held
  exact sound.reorder thread .idle
    (LruCache.promoteAll_perm sound.coherent promotions)
    s.cache.pendingPromotions rfl rfl rfl (held.release rfl) rfl
    (by rw [here]; rfl) sound.hits (by rintro _ ⟨⟩)

theorem Sound.tryGet (sound : s.Sound) {key : K}
    (here : s.threads thread = .tryGet key)
    (taken : s.threadStep thread = some after) : after.Sound := by
  simp only [SharedCache.threadStep, here] at taken
  split at taken
  · split at taken
    · cases taken
      exact sound.move .idle (by rw [here]; rfl) rfl (by rintro _ ⟨⟩) s.shared _
    · next it found =>
        obtain ⟨node, deref, latest⟩ := sound.lookup found
        simp only [deref, Option.some.injEq] at taken
        subst taken
        apply sound.move (.logging _) (by rw [here]; rfl) rfl _ s.shared
          s.replies
        rintro hit ⟨rfl⟩
        exact latest
  · cases taken

/-- `tryGet` logs its access and returns what it found. -/
theorem Sound.logged (sound : s.Sound) {hit : CacheHit K V}
    (here : s.threads thread = .logging hit)
    (taken : s.threadStep thread = some after) : after.Sound := by
  simp only [SharedCache.threadStep, here, Option.some.injEq] at taken
  subst taken
  refine sound.log thread .idle _ (LruCache.logAccess_eq _ _) rfl rfl
    (sound.held.keep (by rw [here]; rfl)) rfl (by rw [here]; rfl) ?_
    (by rintro _ ⟨⟩)
  intro other member
  rcases List.mem_append.mp member with old | new
  · exact sound.hits other old
  · exact List.mem_singleton.mp new ▸ sound.logging thread hit here

theorem Sound.tail (sound : s.Sound) (here : s.threads thread = .tail)
    (taken : s.threadStep thread = some after) : after.Sound := by
  simp only [SharedCache.threadStep, here] at taken
  split at taken
  · split at taken
    · cases taken
      exact sound.move .idle (by rw [here]; rfl) rfl (by rintro _ ⟨⟩) s.shared _
    · cases taken
      exact sound.move (.loggingTail _ _) (by rw [here]; rfl) rfl
        (by rintro _ ⟨⟩) _ s.replies
  · cases taken

theorem Sound.erases (sound : s.Sound) {key : K}
    (here : s.threads thread = .erase key)
    (taken : s.threadStep thread = some after) : after.Sound := by
  simp only [SharedCache.threadStep, here] at taken
  split at taken
  · next free =>
      split at taken
      · cases taken
        exact sound.move .idle (by rw [here]; rfl) rfl (by rintro _ ⟨⟩)
          s.shared s.replies
      · next it found =>
          cases taken
          exact sound.erase here free found
  · cases taken

/-- `clear` lets the lock go behind the log. -/
theorem Sound.cleared (sound : s.Sound) (here : s.threads thread = .clearing)
    (taken : s.threadStep thread = some after) : after.Sound := by
  simp only [SharedCache.threadStep, here, Option.some.injEq] at taken
  subst taken
  have owner : s.exclusive = some thread :=
    sound.held.owner_eq (by rw [here]; rfl)
  have held := sound.held
  rw [owner] at held
  exact sound.log thread .idle [] rfl rfl rfl (held.release rfl) rfl
    (by rw [here]; rfl) sound.hits (by rintro _ ⟨⟩)

theorem Sound.threadStep (sound : s.Sound)
    (taken : s.threadStep thread = some after) : after.Sound := by
  cases here : s.threads thread with
  | idle => simp [SharedCache.threadStep, here] at taken
  | put key value =>
      simp only [SharedCache.threadStep, here] at taken
      split at taken
      · next free => cases taken; exact sound.store free
      · cases taken
  | promote => exact sound.promote here taken
  | swapping stored =>
      simp only [SharedCache.threadStep, here, Option.some.injEq] at taken
      subst taken
      exact sound.log thread (.promoting stored s.cache.pendingPromotions) []
        rfl rfl rfl (sound.held.keep (by rw [here]; rfl)) rfl
        (by rw [here]; rfl) sound.hits (by rintro _ ⟨⟩)
  | promoting stored promotions =>
      cases stored with
      | none => exact sound.promoted here taken
      | some it =>
          obtain ⟨cache, result, finished⟩ := sound.finish here
          simp only [SharedCache.threadStep, here, result,
            Option.some.injEq] at taken
          exact taken ▸ finished
  | tryGet key => exact sound.tryGet here taken
  | logging hit => exact sound.logged here taken
  | tail => exact sound.tail here taken
  | loggingTail key value =>
      simp only [SharedCache.threadStep, here, Option.some.injEq] at taken
      subst taken
      exact sound.log thread .idle _ (LruCache.logAccess_eq _ _) rfl rfl
        (sound.held.keep (by rw [here]; rfl)) rfl (by rw [here]; rfl)
        sound.hits (by rintro _ ⟨⟩)
  | erase key => exact sound.erases here taken
  | purging key =>
      simp only [SharedCache.threadStep, here, Option.some.injEq] at taken
      subst taken
      exact sound.log thread .idle _ rfl rfl rfl
        (sound.held.keep (by rw [here]; rfl)) rfl (by rw [here]; rfl)
        sound.hits (by rintro _ ⟨⟩)
  | clear =>
      simp only [SharedCache.threadStep, here] at taken
      split at taken
      · next free => cases taken; exact sound.clear free
      · cases taken
  | clearing => exact sound.cleared here taken

theorem Sound.step (sound : s.Sound) {action : Action K V}
    (taken : s.step action = some after) : after.Sound := by
  simp only [SharedCache.step, sound.running] at taken
  cases action with
  | call thread operation =>
      cases here : s.threads thread with
      | idle =>
          simp only [here, Bool.false_eq_true, if_false, Option.some.injEq]
            at taken
          subst taken
          have outside : operation.entry.holdsExclusive = false := by
            cases operation <;> rfl
          apply sound.move _ (by rw [here]; rfl) outside _ s.shared s.replies
          intro hit begun
          cases operation <;> cases begun
      | _ => simp [here] at taken
  | thread thread =>
      exact sound.threadStep (by simpa using taken)

/-- Every interleaving of the sections keeps the map and the list together and
the cache within its capacity, no assertion fails, and a lookup returns the
value of the latest put. -/
theorem consistent_threadsRun (capacity : Nat) {actions : List (Action K V)}
    (run : Reaches step (fun _ _ => True)
      ({ cache := LruCache.new capacity } : SharedCache K V) actions s) :
    s.Consistent := by
  apply Sound.consistent
  apply run.invariant (new_sound capacity)
  intro before action after sound _ taken
  exact sound.step taken

/-- A thread looks a key up and logs it while another one is in the `put` that
evicts the key, and looks the new key up. -/
def evictedLookupRun : List (Action Nat Nat) :=
  .call 0 (.put 1 7) :: List.replicate 3 (.thread 0) ++
    [.call 1 (.tryGet 1), .thread 1, .call 0 (.put 2 8), .thread 0, .thread 1,
      .thread 0, .thread 0, .call 1 (.tryGet 2), .thread 1, .thread 1]

theorem consistent_evictedLookupRun :
    ∃ s, Reaches step (fun _ _ => True)
      ({ cache := LruCache.new 1 } : SharedCache Nat Nat) evictedLookupRun s ∧
      s.hits = [⟨1, 7, [(1, 7)]⟩, ⟨2, 8, [(1, 7), (2, 8)]⟩] ∧
      s.exclusive = none ∧ s.Consistent := by
  have possible : (evaluate step (fun _ _ => True)
      ({ cache := LruCache.new 1 } : SharedCache Nat Nat)
      evictedLookupRun).map (fun s => (s.hits, s.exclusive)) =
        some ([⟨1, 7, [(1, 7)]⟩, ⟨2, 8, [(1, 7), (2, 8)]⟩], none) := by
    decide
  obtain ⟨s, result, seen⟩ := Option.map_eq_some_iff.mp possible
  obtain ⟨hits, free⟩ := Prod.mk.inj seen
  have run := reaches_of_evaluate result
  exact ⟨s, run, hits, free, consistent_threadsRun 1 run⟩

end SharedCache

end KitMuduo
