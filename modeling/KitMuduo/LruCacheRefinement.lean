import KitMuduo.EagerLru
import KitMuduo.LruCache

/-!
# Deferred promotion refines eager promotion

Replaying the log over the list gives the order in which an eager cache would
keep its entries.  With this abstraction every operation of `LruCache` but `tail`
is the corresponding operation of the textbook cache.  The list itself is the
order of use at the last `put` or `promote`, and `tail` reads its last key.
-/

namespace KitMuduo

open RecencyList

namespace LruCache

variable {K V : Type*} [DecidableEq K]

/-- An operation together with its arguments. -/
inductive Call (K V : Type*)
  | put (key : K) (value : V)
  | tryGet (key : K)
  | exist (key : K)
  | erase (key : K)
  | clear
  | promote
  | size
  | tail

/-- What an operation reports.  The reply of `tail` also names the key, which
the source keeps to itself. -/
inductive Reply (K V : Type*)
  | done
  | found (value : Option V)
  | flag (present : Bool)
  | count (n : Nat)
  | last (entry : Option (K × V))
  deriving DecidableEq

/-- One operation; `none` is a failing assertion. -/
def call (c : LruCache K V) : Call K V → Option (Reply K V × LruCache K V)
  | .put key value => (c.put key value).map fun after => (.done, after)
  | .tryGet key => some (.found (c.tryGet key).1, (c.tryGet key).2)
  | .exist key => some (.flag (c.exist key), c)
  | .erase key => some (.done, c.erase key)
  | .clear => some (.done, c.clear)
  | .promote => some (.done, c.promote)
  | .size => some (.count c.size, c)
  | .tail => some (.last c.tail.1, c.tail.2)

def run : LruCache K V → List (Call K V) →
    Option (List (Reply K V) × LruCache K V)
  | c, [] => some ([], c)
  | c, next :: calls => do
      let (reply, c) ← c.call next
      let (replies, c) ← run c calls
      return (reply :: replies, c)

/-- The operations of the textbook cache.  `tail` is an access to its last
key. -/
def eagerCall (cache : EagerLru K V) : Call K V → Reply K V × EagerLru K V
  | .put key value => (.done, cache.put key value)
  | .tryGet key => (.found (cache.find key), cache.access key)
  | .exist key => (.flag (cache.find key).isSome, cache)
  | .erase key => (.done, cache.erase key)
  | .clear => (.done, cache.clear)
  | .promote => (.done, cache)
  | .size => (.count cache.entries.length, cache)
  | .tail =>
      match cache.entries.getLast? with
      | none => (.last none, cache)
      | some entry =>
          (.last (some (entry.key, entry.value)), cache.access entry.key)

def eagerRun : EagerLru K V → List (Call K V) →
    List (Reply K V) × EagerLru K V
  | cache, [] => ([], cache)
  | cache, next :: calls =>
      let (reply, cache) := eagerCall cache next
      let (replies, cache) := eagerRun cache calls
      (reply :: replies, cache)

/-- The operations of a cache that puts its keys in order at `put` and
`promote`. -/
def settledCall (c : SettledLru K V) : Call K V → Reply K V × SettledLru K V
  | .put key value => (.done, .settle (c.cache.put key value))
  | .tryGet key => (.found (c.cache.find key), c.access key)
  | .exist key => (.flag (c.cache.find key).isSome, c)
  | .erase key => (.done, c.erase key)
  | .clear => (.done, .settle c.cache.clear)
  | .promote => (.done, .settle c.cache)
  | .size => (.count c.cache.entries.length, c)
  | .tail => (.last c.last, c.accessLast)

def settledRun : SettledLru K V → List (Call K V) →
    List (Reply K V) × SettledLru K V
  | c, [] => ([], c)
  | c, next :: calls =>
      let (reply, c) := settledCall c next
      let (replies, c) := settledRun c calls
      (reply :: replies, c)

/-- Without `tail` both caches are one. -/
theorem settledCall_eq_eagerCall (c : SettledLru K V) {next : Call K V}
    (notTail : next ≠ .tail) :
    (settledCall c next).1 = (eagerCall c.cache next).1 ∧
      (settledCall c next).2.cache = (eagerCall c.cache next).2 := by
  cases next with
  | tail => exact absurd rfl notTail
  | put | tryGet | exist | erase | clear | promote | size => exact ⟨rfl, rfl⟩

theorem settledRun_eq_eagerRun (c : SettledLru K V) {calls : List (Call K V)}
    (noTail : .tail ∉ calls) :
    (settledRun c calls).1 = (eagerRun c.cache calls).1 ∧
      (settledRun c calls).2.cache = (eagerRun c.cache calls).2 := by
  induction calls generalizing c with
  | nil => exact ⟨rfl, rfl⟩
  | cons next calls ih =>
      rw [List.mem_cons, not_or] at noTail
      obtain ⟨reply, after⟩ :=
        settledCall_eq_eagerCall c (Ne.symm noTail.1)
      obtain ⟨replies, final⟩ := ih (settledCall c next).2 noTail.2
      rw [after] at replies final
      exact ⟨congrArg₂ List.cons reply replies, final⟩

def pair (node : LruNode K V) : K × V :=
  (node.key, node.value)

def eagerPair (entry : LruEntry K V) : K × V :=
  (entry.key, entry.value)

/-- The entries an eager cache would hold, in its order. -/
def view (c : LruCache K V) : List (K × V) :=
  (replay LruNode.key c.pendingPromotions c.list).map pair

/-- The value the map and the list give for a key. -/
def lookup (c : LruCache K V) (key : K) : Option V :=
  (c.map.lookup key).bind fun it => (c.nodeAt it).map LruNode.value

/-- The eager cache holds what the replayed list holds. -/
structure Represents (c : LruCache K V) (cache : EagerLru K V) : Prop where
  coherent : c.Coherent
  capacity_eq : c.capacity = cache.capacity
  view_eq : c.view = cache.entries.map eagerPair

omit [DecidableEq K] in
theorem mem_map_key_iff {entries : List (LruEntry K V)} {key : K} :
    key ∈ entries.map LruEntry.key ↔
      ∃ value, (key, value) ∈ entries.map eagerPair := by
  simp only [List.mem_map, eagerPair, Prod.mk.injEq]
  constructor
  · rintro ⟨entry, member, same⟩
    exact ⟨entry.value, entry, member, same, rfl⟩
  · rintro ⟨value, entry, member, same, _⟩
    exact ⟨entry, member, same⟩

theorem find_eq_some_iff (cache : EagerLru K V) (key : K) (value : V) :
    cache.find key = some value ↔
      (key, value) ∈ cache.entries.map eagerPair := by
  rw [EagerLru.find, Option.map_eq_some_iff, List.mem_map]
  constructor
  · rintro ⟨entry, search, same⟩
    have entryKey : entry.key = key := by
      simpa using List.find?_some search
    exact ⟨entry, List.mem_of_find?_eq_some search,
      Prod.ext entryKey same⟩
  · rintro ⟨entry, member, same⟩
    have entryKey : entry.key = key := congrArg Prod.fst same
    refine ⟨entry, ?_, congrArg Prod.snd same⟩
    rw [List.find?_eq_some_iff_append]
    obtain ⟨front, back, split⟩ := List.append_of_mem member
    refine ⟨by simpa using entryKey, front, back, split, ?_⟩
    intro other otherMem
    have distinct := cache.distinct
    rw [split, List.map_append, List.nodup_append] at distinct
    have different : other.key ≠ entry.key :=
      distinct.2.2 _ (List.mem_map_of_mem otherMem) _ (by simp)
    simpa [entryKey] using different

theorem mem_view_iff (c : LruCache K V) (key : K) (value : V) :
    (key, value) ∈ c.view ↔
      ∃ node ∈ c.list, node.key = key ∧ node.value = value := by
  simp only [view, List.mem_map, (replay_perm _ _ c.list).mem_iff, pair,
    Prod.mk.injEq]

theorem nodeAt_eq {c : LruCache K V} (coherent : c.Coherent)
    {node : LruNode K V} (member : node ∈ c.list) :
    c.nodeAt node.address = some node := by
  rw [nodeAt, List.find?_eq_some_iff_append]
  obtain ⟨front, back, split⟩ := List.append_of_mem member
  refine ⟨by simp, front, back, split, ?_⟩
  intro other otherMem
  have distinct := coherent.addresses
  rw [split, List.map_append, List.nodup_append] at distinct
  have different : other.address ≠ node.address :=
    distinct.2.2 _ (List.mem_map_of_mem otherMem) _ (by simp)
  simpa using different

theorem lookup_eq_some_iff {c : LruCache K V} (coherent : c.Coherent)
    (key : K) (value : V) :
    c.lookup key = some value ↔ (key, value) ∈ c.view := by
  rw [mem_view_iff, lookup, Option.bind_eq_some_iff]
  constructor
  · rintro ⟨it, found, deref⟩
    obtain ⟨node, member, nodeKey, rfl⟩ := (coherent.map_iff key it).mp found
    rw [nodeAt_eq coherent member] at deref
    exact ⟨node, member, nodeKey, Option.some.inj deref⟩
  · rintro ⟨node, member, nodeKey, nodeValue⟩
    refine ⟨node.address,
      (coherent.map_iff key _).mpr ⟨node, member, nodeKey, rfl⟩, ?_⟩
    rw [nodeAt_eq coherent member, Option.map_some, nodeValue]

/-- Both caches answer a lookup alike. -/
theorem lookup_eq_find {c : LruCache K V} {cache : EagerLru K V}
    (represents : Represents c cache) (key : K) :
    c.lookup key = cache.find key := by
  apply Option.ext
  intro value
  rw [lookup_eq_some_iff represents.coherent, find_eq_some_iff,
    represents.view_eq]

theorem lookup_isSome {c : LruCache K V} (coherent : c.Coherent) (key : K) :
    (c.lookup key).isSome = c.exist key := by
  cases found : c.map.lookup key with
  | none => simp [lookup, exist, found]
  | some it =>
      obtain ⟨node, member, nodeKey, rfl⟩ := (coherent.map_iff key it).mp found
      simp [lookup, exist, found, nodeAt_eq coherent member]

theorem tryGet_fst (c : LruCache K V) (key : K) :
    (c.tryGet key).1 = c.lookup key := by
  cases found : c.map.lookup key <;> simp [tryGet, lookup, found]

theorem list_length {c : LruCache K V} {cache : EagerLru K V}
    (represents : Represents c cache) :
    c.list.length = cache.entries.length := by
  have lengths := congrArg List.length represents.view_eq
  simpa [view, (replay_perm _ _ c.list).length_eq] using lengths

theorem forget_pair (key : K) (list : List (LruNode K V)) :
    forget Prod.fst key (list.map pair) =
      (forget LruNode.key key list).map pair :=
  forget_map LruNode.key pair Prod.fst (fun _ => rfl) key list

theorem forget_eagerPair (key : K) (entries : List (LruEntry K V)) :
    forget Prod.fst key (entries.map eagerPair) =
      (forget LruEntry.key key entries).map eagerPair :=
  forget_map LruEntry.key eagerPair Prod.fst (fun _ => rfl) key entries

theorem used_eagerPair (cache : EagerLru K V) (key : K) (value : V) :
    (cache.used key value).map eagerPair =
      (key, value) :: forget Prod.fst key
        (cache.entries.map eagerPair) := by
  rw [forget_eagerPair]
  rfl

/-- Logging an access is a use in the replayed list. -/
theorem logAccess_view (c : LruCache K V) (key : K) :
    (c.logAccess key).view =
      (touch LruNode.key key
        (replay LruNode.key c.pendingPromotions c.list)).map pair := by
  have logged : replay LruNode.key (c.pendingPromotions ++ [key]) c.list =
      touch LruNode.key key
        (replay LruNode.key c.pendingPromotions c.list) := by
    rw [replay_append]
    rfl
  unfold logAccess
  split
  · next last =>
      rw [view, ← logged, replay_append_getLast _ last]
  · rw [view, logged]

/-- A logged access to a cached key is an access of the eager cache. -/
theorem logAccess_represents {c : LruCache K V} {cache : EagerLru K V}
    (represents : Represents c cache) {key : K} {value : V}
    (found : cache.find key = some value) :
    Represents (c.logAccess key) (cache.access key) := by
  have inView : (key, value) ∈ c.view := by
    rw [represents.view_eq]
    exact (find_eq_some_iff cache key value).mp found
  obtain ⟨node, member, rfl, rfl⟩ := (mem_view_iff c key value).mp inView
  have onlyNode : only LruNode.key node.key
      (replay LruNode.key c.pendingPromotions c.list) = [node] := by
    rw [only_replay]
    exact only_of_mem LruNode.key represents.coherent.keys member
  have accessed : (cache.access node.key).entries =
      cache.used node.key node.value := by
    unfold EagerLru.access
    split
    · next missing => simp [missing] at found
    · next other search =>
        exact congrArg (cache.used node.key)
          (Option.some.inj (search.symm.trans found))
  have kept : (cache.access node.key).capacity = cache.capacity := by
    unfold EagerLru.access
    split <;> rfl
  refine ⟨logAccess_coherent represents.coherent _, ?_, ?_⟩
  · rw [kept, ← represents.capacity_eq, logAccess]
    split <;> rfl
  · rw [accessed, used_eagerPair, ← represents.view_eq, logAccess_view, touch,
      onlyNode, view, forget_pair]
    rfl

theorem access_of_find_none {cache : EagerLru K V} {key : K}
    (missing : cache.find key = none) : cache.access key = cache := by
  unfold EagerLru.access
  split
  · rfl
  · next value search => simp [missing] at search

theorem tryGet_represents {c : LruCache K V} {cache : EagerLru K V}
    (represents : Represents c cache) (key : K) :
    Represents (c.tryGet key).2 (cache.access key) := by
  have answer := lookup_eq_find represents key
  have present := lookup_isSome represents.coherent key
  cases found : c.map.lookup key with
  | none =>
      have missing : cache.find key = none := by
        rw [← answer]
        simp [lookup, found]
      rw [access_of_find_none missing]
      simpa [tryGet, found] using represents
  | some it =>
      have isSome : (cache.find key).isSome := by
        rw [← answer, present]
        simp [exist, found]
      obtain ⟨value, cached⟩ := Option.isSome_iff_exists.mp isSome
      simpa [tryGet, found] using logAccess_represents represents cached

theorem erase_represents {c : LruCache K V} {cache : EagerLru K V}
    (represents : Represents c cache) (key : K) :
    Represents (c.erase key) (cache.erase key) := by
  have coherent := represents.coherent
  cases found : c.map.lookup key with
  | none =>
      have absent : key ∉ cache.entries.map LruEntry.key := by
        rw [mem_map_key_iff, not_exists]
        intro value
        rw [← find_eq_some_iff, ← lookup_eq_find represents]
        simp [lookup, found]
      have unchanged : (cache.erase key).entries = cache.entries :=
        forget_of_not_mem _ absent
      have idle : c.erase key = c := by simp [erase, found]
      rw [idle]
      exact ⟨coherent, represents.capacity_eq,
        unchanged ▸ represents.view_eq⟩
  | some it =>
      have byKey : forget LruNode.address it c.list =
          forget LruNode.key key c.list :=
        (forget_congr LruNode.key LruNode.address
          (address_eq_iff coherent found)).symm
      have erased : c.erase key =
          { c with
            list := forget LruNode.key key c.list
            map := c.map.erase key
            pendingPromotions :=
              c.pendingPromotions.filter (· ≠ key) } := by
        simp [erase, found, purgePending, byKey]
      rw [erased]
      refine ⟨coherent.remove key _, represents.capacity_eq, ?_⟩
      calc
        (replay LruNode.key (c.pendingPromotions.filter (· ≠ key))
              (forget LruNode.key key c.list)).map pair =
            (forget LruNode.key key
              (replay LruNode.key c.pendingPromotions c.list)).map pair := by
          rw [forget_replay]
        _ = forget Prod.fst key c.view := by rw [view, forget_pair]
        _ = (cache.erase key).entries.map eagerPair := by
          rw [represents.view_eq, forget_eagerPair]
          rfl

/-- After `put` stored the node, replayed the log and moved the node, the list
is the eager list after a use of the key. -/
theorem refresh_spec {c : LruCache K V} {cache : EagerLru K V}
    (represents : Represents c cache) (key : K) (value : V) :
    (c.refresh key value).Coherent ∧
      (c.refresh key value).capacity = cache.capacity ∧
      (c.refresh key value).pendingPromotions = [] ∧
      (c.refresh key value).list.map pair =
        (cache.used key value).map eagerPair := by
  have spec := store_spec represents.coherent key value
  let stored := (c.store key value).2
  have promotedCoherent : stored.promoteUnLocked.Coherent :=
    promoteUnLocked_coherent spec.coherent
  have splits : (c.refresh key value).list =
      touch LruNode.key key stored.promoteUnLocked.list :=
    splice_eq_touch promotedCoherent spec.lookup
  have list : (c.refresh key value).list =
      ⟨(c.store key value).1, key, value⟩ ::
        forget LruNode.key key
          (replay LruNode.key c.pendingPromotions c.list) := by
    rw [splits, promoteUnLocked_list spec.coherent, touch_replay, spec.only,
      spec.others, spec.pending, forget_replay, List.singleton_append]
  refine ⟨?_, spec.capacity.trans represents.capacity_eq, rfl, ?_⟩
  · have reordered : (c.refresh key value).list.Perm
        stored.promoteUnLocked.list :=
      splits ▸ touch_perm LruNode.key key _
    exact promotedCoherent.of_perm reordered []
  · rw [list, List.map_cons, ← forget_pair, used_eagerPair,
      ← represents.view_eq]
    rfl

theorem put_represents {c : LruCache K V} {cache : EagerLru K V}
    (represents : Represents c cache) (key : K) (value : V) :
    ∃ after, c.put key value = some after ∧
      Represents after (cache.put key value) := by
  obtain ⟨coherent, capacity, pending, list⟩ :=
    refresh_spec represents key value
  have length := congrArg List.length list
  rw [List.length_map, List.length_map] at length
  unfold put
  generalize c.refresh key value = moved at *
  simp only
  rw [size_eq_length coherent, capacity, length]
  by_cases full : (cache.used key value).length > cache.capacity
  · have nonempty : moved.list ≠ [] := by
      intro isEmpty
      rw [isEmpty] at length
      simp [EagerLru.used] at length
    obtain ⟨after, succeeds, afterCoherent, afterList, afterCapacity,
      afterPending⟩ := eliminateUnLocked_spec coherent nonempty
    rw [if_pos full]
    refine ⟨after, succeeds, afterCoherent, afterCapacity.trans capacity, ?_⟩
    rw [view, afterPending, pending, replay_nil, afterList,
      List.map_dropLast, list, ← List.map_dropLast]
    simp only [EagerLru.put, if_pos full]
  · rw [if_neg full]
    refine ⟨moved, rfl, coherent, capacity, ?_⟩
    rw [view, pending, replay_nil, list]
    simp only [EagerLru.put, if_neg full]

/-- `put` leaves the list in the order of use. -/
theorem put_pendingPromotions {c after : LruCache K V} {key : K} {value : V}
    (succeeds : c.put key value = some after) :
    after.pendingPromotions = [] := by
  have fresh : (c.refresh key value).pendingPromotions = [] := rfl
  unfold put at succeeds
  dsimp only at succeeds
  split at succeeds
  · unfold eliminateUnLocked at succeeds
    split at succeeds
    · cases succeeds
    · dsimp only at succeeds
      split at succeeds
      · cases succeeds
        exact fresh
      · cases succeeds
  · cases succeeds
    exact fresh

theorem promote_represents {c : LruCache K V} {cache : EagerLru K V}
    (represents : Represents c cache) :
    Represents c.promote cache where
  coherent := promoteUnLocked_coherent represents.coherent
  capacity_eq := represents.capacity_eq
  view_eq := by
    rw [← represents.view_eq, view, promote,
      promoteUnLocked_list represents.coherent]
    rfl

/-- The list is the order of use when it was last put in order. -/
structure Settles (c : LruCache K V) (settled : SettledLru K V) : Prop where
  represents : Represents c settled.cache
  list_eq : c.list.map LruNode.key = settled.settled

/-- Where nothing is logged the list is in the order of use. -/
theorem Represents.settles {c : LruCache K V} {cache : EagerLru K V}
    (represents : Represents c cache) (replayed : c.pendingPromotions = []) :
    Settles c (.settle cache) where
  represents := represents
  list_eq := by
    have keys := congrArg (List.map Prod.fst) represents.view_eq
    rw [view, replayed, replay_nil, List.map_map, List.map_map] at keys
    exact keys

theorem logAccess_list (c : LruCache K V) (key : K) :
    (c.logAccess key).list = c.list := by
  unfold logAccess
  split <;> rfl

theorem tryGet_list (c : LruCache K V) (key : K) :
    (c.tryGet key).2.list = c.list := by
  unfold tryGet
  split
  · rfl
  · exact logAccess_list c key

theorem erase_list_keys {c : LruCache K V} (coherent : c.Coherent) (key : K) :
    (c.erase key).list.map LruNode.key =
      (c.list.map LruNode.key).filter (· ≠ key) := by
  have kept : (forget LruNode.key key c.list).map LruNode.key =
      (c.list.map LruNode.key).filter (· ≠ key) := by
    simp [forget, List.filter_map, Function.comp_def]
  cases found : c.map.lookup key with
  | none =>
      have absent : key ∉ c.list.map LruNode.key := by
        rw [← mem_map_iff coherent]
        exact AList.lookup_eq_none.mp found
      have idle : c.erase key = c := by simp [erase, found]
      rw [idle, ← kept, forget_of_not_mem _ absent]
  | some it =>
      have byKey : forget LruNode.address it c.list =
          forget LruNode.key key c.list :=
        (forget_congr LruNode.key LruNode.address
          (address_eq_iff coherent found)).symm
      simp only [erase, found, purgePending, byKey]
      exact kept

theorem tail_settles {c : LruCache K V} {settled : SettledLru K V}
    (settles : Settles c settled) :
    c.tail.1 = settled.last ∧ Settles c.tail.2 settled.accessLast := by
  have represents := settles.represents
  have lastKey : settled.settled.getLast? =
      c.list.getLast?.map LruNode.key := by
    rw [← settles.list_eq, List.getLast?_map]
  unfold tail SettledLru.last SettledLru.accessLast
  rw [lastKey]
  cases search : c.list.getLast? with
  | none => exact ⟨rfl, settles⟩
  | some node =>
      have member : node ∈ c.list := List.mem_of_getLast? search
      have found : settled.cache.find node.key = some node.value := by
        rw [find_eq_some_iff, ← represents.view_eq, mem_view_iff]
        exact ⟨node, member, rfl, rfl⟩
      refine ⟨?_, logAccess_represents represents found, ?_⟩
      · simp [found]
      · rw [logAccess_list]
        exact settles.list_eq

/-- One operation is one operation of the settled cache, with the same reply and
without a failing assertion. -/
theorem call_settles {c : LruCache K V} {settled : SettledLru K V}
    (settles : Settles c settled) (next : Call K V) :
    ∃ after, c.call next = some ((settledCall settled next).1, after) ∧
      Settles after (settledCall settled next).2 := by
  have represents := settles.represents
  have coherent := represents.coherent
  cases next with
  | put key value =>
      obtain ⟨after, succeeds, represented⟩ :=
        put_represents represents key value
      exact ⟨after, by simp [call, succeeds, settledCall],
        represented.settles (put_pendingPromotions succeeds)⟩
  | tryGet key =>
      refine ⟨(c.tryGet key).2, ?_, tryGet_represents represents key, ?_⟩
      · rw [call, tryGet_fst, lookup_eq_find represents, settledCall]
      · rw [tryGet_list]
        exact settles.list_eq
  | exist key =>
      refine ⟨c, ?_, settles⟩
      rw [call, ← lookup_isSome coherent, lookup_eq_find represents,
        settledCall]
  | erase key =>
      refine ⟨c.erase key, rfl, erase_represents represents key, ?_⟩
      rw [erase_list_keys coherent, settles.list_eq]
      rfl
  | clear =>
      have cleared : Represents c.clear settled.cache.clear :=
        ⟨clear_coherent c, represents.capacity_eq,
          by simp [view, clear, EagerLru.clear]⟩
      exact ⟨c.clear, rfl, cleared.settles rfl⟩
  | promote =>
      exact ⟨c.promote, rfl, (promote_represents represents).settles rfl⟩
  | size =>
      refine ⟨c, ?_, settles⟩
      rw [call, size_eq_length coherent, list_length represents, settledCall]
  | tail =>
      obtain ⟨same, after⟩ := tail_settles settles
      exact ⟨c.tail.2, by rw [call, same, settledCall], after⟩

theorem run_settles {c : LruCache K V} {settled : SettledLru K V}
    (settles : Settles c settled) (calls : List (Call K V)) :
    ∃ after, c.run calls = some ((settledRun settled calls).1, after) ∧
      Settles after (settledRun settled calls).2 := by
  induction calls generalizing c settled with
  | nil => exact ⟨c, rfl, settles⟩
  | cons next calls ih =>
      obtain ⟨middle, called, stepped⟩ := call_settles settles next
      obtain ⟨after, ran, ended⟩ := ih stepped
      exact ⟨after, by simp [run, called, ran, settledRun], ended⟩

/-- A sequential run on a cache of any capacity never fails an assertion and
is a run of the settled cache with the same replies and the same contents,
which without `tail` is one of the textbook cache; what its next insertion
evicts is the least recently used key. -/
theorem run_new_refines_settled (capacity : Nat) (calls : List (Call K V)) :
    ∃ replies c settled,
      (new capacity : LruCache K V).run calls = some (replies, c) ∧
      settledRun (SettledLru.empty capacity) calls = (replies, settled) ∧
      (.tail ∉ calls → eagerRun (EagerLru.empty capacity) calls =
        (replies, settled.cache)) ∧
      (∀ key, c.lookup key = settled.cache.find key) ∧
      c.size = settled.cache.entries.length ∧
      ∀ key value, ∃ after, c.put key value = some after ∧
        ∀ victim,
          victim = key ∨ c.exist victim = true →
          after.exist victim = false →
          ∃ entry ∈ settled.cache.used key value, entry.key = victim ∧
            ∀ other ∈ (settled.cache.put key value).entries,
              entry.used < other.used := by
  have fresh : Settles (new capacity : LruCache K V)
      (SettledLru.empty capacity) :=
    ⟨⟨new_coherent capacity, rfl, rfl⟩, rfl⟩
  obtain ⟨c, ran, settles⟩ := run_settles fresh calls
  have represents := settles.represents
  refine ⟨_, c, _, ran, rfl, ?_, lookup_eq_find represents, ?_, ?_⟩
  · intro noTail
    obtain ⟨replies, cache⟩ :=
      settledRun_eq_eagerRun (SettledLru.empty capacity) noTail
    exact Prod.ext replies.symm cache.symm
  · rw [size_eq_length represents.coherent, list_length represents]
  intro key value
  obtain ⟨after, succeeds, represented⟩ := put_represents represents key value
  refine ⟨after, succeeds, ?_⟩
  intro victim before gone
  have cached_iff {c : LruCache K V} {cache : EagerLru K V}
      (represents : Represents c cache) :
      victim ∈ cache.entries.map LruEntry.key ↔ c.exist victim = true := by
    rw [mem_map_key_iff, ← lookup_isSome represents.coherent,
      lookup_eq_find represents, Option.isSome_iff_exists]
    simp only [find_eq_some_iff]
  apply EagerLru.evicts_leastRecentlyUsed
  refine ⟨before.imp_right (cached_iff represents).mpr, ?_⟩
  rw [cached_iff represented, gone]
  exact Bool.false_ne_true

/-- The key 1 was used behind the key 2, but `tail` gives 1: the log has not
been replayed. -/
theorem not_run_new_refines_eager :
    ¬ ∀ (capacity : Nat) (calls : List (Call Nat Nat)),
      ∃ replies c cache,
        (new capacity : LruCache Nat Nat).run calls = some (replies, c) ∧
        eagerRun (EagerLru.empty capacity) calls = (replies, cache) := by
  intro always
  obtain ⟨replies, c, cache, ran, eager⟩ :=
    always 2 [.put 1 1, .put 2 2, .tryGet 1, .tail]
  have code : ((new 2 : LruCache Nat Nat).run
      [.put 1 1, .put 2 2, .tryGet 1, .tail]).map Prod.fst =
        some [.done, .done, .found (some 1), .last (some (1, 1))] := by
    decide
  have textbook : (eagerRun (EagerLru.empty 2 : EagerLru Nat Nat)
      [.put 1 1, .put 2 2, .tryGet 1, .tail]).1 =
        [.done, .done, .found (some 1), .last (some (2, 2))] := by
    decide
  rw [ran, Option.map_some] at code
  rw [eager] at textbook
  cases code.symm.trans (congrArg some textbook)

end LruCache

end KitMuduo
