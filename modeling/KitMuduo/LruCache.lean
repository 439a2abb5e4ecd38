import KitMuduo.RecencyList
import Mathlib.Data.List.AList

/-!
# The cache with deferred promotion

`LruCache` stores its nodes in a linked list and finds them through a map from
keys to list iterators.  A successful access does not reorder the list: it
only logs the key, and the log is replayed by the next `put` or `promote`.
An iterator is the address of its node here, so that a dangling iterator, or
one that points to the node of another key, could be represented.
-/

namespace KitMuduo

open RecencyList

/-- A list node; its address is what an iterator to it stores. -/
structure LruNode (K V : Type*) where
  address : Nat
  key : K
  value : V
  deriving DecidableEq

namespace LruNode

variable {K V : Type*}

/-- `it->second->second = value` on the node `it` points to. -/
def assign (it : Nat) (value : V) (node : LruNode K V) : LruNode K V :=
  if node.address = it then { node with value := value } else node

@[simp]
theorem assign_key (it : Nat) (value : V) (node : LruNode K V) :
    (assign it value node).key = node.key := by
  unfold assign
  split <;> rfl

@[simp]
theorem assign_address (it : Nat) (value : V) (node : LruNode K V) :
    (assign it value node).address = node.address := by
  unfold assign
  split <;> rfl

end LruNode

/-- The fields of `class LruCache`.  `nextAddress` stands for the allocator. -/
structure LruCache (K V : Type*) [DecidableEq K] where
  capacity : Nat
  map : AList fun _ : K => Nat
  list : List (LruNode K V)
  pendingPromotions : List K
  nextAddress : Nat

namespace LruCache

variable {K V : Type*} [DecidableEq K]

def new (capacity : Nat) : LruCache K V where
  capacity := capacity
  map := ∅
  list := []
  pendingPromotions := []
  nextAddress := 0

/-- `map_.size()`. -/
def size (c : LruCache K V) : Nat :=
  c.map.entries.length

/-- The node an iterator points to. -/
def nodeAt (c : LruCache K V) (it : Nat) : Option (LruNode K V) :=
  c.list.find? fun node => node.address = it

/-- `list_.splice(list_.begin(), list_, it)`. -/
def splice (it : Nat) (list : List (LruNode K V)) : List (LruNode K V) :=
  touch LruNode.address it list

/-- Log an access unless the same key was logged last. -/
def logAccess (c : LruCache K V) (key : K) : LruCache K V :=
  if c.pendingPromotions.getLast? = some key then
    c
  else
    { c with pendingPromotions := c.pendingPromotions ++ [key] }

def promoteUnLocked (c : LruCache K V) : LruCache K V :=
  { c with
    pendingPromotions := []
    list := c.pendingPromotions.foldl
      (fun list key =>
        match c.map.lookup key with
        | none => list
        | some it => splice it list)
      c.list }

/-- Remove the last node.  `none` is a failing assertion. -/
def eliminateUnLocked (c : LruCache K V) : Option (LruCache K V) :=
  match c.list.getLast? with
  | none => none
  | some node =>
      let after :=
        { c with map := c.map.erase node.key, list := c.list.dropLast }
      if node.key ∈ c.map ∧ after.size = after.list.length then
        some after
      else
        none

/-- The first step of `put`: update the node of the key or put a new one in
front.  Returns the iterator to the node. -/
def store (c : LruCache K V) (key : K) (value : V) : Nat × LruCache K V :=
  match c.map.lookup key with
  | some it =>
      (it, { c with list := c.list.map (LruNode.assign it value) })
  | none =>
      (c.nextAddress,
        { c with
          map := c.map.insert key c.nextAddress
          list := ⟨c.nextAddress, key, value⟩ :: c.list
          nextAddress := c.nextAddress + 1 })

/-- `put` up to the eviction: store, replay the log, move the node of the key
to the front. -/
def refresh (c : LruCache K V) (key : K) (value : V) : LruCache K V :=
  let (it, stored) := c.store key value
  let promoted := stored.promoteUnLocked
  { promoted with list := splice it promoted.list }

def put (c : LruCache K V) (key : K) (value : V) : Option (LruCache K V) :=
  let moved := c.refresh key value
  if moved.size > moved.capacity then moved.eliminateUnLocked else some moved

def tryGet (c : LruCache K V) (key : K) : Option V × LruCache K V :=
  match c.map.lookup key with
  | none => (none, c)
  | some it => ((c.nodeAt it).map LruNode.value, c.logAccess key)

def exist (c : LruCache K V) (key : K) : Bool :=
  (c.map.lookup key).isSome

/-- The second section of `erase`: the key leaves the log. -/
def purgePending (c : LruCache K V) (key : K) : LruCache K V :=
  { c with pendingPromotions := c.pendingPromotions.filter (· ≠ key) }

def erase (c : LruCache K V) (key : K) : LruCache K V :=
  match c.map.lookup key with
  | none => c
  | some it =>
      { c with
        list := forget LruNode.address it c.list
        map := c.map.erase key }.purgePending key

/-- The first node; a read of the head is not logged. -/
def head (c : LruCache K V) : Option V :=
  c.list.head?.map LruNode.value

/-- The last node, whose key is logged.  The caller only receives the
value. -/
def tail (c : LruCache K V) : Option (K × V) × LruCache K V :=
  match c.list.getLast? with
  | none => (none, c)
  | some node => (some (node.key, node.value), c.logAccess node.key)

def clear (c : LruCache K V) : LruCache K V :=
  { c with list := [], map := ∅, pendingPromotions := [] }

def promote (c : LruCache K V) : LruCache K V :=
  c.promoteUnLocked

/-- The map and the list describe the same nodes. -/
structure Coherent (c : LruCache K V) : Prop where
  addresses : (c.list.map LruNode.address).Nodup
  keys : (c.list.map LruNode.key).Nodup
  fresh : ∀ node ∈ c.list, node.address < c.nextAddress
  map_iff : ∀ key it, c.map.lookup key = some it ↔
    ∃ node ∈ c.list, node.key = key ∧ node.address = it

/-- Reordering the list keeps the map right. -/
theorem Coherent.of_perm {c : LruCache K V} (coherent : c.Coherent)
    {list : List (LruNode K V)} (reordered : list.Perm c.list)
    (pending : List K) :
    { c with list := list, pendingPromotions := pending }.Coherent where
  addresses := (reordered.map _).nodup_iff.mpr coherent.addresses
  keys := (reordered.map _).nodup_iff.mpr coherent.keys
  fresh := fun node member => coherent.fresh node (reordered.subset member)
  map_iff := by
    intro key it
    rw [coherent.map_iff]
    simp only [reordered.mem_iff]

theorem mem_map_iff {c : LruCache K V} (coherent : c.Coherent) (key : K) :
    key ∈ c.map ↔ key ∈ c.list.map LruNode.key := by
  rw [← AList.lookup_isSome, Option.isSome_iff_exists, List.mem_map]
  constructor
  · rintro ⟨it, found⟩
    obtain ⟨node, member, same, _⟩ := (coherent.map_iff key it).mp found
    exact ⟨node, member, same⟩
  · rintro ⟨node, member, same⟩
    exact ⟨node.address,
      (coherent.map_iff key _).mpr ⟨node, member, same, rfl⟩⟩

/-- `map_.size() == list_.size()`. -/
theorem size_eq_length {c : LruCache K V} (coherent : c.Coherent) :
    c.size = c.list.length := by
  have sameKeys : c.map.keys.Perm (c.list.map LruNode.key) := by
    rw [List.perm_ext_iff_of_nodup c.map.keys_nodup coherent.keys]
    intro key
    exact mem_map_iff coherent key
  have lengths := sameKeys.length_eq
  simpa [AList.keys, List.keys, size] using lengths

/-- The node the map gives for a key is the node of that key. -/
theorem address_eq_iff {c : LruCache K V} (coherent : c.Coherent)
    {key : K} {it : Nat} (found : c.map.lookup key = some it) :
    ∀ node ∈ c.list, node.key = key ↔ node.address = it := by
  obtain ⟨target, targetMem, targetKey, targetAddress⟩ :=
    (coherent.map_iff key it).mp found
  intro node member
  constructor
  · intro same
    rw [List.inj_on_of_nodup_map coherent.keys member targetMem
      (same.trans targetKey.symm), targetAddress]
  · intro same
    rw [List.inj_on_of_nodup_map coherent.addresses member targetMem
      (same.trans targetAddress.symm), targetKey]

/-- Splicing the node of a key is a use of that key. -/
theorem splice_eq_touch {c : LruCache K V} (coherent : c.Coherent)
    {key : K} {it : Nat} (found : c.map.lookup key = some it) :
    splice it c.list = touch LruNode.key key c.list :=
  (touch_congr LruNode.key LruNode.address
    (address_eq_iff coherent found)).symm

theorem touch_of_lookup_none {c : LruCache K V} (coherent : c.Coherent)
    {key : K} (absent : c.map.lookup key = none) :
    touch LruNode.key key c.list = c.list := by
  have notListed : key ∉ c.list.map LruNode.key := by
    rw [← mem_map_iff coherent]
    exact AList.lookup_eq_none.mp absent
  have none : only LruNode.key key c.list = [] := by
    simp only [only, List.filter_eq_nil_iff, decide_eq_true_eq]
    intro node member same
    exact notListed (same ▸ List.mem_map_of_mem member)
  rw [touch, none, forget_of_not_mem _ notListed, List.nil_append]

/-- `promoteUnLocked` replays the log. -/
theorem promoteUnLocked_list {c : LruCache K V} (coherent : c.Coherent) :
    c.promoteUnLocked.list =
      replay LruNode.key c.pendingPromotions c.list := by
  simp only [promoteUnLocked]
  generalize c.pendingPromotions = log
  induction log generalizing c with
  | nil => rfl
  | cons key log ih =>
      have step : (match c.map.lookup key with
          | none => c.list
          | some it => splice it c.list) = touch LruNode.key key c.list := by
        cases found : c.map.lookup key with
        | none => exact (touch_of_lookup_none coherent found).symm
        | some it => exact splice_eq_touch coherent found
      have used := ih (c := { c with
        list := touch LruNode.key key c.list
        pendingPromotions := [] })
        (coherent.of_perm (touch_perm _ key c.list) [])
      simp only [List.foldl_cons, replay_cons, step]
      exact used

theorem promoteUnLocked_coherent {c : LruCache K V}
    (coherent : c.Coherent) : c.promoteUnLocked.Coherent := by
  have reordered : c.promoteUnLocked.list.Perm c.list := by
    rw [promoteUnLocked_list coherent]
    exact replay_perm _ _ _
  exact coherent.of_perm reordered []

theorem new_coherent (capacity : Nat) :
    (new capacity : LruCache K V).Coherent where
  addresses := List.nodup_nil
  keys := List.nodup_nil
  fresh := by simp [new]
  map_iff := by simp [new]

theorem clear_coherent (c : LruCache K V) : c.clear.Coherent where
  addresses := List.nodup_nil
  keys := List.nodup_nil
  fresh := by simp [clear]
  map_iff := by simp [clear]

theorem logAccess_coherent {c : LruCache K V} (coherent : c.Coherent)
    (key : K) : (c.logAccess key).Coherent := by
  unfold logAccess
  split
  · exact coherent
  · exact coherent.of_perm (List.Perm.refl _) _

/-- Removing the node of a key from the list and from the map. -/
theorem Coherent.remove {c : LruCache K V} (coherent : c.Coherent) (key : K)
    (pending : List K) :
    { c with
      list := forget LruNode.key key c.list
      map := c.map.erase key
      pendingPromotions := pending }.Coherent where
  addresses := coherent.addresses.sublist (List.filter_sublist.map _)
  keys := coherent.keys.sublist (List.filter_sublist.map _)
  fresh := fun node member =>
    coherent.fresh node (List.mem_of_mem_filter member)
  map_iff := by
    intro other it
    by_cases same : other = key
    · subst other
      simp only [AList.lookup_erase, reduceCtorEq, false_iff, not_exists,
        not_and]
      intro node member nodeKey
      simp [forget, nodeKey] at member
    · rw [AList.lookup_erase_ne same, coherent.map_iff]
      constructor
      · rintro ⟨node, member, nodeKey, address⟩
        exact ⟨node, List.mem_filter.mpr ⟨member, by simpa [nodeKey]⟩,
          nodeKey, address⟩
      · rintro ⟨node, member, nodeKey, address⟩
        exact ⟨node, List.mem_of_mem_filter member, nodeKey, address⟩

/-- What `store` guarantees: the node of the key holds the new value, and the
other nodes are untouched. -/
structure Stored (c : LruCache K V) (key : K) (value : V) (it : Nat)
    (stored : LruCache K V) : Prop where
  coherent : stored.Coherent
  lookup : stored.map.lookup key = some it
  capacity : stored.capacity = c.capacity
  pending : stored.pendingPromotions = c.pendingPromotions
  only : only LruNode.key key stored.list = [⟨it, key, value⟩]
  others : forget LruNode.key key stored.list =
    forget LruNode.key key c.list

theorem store_existing {c : LruCache K V} (coherent : c.Coherent) {key : K}
    {it : Nat} (found : c.map.lookup key = some it) (value : V) :
    Stored c key value it
      { c with list := c.list.map (LruNode.assign it value) } where
  coherent :=
    { addresses := by
        simpa [Function.comp_def] using coherent.addresses
      keys := by
        simpa [Function.comp_def] using coherent.keys
      fresh := by
        intro node member
        obtain ⟨old, oldMem, rfl⟩ := List.mem_map.mp member
        simpa using coherent.fresh old oldMem
      map_iff := by
        intro other address
        rw [coherent.map_iff]
        simp only [List.mem_map, exists_exists_and_eq_and,
          LruNode.assign_key, LruNode.assign_address] }
  lookup := found
  capacity := rfl
  pending := rfl
  only := by
    obtain ⟨node, member, nodeKey, nodeAddress⟩ :=
      (coherent.map_iff key it).mp found
    have onlyNode := only_of_mem LruNode.key coherent.keys member
    have assigned : LruNode.assign it value node = ⟨it, key, value⟩ := by
      simp [LruNode.assign, nodeAddress, nodeKey]
    have mapped : RecencyList.only LruNode.key key
          (c.list.map (LruNode.assign it value)) =
        (RecencyList.only LruNode.key key c.list).map (LruNode.assign it value) := by
      simp [RecencyList.only, List.filter_map, Function.comp_def]
    rw [nodeKey] at onlyNode
    rw [mapped, onlyNode, List.map_singleton, assigned]
  others := by
    have unchanged : ∀ node ∈ forget LruNode.key key c.list,
        LruNode.assign it value node = node := by
      intro node member
      have otherKey : node.key ≠ key := by
        simpa [forget] using (List.mem_filter.mp member).2
      have otherAddress : node.address ≠ it := by
        intro equal
        exact otherKey ((address_eq_iff coherent found node
          (List.mem_of_mem_filter member)).mpr equal)
      simp [LruNode.assign, otherAddress]
    rw [forget_map LruNode.key _ LruNode.key (LruNode.assign_key it value),
      List.map_congr_left unchanged, List.map_id']

theorem store_fresh {c : LruCache K V} (coherent : c.Coherent) {key : K}
    (absent : c.map.lookup key = none) (value : V) :
    Stored c key value c.nextAddress
      { c with
        map := c.map.insert key c.nextAddress
        list := ⟨c.nextAddress, key, value⟩ :: c.list
        nextAddress := c.nextAddress + 1 } := by
  have notListed : key ∉ c.list.map LruNode.key := by
    rw [← mem_map_iff coherent]
    exact AList.lookup_eq_none.mp absent
  have unused : c.nextAddress ∉ c.list.map LruNode.address := by
    intro member
    obtain ⟨node, nodeMem, same⟩ := List.mem_map.mp member
    exact Nat.lt_irrefl _ (same ▸ coherent.fresh node nodeMem)
  have none : only LruNode.key key c.list = [] := by
    simp only [only, List.filter_eq_nil_iff, decide_eq_true_eq]
    intro node member same
    exact notListed (same ▸ List.mem_map_of_mem member)
  refine ⟨⟨?_, ?_, ?_, ?_⟩, by simp, by simp, by simp, ?_, ?_⟩
  · exact List.nodup_cons.mpr ⟨unused, coherent.addresses⟩
  · exact List.nodup_cons.mpr ⟨notListed, coherent.keys⟩
  · intro node member
    rcases List.mem_cons.mp member with rfl | old
    · exact Nat.lt_succ_self _
    · exact Nat.lt_succ_of_lt (coherent.fresh node old)
  · intro other it
    by_cases same : other = key
    · subst other
      rw [AList.lookup_insert]
      constructor
      · intro equal
        exact ⟨⟨c.nextAddress, key, value⟩, List.mem_cons_self, rfl,
          Option.some.inj equal⟩
      · rintro ⟨node, member, nodeKey, address⟩
        rcases List.mem_cons.mp member with rfl | old
        · exact congrArg some address
        · exact absurd (nodeKey ▸ List.mem_map_of_mem old) notListed
    · rw [AList.lookup_insert_ne same, coherent.map_iff]
      constructor
      · rintro ⟨node, member, nodeKey, address⟩
        exact ⟨node, List.mem_cons_of_mem _ member, nodeKey, address⟩
      · rintro ⟨node, member, nodeKey, address⟩
        rcases List.mem_cons.mp member with rfl | old
        · exact absurd nodeKey.symm same
        · exact ⟨node, old, nodeKey, address⟩
  · simpa [only] using none
  · simp [forget]

theorem store_spec {c : LruCache K V} (coherent : c.Coherent) (key : K)
    (value : V) :
    Stored c key value (c.store key value).1 (c.store key value).2 := by
  cases found : c.map.lookup key with
  | some it => simpa only [store, found] using store_existing coherent found value
  | none => simpa only [store, found] using store_fresh coherent found value

/-- In a coherent cache the assertions of `eliminateUnLocked` hold and its
effect is to drop the last node. -/
theorem eliminateUnLocked_spec {c : LruCache K V} (coherent : c.Coherent)
    (nonempty : c.list ≠ []) :
    ∃ after, c.eliminateUnLocked = some after ∧ after.Coherent ∧
      after.list = c.list.dropLast ∧ after.capacity = c.capacity ∧
      after.pendingPromotions = c.pendingPromotions := by
  let last := c.list.getLast nonempty
  have lastMem : last ∈ c.list := List.getLast_mem nonempty
  have split : c.list.dropLast ++ [last] = c.list :=
    List.dropLast_append_getLast nonempty
  have others : forget LruNode.key last.key c.list = c.list.dropLast := by
    have distinct := coherent.keys
    rw [← split, List.map_append, List.nodup_append] at distinct
    have absent : last.key ∉ c.list.dropLast.map LruNode.key := by
      intro member
      exact distinct.2.2 _ member _ (by simp) rfl
    calc
      forget LruNode.key last.key c.list =
          forget LruNode.key last.key (c.list.dropLast ++ [last]) := by
        rw [split]
      _ = c.list.dropLast := by
        rw [forget_append, forget_of_not_mem _ absent]
        simp [forget]
  let after : LruCache K V :=
    { c with map := c.map.erase last.key, list := c.list.dropLast }
  have afterCoherent : after.Coherent := by
    have removed := coherent.remove last.key c.pendingPromotions
    rw [others] at removed
    exact removed
  have mapped : last.key ∈ c.map :=
    (mem_map_iff coherent _).mpr (List.mem_map_of_mem lastMem)
  refine ⟨after, ?_, afterCoherent, rfl, rfl, rfl⟩
  have search : c.list.getLast? = some last :=
    List.getLast?_eq_some_getLast nonempty
  simp only [eliminateUnLocked, search]
  rw [if_pos ⟨mapped, size_eq_length afterCoherent⟩]

end LruCache

end KitMuduo
