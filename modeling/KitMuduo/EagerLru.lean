import KitMuduo.RecencyList

/-!
# The textbook cache with least-recently-used eviction

The reference cache moves a key to the front at every insertion and at every
successful access, and evicts its last key when an insertion exceeds the
capacity.  Every entry remembers the moment of its last use, so that the order
of the list can be shown to be the order of use: whatever is evicted was used
before everything that stays.

A cache that puts its entries in order only now and then has the same entries,
but what it takes for its last key is the last one of the order it had then.
-/

open RecencyList

/-- A cached key and value with the moment of the last use. -/
structure LruEntry (κ ν : Type*) where
  key : κ
  value : ν
  used : Nat

/-- A cache whose entries are kept most recently used first. -/
structure EagerLru (κ ν : Type*) where
  capacity : Nat
  clock : Nat
  entries : List (LruEntry κ ν)
  distinct : (entries.map LruEntry.key).Nodup
  recent : entries.Pairwise fun front back => back.used < front.used
  past : ∀ entry ∈ entries, entry.used < clock
  bounded : entries.length ≤ capacity

namespace EagerLru

variable {κ ν : Type*} [DecidableEq κ]

def empty (capacity : Nat) : EagerLru κ ν where
  capacity := capacity
  clock := 0
  entries := []
  distinct := List.nodup_nil
  recent := List.Pairwise.nil
  past := by simp
  bounded := Nat.zero_le _

def find (cache : EagerLru κ ν) (key : κ) : Option ν :=
  (cache.entries.find? fun entry => entry.key = key).map LruEntry.value

/-- The entries after a use of `key`, before any eviction. -/
def used (cache : EagerLru κ ν) (key : κ) (value : ν) :
    List (LruEntry κ ν) :=
  ⟨key, value, cache.clock⟩ :: forget LruEntry.key key cache.entries

theorem used_distinct (cache : EagerLru κ ν) (key : κ) (value : ν) :
    ((cache.used key value).map LruEntry.key).Nodup := by
  simp only [used, List.map_cons, List.nodup_cons]
  constructor
  · simp [forget]
  · exact cache.distinct.sublist (List.filter_sublist.map _)

theorem used_recent (cache : EagerLru κ ν) (key : κ) (value : ν) :
    (cache.used key value).Pairwise
      fun front back => back.used < front.used := by
  refine List.Pairwise.cons ?_ (cache.recent.sublist List.filter_sublist)
  intro entry member
  exact cache.past entry (List.mem_of_mem_filter member)

theorem used_past (cache : EagerLru κ ν) (key : κ) (value : ν) :
    ∀ entry ∈ cache.used key value, entry.used < cache.clock + 1 := by
  intro entry member
  rcases List.mem_cons.mp member with rfl | old
  · exact Nat.lt_succ_self _
  · exact Nat.lt_succ_of_lt (cache.past entry (List.mem_of_mem_filter old))

/-- Using a cached key keeps the number of entries. -/
theorem used_length {cache : EagerLru κ ν} {key : κ} (value : ν)
    (cached : key ∈ cache.entries.map LruEntry.key) :
    (cache.used key value).length = cache.entries.length := by
  obtain ⟨entry, member, rfl⟩ := List.mem_map.mp cached
  have moved := (touch_perm LruEntry.key entry.key cache.entries).length_eq
  rw [touch, only_of_mem LruEntry.key cache.distinct member] at moved
  simpa [used] using moved

theorem mem_keys_of_find {cache : EagerLru κ ν} {key : κ} {value : ν}
    (found : cache.find key = some value) :
    key ∈ cache.entries.map LruEntry.key := by
  obtain ⟨entry, search, _⟩ := Option.map_eq_some_iff.mp found
  have same := List.find?_some search
  have member := List.mem_of_find?_eq_some search
  rw [← of_decide_eq_true same]
  exact List.mem_map_of_mem member

/-- A successful access moves the key to the front. -/
def access (cache : EagerLru κ ν) (key : κ) : EagerLru κ ν :=
  match found : cache.find key with
  | none => cache
  | some value =>
      { cache with
        clock := cache.clock + 1
        entries := cache.used key value
        distinct := cache.used_distinct key value
        recent := cache.used_recent key value
        past := cache.used_past key value
        bounded := by
          rw [used_length value (mem_keys_of_find found)]
          exact cache.bounded }

/-- What an insertion keeps, in the order in which it was used. -/
theorem put_sublist (cache : EagerLru κ ν) (key : κ) (value : ν) :
    (if cache.capacity < (cache.used key value).length then
      (cache.used key value).dropLast
    else
      cache.used key value).Sublist (cache.used key value) := by
  split
  · exact List.dropLast_sublist _
  · exact List.Sublist.refl _

theorem put_bounded (cache : EagerLru κ ν) (key : κ) (value : ν) :
    (if cache.capacity < (cache.used key value).length then
      (cache.used key value).dropLast
    else
      cache.used key value).length ≤ cache.capacity := by
  have kept : (forget LruEntry.key key cache.entries).length ≤
      cache.entries.length := List.length_filter_le ..
  have := cache.bounded
  split
  · simp only [used, List.length_dropLast, List.length_cons] at *
    omega
  · omega

/-- An insertion moves the key to the front and, when that exceeds the
capacity, evicts the last entry. -/
def put (cache : EagerLru κ ν) (key : κ) (value : ν) : EagerLru κ ν where
  capacity := cache.capacity
  clock := cache.clock + 1
  entries :=
    if cache.capacity < (cache.used key value).length then
      (cache.used key value).dropLast
    else
      cache.used key value
  distinct :=
    (cache.used_distinct key value).sublist
      ((cache.put_sublist key value).map _)
  recent := (cache.used_recent key value).sublist (cache.put_sublist key value)
  past := fun entry member =>
    cache.used_past key value entry
      ((cache.put_sublist key value).subset member)
  bounded := cache.put_bounded key value

def erase (cache : EagerLru κ ν) (key : κ) : EagerLru κ ν where
  capacity := cache.capacity
  clock := cache.clock
  entries := forget LruEntry.key key cache.entries
  distinct := cache.distinct.sublist (List.filter_sublist.map _)
  recent := cache.recent.sublist List.filter_sublist
  past := fun entry member =>
    cache.past entry (List.mem_of_mem_filter member)
  bounded := Nat.le_trans (List.length_filter_le ..) cache.bounded

def clear (cache : EagerLru κ ν) : EagerLru κ ν where
  capacity := cache.capacity
  clock := cache.clock
  entries := []
  distinct := List.nodup_nil
  recent := List.Pairwise.nil
  past := by simp
  bounded := Nat.zero_le _

/-- `victim` was evicted by the insertion of `key`. -/
def Evicts (cache : EagerLru κ ν) (key : κ) (value : ν) (victim : κ) : Prop :=
  (victim = key ∨ victim ∈ cache.entries.map LruEntry.key) ∧
    victim ∉ (cache.put key value).entries.map LruEntry.key

/-- The entry of an evicted key was last used before every entry that
stays. -/
theorem evicts_leastRecentlyUsed {cache : EagerLru κ ν} {key victim : κ}
    {value : ν} (evicted : cache.Evicts key value victim) :
    ∃ entry ∈ cache.used key value, entry.key = victim ∧
      ∀ other ∈ (cache.put key value).entries, entry.used < other.used := by
  obtain ⟨before, after⟩ := evicted
  have cached : victim ∈ (cache.used key value).map LruEntry.key := by
    rcases before with rfl | old
    · simp [used]
    · by_cases same : victim = key
      · simp [used, same]
      · obtain ⟨entry, member, rfl⟩ := List.mem_map.mp old
        simp only [used, List.map_cons, List.mem_cons, List.mem_map]
        exact Or.inr ⟨entry, List.mem_filter.mpr ⟨member, by simp [same]⟩, rfl⟩
  obtain ⟨entry, member, entryKey⟩ := List.mem_map.mp cached
  by_cases full : cache.capacity < (cache.used key value).length
  · simp only [put, if_pos full] at after ⊢
    have nonempty : cache.used key value ≠ [] := List.ne_nil_of_mem member
    have split := List.dropLast_append_getLast nonempty
    have isLast : entry = (cache.used key value).getLast nonempty := by
      rw [← split, List.mem_append] at member
      rcases member with kept | last
      · exact absurd (entryKey ▸ List.mem_map_of_mem kept) after
      · exact List.mem_singleton.mp last
    refine ⟨entry, isLast ▸ List.getLast_mem nonempty, entryKey, ?_⟩
    intro other stays
    have ordered := cache.used_recent key value
    rw [← split, List.pairwise_append] at ordered
    exact ordered.2.2 other stays entry (by simp [isLast])
  · simp only [put, if_neg full] at after
    exact absurd cached after

end EagerLru

/-- A cache with its keys in the order of use at some earlier moment. -/
structure SettledLru (κ ν : Type*) where
  cache : EagerLru κ ν
  settled : List κ

namespace SettledLru

variable {κ ν : Type*} [DecidableEq κ]

def empty (capacity : Nat) : SettledLru κ ν where
  cache := EagerLru.empty capacity
  settled := []

/-- The keys are put in the order of use. -/
def settle (cache : EagerLru κ ν) : SettledLru κ ν where
  cache := cache
  settled := cache.entries.map LruEntry.key

/-- An access that leaves the order as it was. -/
def access (c : SettledLru κ ν) (key : κ) : SettledLru κ ν :=
  { c with cache := c.cache.access key }

def erase (c : SettledLru κ ν) (key : κ) : SettledLru κ ν where
  cache := c.cache.erase key
  settled := c.settled.filter (· ≠ key)

/-- The last key with its value. -/
def last (c : SettledLru κ ν) : Option (κ × ν) :=
  c.settled.getLast?.bind fun key =>
    (c.cache.find key).map fun value => (key, value)

/-- Reading the last key is an access to it. -/
def accessLast (c : SettledLru κ ν) : SettledLru κ ν :=
  match c.settled.getLast? with
  | none => c
  | some key => c.access key

end SettledLru
