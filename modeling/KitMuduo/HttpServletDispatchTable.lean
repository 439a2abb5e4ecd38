import KitMuduo.HttpServletDispatch

/-!
# The invariant of the route table

Whatever calls were made, identifiers are unique and below the counter, routes
of one pattern never compete for a method, every bucket is inhabited by routes
of its own pattern, and the dynamic routes are ordered by identifier.
-/

namespace KitMuduo

namespace HttpServletDispatch

variable {S : Type*}

/-- All entries of the exact buckets. -/
def exactEntries (d : HttpServletDispatch S) : List (RouteEntry S) :=
  d.exactRoutes.entries.flatMap fun bucket => bucket.2

/-- All registered routes. -/
def routes (d : HttpServletDispatch S) : List (RouteEntry S) :=
  d.exactEntries ++ d.dynamicRoutes

/-- Conditions on a single entry of a table with the given counter. -/
structure EntryValid (engine : MatchEngine) (nextRouteId : Nat)
    (route : RouteEntry S) : Prop where
  id_pos : 0 < route.id
  id_lt : route.id < nextRouteId
  kind_eq : route.kind = routeKind route.pattern
  matcher : route.kind ≠ .Exact →
    route.matcher.isSome ∧
      route.matcher = createMatcher engine route.kind route.pattern
  servlet : route.servlet.isSome
  methods_ne : route.methods ≠ ExpectHttpMethods.None
  methods_subset : route.methods &&& ~~~ ExpectHttpMethods.All = 0

/-- The invariant, in the terms in which the operations access the table. -/
structure Valid (engine : MatchEngine) (d : HttpServletDispatch S) :
    Prop where
  next_pos : 0 < d.nextRouteId
  entry : ∀ route ∈ d.routes, EntryValid engine d.nextRouteId route
  bucket_ne : ∀ pattern bucket,
    d.exactRoutes.lookup pattern = some bucket → bucket ≠ []
  bucket_pattern : ∀ pattern bucket,
    d.exactRoutes.lookup pattern = some bucket →
      ∀ route ∈ bucket, route.pattern = pattern ∧ route.kind = .Exact
  bucket_increasing : ∀ pattern bucket,
    d.exactRoutes.lookup pattern = some bucket →
      bucket.Pairwise fun first second => first.id < second.id
  dynamic_kind : ∀ route ∈ d.dynamicRoutes, route.kind ≠ .Exact
  dynamic_increasing :
    d.dynamicRoutes.Pairwise fun first second => first.id < second.id
  id_inj : ∀ first ∈ d.routes, ∀ second ∈ d.routes,
    first.id = second.id → first = second
  disjoint : ∀ first ∈ d.routes, ∀ second ∈ d.routes,
    first.pattern = second.pattern → first.id ≠ second.id →
      first.methods &&& second.methods = 0

theorem mem_exactEntries_iff (d : HttpServletDispatch S)
    (route : RouteEntry S) :
    route ∈ d.exactEntries ↔ ∃ pattern bucket,
      d.exactRoutes.lookup pattern = some bucket ∧ route ∈ bucket := by
  rw [exactEntries, List.mem_flatMap]
  constructor
  · rintro ⟨⟨pattern, bucket⟩, entry, member⟩
    exact ⟨pattern, bucket, AList.mem_lookup_iff.mpr entry, member⟩
  · rintro ⟨pattern, bucket, found, member⟩
    exact ⟨⟨pattern, bucket⟩, AList.mem_lookup_iff.mp found, member⟩

theorem mem_routes_iff (d : HttpServletDispatch S) (route : RouteEntry S) :
    route ∈ d.routes ↔
      (∃ pattern bucket,
        d.exactRoutes.lookup pattern = some bucket ∧ route ∈ bucket) ∨
        route ∈ d.dynamicRoutes := by
  rw [routes, List.mem_append, mem_exactEntries_iff]

theorem new_valid (engine : MatchEngine) :
    (new : HttpServletDispatch S).Valid engine where
  next_pos := Nat.zero_lt_one
  entry := by simp [routes, exactEntries, new]
  bucket_ne := by simp [new]
  bucket_pattern := by simp [new]
  bucket_increasing := by simp [new]
  dynamic_kind := by simp [new]
  dynamic_increasing := List.Pairwise.nil
  id_inj := by simp [routes, exactEntries, new]
  disjoint := by simp [routes, exactEntries, new]

/-- A table obtained by erasing routes. -/
structure Subtable (smaller d : HttpServletDispatch S) : Prop where
  next : smaller.nextRouteId = d.nextRouteId
  bucket : ∀ pattern bucket,
    smaller.exactRoutes.lookup pattern = some bucket →
      bucket ≠ [] ∧ ∃ old,
        d.exactRoutes.lookup pattern = some old ∧ bucket.Sublist old
  dynamic : smaller.dynamicRoutes.Sublist d.dynamicRoutes

theorem Subtable.mem_routes {smaller d : HttpServletDispatch S}
    (subtable : Subtable smaller d) {route : RouteEntry S}
    (member : route ∈ smaller.routes) : route ∈ d.routes := by
  rw [mem_routes_iff] at member ⊢
  rcases member with ⟨pattern, bucket, found, inBucket⟩ | inDynamic
  · obtain ⟨_, old, foundOld, sublist⟩ := subtable.bucket pattern bucket found
    exact Or.inl ⟨pattern, old, foundOld, sublist.subset inBucket⟩
  · exact Or.inr (subtable.dynamic.subset inDynamic)

/-- Erasing routes keeps the invariant. -/
theorem Valid.of_subtable {engine : MatchEngine}
    {smaller d : HttpServletDispatch S} (valid : d.Valid engine)
    (subtable : Subtable smaller d) : smaller.Valid engine where
  next_pos := subtable.next ▸ valid.next_pos
  entry := fun route member =>
    subtable.next ▸ valid.entry route (subtable.mem_routes member)
  bucket_ne := fun pattern bucket found =>
    (subtable.bucket pattern bucket found).1
  bucket_pattern := by
    intro pattern bucket found route member
    obtain ⟨_, old, foundOld, sublist⟩ := subtable.bucket pattern bucket found
    exact valid.bucket_pattern pattern old foundOld route
      (sublist.subset member)
  bucket_increasing := by
    intro pattern bucket found
    obtain ⟨_, old, foundOld, sublist⟩ := subtable.bucket pattern bucket found
    exact (valid.bucket_increasing pattern old foundOld).sublist sublist
  dynamic_kind := fun route member =>
    valid.dynamic_kind route (subtable.dynamic.subset member)
  dynamic_increasing := valid.dynamic_increasing.sublist subtable.dynamic
  id_inj := fun first firstMem second secondMem =>
    valid.id_inj first (subtable.mem_routes firstMem)
      second (subtable.mem_routes secondMem)
  disjoint := fun first firstMem second secondMem =>
    valid.disjoint first (subtable.mem_routes firstMem)
      second (subtable.mem_routes secondMem)

theorem Subtable.refl {engine : MatchEngine} {d : HttpServletDispatch S}
    (valid : d.Valid engine) : Subtable d d where
  next := rfl
  bucket := fun pattern bucket found =>
    ⟨valid.bucket_ne pattern bucket found, bucket, found,
      List.Sublist.refl bucket⟩
  dynamic := List.Sublist.refl _

/-- Storing a shortened bucket erases routes only. -/
theorem storeBucket_subtable {engine : MatchEngine}
    {d : HttpServletDispatch S} (valid : d.Valid engine) {pattern : Bytes}
    {old shortened : List (RouteEntry S)}
    (found : d.exactRoutes.lookup pattern = some old)
    (sublist : shortened.Sublist old) :
    Subtable (d.storeBucket pattern shortened) d where
  next := rfl
  bucket := by
    intro other bucket foundAfter
    by_cases same : other = pattern
    · subst other
      by_cases isEmpty : shortened = []
      · simp [storeBucket, isEmpty] at foundAfter
      · simp only [storeBucket, if_neg isEmpty, AList.lookup_insert,
          Option.some.injEq] at foundAfter
        subst bucket
        exact ⟨isEmpty, old, found, sublist⟩
    · have unchanged : d.exactRoutes.lookup other = some bucket := by
        simp only [storeBucket] at foundAfter
        split at foundAfter
        · rwa [AList.lookup_erase_ne same] at foundAfter
        · rwa [AList.lookup_insert_ne same] at foundAfter
      exact (Subtable.refl valid).bucket other bucket unchanged
  dynamic := List.Sublist.refl _

theorem removeRouteById_subtable {engine : MatchEngine}
    {d : HttpServletDispatch S} (valid : d.Valid engine) (routeId : Nat) :
    Subtable (d.removeRouteById routeId).2 d := by
  simp only [removeRouteById]
  split
  · next bucket found =>
      have stored : d.exactRoutes.lookup bucket.1 = some bucket.2 :=
        AList.mem_lookup_iff.mpr (List.mem_of_find?_eq_some found)
      exact storeBucket_subtable valid stored List.eraseP_sublist
  · split
    · exact
        { next := rfl
          bucket := (Subtable.refl valid).bucket
          dynamic := List.eraseP_sublist }
    · exact Subtable.refl valid

theorem removeSelected_subtable {engine : MatchEngine}
    {d : HttpServletDispatch S} (valid : d.Valid engine) (pattern : Bytes)
    (selected : RouteEntry S → Bool) :
    Subtable (d.removeSelected pattern selected).2 d := by
  cases found : d.exactRoutes.lookup pattern with
  | none =>
      simp only [removeSelected, found]
      exact
        { next := rfl
          bucket := (Subtable.refl valid).bucket
          dynamic := List.filter_sublist }
  | some routes =>
      have stored := storeBucket_subtable valid found
        (List.filter_sublist (p := fun route => !selected route))
      simp only [removeSelected, found]
      exact
        { next := stored.next
          bucket := stored.bucket
          dynamic := List.filter_sublist }

/-- No conflict means that no route of the list shares a method. -/
theorem conflictMethods_eq_none_iff (routes : List (RouteEntry S))
    (methods : MethodMask) :
    conflictMethods routes methods = ExpectHttpMethods.None ↔
      ∀ route ∈ routes, route.methods &&& methods = 0 := by
  have general (start : MethodMask) :
      routes.foldl
          (fun conflict route => conflict ||| (route.methods &&& methods))
          start = 0#32 ↔
        start = 0#32 ∧
          ∀ route ∈ routes, route.methods &&& methods = 0#32 := by
    induction routes generalizing start with
    | nil => simp
    | cons route routes ih =>
        rw [List.foldl_cons, ih, BitVec.or_eq_zero_iff]
        simp [and_assoc]
  simpa [conflictMethods, ExpectHttpMethods.None] using general 0

/-- The table that results when `entry` joins it. -/
structure Extends (d : HttpServletDispatch S) (entry : RouteEntry S)
    (larger : HttpServletDispatch S) : Prop where
  next : larger.nextRouteId = d.nextRouteId + 1
  mem_routes : ∀ route, route ∈ larger.routes ↔
    route = entry ∨ route ∈ d.routes

/-- Adding an entry with the next identifier and no conflict keeps the
conditions that relate entries to each other. -/
theorem Extends.relations {engine : MatchEngine}
    {d larger : HttpServletDispatch S} {entry : RouteEntry S}
    (extends' : Extends d entry larger) (valid : d.Valid engine)
    (entryValid : EntryValid engine (d.nextRouteId + 1) entry)
    (fresh : entry.id = d.nextRouteId)
    (noConflict : ∀ route ∈ d.routes, route.pattern = entry.pattern →
      route.methods &&& entry.methods = 0) :
    (∀ route ∈ larger.routes,
        EntryValid engine larger.nextRouteId route) ∧
      (∀ first ∈ larger.routes, ∀ second ∈ larger.routes,
        first.id = second.id → first = second) ∧
      (∀ first ∈ larger.routes, ∀ second ∈ larger.routes,
        first.pattern = second.pattern → first.id ≠ second.id →
          first.methods &&& second.methods = 0) := by
  have older : ∀ route ∈ d.routes, route.id ≠ entry.id := by
    intro route member
    have := (valid.entry route member).id_lt
    omega
  refine ⟨?_, ?_, ?_⟩
  · intro route member
    rw [extends'.next]
    rcases (extends'.mem_routes route).mp member with rfl | old
    · exact entryValid
    · have oldValid := valid.entry route old
      exact { oldValid with id_lt := Nat.lt_succ_of_lt oldValid.id_lt }
  · intro first firstMem second secondMem sameId
    rcases (extends'.mem_routes first).mp firstMem with rfl | firstOld
    · rcases (extends'.mem_routes second).mp secondMem with rfl | secondOld
      · rfl
      · exact absurd sameId.symm (older second secondOld)
    · rcases (extends'.mem_routes second).mp secondMem with rfl | secondOld
      · exact absurd sameId (older first firstOld)
      · exact valid.id_inj first firstOld second secondOld sameId
  · intro first firstMem second secondMem samePattern different
    rcases (extends'.mem_routes first).mp firstMem with rfl | firstOld
    · rcases (extends'.mem_routes second).mp secondMem with rfl | secondOld
      · exact absurd rfl different
      · rw [BitVec.and_comm]
        exact noConflict second secondOld samePattern.symm
    · rcases (extends'.mem_routes second).mp secondMem with rfl | secondOld
      · exact noConflict first firstOld samePattern
      · exact valid.disjoint first firstOld second secondOld samePattern
          different

/-- Appending the newest entry keeps a list of routes ordered. -/
theorem increasing_append {routes : List (RouteEntry S)}
    {entry : RouteEntry S}
    (increasing : routes.Pairwise fun first second => first.id < second.id)
    (newest : ∀ route ∈ routes, route.id < entry.id) :
    (routes ++ [entry]).Pairwise
      fun first second => first.id < second.id := by
  rw [List.pairwise_append]
  refine ⟨increasing, List.pairwise_singleton _ _, ?_⟩
  intro route member other otherMem
  rw [List.mem_singleton.mp otherMem]
  exact newest route member

/-- The table with `entry` behind the bucket of its pattern, and the next
identifier. -/
def withExact (d : HttpServletDispatch S) (entry : RouteEntry S)
    (bucket : List (RouteEntry S)) : HttpServletDispatch S :=
  { d with
    exactRoutes := d.exactRoutes.insert entry.pattern (bucket ++ [entry])
    nextRouteId := d.nextRouteId + 1 }

theorem lookup_withExact_iff (d : HttpServletDispatch S) (entry : RouteEntry S)
    (bucket : List (RouteEntry S)) {pattern : Bytes}
    {stored : List (RouteEntry S)} :
    (d.withExact entry bucket).exactRoutes.lookup pattern = some stored ↔
      pattern = entry.pattern ∧ stored = bucket ++ [entry] ∨
        pattern ≠ entry.pattern ∧
          d.exactRoutes.lookup pattern = some stored := by
  by_cases same : pattern = entry.pattern
  · subst same
    simp [withExact, eq_comm]
  · simp [withExact, AList.lookup_insert_ne, same]

theorem mem_bucket_iff {d : HttpServletDispatch S} {pattern : Bytes}
    (route : RouteEntry S) :
    route ∈ (d.exactRoutes.lookup pattern).getD [] ↔
      ∃ old, d.exactRoutes.lookup pattern = some old ∧ route ∈ old := by
  cases d.exactRoutes.lookup pattern <;> simp

/-- All routes of an exact pattern are in its bucket. -/
theorem Valid.mem_bucket {engine : MatchEngine} {d : HttpServletDispatch S}
    (valid : d.Valid engine) {entry : RouteEntry S}
    (entryValid : EntryValid engine (d.nextRouteId + 1) entry)
    (exact_ : entry.kind = .Exact) {route : RouteEntry S}
    (member : route ∈ d.routes) (same : route.pattern = entry.pattern) :
    route ∈ (d.exactRoutes.lookup entry.pattern).getD [] := by
  rcases (mem_routes_iff d route).mp member with
    ⟨pattern, old, found, inOld⟩ | inDynamic
  · have patternEq := (valid.bucket_pattern pattern old found route inOld).1
    rw [mem_bucket_iff]
    exact ⟨old, by rw [← same, patternEq, found], inOld⟩
  · have kind := valid.dynamic_kind route inDynamic
    rw [(valid.entry route member).kind_eq, same, ← entryValid.kind_eq] at kind
    exact absurd exact_ kind

theorem withExact_extends (d : HttpServletDispatch S) (entry : RouteEntry S)
    {bucket : List (RouteEntry S)}
    (current : bucket = (d.exactRoutes.lookup entry.pattern).getD []) :
    Extends d entry (d.withExact entry bucket) where
  next := rfl
  mem_routes := by
    intro route
    rw [mem_routes_iff, mem_routes_iff]
    constructor
    · rintro (⟨pattern, stored, found, member⟩ | inDynamic)
      · rcases (lookup_withExact_iff d entry bucket).mp found with
          ⟨rfl, rfl⟩ | ⟨_, before⟩
        · rcases List.mem_append.mp member with old | new
          · rw [current, mem_bucket_iff] at old
            exact Or.inr (Or.inl ⟨_, old⟩)
          · exact Or.inl (List.mem_singleton.mp new)
        · exact Or.inr (Or.inl ⟨pattern, stored, before, member⟩)
      · exact Or.inr (Or.inr inDynamic)
    · have stored : (d.withExact entry bucket).exactRoutes.lookup
          entry.pattern = some (bucket ++ [entry]) :=
        (lookup_withExact_iff d entry bucket).mpr (Or.inl ⟨rfl, rfl⟩)
      rintro (rfl | ⟨pattern, old, found, member⟩ | inDynamic)
      · exact Or.inl ⟨_, _, stored, by simp⟩
      · by_cases same : pattern = entry.pattern
        · subst same
          have inBucket : route ∈ bucket := by
            rw [current, mem_bucket_iff]
            exact ⟨old, found, member⟩
          exact Or.inl ⟨_, _, stored, List.mem_append_left _ inBucket⟩
        · exact Or.inl ⟨pattern, old, (lookup_withExact_iff d entry bucket).mpr
            (Or.inr ⟨same, found⟩), member⟩
      · exact Or.inr inDynamic

/-- The exact half of `insertRoute`: the bucket of the pattern, created if
need be, gets one more entry. -/
theorem withExact_valid {engine : MatchEngine} {d : HttpServletDispatch S}
    (valid : d.Valid engine) {entry : RouteEntry S}
    (entryValid : EntryValid engine (d.nextRouteId + 1) entry)
    (fresh : entry.id = d.nextRouteId) (exact_ : entry.kind = .Exact)
    {bucket : List (RouteEntry S)}
    (current : bucket = (d.exactRoutes.lookup entry.pattern).getD [])
    (noConflict : ∀ route ∈ bucket, route.methods &&& entry.methods = 0) :
    (d.withExact entry bucket).Valid engine := by
  have extended := withExact_extends d entry current
  have noOverlap (route : RouteEntry S) (member : route ∈ d.routes)
      (same : route.pattern = entry.pattern) :
      route.methods &&& entry.methods = 0 := by
    apply noConflict
    rw [current]
    exact valid.mem_bucket entryValid exact_ member same
  obtain ⟨entries, inj, disjoint⟩ :=
    extended.relations valid entryValid fresh noOverlap
  exact
    { next_pos := Nat.succ_pos _
      entry := entries
      bucket_ne := by
        intro pattern stored found
        rcases (lookup_withExact_iff d entry bucket).mp found with
          ⟨_, rfl⟩ | ⟨_, before⟩
        · simp
        · exact valid.bucket_ne pattern stored before
      bucket_pattern := by
        intro pattern stored found route member
        rcases (lookup_withExact_iff d entry bucket).mp found with
          ⟨rfl, rfl⟩ | ⟨_, before⟩
        · rcases List.mem_append.mp member with old | new
          · rw [current, mem_bucket_iff] at old
            obtain ⟨oldBucket, foundOld, inOld⟩ := old
            exact valid.bucket_pattern _ oldBucket foundOld route inOld
          · rw [List.mem_singleton.mp new]
            exact ⟨rfl, exact_⟩
        · exact valid.bucket_pattern pattern stored before route member
      bucket_increasing := by
        intro pattern stored found
        rcases (lookup_withExact_iff d entry bucket).mp found with
          ⟨rfl, rfl⟩ | ⟨_, before⟩
        · subst current
          apply increasing_append
          · cases old : d.exactRoutes.lookup entry.pattern with
            | none => exact List.Pairwise.nil
            | some oldBucket => exact valid.bucket_increasing _ _ old
          · intro route member
            obtain ⟨old, foundOld, inOld⟩ := (mem_bucket_iff route).mp member
            have inRoutes : route ∈ d.routes :=
              (mem_routes_iff d route).mpr (Or.inl ⟨_, old, foundOld, inOld⟩)
            rw [fresh]
            exact (valid.entry route inRoutes).id_lt
        · exact valid.bucket_increasing pattern stored before
      dynamic_kind := valid.dynamic_kind
      dynamic_increasing := valid.dynamic_increasing
      id_inj := inj
      disjoint := disjoint }

/-- The dynamic half of `insertRoute`. -/
theorem insertDynamic_valid {engine : MatchEngine}
    {d : HttpServletDispatch S} (valid : d.Valid engine)
    {entry : RouteEntry S}
    (entryValid : EntryValid engine (d.nextRouteId + 1) entry)
    (fresh : entry.id = d.nextRouteId) (notExact : entry.kind ≠ .Exact)
    (noConflict : ∀ route ∈ d.dynamicRoutes,
      route.pattern = entry.pattern → route.methods &&& entry.methods = 0) :
    ({ d with
      dynamicRoutes := d.dynamicRoutes ++ [entry]
      nextRouteId := d.nextRouteId + 1 } : HttpServletDispatch S).Valid
        engine := by
  let larger : HttpServletDispatch S :=
    { d with
      dynamicRoutes := d.dynamicRoutes ++ [entry]
      nextRouteId := d.nextRouteId + 1 }
  have extended : Extends d entry larger := by
    refine ⟨rfl, ?_⟩
    intro route
    simp only [mem_routes_iff, larger, List.mem_append, List.mem_singleton]
    constructor
    · rintro (old | old | new)
      · exact Or.inr (Or.inl old)
      · exact Or.inr (Or.inr old)
      · exact Or.inl new
    · rintro (new | old | old)
      · exact Or.inr (Or.inr new)
      · exact Or.inl old
      · exact Or.inr (Or.inl old)
  have samePattern : ∀ route ∈ d.routes, route.pattern = entry.pattern →
      route ∈ d.dynamicRoutes := by
    intro route member same
    rcases (mem_routes_iff d route).mp member with
      ⟨pattern, bucket, found, inBucket⟩ | inDynamic
    · have kind := (valid.bucket_pattern pattern bucket found route inBucket).2
      rw [(valid.entry route member).kind_eq, same, ← entryValid.kind_eq]
        at kind
      exact absurd kind notExact
    · exact inDynamic
  obtain ⟨entries, inj, disjoint⟩ := extended.relations valid entryValid fresh
    (fun route member same =>
      noConflict route (samePattern route member same) same)
  exact
    { next_pos := Nat.succ_pos _
      entry := entries
      bucket_ne := valid.bucket_ne
      bucket_pattern := valid.bucket_pattern
      bucket_increasing := valid.bucket_increasing
      dynamic_kind := by
        intro route member
        rcases List.mem_append.mp member with old | new
        · exact valid.dynamic_kind route old
        · rw [List.mem_singleton.mp new]
          exact notExact
      dynamic_increasing := by
        apply increasing_append valid.dynamic_increasing
        intro route member
        rw [fresh]
        exact (valid.entry route
          ((mem_routes_iff d route).mpr (Or.inr member))).id_lt
      id_inj := inj
      disjoint := disjoint }

/-- The entry that a successful `addRoute` stores. -/
def newEntry (engine : MatchEngine) (d : HttpServletDispatch S)
    (methods : MethodMask) (pattern : Bytes) (servlet : S) : RouteEntry S where
  id := d.nextRouteId
  kind := routeKind pattern
  pattern := pattern
  methods := methods
  matcher := createMatcher engine (routeKind pattern) pattern
  servlet := some servlet

/-- The arguments pass the checks in front of the lock. -/
structure AddChecked (engine : MatchEngine) (methods : MethodMask)
    (pattern : Bytes) : Prop where
  methods_ne : methods &&& ExpectHttpMethods.All ≠ ExpectHttpMethods.None
  methods_subset : methods &&& ~~~ ExpectHttpMethods.All = 0
  matcher : routeKind pattern ≠ .Exact →
    createMatcher engine (routeKind pattern) pattern ≠ none

theorem newEntry_valid {engine : MatchEngine} {methods : MethodMask}
    {pattern : Bytes} (d : HttpServletDispatch S) (nextPos : 0 < d.nextRouteId)
    (checked : AddChecked engine methods pattern) (servlet : S) :
    EntryValid engine (d.nextRouteId + 1)
      (d.newEntry engine methods pattern servlet) where
  id_pos := nextPos
  id_lt := Nat.lt_succ_self _
  kind_eq := rfl
  matcher := fun notExact =>
    ⟨Option.isSome_iff_ne_none.mpr (checked.matcher notExact), rfl⟩
  servlet := rfl
  methods_ne := by
    intro noMethods
    apply checked.methods_ne
    rw [show methods = ExpectHttpMethods.None from noMethods]
    decide
  methods_subset := checked.methods_subset

theorem hasMethodConflict_iff (routes : List (RouteEntry S))
    (methods : MethodMask) :
    hasMethodConflict routes methods = false ↔
      ∀ route ∈ routes, route.methods &&& methods = 0 := by
  rw [← conflictMethods_eq_none_iff]
  simp [hasMethodConflict]

/-- The bucket `addRoute` works on. -/
theorem bucketOf_fst (d : HttpServletDispatch S) (pattern : Bytes) :
    (d.bucketOf pattern).1 = (d.exactRoutes.lookup pattern).getD [] := by
  rw [bucketOf]
  cases d.exactRoutes.lookup pattern <;> rfl

@[simp]
theorem bucketOf_snd_dynamicRoutes (d : HttpServletDispatch S)
    (pattern : Bytes) :
    (d.bucketOf pattern).2.dynamicRoutes = d.dynamicRoutes := by
  rw [bucketOf]
  cases d.exactRoutes.lookup pattern <;> rfl

@[simp]
theorem bucketOf_snd_nextRouteId (d : HttpServletDispatch S)
    (pattern : Bytes) :
    (d.bucketOf pattern).2.nextRouteId = d.nextRouteId := by
  rw [bucketOf]
  cases d.exactRoutes.lookup pattern <;> rfl

theorem insert_bucketOf_snd (d : HttpServletDispatch S) (pattern : Bytes)
    (routes : List (RouteEntry S)) :
    (d.bucketOf pattern).2.exactRoutes.insert pattern routes =
      d.exactRoutes.insert pattern routes := by
  rw [bucketOf]
  cases d.exactRoutes.lookup pattern with
  | none => exact AList.insert_insert _
  | some old => rfl

/-- A bucket that had to be created cannot be in conflict with the request,
so a conflict leaves the table alone. -/
theorem bucketOf_snd_of_conflict {d : HttpServletDispatch S} {pattern : Bytes}
    {methods : MethodMask}
    (conflicting : hasMethodConflict (d.bucketOf pattern).1 methods = true) :
    (d.bucketOf pattern).2 = d := by
  rw [bucketOf] at conflicting ⊢
  cases found : d.exactRoutes.lookup pattern with
  | none => simp [found, hasMethodConflict, conflictMethods] at conflicting
  | some old => rfl

/-- `larger` is the table `d` with a new entry, which goes to the container of
its kind and shares no method with the routes of its pattern there. -/
inductive Stores (engine : MatchEngine) (d : HttpServletDispatch S)
    (methods : MethodMask) (pattern : Bytes) (servlet : S) :
    HttpServletDispatch S → Prop
  | exactRoute
      (kind : routeKind pattern = .Exact)
      (noConflict : ∀ route ∈ (d.exactRoutes.lookup pattern).getD [],
        route.methods &&& methods = 0) :
      Stores engine d methods pattern servlet
        { d with
          exactRoutes := d.exactRoutes.insert pattern
            ((d.exactRoutes.lookup pattern).getD [] ++
              [d.newEntry engine methods pattern servlet])
          nextRouteId := d.nextRouteId + 1 }
  | dynamicRoute
      (kind : routeKind pattern ≠ .Exact)
      (noConflict : ∀ route ∈ d.dynamicRoutes, route.pattern = pattern →
        route.methods &&& methods = 0) :
      Stores engine d methods pattern servlet
        { d with
          dynamicRoutes := d.dynamicRoutes ++
            [d.newEntry engine methods pattern servlet]
          nextRouteId := d.nextRouteId + 1 }

/-- Everything the locked part of `addRoute` can do. -/
theorem insertRoute_cases (engine : MatchEngine) (d : HttpServletDispatch S)
    (methods : MethodMask) (pattern : Bytes) (servlet : S)
    {result : RouteResult × HttpServletDispatch S}
    (call : d.insertRoute methods pattern (routeKind pattern)
      (createMatcher engine (routeKind pattern) pattern) servlet = result) :
    (result.1.status ≠ .Ok ∧ result.2 = d) ∨
      (result.1 = { routeId := d.nextRouteId } ∧
        Stores engine d methods pattern servlet result.2) := by
  subst result
  by_cases kind : routeKind pattern = .Exact
  · cases conflicting : hasMethodConflict (d.bucketOf pattern).1 methods with
    | true =>
        left
        simp [insertRoute, kind, conflicting, conflict,
          bucketOf_snd_of_conflict conflicting]
    | false =>
        right
        have noConflict := (hasMethodConflict_iff _ _).mp conflicting
        rw [bucketOf_fst] at noConflict
        refine ⟨by simp [insertRoute, kind, conflicting], ?_⟩
        have stored : Stores engine d methods pattern servlet _ :=
          Stores.exactRoute kind noConflict
        rw [bucketOf_fst] at conflicting
        simpa [insertRoute, kind, bucketOf_fst, conflicting,
          insert_bucketOf_snd, newEntry, createMatcher] using stored
  · cases conflicting : hasMethodConflict
        (d.dynamicRoutes.filter fun route => route.pattern = pattern)
        methods with
    | true =>
        left
        simp [insertRoute, kind, conflicting, conflict]
    | false =>
        right
        have noConflict : ∀ route ∈ d.dynamicRoutes,
            route.pattern = pattern → route.methods &&& methods = 0 := by
          intro route member same
          exact (hasMethodConflict_iff _ _).mp conflicting route
            (List.mem_filter.mpr ⟨member, by simpa using same⟩)
        refine ⟨by simp [insertRoute, kind, conflicting], ?_⟩
        have stored : Stores engine d methods pattern servlet _ :=
          Stores.dynamicRoute kind noConflict
        simpa [insertRoute, kind, conflicting, newEntry] using stored

/-- Everything `addRoute` can do: refuse and leave the table alone, or store
the new entry and count its identifier. -/
theorem addRoute_cases (engine : MatchEngine) (d : HttpServletDispatch S)
    (methods : MethodMask) (pattern : Bytes) (servlet : Option S)
    {result : RouteResult × HttpServletDispatch S}
    (call : d.addRoute engine methods pattern servlet = result) :
    (result.1.status ≠ .Ok ∧ result.2 = d) ∨
      (result.1 = { routeId := d.nextRouteId } ∧
        AddChecked engine methods pattern ∧
        ∃ servlet', Stores engine d methods pattern servlet' result.2) := by
  by_cases noPattern : pattern = []
  · left
    simp [← call, addRoute, noPattern, invalidArgument]
  cases servlet with
  | none =>
      left
      simp [← call, addRoute, noPattern, invalidArgument]
  | some servlet =>
      by_cases badMask : methods &&& ExpectHttpMethods.All =
          ExpectHttpMethods.None ∨ methods &&& ~~~ ExpectHttpMethods.All ≠ 0
      · left
        rw [addRoute, if_neg noPattern] at call
        simp only [if_pos badMask] at call
        simp [← call, invalidArgument]
      by_cases noMatcher : routeKind pattern ≠ .Exact ∧
          createMatcher engine (routeKind pattern) pattern = none
      · left
        rw [addRoute, if_neg noPattern] at call
        simp only [if_neg badMask, if_pos noMatcher] at call
        simp [← call, invalidArgument]
      have checked : AddChecked engine methods pattern := by
        rw [not_or, not_not] at badMask
        exact ⟨badMask.1, badMask.2, fun kind none => noMatcher ⟨kind, none⟩⟩
      rw [addRoute, if_neg noPattern] at call
      simp only [if_neg badMask, if_neg noMatcher] at call
      rcases insertRoute_cases engine d methods pattern servlet call with
        refused | ⟨answer, stored⟩
      · exact Or.inl refused
      · exact Or.inr ⟨answer, checked, servlet, stored⟩

theorem Stores.valid {engine : MatchEngine} {d larger : HttpServletDispatch S}
    {methods : MethodMask} {pattern : Bytes} {servlet : S}
    (valid : d.Valid engine) (checked : AddChecked engine methods pattern)
    (stored : Stores engine d methods pattern servlet larger) :
    larger.Valid engine := by
  have entryValid := newEntry_valid d valid.next_pos checked servlet
  cases stored with
  | exactRoute kind noConflict =>
      exact withExact_valid valid entryValid rfl kind rfl noConflict
  | dynamicRoute kind noConflict =>
      exact insertDynamic_valid valid entryValid rfl kind noConflict

/-- Every call keeps the invariant. -/
theorem applyCall_valid {engine : MatchEngine} {d : HttpServletDispatch S}
    (valid : d.Valid engine) (call : RouteCall S) :
    (d.applyCall engine call).Valid engine := by
  cases call with
  | addRoute methods pattern servlet =>
      rcases addRoute_cases engine d methods pattern servlet rfl with
        ⟨_, unchanged⟩ | ⟨_, checked, servlet', stored⟩
      · rw [applyCall, unchanged]
        exact valid
      · exact stored.valid valid checked
  | removeRouteById routeId =>
      exact valid.of_subtable (removeRouteById_subtable valid routeId)
  | removeRouteByMethods pattern methods =>
      exact valid.of_subtable (removeSelected_subtable valid pattern _)
  | removeRouteByPattern pattern =>
      exact valid.of_subtable (removeSelected_subtable valid pattern _)

/-- The invariant holds after every sequence of calls. -/
theorem applyCalls_valid {engine : MatchEngine} {d : HttpServletDispatch S}
    (valid : d.Valid engine) (calls : List (RouteCall S)) :
    (d.applyCalls engine calls).Valid engine := by
  induction calls generalizing d with
  | nil => exact valid
  | cons call calls ih => exact ih (applyCall_valid valid call)

end HttpServletDispatch

end KitMuduo
