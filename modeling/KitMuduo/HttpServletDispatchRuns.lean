import KitMuduo.HttpServletDispatchTable
import KitMuduo.MethodMasks

/-!
# The route table after any sequence of calls

The identifiers that `addRoute` hands out only grow, so none is used twice even
after its route has been removed.  Together with the invariant of the table
this says what a client of the table may rely on.
-/

namespace KitMuduo

namespace HttpServletDispatch

variable {S : Type*}

/-- The union of the methods of some routes. -/
def unionMethods (routes : List (RouteEntry S)) : MethodMask :=
  routes.foldl (fun allowed route => allowed ||| route.methods)
    ExpectHttpMethods.None

/-- The methods of a route are below a mask that accumulates them. -/
theorem foldl_methods_eq_zero_iff (routes : List (RouteEntry S))
    (start : MethodMask) :
    routes.foldl (fun allowed route => allowed ||| route.methods) start =
        0#32 ↔
      start = 0#32 ∧ ∀ route ∈ routes, route.methods = 0#32 := by
  induction routes generalizing start with
  | nil => simp
  | cons route routes ih =>
      rw [List.foldl_cons, ih, BitVec.or_eq_zero_iff]
      simp [and_assoc]

theorem matchExact_eq (method : Method) (routes : List (RouteEntry S))
    (allowed : MethodMask) :
    matchExact method allowed routes =
      match routes.find? fun route => MethodAllowed route.methods method with
      | some route => ⟨.Found, route.servlet, route.methods⟩
      | none =>
          ⟨.PathFoundMethodNotAllowed, none,
            routes.foldl (fun allowed route => allowed ||| route.methods)
              allowed⟩ := by
  induction routes generalizing allowed with
  | nil => rfl
  | cons route routes ih =>
      cases allows : MethodAllowed route.methods method with
      | true => simp [matchExact, allows]
      | false => simp [matchExact, allows, ih]

/-- The identifier a call hands out. -/
def issuedId (engine : MatchEngine) (d : HttpServletDispatch S) :
    RouteCall S → Option Nat
  | .addRoute methods pattern servlet =>
      let result := (d.addRoute engine methods pattern servlet).1
      if result.status = .Ok then some result.routeId else none
  | _ => none

/-- The identifiers handed out by a sequence of calls, in order. -/
def issuedIds (engine : MatchEngine) (d : HttpServletDispatch S) :
    List (RouteCall S) → List Nat
  | [] => []
  | call :: calls =>
      (d.issuedId engine call).toList ++
        issuedIds engine (d.applyCall engine call) calls

theorem Stores.nextRouteId {engine : MatchEngine}
    {d larger : HttpServletDispatch S} {methods : MethodMask}
    {pattern : Bytes} {servlet : S}
    (stored : Stores engine d methods pattern servlet larger) :
    larger.nextRouteId = d.nextRouteId + 1 := by
  cases stored <;> rfl

theorem Stores.mem_routes {engine : MatchEngine}
    {d larger : HttpServletDispatch S} {methods : MethodMask}
    {pattern : Bytes} {servlet : S}
    (stored : Stores engine d methods pattern servlet larger)
    {route : RouteEntry S} (member : route ∈ larger.routes) :
    route = d.newEntry engine methods pattern servlet ∨ route ∈ d.routes := by
  rw [mem_routes_iff] at member ⊢
  cases stored with
  | exactRoute kind noConflict =>
      rcases member with ⟨other, bucket, found, inBucket⟩ | inDynamic
      · by_cases same : other = pattern
        · subst other
          rw [AList.lookup_insert, Option.some.injEq] at found
          subst bucket
          rcases List.mem_append.mp inBucket with old | new
          · cases lookup : d.exactRoutes.lookup pattern with
            | none => simp [lookup] at old
            | some bucket =>
                right; left
                exact ⟨pattern, bucket, lookup, by simpa [lookup] using old⟩
          · exact Or.inl (List.mem_singleton.mp new)
        · rw [AList.lookup_insert_ne same] at found
          exact Or.inr (Or.inl ⟨other, bucket, found, inBucket⟩)
      · exact Or.inr (Or.inr inDynamic)
  | dynamicRoute kind noConflict =>
      rcases member with inExact | inDynamic
      · exact Or.inr (Or.inl inExact)
      · rcases List.mem_append.mp inDynamic with old | new
        · exact Or.inr (Or.inr old)
        · exact Or.inl (List.mem_singleton.mp new)

/-- A call hands out the counter's value and counts on, or leaves the counter
alone and adds no route. -/
theorem applyCall_cases {engine : MatchEngine} {d : HttpServletDispatch S}
    (valid : d.Valid engine) (call : RouteCall S) :
    (d.issuedId engine call = some d.nextRouteId ∧
      (d.applyCall engine call).nextRouteId = d.nextRouteId + 1 ∧
      ∀ route ∈ (d.applyCall engine call).routes,
        route.id = d.nextRouteId ∨ route ∈ d.routes) ∨
    (d.issuedId engine call = none ∧
      (d.applyCall engine call).nextRouteId = d.nextRouteId ∧
      ∀ route ∈ (d.applyCall engine call).routes, route ∈ d.routes) := by
  have erasing {smaller : HttpServletDispatch S}
      (subtable : Subtable smaller d) :
      smaller.nextRouteId = d.nextRouteId ∧
        ∀ route ∈ smaller.routes, route ∈ d.routes :=
    ⟨subtable.next, fun _ member => subtable.mem_routes member⟩
  cases call with
  | addRoute methods pattern servlet =>
      rcases addRoute_cases engine d methods pattern servlet rfl with
        ⟨failed, unchanged⟩ | ⟨answer, _, servlet', stored⟩
      · right
        rw [applyCall, unchanged]
        exact ⟨by simp [issuedId, failed], rfl, fun _ member => member⟩
      · left
        refine ⟨by simp [issuedId, answer], stored.nextRouteId, ?_⟩
        intro route member
        rcases stored.mem_routes member with new | old
        · exact Or.inl (by rw [new, newEntry])
        · exact Or.inr old
  | removeRouteById routeId =>
      exact Or.inr ⟨rfl, erasing (removeRouteById_subtable valid routeId)⟩
  | removeRouteByMethods pattern methods =>
      exact Or.inr ⟨rfl, erasing (removeSelected_subtable valid pattern _)⟩
  | removeRouteByPattern pattern =>
      exact Or.inr ⟨rfl, erasing (removeSelected_subtable valid pattern _)⟩

/-- Identifiers handed out later are larger. -/
theorem issuedIds_increasing {engine : MatchEngine}
    {d : HttpServletDispatch S} (valid : d.Valid engine)
    (calls : List (RouteCall S)) :
    (d.issuedIds engine calls).Pairwise (· < ·) ∧
      ∀ id ∈ d.issuedIds engine calls, d.nextRouteId ≤ id := by
  induction calls generalizing d with
  | nil => exact ⟨List.Pairwise.nil, by simp [issuedIds]⟩
  | cons call calls ih =>
      obtain ⟨increasing, bound⟩ := ih (applyCall_valid valid call)
      rcases applyCall_cases valid call with
        ⟨issued, next, _⟩ | ⟨issued, next, _⟩
      · simp only [issuedIds, issued, Option.toList_some,
          List.singleton_append, List.pairwise_cons, List.mem_cons]
        refine ⟨⟨?_, increasing⟩, ?_⟩
        · intro id member
          have := bound id member
          omega
        · rintro id (rfl | member)
          · exact Nat.le_refl _
          · have := bound id member
            omega
      · simp only [issuedIds, issued, Option.toList_none, List.nil_append]
        rw [next] at bound
        exact ⟨increasing, bound⟩

/-- A route of the final table was there at the start or got its identifier
from one of the calls. -/
theorem id_mem_issuedIds {engine : MatchEngine} {d : HttpServletDispatch S}
    (valid : d.Valid engine) (calls : List (RouteCall S))
    {route : RouteEntry S}
    (member : route ∈ (d.applyCalls engine calls).routes) :
    route ∈ d.routes ∨ route.id ∈ d.issuedIds engine calls := by
  induction calls generalizing d with
  | nil => exact Or.inl member
  | cons call calls ih =>
      rw [issuedIds, List.mem_append]
      rcases ih (applyCall_valid valid call) member with early | late
      · rcases applyCall_cases valid call with
          ⟨issued, _, routes⟩ | ⟨_, _, routes⟩
        · rcases routes route early with new | old
          · exact Or.inr (Or.inl (by simp [issued, new]))
          · exact Or.inl old
        · exact Or.inl (routes route early)
      · exact Or.inr (Or.inr late)

/-- What holds of every reachable table. -/
structure WellFormed (engine : MatchEngine) (d : HttpServletDispatch S) :
    Prop where
  ids_nodup : (d.routes.map RouteEntry.id).Nodup
  id_ne_zero : ∀ route ∈ d.routes, route.id ≠ 0
  id_lt : ∀ route ∈ d.routes, route.id < d.nextRouteId
  disjoint : ∀ first ∈ d.routes, ∀ second ∈ d.routes,
    first.pattern = second.pattern → first.id ≠ second.id →
      first.methods &&& second.methods = ExpectHttpMethods.None
  bucket_ne : ∀ pattern bucket,
    d.exactRoutes.lookup pattern = some bucket → bucket ≠ []
  bucket_pattern : ∀ pattern bucket,
    d.exactRoutes.lookup pattern = some bucket →
      ∀ route ∈ bucket, route.pattern = pattern ∧ route.kind = .Exact
  kind_eq : ∀ route ∈ d.routes, route.kind = routeKind route.pattern
  matcher : ∀ route ∈ d.routes, route.kind ≠ .Exact →
    route.matcher.isSome ∧
      route.matcher = createMatcher engine route.kind route.pattern
  methods_ne : ∀ route ∈ d.routes, route.methods ≠ ExpectHttpMethods.None
  methods_subset : ∀ route ∈ d.routes,
    route.methods &&& ~~~ ExpectHttpMethods.All = 0
  dynamic_kind : ∀ route ∈ d.dynamicRoutes, route.kind ≠ .Exact
  dynamic_increasing :
    d.dynamicRoutes.Pairwise fun first second => first.id < second.id

/-- Entries of different exact buckets are different, as their patterns
are. -/
theorem Valid.exactIds_nodup {engine : MatchEngine}
    {d : HttpServletDispatch S} (valid : d.Valid engine) :
    d.exactEntries.Pairwise fun first second => first.id ≠ second.id := by
  rw [exactEntries, List.pairwise_flatMap]
  constructor
  · rintro ⟨pattern, bucket⟩ entry
    have found : d.exactRoutes.lookup pattern = some bucket :=
      AList.mem_lookup_iff.mpr entry
    exact (valid.bucket_increasing pattern bucket found).imp Nat.ne_of_lt
  · have keys := List.pairwise_map.mp d.exactRoutes.nodupKeys
    apply keys.imp_of_mem
    rintro ⟨pattern, bucket⟩ ⟨other, otherBucket⟩ entry otherEntry different
      first firstMem second secondMem sameId
    have found : d.exactRoutes.lookup pattern = some bucket :=
      AList.mem_lookup_iff.mpr entry
    have otherFound : d.exactRoutes.lookup other = some otherBucket :=
      AList.mem_lookup_iff.mpr otherEntry
    have same := valid.id_inj
      first ((mem_routes_iff d first).mpr (Or.inl ⟨_, _, found, firstMem⟩))
      second
      ((mem_routes_iff d second).mpr (Or.inl ⟨_, _, otherFound, secondMem⟩))
      sameId
    subst second
    have here := valid.bucket_pattern pattern bucket found first firstMem
    have there := valid.bucket_pattern other otherBucket otherFound first
      secondMem
    exact different (here.1.symm.trans there.1)

/-- The identifiers of all routes are distinct. -/
theorem Valid.ids_nodup {engine : MatchEngine} {d : HttpServletDispatch S}
    (valid : d.Valid engine) : (d.routes.map RouteEntry.id).Nodup := by
  rw [List.nodup_iff_pairwise_ne, List.pairwise_map, routes,
    List.pairwise_append]
  refine ⟨valid.exactIds_nodup, valid.dynamic_increasing.imp Nat.ne_of_lt, ?_⟩
  intro first firstMem second secondMem sameId
  have firstRoute := List.mem_append_left d.dynamicRoutes firstMem
  have secondRoute := List.mem_append_right d.exactEntries secondMem
  have same := valid.id_inj first firstRoute second secondRoute sameId
  subst second
  obtain ⟨pattern, bucket, found, inBucket⟩ :=
    (mem_exactEntries_iff d first).mp firstMem
  exact valid.dynamic_kind first secondMem
    (valid.bucket_pattern pattern bucket found first inBucket).2

theorem Valid.wellFormed {engine : MatchEngine} {d : HttpServletDispatch S}
    (valid : d.Valid engine) : d.WellFormed engine where
  ids_nodup := valid.ids_nodup
  id_ne_zero := fun route member =>
    Nat.pos_iff_ne_zero.mp (valid.entry route member).id_pos
  id_lt := fun route member => (valid.entry route member).id_lt
  disjoint := valid.disjoint
  bucket_ne := valid.bucket_ne
  bucket_pattern := valid.bucket_pattern
  kind_eq := fun route member => (valid.entry route member).kind_eq
  matcher := fun route member => (valid.entry route member).matcher
  methods_ne := fun route member => (valid.entry route member).methods_ne
  methods_subset := fun route member =>
    (valid.entry route member).methods_subset
  dynamic_kind := valid.dynamic_kind
  dynamic_increasing := valid.dynamic_increasing

/-- Two masks that both allow a method share it. -/
theorem not_disjoint_of_methodAllowed {first second : MethodMask}
    {method : Method} (firstAllows : MethodAllowed first method = true)
    (secondAllows : MethodAllowed second method = true) :
    first &&& second ≠ 0#32 := by
  intro disjoint
  have shared := congrArg (BitVec.getLsbD · method.bitIndex) disjoint
  rw [methodAllowed_iff] at firstAllows secondAllows
  simp [firstAllows.2, secondAllows.2] at shared

/-- A bucket has at most one entry that serves a method. -/
theorem Valid.selectable_le_one {engine : MatchEngine}
    {d : HttpServletDispatch S} (valid : d.Valid engine) {path : Bytes}
    {bucket : List (RouteEntry S)}
    (found : d.exactRoutes.lookup path = some bucket) (method : Method) :
    (bucket.filter fun route =>
      MethodAllowed route.methods method).length ≤ 1 := by
  let selected := bucket.filter fun route => MethodAllowed route.methods method
  have increasing : selected.Pairwise fun first second =>
      first.id < second.id :=
    (valid.bucket_increasing path bucket found).filter _
  have inRoutes : ∀ route ∈ selected, route ∈ d.routes :=
    fun route member => (mem_routes_iff d route).mpr
      (Or.inl ⟨path, bucket, found, (List.mem_filter.mp member).1⟩)
  have together : ∀ first ∈ selected, ∀ second ∈ selected,
      ¬ first.id < second.id := by
    intro first firstMem second secondMem less
    have firstHere := List.mem_filter.mp firstMem
    have secondHere := List.mem_filter.mp secondMem
    have firstPattern := valid.bucket_pattern path bucket found first
      firstHere.1
    have secondPattern := valid.bucket_pattern path bucket found second
      secondHere.1
    exact not_disjoint_of_methodAllowed firstHere.2 secondHere.2
      (valid.disjoint first (inRoutes first firstMem)
        second (inRoutes second secondMem)
        (firstPattern.1.trans secondPattern.1.symm) (Nat.ne_of_lt less))
  change selected.length ≤ 1
  match selected, increasing, together with
  | [], _, _ => exact Nat.zero_le _
  | [_], _, _ => exact Nat.le_refl _
  | first :: second :: _, increasing, together =>
      have less := (List.pairwise_cons.mp increasing).1 second
        List.mem_cons_self
      exact absurd less (together first List.mem_cons_self second
        (List.mem_cons_of_mem _ List.mem_cons_self))

/-- The bucket of a path has methods to offer. -/
theorem Valid.unionMethods_ne {engine : MatchEngine}
    {d : HttpServletDispatch S} (valid : d.Valid engine) {path : Bytes}
    {bucket : List (RouteEntry S)}
    (found : d.exactRoutes.lookup path = some bucket) :
    unionMethods bucket ≠ ExpectHttpMethods.None := by
  obtain ⟨route, member⟩ :=
    List.exists_mem_of_ne_nil bucket (valid.bucket_ne path bucket found)
  have registered : route ∈ d.routes :=
    (mem_routes_iff d route).mpr (Or.inl ⟨path, bucket, found, member⟩)
  intro none
  have allNone := ((foldl_methods_eq_zero_iff bucket _).mp none).2
  exact (valid.entry route registered).methods_ne (allNone route member)

/-- Every sequence of calls leads to a well-formed table; identifiers are
never handed out twice; at most one exact entry can be selected for a path and
a method, and the bucket of a path has a method to offer. -/
theorem applyCalls_new_wellFormed (engine : MatchEngine)
    (calls : List (RouteCall S)) :
    let d := (new : HttpServletDispatch S).applyCalls engine calls
    let issued := (new : HttpServletDispatch S).issuedIds engine calls
    d.WellFormed engine ∧
      issued.Pairwise (· < ·) ∧ (∀ route ∈ d.routes, route.id ∈ issued) ∧
      ∀ path bucket, d.exactRoutes.lookup path = some bucket →
        (∀ method, (bucket.filter fun route =>
          MethodAllowed route.methods method).length ≤ 1) ∧
        unionMethods bucket ≠ ExpectHttpMethods.None := by
  intro d issued
  have start := new_valid (S := S) engine
  have valid : d.Valid engine := applyCalls_valid start calls
  refine ⟨valid.wellFormed, (issuedIds_increasing start calls).1, ?_, ?_⟩
  · intro route member
    rcases id_mem_issuedIds start calls member with early | late
    · simp [routes, exactEntries, new] at early
    · exact late
  · intro path bucket found
    exact ⟨valid.selectable_le_one found, valid.unionMethods_ne found⟩

/-- An engine for the single wildcard pattern `/*`: any one segment. -/
def oneSegmentEngine : MatchEngine where
  regexCompiles := fun _ => false
  regexMatch := fun _ _ => none
  fnmatch := fun pattern path =>
    pattern = ascii "/*" ∧ path.head? = some 47 ∧ 47 ∉ path.tail

/-- A second handler for `GET /a` is refused, until the first one is removed. -/
def replacingCalls : List (RouteCall Nat) :=
  [.addRoute ExpectHttpMethods.Get (ascii "/a") (some 0),
    .addRoute ExpectHttpMethods.Post (ascii "/*") (some 1),
    .addRoute ExpectHttpMethods.Get (ascii "/a") (some 2),
    .removeRouteById 1, .addRoute ExpectHttpMethods.Get (ascii "/a") (some 2)]

theorem wellFormed_replacingCalls :
    let d := (new : HttpServletDispatch Nat).applyCalls oneSegmentEngine
      replacingCalls
    d.routes.map (fun route => (route.id, route.pattern)) =
        [(3, ascii "/a"), (2, ascii "/*")] ∧
      (new : HttpServletDispatch Nat).issuedIds oneSegmentEngine
        replacingCalls = [1, 2, 3] ∧
      d.WellFormed oneSegmentEngine :=
  ⟨by decide, by decide,
    (applyCalls_new_wellFormed oneSegmentEngine replacingCalls).1⟩

end HttpServletDispatch

end KitMuduo
