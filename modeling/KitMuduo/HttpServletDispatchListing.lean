import KitMuduo.HttpServletDispatchAnswer

/-!
# What a client sees of the route table

`listRoutes` and `getRoute` walk the buckets in the order of the hash table,
which is any order.  They see the same routes in every order.  The laws of the
mutating calls are stated on the routes a table lists and on its answers.
-/

namespace KitMuduo

/-- A snapshot of a route. -/
structure RouteInfo where
  id : Nat := 0
  kind : RouteKind := .Exact
  pattern : Bytes := []
  methods : MethodMask := ExpectHttpMethods.None
  methodsStr : Bytes := []
  deriving DecidableEq

variable {S : Type*}

def RouteEntry.info (route : RouteEntry S) : RouteInfo where
  id := route.id
  kind := route.kind
  pattern := route.pattern
  methods := route.methods
  methodsStr := BuildAllowHeader route.methods

/-- The buckets of a hash table in the order of an iteration. -/
abbrev Buckets (S : Type*) := List (Sigma fun _ : Bytes => List (RouteEntry S))

namespace HttpServletDispatch

/-- An iteration visits every bucket once. -/
def Iterates (d : HttpServletDispatch S) (order : Buckets S) : Prop :=
  order.Perm d.exactRoutes.entries

/-- The exact routes as the nested loops meet them. -/
def visited (order : Buckets S) : List (RouteEntry S) :=
  order.flatMap fun bucket => bucket.2

def getRoute (order : Buckets S) (d : HttpServletDispatch S) (routeId : Nat) :
    RouteInfo :=
  match (visited order).find? fun route => route.id = routeId with
  | some route => route.info
  | none =>
      match d.dynamicRoutes.find? fun route => route.id = routeId with
      | some route => route.info
      | none => {}

/-- `listRoutes()`. -/
def listRoutes (order : Buckets S) (d : HttpServletDispatch S) :
    List RouteInfo :=
  (visited order).map RouteEntry.info ++ d.dynamicRoutes.map RouteEntry.info

/-- `listRoutes(pattern)`. -/
def listRoutesOf (d : HttpServletDispatch S) (pattern : Bytes) :
    List RouteInfo :=
  ((d.exactRoutes.lookup pattern).getD []).map RouteEntry.info ++
    (d.dynamicRoutes.filter fun route => route.pattern = pattern).map
      RouteEntry.info

section

variable {engine : MatchEngine} {d : HttpServletDispatch S} {order : Buckets S}

/-! ## Every iteration sees the same routes -/

theorem Iterates.listRoutes_perm (iterates : d.Iterates order) :
    (d.listRoutes order).Perm (d.routes.map RouteEntry.info) := by
  rw [listRoutes, routes, List.map_append]
  exact ((iterates.flatMap_right _).map _).append_right _

theorem Iterates.mem_listRoutes_iff (iterates : d.Iterates order)
    (info : RouteInfo) :
    info ∈ d.listRoutes order ↔ ∃ route ∈ d.routes, route.info = info := by
  rw [iterates.listRoutes_perm.mem_iff, List.mem_map]

/-- The entries of a pattern are one bucket. -/
theorem filter_visited {pattern : Bytes} {order : Buckets S}
    (nodup : order.NodupKeys)
    (patterns : ∀ bucket ∈ order, ∀ route ∈ bucket.2,
      route.pattern = bucket.1) :
    (visited order).filter (fun route => route.pattern = pattern) =
      (order.dlookup pattern).getD [] := by
  induction order with
  | nil => rfl
  | cons bucket order ih =>
      rw [List.nodupKeys_cons] at nodup
      rw [List.forall_mem_cons] at patterns
      have later := ih nodup.2 patterns.2
      obtain ⟨key, routes⟩ := bucket
      rw [visited, List.flatMap_cons, List.filter_append]
      rw [visited] at later
      rw [later]
      by_cases same : key = pattern
      · subst same
        have here : routes.filter (fun route => route.pattern = key) =
            routes := by
          rw [List.filter_eq_self]
          simpa using patterns.1
        have absent : order.dlookup key = none :=
          List.dlookup_eq_none.mpr nodup.1
        rw [here, absent, List.dlookup_cons_eq]
        simp
      · have none : routes.filter (fun route => route.pattern = pattern) =
            [] := by
          rw [List.filter_eq_nil_iff]
          intro route member
          simpa [patterns.1 route member] using same
        rw [none, List.dlookup_cons_ne _ _ (Ne.symm same)]
        rfl

theorem Valid.filter_visited (valid : d.Valid engine)
    (iterates : d.Iterates order) (pattern : Bytes) :
    (visited order).filter (fun route => route.pattern = pattern) =
      (d.exactRoutes.lookup pattern).getD [] := by
  have nodup : order.NodupKeys :=
    (List.perm_nodupKeys iterates).mpr d.exactRoutes.nodupKeys
  rw [HttpServletDispatch.filter_visited nodup, AList.lookup,
    List.perm_dlookup pattern nodup iterates]
  rintro ⟨key, bucket⟩ member route inBucket
  exact (valid.bucket_pattern key bucket
    (AList.mem_lookup_iff.mpr (iterates.mem_iff.mp member)) route inBucket).1

theorem Valid.listRoutesOf_eq (valid : d.Valid engine)
    (iterates : d.Iterates order) (pattern : Bytes) :
    d.listRoutesOf pattern =
      (d.listRoutes order).filter fun info => info.pattern = pattern := by
  rw [listRoutes, List.filter_append, List.filter_map, List.filter_map,
    listRoutesOf, ← valid.filter_visited iterates]
  rfl

theorem getRoute_eq (order : Buckets S) (d : HttpServletDispatch S)
    (routeId : Nat) :
    d.getRoute order routeId =
      ((d.listRoutes order).find? fun info => info.id = routeId).getD {} := by
  rw [listRoutes, List.find?_append, List.find?_map, List.find?_map, getRoute]
  cases first : (visited order).find? fun route => route.id = routeId with
  | some route =>
      have same : (visited order).find?
          ((fun info => decide (info.id = routeId)) ∘ RouteEntry.info) =
            some route := first
      rw [same]
      rfl
  | none =>
      have same : (visited order).find?
          ((fun info => decide (info.id = routeId)) ∘ RouteEntry.info) =
            none := first
      rw [same, Option.map_none, Option.none_or]
      cases second : d.dynamicRoutes.find? fun route => route.id = routeId with
      | some route =>
          have same : d.dynamicRoutes.find?
              ((fun info => decide (info.id = routeId)) ∘ RouteEntry.info) =
                some route := second
          rw [same]
          rfl
      | none =>
          have same : d.dynamicRoutes.find?
              ((fun info => decide (info.id = routeId)) ∘ RouteEntry.info) =
                none := second
          rw [same]
          rfl

/-- `getRoute` finds the listed route with the identifier, or none is
listed. -/
theorem Valid.getRoute_cases (valid : d.Valid engine)
    (iterates : d.Iterates order) (routeId : Nat) :
    (∀ info ∈ d.listRoutes order, info.id = routeId →
      d.getRoute order routeId = info) ∧
    ((∀ info ∈ d.listRoutes order, info.id ≠ routeId) →
      d.getRoute order routeId = {}) := by
  rw [getRoute_eq]
  constructor
  · intro info listed same
    cases found : (d.listRoutes order).find? fun info => info.id = routeId with
    | none =>
        exact absurd same (by
          simpa using List.find?_eq_none.mp found info listed)
    | some other =>
        have otherId : other.id = routeId := by
          simpa using List.find?_some found
        obtain ⟨first, firstMem, rfl⟩ :=
          (iterates.mem_listRoutes_iff _).mp listed
        obtain ⟨second, secondMem, rfl⟩ :=
          (iterates.mem_listRoutes_iff _).mp (List.mem_of_find?_eq_some found)
        rw [valid.id_inj first firstMem second secondMem
          (same.trans otherId.symm)]
        rfl
  · intro absent
    have none : (d.listRoutes order).find?
        (fun info => info.id = routeId) = none := by
      rw [List.find?_eq_none]
      simpa using absent
    rw [none]
    rfl

/-! ## Tables with the same routes -/

/-- The tables differ at most in the order of their buckets and in the
counter. -/
structure SameRoutes (first second : HttpServletDispatch S) : Prop where
  lookup : ∀ path,
    first.exactRoutes.lookup path = second.exactRoutes.lookup path
  dynamic : first.dynamicRoutes = second.dynamicRoutes

theorem Valid.routes_nodup (valid : d.Valid engine) : d.routes.Nodup :=
  valid.ids_nodup.of_map _

theorem SameRoutes.handle_eq {first second : HttpServletDispatch S}
    (same : SameRoutes first second)
    (run : S → HttpContext → HttpContext) (context : HttpContext) :
    first.handle engine run context = second.handle engine run context := by
  have found : first.matchRoute engine context.request =
      second.matchRoute engine context.request := by
    rw [matchRoute, matchRoute, same.lookup, same.dynamic]
  rw [handle, handle, found]

theorem SameRoutes.routes_perm {first second : HttpServletDispatch S}
    (same : SameRoutes first second) (valid : first.Valid engine)
    (otherValid : second.Valid engine) : first.routes.Perm second.routes := by
  rw [List.perm_ext_iff_of_nodup valid.routes_nodup otherValid.routes_nodup]
  intro route
  rw [mem_routes_iff, mem_routes_iff, same.dynamic]
  simp only [same.lookup]

/-! ## What an erasure leaves -/

/-- A bucket without the named routes; an empty one goes. -/
def shortened (named : RouteEntry S → Bool) (bucket : List (RouteEntry S)) :
    Option (List (RouteEntry S)) :=
  let kept := bucket.filter fun route => !named route
  if kept = [] then none else some kept

/-- The named routes are gone from both containers, and the emptied
buckets. -/
structure Deletes (d : HttpServletDispatch S) (named : RouteEntry S → Bool)
    (smaller : HttpServletDispatch S) : Prop where
  lookup : ∀ path, smaller.exactRoutes.lookup path =
    (d.exactRoutes.lookup path).bind (shortened named)
  dynamic : smaller.dynamicRoutes =
    d.dynamicRoutes.filter fun route => !named route

theorem shortened_of_forall {named : RouteEntry S → Bool}
    {bucket : List (RouteEntry S)} (some : bucket ≠ [])
    (spared : ∀ route ∈ bucket, named route = false) :
    shortened named bucket = .some bucket := by
  have kept : bucket.filter (fun route => !named route) = bucket := by
    rw [List.filter_eq_self]
    intro route member
    rw [spared route member]
    rfl
  rw [shortened, kept, if_neg some]

theorem Deletes.mem_routes_iff {smaller : HttpServletDispatch S}
    {named : RouteEntry S → Bool} (deletes : Deletes d named smaller)
    (route : RouteEntry S) :
    route ∈ smaller.routes ↔ route ∈ d.routes ∧ named route = false := by
  rw [HttpServletDispatch.mem_routes_iff, HttpServletDispatch.mem_routes_iff,
    deletes.dynamic, List.mem_filter, Bool.not_eq_true', or_and_right]
  refine or_congr ?_ Iff.rfl
  constructor
  · rintro ⟨path, kept, found, member⟩
    rw [deletes.lookup, Option.bind_eq_some_iff] at found
    obtain ⟨bucket, found, same⟩ := found
    rw [shortened] at same
    split at same
    · cases same
    · cases same
      rw [List.mem_filter, Bool.not_eq_true'] at member
      exact ⟨⟨path, bucket, found, member.1⟩, member.2⟩
  · rintro ⟨⟨path, bucket, found, member⟩, spared⟩
    have kept : route ∈ bucket.filter fun route => !named route := by
      rw [List.mem_filter, spared]
      exact ⟨member, rfl⟩
    refine ⟨path, _, ?_, kept⟩
    rw [deletes.lookup, found, Option.bind_some, shortened,
      if_neg (List.ne_nil_of_mem kept)]

theorem Deletes.routes_perm {smaller : HttpServletDispatch S}
    {named : RouteEntry S → Bool} (deletes : Deletes d named smaller)
    (valid : d.Valid engine) (smallerValid : smaller.Valid engine) :
    smaller.routes.Perm (d.routes.filter fun route => !named route) := by
  rw [List.perm_ext_iff_of_nodup smallerValid.routes_nodup
    (valid.routes_nodup.filter _)]
  intro route
  rw [deletes.mem_routes_iff, List.mem_filter, Bool.not_eq_true']

/-- The search skips routes that do not match the path. -/
theorem matchDynamic_filter {routes : List (RouteEntry S)}
    {named : RouteEntry S → Bool} (request : HttpRequest)
    (allowed : MethodMask)
    (complete : ∀ route ∈ routes, route.kind ≠ .Exact)
    (spared : ∀ route ∈ routes, named route = true →
      route.matchesPath engine request.path = false) :
    matchDynamic engine request allowed
        (routes.filter fun route => !named route) =
      matchDynamic engine request allowed routes := by
  induction routes generalizing allowed with
  | nil => rfl
  | cons route routes ih =>
      rw [List.forall_mem_cons] at complete spared
      have later (allowed : MethodMask) := ih allowed complete.2 spared.2
      cases isNamed : named route with
      | true =>
          have misses := spared.1 isNamed
          rw [List.filter_cons_of_neg (by simp [isNamed]), later, matchDynamic]
          split
          · next matcher servlet hasMatcher hasServlet =>
              rw [matchesPath_dynamic _ complete.1 hasMatcher] at misses
              rw [if_neg (by simp [misses])]
          · rfl
      | false =>
          rw [List.filter_cons_of_pos (by simp [isNamed]), matchDynamic,
            matchDynamic]
          simp only [later]

/-- Requests whose path no deleted route matches are dispatched as before. -/
theorem Deletes.handle_eq {smaller : HttpServletDispatch S}
    {named : RouteEntry S → Bool} (deletes : Deletes d named smaller)
    (valid : d.Valid engine) (run : S → HttpContext → HttpContext)
    {context : HttpContext}
    (spared : ∀ route ∈ d.routes, named route = true →
      route.matchesPath engine context.request.path = false) :
    smaller.handle engine run context = d.handle engine run context := by
  have sameBucket : smaller.exactRoutes.lookup context.request.path =
      d.exactRoutes.lookup context.request.path := by
    rw [deletes.lookup]
    cases found : d.exactRoutes.lookup context.request.path with
    | none => rfl
    | some bucket =>
        rw [Option.bind_some]
        apply shortened_of_forall (valid.bucket_ne _ bucket found)
        intro route member
        rw [← Bool.not_eq_true]
        intro isNamed
        obtain ⟨pattern, kind⟩ :=
          valid.bucket_pattern _ bucket found route member
        have misses := spared route ((HttpServletDispatch.mem_routes_iff d
          route).mpr (.inl ⟨_, bucket, found, member⟩)) isNamed
        simp [RouteEntry.matchesPath, kind, pattern] at misses
  have dynamicSpared : ∀ route ∈ d.dynamicRoutes, named route = true →
      route.matchesPath engine context.request.path = false :=
    fun route member => spared route
      ((HttpServletDispatch.mem_routes_iff d route).mpr (.inr member))
  have sameSearch := matchDynamic_filter context.request
    ExpectHttpMethods.None valid.dynamic_kind dynamicSpared
  have found : smaller.matchRoute engine context.request =
      d.matchRoute engine context.request := by
    rw [matchRoute, matchRoute, sameBucket, deletes.dynamic]
    simp only [sameSearch]
  rw [handle, handle, found]

theorem lookup_storeBucket (d : HttpServletDispatch S) (pattern path : Bytes)
    (routes : List (RouteEntry S)) :
    (d.storeBucket pattern routes).exactRoutes.lookup path =
      if path = pattern then
        if routes = [] then none else some routes
      else
        d.exactRoutes.lookup path := by
  rw [storeBucket]
  split_ifs with none same same
  · rw [same, AList.lookup_erase]
  · exact AList.lookup_erase_ne same
  · rw [same, AList.lookup_insert]
  · exact AList.lookup_insert_ne same

/-- The first entry with an identifier is the only one. -/
theorem eraseP_eq_filter {routes : List (RouteEntry S)} (routeId : Nat)
    (increasing : routes.Pairwise fun first second => first.id < second.id) :
    routes.eraseP (fun route => route.id = routeId) =
      routes.filter fun route => !decide (route.id = routeId) := by
  induction increasing with
  | nil => rfl
  | @cons route routes first _ ih =>
      by_cases same : route.id = routeId
      · have others : routes.filter
            (fun route => !decide (route.id = routeId)) = routes := by
          rw [List.filter_eq_self]
          intro other member
          have less := first other member
          simp
          omega
        rw [List.eraseP_cons_of_pos (by simpa using same),
          List.filter_cons_of_neg (by simpa using same), others]
      · rw [List.eraseP_cons_of_neg (by simpa using same),
          List.filter_cons_of_pos (by simpa using same), ih]

theorem filter_of_absent {routes : List (RouteEntry S)}
    {named : RouteEntry S → Bool}
    (absent : ∀ route ∈ routes, named route = false) :
    routes.filter (fun route => !named route) = routes := by
  rw [List.filter_eq_self]
  intro route member
  rw [absent route member]
  rfl

/-- The route with the identifier is in a bucket. -/
theorem storeBucket_deletes (valid : d.Valid engine) {path : Bytes}
    {bucket : List (RouteEntry S)} {route : RouteEntry S}
    (stored : d.exactRoutes.lookup path = some bucket)
    (member : route ∈ bucket) :
    Deletes d (fun other => other.id = route.id)
      (d.storeBucket path
        (bucket.eraseP fun other => other.id = route.id)) := by
  have registered : route ∈ d.routes :=
    (HttpServletDispatch.mem_routes_iff d route).mpr
      (.inl ⟨path, bucket, stored, member⟩)
  obtain ⟨pattern, kind⟩ := valid.bucket_pattern path bucket stored route member
  constructor
  · intro other
    rw [lookup_storeBucket, eraseP_eq_filter route.id
      (valid.bucket_increasing path bucket stored)]
    split
    · next same =>
        rw [same, stored]
        rfl
    · next apart =>
        cases found : d.exactRoutes.lookup other with
        | none => rfl
        | some routes =>
            refine (shortened_of_forall (valid.bucket_ne other routes found)
              fun second secondMem => ?_).symm
            rw [decide_eq_false_iff_not]
            intro sameId
            have same := valid.id_inj second
              ((HttpServletDispatch.mem_routes_iff d second).mpr
                (.inl ⟨other, routes, found, secondMem⟩))
              route registered sameId
            have here :=
              (valid.bucket_pattern other routes found second secondMem).1
            rw [same, pattern] at here
            exact apart here.symm
  · refine (filter_of_absent fun second secondMem => ?_).symm
    rw [decide_eq_false_iff_not]
    intro sameId
    have same := valid.id_inj second
      ((HttpServletDispatch.mem_routes_iff d second).mpr (.inr secondMem))
      route registered sameId
    exact valid.dynamic_kind second secondMem (same ▸ kind)

/-- No bucket has a route with the identifier. -/
theorem eraseDynamic_deletes (valid : d.Valid engine) {routeId : Nat}
    (absent : ∀ route ∈ d.exactEntries, route.id ≠ routeId) :
    Deletes d (fun route => route.id = routeId)
      { d with
        dynamicRoutes :=
          d.dynamicRoutes.eraseP fun route => route.id = routeId } := by
  constructor
  · intro path
    cases stored : d.exactRoutes.lookup path with
    | none => rfl
    | some bucket =>
        refine (shortened_of_forall (valid.bucket_ne path bucket stored)
          fun route member => ?_).symm
        simpa using absent route
          ((mem_exactEntries_iff d route).mpr ⟨path, bucket, stored, member⟩)
  · exact eraseP_eq_filter routeId valid.dynamic_increasing

theorem removeRouteById_deletes (valid : d.Valid engine) (routeId : Nat) :
    Deletes d (fun route => route.id = routeId) (d.removeRouteById routeId).2 ∧
      (d.removeRouteById routeId).1 =
        d.routes.any fun route => route.id = routeId := by
  rw [routes, List.any_append, exactEntries, List.any_flatMap]
  simp only [removeRouteById]
  split
  · next bucket found =>
      obtain ⟨path, bucket⟩ := bucket
      have inside := List.find?_some (p := fun bucket :
        Sigma fun _ : Bytes => List (RouteEntry S) =>
          bucket.2.any fun route => route.id = routeId) found
      obtain ⟨route, member, hasId⟩ := List.any_eq_true.mp inside
      have hasId : route.id = routeId := by simpa using hasId
      subst hasId
      have inTable := List.mem_of_find?_eq_some found
      have some : d.exactRoutes.entries.any (fun bucket =>
          bucket.2.any fun other => other.id = route.id) = true :=
        List.any_eq_true.mpr ⟨_, inTable, inside⟩
      rw [some, Bool.true_or]
      exact ⟨storeBucket_deletes valid (AList.mem_lookup_iff.mpr inTable)
        member, rfl⟩
  · next noBucket =>
      rw [List.find?_eq_none] at noBucket
      have none : d.exactRoutes.entries.any (fun bucket =>
          bucket.2.any fun route => route.id = routeId) = false :=
        List.any_eq_false.mpr noBucket
      have absent : ∀ route ∈ d.exactEntries, route.id ≠ routeId := by
        intro route member sameId
        obtain ⟨bucket, inTable, inBucket⟩ := List.mem_flatMap.mp member
        exact noBucket bucket inTable
          (List.any_eq_true.mpr ⟨route, inBucket, by simpa using sameId⟩)
      have deletes := eraseDynamic_deletes valid absent
      rw [none, Bool.false_or]
      cases some : d.dynamicRoutes.any fun route => route.id = routeId with
      | true => exact ⟨deletes, rfl⟩
      | false =>
          rw [List.eraseP_of_forall_not (List.any_eq_false.mp some)] at deletes
          exact ⟨deletes, rfl⟩

/-- The selected routes of a pattern. -/
def selectedOf (pattern : Bytes) (selected : RouteEntry S → Bool)
    (route : RouteEntry S) : Bool :=
  route.pattern = pattern ∧ selected route

theorem selectedOf_eq {pattern : Bytes} {route : RouteEntry S}
    (selected : RouteEntry S → Bool) (same : route.pattern = pattern) :
    selectedOf pattern selected route = selected route := by
  simp [selectedOf, same]

theorem removeSelected_deletes (valid : d.Valid engine) (pattern : Bytes)
    (selected : RouteEntry S → Bool) :
    Deletes d (selectedOf pattern selected)
        (d.removeSelected pattern selected).2 ∧
      (d.removeSelected pattern selected).1 =
        d.routes.countP (selectedOf pattern selected) := by
  have others {path : Bytes} (apart : path ≠ pattern) :
      d.exactRoutes.lookup path = (d.exactRoutes.lookup path).bind
        (shortened (selectedOf pattern selected)) := by
    cases stored : d.exactRoutes.lookup path with
    | none => rfl
    | some bucket =>
        refine (shortened_of_forall (valid.bucket_ne path bucket stored)
          fun route member => ?_).symm
        have other := (valid.bucket_pattern path bucket stored route member).1
        simp [selectedOf, other, apart]
  have counted : d.exactEntries.countP (selectedOf pattern selected) =
      ((d.exactRoutes.lookup pattern).getD []).countP selected := by
    have bucket := valid.filter_visited (List.Perm.refl _) pattern
    rw [← bucket, List.countP_filter]
    refine List.countP_congr fun route _ => ?_
    simp [selectedOf, and_comm]
  rw [routes, List.countP_append, counted]
  cases stored : d.exactRoutes.lookup pattern with
  | none =>
      simp only [removeSelected, stored]
      refine ⟨⟨?_, rfl⟩, rfl⟩
      intro path
      by_cases same : path = pattern
      · rw [same, stored]
        rfl
      · exact others same
  | some bucket =>
      simp only [removeSelected, stored]
      refine ⟨⟨?_, rfl⟩, rfl⟩
      intro path
      have kept : bucket.filter (fun route => !selected route) =
          bucket.filter fun route => !selectedOf pattern selected route := by
        refine List.filter_congr fun route member => ?_
        rw [selectedOf_eq selected
          (valid.bucket_pattern pattern bucket stored route member).1]
      rw [lookup_storeBucket]
      split
      · next same =>
          rw [same, stored, Option.bind_some, shortened, kept]
      · next apart => exact others apart

theorem Valid.id_ne_next (valid : d.Valid engine) {route : RouteEntry S}
    (member : route ∈ d.routes) :
    decide (route.id = d.nextRouteId) = false := by
  have less := (valid.entry route member).id_lt
  rw [decide_eq_false_iff_not]
  omega

theorem Stores.mem_new {methods : MethodMask} {pattern : Bytes} {servlet : S}
    {larger : HttpServletDispatch S}
    (stored : Stores engine d methods pattern servlet larger) :
    d.newEntry engine methods pattern servlet ∈ larger.routes := by
  rw [HttpServletDispatch.mem_routes_iff]
  cases stored with
  | exactRoute kind noConflict =>
      exact .inl ⟨pattern, _, AList.lookup_insert _, by simp⟩
  | dynamicRoute kind noConflict => exact .inr (by simp)

/-- Deleting the newest entry gives the routes as they were. -/
theorem Stores.sameRoutes {methods : MethodMask} {pattern : Bytes}
    {servlet : S} {larger smaller : HttpServletDispatch S}
    (valid : d.Valid engine)
    (stored : Stores engine d methods pattern servlet larger)
    (deletes : Deletes larger (fun route => route.id = d.nextRouteId)
      smaller) : SameRoutes smaller d := by
  have spared {path : Bytes} {bucket : List (RouteEntry S)}
      (found : d.exactRoutes.lookup path = some bucket) :
      ∀ route ∈ bucket, decide (route.id = d.nextRouteId) = false :=
    fun route member => valid.id_ne_next
      ((HttpServletDispatch.mem_routes_iff d route).mpr
        (.inl ⟨path, bucket, found, member⟩))
  have others (path : Bytes) : (d.exactRoutes.lookup path).bind
      (shortened fun route => route.id = d.nextRouteId) =
        d.exactRoutes.lookup path := by
    cases found : d.exactRoutes.lookup path with
    | none => rfl
    | some bucket =>
        exact shortened_of_forall (valid.bucket_ne path bucket found)
          (spared found)
  have sparedDynamic : ∀ route ∈ d.dynamicRoutes,
      decide (route.id = d.nextRouteId) = false :=
    fun route member => valid.id_ne_next
      ((HttpServletDispatch.mem_routes_iff d route).mpr (.inr member))
  obtain ⟨lookup, dynamic⟩ := deletes
  cases stored with
  | exactRoute kind noConflict =>
      refine ⟨?_, dynamic.trans (filter_of_absent sparedDynamic)⟩
      intro path
      rw [lookup]
      by_cases same : path = pattern
      · subst same
        rw [AList.lookup_insert, Option.bind_some, shortened,
          List.filter_append]
        cases found : d.exactRoutes.lookup path with
        | none => simp [newEntry]
        | some bucket =>
            rw [Option.getD_some, filter_of_absent (spared found)]
            simp [newEntry, valid.bucket_ne path bucket found]
      · rw [AList.lookup_insert_ne same]
        exact others path
  | dynamicRoute kind noConflict =>
      refine ⟨fun path => (lookup path).trans (others path), ?_⟩
      rw [dynamic, List.filter_append, filter_of_absent sparedDynamic]
      simp [newEntry]

end

/-! ## The laws of the table -/

/-- A removal deletes the named routes and nothing else, and paths without a
named route are served as before. -/
structure Removes (engine : MatchEngine)
    (run : S → HttpContext → HttpContext) (d : HttpServletDispatch S)
    (named : RouteEntry S → Bool) (smaller : HttpServletDispatch S) :
    Prop where
  routes : smaller.routes.Perm (d.routes.filter fun route => !named route)
  dispatch : ∀ context,
    (∀ route ∈ d.routes, named route = true →
      route.matchesPath engine context.request.path = false) →
      smaller.handle engine run context = d.handle engine run context

/-- What the calls of a client do to the routes a table lists and to its
answers. -/
structure TableLaws (engine : MatchEngine)
    (run : S → HttpContext → HttpContext) (d : HttpServletDispatch S) :
    Prop where
  addFails : ∀ methods pattern servlet,
    (d.addRoute engine methods pattern servlet).1.status ≠ .Ok →
      (d.addRoute engine methods pattern servlet).2 = d
  addThenRemove : ∀ methods pattern servlet,
    let added := d.addRoute engine methods pattern servlet
    let removed := added.2.removeRouteById added.1.routeId
    added.1.status = .Ok →
      removed.1 = true ∧
        (∀ order order', d.Iterates order → removed.2.Iterates order' →
          (removed.2.listRoutes order').Perm (d.listRoutes order)) ∧
        ∀ context, removed.2.handle engine run context =
          d.handle engine run context
  removeById : ∀ routeId,
    (d.removeRouteById routeId).1 =
        d.routes.any (fun route => route.id = routeId) ∧
      Removes engine run d (fun route => route.id = routeId)
        (d.removeRouteById routeId).2
  removeByMethods : ∀ pattern methods,
    (d.removeRouteByMethods pattern methods).1 =
        d.routes.countP (fun route =>
          route.pattern = pattern ∧ route.methods = methods) ∧
      Removes engine run d
        (fun route => route.pattern = pattern ∧ route.methods = methods)
        (d.removeRouteByMethods pattern methods).2
  removeByPattern : ∀ pattern,
    (d.removeRouteByPattern pattern).1 =
        d.routes.countP (fun route => route.pattern = pattern) ∧
      Removes engine run d (fun route => route.pattern = pattern)
        (d.removeRouteByPattern pattern).2
  lists : ∀ order, d.Iterates order →
    (d.listRoutes order).Perm (d.routes.map RouteEntry.info)
  listsPattern : ∀ order, d.Iterates order → ∀ pattern,
    d.listRoutesOf pattern =
      (d.listRoutes order).filter fun info => info.pattern = pattern
  gets : ∀ order, d.Iterates order → ∀ routeId,
    (∀ info ∈ d.listRoutes order, info.id = routeId →
      d.getRoute order routeId = info) ∧
    ((∀ info ∈ d.listRoutes order, info.id ≠ routeId) →
      (d.getRoute order routeId).id = 0)

section

variable {engine : MatchEngine} {d : HttpServletDispatch S}

theorem Deletes.removes {smaller : HttpServletDispatch S}
    {named : RouteEntry S → Bool} (deletes : Deletes d named smaller)
    (valid : d.Valid engine) (smallerValid : smaller.Valid engine)
    (run : S → HttpContext → HttpContext) :
    Removes engine run d named smaller where
  routes := deletes.routes_perm valid smallerValid
  dispatch := fun _ spared => deletes.handle_eq valid run spared

theorem Valid.removes_selected (valid : d.Valid engine)
    (run : S → HttpContext → HttpContext) (pattern : Bytes)
    {selected named : RouteEntry S → Bool}
    (same : selectedOf pattern selected = named) :
    (d.removeSelected pattern selected).1 = d.routes.countP named ∧
      Removes engine run d named (d.removeSelected pattern selected).2 := by
  subst same
  obtain ⟨deletes, counted⟩ := removeSelected_deletes valid pattern selected
  exact ⟨counted, deletes.removes valid
    (valid.of_subtable (removeSelected_subtable valid pattern selected)) run⟩

theorem Valid.addThenRemove (valid : d.Valid engine)
    (run : S → HttpContext → HttpContext) (methods : MethodMask)
    (pattern : Bytes) (servlet : Option S) :
    let added := d.addRoute engine methods pattern servlet
    let removed := added.2.removeRouteById added.1.routeId
    added.1.status = .Ok →
      removed.1 = true ∧
        (∀ order order', d.Iterates order → removed.2.Iterates order' →
          (removed.2.listRoutes order').Perm (d.listRoutes order)) ∧
        ∀ context, removed.2.handle engine run context =
          d.handle engine run context := by
  intro added removed ok
  rcases addRoute_cases engine d methods pattern servlet rfl with
    ⟨failed, _⟩ | ⟨answer, checked, servlet', stored⟩
  · exact absurd ok failed
  · have largerValid := stored.valid valid checked
    have newest : removed = added.2.removeRouteById d.nextRouteId := by
      simp only [removed, added, answer]
    rw [newest]
    obtain ⟨deletes, found⟩ :=
      removeRouteById_deletes largerValid d.nextRouteId
    have same := stored.sameRoutes valid deletes
    have smallerValid := largerValid.of_subtable
      (removeRouteById_subtable largerValid d.nextRouteId)
    refine ⟨?_, ?_, same.handle_eq run⟩
    · rw [found, List.any_eq_true]
      exact ⟨d.newEntry engine methods pattern servlet', stored.mem_new,
        by simp [newEntry]⟩
    · intro order order' iterates iterates'
      exact iterates'.listRoutes_perm.trans
        (((same.routes_perm smallerValid valid).map _).trans
          iterates.listRoutes_perm.symm)

/-- Every reachable table obeys the laws. -/
theorem applyCalls_new_tableLaws (engine : MatchEngine)
    (run : S → HttpContext → HttpContext) (calls : List (RouteCall S)) :
    ((new : HttpServletDispatch S).applyCalls engine calls).TableLaws engine
      run := by
  have valid := applyCalls_valid (new_valid (S := S) engine) calls
  generalize (new : HttpServletDispatch S).applyCalls engine calls = d at valid
  exact
    { addFails := by
        intro methods pattern servlet failed
        rcases addRoute_cases engine d methods pattern servlet rfl with
          ⟨_, unchanged⟩ | ⟨answer, _⟩
        · exact unchanged
        · exact absurd (by rw [answer]) failed
      addThenRemove := valid.addThenRemove run
      removeById := by
        intro routeId
        obtain ⟨deletes, found⟩ := removeRouteById_deletes valid routeId
        exact ⟨found, deletes.removes valid
          (valid.of_subtable (removeRouteById_subtable valid routeId)) run⟩
      removeByMethods := fun pattern methods =>
        valid.removes_selected run pattern (by
          funext route
          simp [selectedOf])
      removeByPattern := fun pattern =>
        valid.removes_selected run pattern (by
          funext route
          simp [selectedOf])
      lists := fun order iterates => iterates.listRoutes_perm
      listsPattern := fun order iterates => valid.listRoutesOf_eq iterates
      gets := by
        intro order iterates routeId
        obtain ⟨listed, absent⟩ := valid.getRoute_cases iterates routeId
        exact ⟨listed, fun none => by rw [absent none]⟩ }

/-- A wildcard route beside an exact one is listed, and removed again. -/
theorem tableLaws_removedAgain :
    let d := (new : HttpServletDispatch Nat).applyCalls oneSegmentEngine
      [.addRoute ExpectHttpMethods.Get (ascii "/a") (some 0)]
    let added := d.addRoute oneSegmentEngine ExpectHttpMethods.Post
      (ascii "/*") (some 1)
    let removed := added.2.removeRouteById added.1.routeId
    added.1.status = .Ok ∧
      (added.2.listRoutes added.2.exactRoutes.entries).map RouteInfo.pattern =
        [ascii "/a", ascii "/*"] ∧
      removed.1 = true ∧
      (removed.2.listRoutes removed.2.exactRoutes.entries).Perm
        (d.listRoutes d.exactRoutes.entries) := by
  intro d added removed
  have laws := applyCalls_new_tableLaws oneSegmentEngine
    (fun (_ : Nat) context => context)
    [.addRoute ExpectHttpMethods.Get (ascii "/a") (some 0)]
  have ok : added.1.status = .Ok := by decide
  obtain ⟨found, listed, _⟩ := laws.addThenRemove ExpectHttpMethods.Post
    (ascii "/*") (some 1) ok
  exact ⟨ok, by decide, found, listed _ _ (.refl _) (.refl _)⟩

end

end HttpServletDispatch

end KitMuduo
