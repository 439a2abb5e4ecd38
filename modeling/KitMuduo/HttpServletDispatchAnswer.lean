import KitMuduo.HttpServletDispatchRuns

/-!
# Which answer a request gets

The purpose of the table is stated over the set of all registered routes that
match a path.  `handle` serves it when the path has no bucket of exact routes
that hides a dynamic route: once a bucket is found, the dynamic routes are not
consulted any more.
-/

namespace KitMuduo

open HttpServletDispatch

variable {S : Type*}

/-- A registered route matches a path. -/
def RouteEntry.matchesPath (engine : MatchEngine) (path : Bytes)
    (route : RouteEntry S) : Bool :=
  match route.kind with
  | .Exact => route.pattern = path
  | _ => route.matcher.any fun matcher => matcher.MatchPath engine path

namespace HttpServletDispatch

/-- All registered routes that match a path. -/
def matchingRoutes (engine : MatchEngine) (d : HttpServletDispatch S)
    (path : Bytes) : List (RouteEntry S) :=
  d.routes.filter (RouteEntry.matchesPath engine path)

/-- What the table is for: a route that matches the path and allows the method
is served; a path without such a route is refused with the methods of its
routes; a path without routes goes to the default servlet. -/
structure Answers (engine : MatchEngine) (run : S → HttpContext → HttpContext)
    (d : HttpServletDispatch S) (context : HttpContext) : Prop where
  serves : ∀ allowed ∈ d.matchingRoutes engine context.request.path,
    MethodAllowed allowed.methods context.request.method = true →
      ∃ route ∈ d.matchingRoutes engine context.request.path,
        MethodAllowed route.methods context.request.method = true ∧
        ∃ servlet routeParams, route.servlet = some servlet ∧
          d.handle engine run context =
            (.servlet servlet,
              run servlet
                { context with
                  request :=
                    { context.request with routeParams := routeParams } })
  refuses : d.matchingRoutes engine context.request.path ≠ [] →
    (∀ route ∈ d.matchingRoutes engine context.request.path,
      MethodAllowed route.methods context.request.method = false) →
      (d.handle engine run context).1 = .methodNotAllowed ∧
      (d.handle engine run context).2.response.stateCode =
        StateCode.k405MethodNotAllowed ∧
      (d.handle engine run context).2.response.headers.lookup
          (ascii "Allow") =
        some (BuildAllowHeader
          (unionMethods (d.matchingRoutes engine context.request.path)))
  defaults : d.matchingRoutes engine context.request.path = [] →
    d.handle engine run context = (.default, notFound404 context)

/-- No dynamic route is hidden by the exact routes of the path: there are
none, or one of them serves the method, or they have all the methods of the
matching dynamic routes. -/
def NothingHidden (engine : MatchEngine) (d : HttpServletDispatch S)
    (request : HttpRequest) : Prop :=
  ∀ bucket, d.exactRoutes.lookup request.path = some bucket →
    (∃ route ∈ bucket, MethodAllowed route.methods request.method = true) ∨
    ∀ route ∈ d.dynamicRoutes,
      route.matchesPath engine request.path = true →
        route.methods &&& ~~~ unionMethods bucket = 0

theorem getLsbD_foldl_methods (routes : List (RouteEntry S))
    (start : MethodMask) (bit : Nat) :
    (routes.foldl (fun allowed route => allowed ||| route.methods)
        start).getLsbD bit =
      (start.getLsbD bit || routes.any fun route =>
        route.methods.getLsbD bit) := by
  induction routes generalizing start with
  | nil => simp
  | cons route routes ih =>
      rw [List.foldl_cons, ih, BitVec.getLsbD_or, List.any_cons,
        Bool.or_assoc]

theorem getLsbD_unionMethods (routes : List (RouteEntry S)) (bit : Nat) :
    (unionMethods routes).getLsbD bit =
      routes.any fun route => route.methods.getLsbD bit := by
  rw [unionMethods, getLsbD_foldl_methods]
  simp [ExpectHttpMethods.None]

/-- A union allows the methods that one of its routes allows. -/
theorem methodAllowed_unionMethods (routes : List (RouteEntry S))
    (method : Method) :
    MethodAllowed (unionMethods routes) method = true ↔
      ∃ route ∈ routes, MethodAllowed route.methods method = true := by
  simp only [methodAllowed_iff, getLsbD_unionMethods, List.any_eq_true]
  constructor
  · rintro ⟨known, route, member, isSet⟩
    exact ⟨route, member, known, isSet⟩
  · rintro ⟨route, member, known, isSet⟩
    exact ⟨known, route, member, isSet⟩

/-- Disjointness from a mask, bit by bit. -/
theorem and_eq_zero_iff (first second : MethodMask) :
    first &&& second = 0#32 ↔ ∀ bit, first.getLsbD bit = true →
      second.getLsbD bit = false := by
  constructor
  · intro disjoint bit isSet
    have := congrArg (BitVec.getLsbD · bit) disjoint
    simpa [isSet] using this
  · intro disjoint
    apply BitVec.eq_of_getLsbD_eq
    intro bit bound
    rw [BitVec.getLsbD_and]
    cases isSet : first.getLsbD bit with
    | false => simp
    | true => simp [disjoint bit isSet]

/-- Inclusion of masks, bit by bit. -/
theorem and_not_eq_zero_iff (first second : MethodMask) :
    first &&& ~~~ second = 0#32 ↔ ∀ bit, first.getLsbD bit = true →
      second.getLsbD bit = true := by
  rw [and_eq_zero_iff]
  refine forall_congr' fun bit => imp_congr_right fun isSet => ?_
  have bound : bit < 32 := BitVec.lt_of_getLsbD isSet
  simp [bound]

theorem unionMethods_subset {routes : List (RouteEntry S)} {mask : MethodMask}
    (subset : ∀ route ∈ routes, route.methods &&& ~~~ mask = 0) :
    unionMethods routes &&& ~~~ mask = 0 := by
  refine (and_not_eq_zero_iff _ _).mpr ?_
  intro bit isSet
  rw [getLsbD_unionMethods, List.any_eq_true] at isSet
  obtain ⟨route, member, isSet⟩ := isSet
  exact (and_not_eq_zero_iff _ _).mp (subset route member) bit isSet

/-- A union depends on the set of routes only. -/
theorem unionMethods_congr {routes others : List (RouteEntry S)}
    (same : ∀ route, route ∈ routes ↔ route ∈ others) :
    unionMethods routes = unionMethods others := by
  apply BitVec.eq_of_getLsbD_eq
  intro bit _
  rw [getLsbD_unionMethods, getLsbD_unionMethods, Bool.eq_iff_iff,
    List.any_eq_true, List.any_eq_true]
  simp only [same]

/-- Adding routes changes a union unless their methods are there already. -/
theorem unionMethods_append_eq_iff (routes more : List (RouteEntry S)) :
    unionMethods routes = unionMethods (routes ++ more) ↔
      ∀ route ∈ more, route.methods &&& ~~~ unionMethods routes = 0 := by
  constructor
  · intro same route member
    refine (and_not_eq_zero_iff _ _).mpr ?_
    intro bit isSet
    rw [same, getLsbD_unionMethods, List.any_eq_true]
    exact ⟨route, List.mem_append_right _ member, isSet⟩
  · intro included
    apply BitVec.eq_of_getLsbD_eq
    intro bit _
    rw [getLsbD_unionMethods, getLsbD_unionMethods, List.any_append]
    cases added : more.any fun route => route.methods.getLsbD bit with
    | false => simp
    | true =>
        obtain ⟨route, member, isSet⟩ := List.any_eq_true.mp added
        have present :=
          (and_not_eq_zero_iff _ _).mp (included route member) bit isSet
        rw [getLsbD_unionMethods] at present
        simp [present]

/-- Storing captured parameters changes nothing else in a request. -/
theorem foldl_addRouteParam (params : List (Bytes × Bytes))
    (request : HttpRequest) :
    ∃ routeParams,
      params.foldl
        (fun request param => request.addRouteParam param.1 param.2) request =
      { request with routeParams := routeParams } := by
  induction params generalizing request with
  | nil => exact ⟨request.routeParams, rfl⟩
  | cons param params ih =>
      obtain ⟨routeParams, result⟩ :=
        ih (request.addRouteParam param.1 param.2)
      exact ⟨routeParams, result⟩

theorem match_request (engine : MatchEngine) (matcher : RouterMatcher)
    (request : HttpRequest) :
    ∃ routeParams, (matcher.Match engine request).2 =
      { request with routeParams := routeParams } := by
  cases matcher with
  | glob pattern => exact ⟨request.routeParams, rfl⟩
  | regex pattern target names =>
      cases found : engine.regexMatch target request.path with
      | none =>
          exact ⟨request.routeParams, by simp [RouterMatcher.Match, found]⟩
      | some groups =>
          simp only [RouterMatcher.Match, found]
          exact foldl_addRouteParam _ request

theorem matchesPath_dynamic {engine : MatchEngine} {route : RouteEntry S}
    (path : Bytes) {matcher : RouterMatcher} (kind : route.kind ≠ .Exact)
    (hasMatcher : route.matcher = some matcher) :
    route.matchesPath engine path = matcher.MatchPath engine path := by
  cases kindIs : route.kind with
  | Exact => exact absurd kindIs kind
  | Regex | Glob => simp [RouteEntry.matchesPath, kindIs, hasMatcher]

/-- The search through complete dynamic routes selects the first one that
matches the path and allows the method. -/
theorem matchDynamic_found {engine : MatchEngine}
    {routes : List (RouteEntry S)} (request : HttpRequest)
    (allowed : MethodMask)
    (complete : ∀ route ∈ routes, route.kind ≠ .Exact ∧
      route.matcher.isSome ∧ route.servlet.isSome) :
    (∃ route ∈ routes, ∃ servlet routeParams,
      route.matchesPath engine request.path = true ∧
      MethodAllowed route.methods request.method = true ∧
      route.servlet = some servlet ∧
      matchDynamic engine request allowed routes =
        (⟨.Found, some servlet, route.methods⟩,
          { request with routeParams := routeParams })) ∨
    ((∀ route ∈ routes, route.matchesPath engine request.path = true →
      MethodAllowed route.methods request.method = false) ∧
      ∃ status,
        let matching :=
          routes.filter (RouteEntry.matchesPath engine request.path)
        let union := matching.foldl
          (fun allowed route => allowed ||| route.methods) allowed
        matchDynamic engine request allowed routes =
          (⟨status, none, union⟩, request) ∧
        status = if union ≠ ExpectHttpMethods.None then
          .PathFoundMethodNotAllowed else .NotFound) := by
  induction routes generalizing allowed with
  | nil =>
      right
      refine ⟨by simp, ?_⟩
      by_cases none : allowed = ExpectHttpMethods.None <;>
        simp [matchDynamic, none]
  | cons route routes ih =>
      have rest := fun allowed => ih allowed fun other member =>
        complete other (List.mem_cons_of_mem _ member)
      obtain ⟨kind, someMatcher, someServlet⟩ :=
        complete route List.mem_cons_self
      obtain ⟨matcher, hasMatcher⟩ := Option.isSome_iff_exists.mp someMatcher
      obtain ⟨servlet, hasServlet⟩ := Option.isSome_iff_exists.mp someServlet
      have matchesEq : route.matchesPath engine request.path =
          matcher.MatchPath engine request.path :=
        matchesPath_dynamic request.path kind hasMatcher
      cases pathMatches : matcher.MatchPath engine request.path with
      | false =>
          rw [pathMatches] at matchesEq
          have skipped : matchDynamic engine request allowed
              (route :: routes) =
                matchDynamic engine request allowed routes := by
            simp [matchDynamic, hasMatcher, hasServlet, pathMatches]
          rcases rest allowed with
            ⟨other, member, found⟩ | ⟨noneAllows, answer⟩
          · left
            exact ⟨other, List.mem_cons_of_mem _ member, skipped ▸ found⟩
          · right
            rw [skipped, List.filter_cons_of_neg (by simp [matchesEq])]
            exact ⟨by simpa [matchesEq] using noneAllows, answer⟩
      | true =>
          rw [pathMatches] at matchesEq
          cases allows : MethodAllowed route.methods request.method with
          | true =>
              left
              obtain ⟨routeParams, stored⟩ :=
                match_request engine matcher request
              refine ⟨route, List.mem_cons_self, servlet, routeParams,
                matchesEq, allows, hasServlet, ?_⟩
              simp [matchDynamic, hasMatcher, hasServlet, pathMatches, allows,
                stored]
          | false =>
              have collected : matchDynamic engine request allowed
                  (route :: routes) =
                    matchDynamic engine request (allowed ||| route.methods)
                      routes := by
                simp [matchDynamic, hasMatcher, hasServlet, pathMatches,
                  allows]
              rcases rest (allowed ||| route.methods) with
                ⟨other, member, found⟩ | ⟨noneAllows, answer⟩
              · left
                exact ⟨other, List.mem_cons_of_mem _ member, collected ▸ found⟩
              · right
                rw [collected, List.filter_cons_of_pos matchesEq]
                refine ⟨?_, answer⟩
                intro other member
                rcases List.mem_cons.mp member with rfl | member
                · exact fun _ => allows
                · exact noneAllows other member

section

variable {engine : MatchEngine} {run : S → HttpContext → HttpContext}
  {d : HttpServletDispatch S} {context : HttpContext}

/-- The routes matching a path are its bucket and the matching dynamic
routes. -/
theorem Valid.mem_matchingRoutes_iff (valid : d.Valid engine) (path : Bytes)
    (route : RouteEntry S) :
    route ∈ d.matchingRoutes engine path ↔
      (∃ bucket, d.exactRoutes.lookup path = some bucket ∧
        route ∈ bucket) ∨
      (route ∈ d.dynamicRoutes ∧ route.matchesPath engine path = true) := by
  rw [matchingRoutes, List.mem_filter, mem_routes_iff]
  constructor
  · rintro ⟨⟨pattern, bucket, found, inBucket⟩ | inDynamic, pathMatches⟩
    · left
      obtain ⟨patternEq, kind⟩ :=
        valid.bucket_pattern pattern bucket found route inBucket
      have samePath : route.pattern = path := by
        simpa [RouteEntry.matchesPath, kind] using pathMatches
      exact ⟨bucket, by rw [← samePath, patternEq, found], inBucket⟩
    · exact Or.inr ⟨inDynamic, pathMatches⟩
  · rintro (⟨bucket, found, inBucket⟩ | ⟨inDynamic, pathMatches⟩)
    · obtain ⟨patternEq, kind⟩ :=
        valid.bucket_pattern path bucket found route inBucket
      exact ⟨Or.inl ⟨path, bucket, found, inBucket⟩,
        by simp [RouteEntry.matchesPath, kind, patternEq]⟩
    · exact ⟨Or.inr inDynamic, pathMatches⟩

theorem Valid.dynamic_complete (valid : d.Valid engine) :
    ∀ route ∈ d.dynamicRoutes, route.kind ≠ .Exact ∧
      route.matcher.isSome ∧ route.servlet.isSome := by
  intro route member
  have kind := valid.dynamic_kind route member
  have entry := valid.entry route
    ((mem_routes_iff d route).mpr (Or.inr member))
  exact ⟨kind, (entry.matcher kind).1, entry.servlet⟩

/-- The response of the 405 branch. -/
theorem methodNotAllowed405_response (allowed : MethodMask)
    (context : HttpContext) :
    (methodNotAllowed405 allowed context).response.stateCode =
        StateCode.k405MethodNotAllowed ∧
      (methodNotAllowed405 allowed context).response.headers.lookup
          (ascii "Allow") = some (BuildAllowHeader allowed) := by
  refine ⟨rfl, ?_⟩
  have different : ascii "Allow" ≠ ascii "Content-Length" := by decide
  simp [methodNotAllowed405, HttpResponse.addHeader,
    Finmap.lookup_insert_of_ne _ different]

theorem Valid.unionMethods_matching_ne (valid : d.Valid engine) {path : Bytes}
    (someMatch : d.matchingRoutes engine path ≠ []) :
    unionMethods (d.matchingRoutes engine path) ≠ ExpectHttpMethods.None := by
  obtain ⟨route, member⟩ := List.exists_mem_of_ne_nil _ someMatch
  intro none
  have allNone := ((foldl_methods_eq_zero_iff _ _).mp none).2
  have registered : route ∈ d.routes := (List.mem_filter.mp member).1
  exact (valid.entry route registered).methods_ne (allNone route member)

/-- Without a bucket for the path the table answers as it should. -/
theorem Valid.answers_of_lookup_eq_none (valid : d.Valid engine)
    (noBucket : d.exactRoutes.lookup context.request.path = none) :
    d.Answers engine run context := by
  let matching := d.dynamicRoutes.filter
    (RouteEntry.matchesPath engine context.request.path)
  have matching_iff (route : RouteEntry S) :
      route ∈ d.matchingRoutes engine context.request.path ↔
        route ∈ matching := by
    rw [valid.mem_matchingRoutes_iff, noBucket, List.mem_filter]
    simp
  have route_eq : d.matchRoute engine context.request =
      matchDynamic engine context.request ExpectHttpMethods.None
        d.dynamicRoutes := by
    simp [matchRoute, noBucket]
  rcases matchDynamic_found context.request ExpectHttpMethods.None
      valid.dynamic_complete with
    ⟨route, member, servlet, routeParams, pathMatches, allows, hasServlet,
      found⟩ | ⟨noneAllows, status, answer, status_eq⟩
  · have isMatching := (matching_iff route).mpr
      (List.mem_filter.mpr ⟨member, pathMatches⟩)
    have handled : d.handle engine run context =
        (.servlet servlet, run servlet
          { context with
            request := { context.request with routeParams := routeParams } }) := by
      simp [handle, route_eq, found]
    exact
      { serves := fun _ _ _ =>
          ⟨route, isMatching, allows, servlet, routeParams, hasServlet, handled⟩
        refuses := fun _ refused =>
          absurd allows (by simp [refused route isMatching])
        defaults := fun empty => by simp [empty] at isMatching }
  · have union_eq : unionMethods (d.matchingRoutes engine
        context.request.path) = unionMethods matching :=
      unionMethods_congr matching_iff
    change status = (if unionMethods matching ≠ ExpectHttpMethods.None then
      .PathFoundMethodNotAllowed else .NotFound) at status_eq
    exact
      { serves := by
          intro route member allows
          obtain ⟨inDynamic, pathMatches⟩ :=
            List.mem_filter.mp ((matching_iff route).mp member)
          exact absurd allows (by simp [noneAllows route inDynamic pathMatches])
        refuses := by
          intro someMatch _
          have nonempty := valid.unionMethods_matching_ne someMatch
          rw [union_eq] at nonempty ⊢
          have handled : d.handle engine run context =
              (.methodNotAllowed,
                methodNotAllowed405 (unionMethods matching) context) := by
            rw [if_pos nonempty] at status_eq
            simp [handle, route_eq, answer, status_eq, unionMethods, matching]
          rw [handled]
          exact ⟨rfl, methodNotAllowed405_response _ _⟩
        defaults := by
          intro noMatch
          have empty : matching = [] := by
            rw [List.eq_nil_iff_forall_not_mem]
            intro route member
            simpa [noMatch] using (matching_iff route).mpr member
          have noMethods :
              unionMethods matching = ExpectHttpMethods.None := by
            rw [empty]
            rfl
          rw [if_neg (not_not.mpr noMethods)] at status_eq
          simp [handle, route_eq, answer, status_eq] }

/-- A bucket with an entry for the method answers as it should. -/
theorem Valid.answers_of_bucket_allows (valid : d.Valid engine)
    {bucket : List (RouteEntry S)}
    (found : d.exactRoutes.lookup context.request.path = some bucket)
    {route : RouteEntry S}
    (first : bucket.find? (fun route =>
      MethodAllowed route.methods context.request.method) = some route) :
    d.Answers engine run context := by
  have member := List.mem_of_find?_eq_some first
  have allows := List.find?_some first
  have registered : route ∈ d.routes := (mem_routes_iff d route).mpr
    (Or.inl ⟨_, bucket, found, member⟩)
  obtain ⟨servlet, hasServlet⟩ :=
    Option.isSome_iff_exists.mp (valid.entry route registered).servlet
  have isMatching := (valid.mem_matchingRoutes_iff _ route).mpr
    (Or.inl ⟨bucket, found, member⟩)
  have handled : d.handle engine run context =
      (.servlet servlet, run servlet context) := by
    simp [handle, matchRoute, found, matchExact_eq, first, hasServlet]
  exact
    { serves := fun _ _ _ =>
        ⟨route, isMatching, allows, servlet, context.request.routeParams,
          hasServlet, handled⟩
      refuses := fun _ refused =>
        absurd allows (by simp [refused route isMatching])
      defaults := fun empty => by simp [empty] at isMatching }

/-- A bucket without an entry for the method answers as it should when the
matching dynamic routes have no further methods. -/
theorem Valid.answers_iff_of_bucket_refuses (valid : d.Valid engine)
    {bucket : List (RouteEntry S)}
    (found : d.exactRoutes.lookup context.request.path = some bucket)
    (noneAllows : ∀ route ∈ bucket,
      MethodAllowed route.methods context.request.method = false) :
    d.Answers engine run context ↔
      ∀ route ∈ d.dynamicRoutes,
        route.matchesPath engine context.request.path = true →
          route.methods &&& ~~~ unionMethods bucket = 0 := by
  let path := context.request.path
  let dynamicMatching :=
    d.dynamicRoutes.filter (RouteEntry.matchesPath engine path)
  have matching_iff (route : RouteEntry S) :
      route ∈ d.matchingRoutes engine path ↔
        route ∈ bucket ++ dynamicMatching := by
    rw [valid.mem_matchingRoutes_iff, found, List.mem_append,
      List.mem_filter]
    simp
  have union_eq : unionMethods (d.matchingRoutes engine path) =
      unionMethods (bucket ++ dynamicMatching) :=
    unionMethods_congr matching_iff
  have handled : d.handle engine run context =
      (.methodNotAllowed,
        methodNotAllowed405 (unionMethods bucket) context) := by
    have noneFound : bucket.find? (fun route =>
        MethodAllowed route.methods context.request.method) = none := by
      rw [List.find?_eq_none]
      simpa using noneAllows
    simp [handle, matchRoute, found, matchExact_eq, noneFound, unionMethods]
  have someMatch : d.matchingRoutes engine path ≠ [] := by
    obtain ⟨route, member⟩ :=
      List.exists_mem_of_ne_nil bucket (valid.bucket_ne _ _ found)
    exact List.ne_nil_of_mem
      ((matching_iff route).mpr (List.mem_append_left _ member))
  have included_iff : unionMethods bucket =
      unionMethods (d.matchingRoutes engine path) ↔
        ∀ route ∈ d.dynamicRoutes, route.matchesPath engine path = true →
          route.methods &&& ~~~ unionMethods bucket = 0 := by
    rw [union_eq, unionMethods_append_eq_iff]
    simp only [dynamicMatching, List.mem_filter, and_imp]
  have subset : ∀ route ∈ d.matchingRoutes engine path,
      route.methods &&& ~~~ ExpectHttpMethods.All = 0 := fun route member =>
    (valid.entry route (List.mem_filter.mp member).1).methods_subset
  rw [← included_iff]
  constructor
  · intro answers
    have refused : ∀ route ∈ d.matchingRoutes engine path,
        MethodAllowed route.methods context.request.method = false := by
      intro route member
      by_contra allows
      obtain ⟨_, _, _, _, _, _, served⟩ :=
        answers.serves route member (by simpa using allows)
      rw [handled] at served
      cases served
    obtain ⟨_, _, allow⟩ := answers.refuses someMatch refused
    rw [handled, (methodNotAllowed405_response _ _).2,
      Option.some.injEq] at allow
    apply buildAllowHeader_inj ?_ (unionMethods_subset subset) allow
    exact unionMethods_subset fun route member => subset route
      ((matching_iff route).mpr (List.mem_append_left _ member))
  · intro sameUnion
    have bucketRefuses : ∀ route ∈ d.matchingRoutes engine path,
        MethodAllowed route.methods context.request.method = false := by
      intro route member
      by_contra allows
      have unionAllows := (methodAllowed_unionMethods _ _).mpr
        ⟨route, member, by simpa using allows⟩
      rw [← sameUnion, methodAllowed_unionMethods] at unionAllows
      obtain ⟨served, inBucket, servedAllows⟩ := unionAllows
      simp [noneAllows served inBucket] at servedAllows
    exact
      { serves := fun route member allows => by
          simp [bucketRefuses route member] at allows
        refuses := by
          intro _ _
          rw [handled, ← sameUnion]
          exact ⟨rfl, methodNotAllowed405_response _ _⟩
        defaults := fun empty => absurd empty someMatch }

end

/-- For every reachable table and every request, the answer is the right one
if and only if no dynamic route is hidden by the exact routes of the path. -/
theorem answers_iff_nothingHidden (engine : MatchEngine)
    (run : S → HttpContext → HttpContext) (calls : List (RouteCall S))
    (context : HttpContext) :
    let d := (new : HttpServletDispatch S).applyCalls engine calls
    d.Answers engine run context ↔
      d.NothingHidden engine context.request := by
  intro d
  have valid : d.Valid engine := applyCalls_valid (new_valid engine) calls
  cases found : d.exactRoutes.lookup context.request.path with
  | none =>
      have answers : d.Answers engine run context :=
        valid.answers_of_lookup_eq_none found
      apply iff_of_true answers
      intro bucket exists_
      simp [found] at exists_
  | some bucket =>
      have hidden_iff : d.NothingHidden engine context.request ↔
          (∃ route ∈ bucket,
            MethodAllowed route.methods context.request.method = true) ∨
          ∀ route ∈ d.dynamicRoutes,
            route.matchesPath engine context.request.path = true →
              route.methods &&& ~~~ unionMethods bucket = 0 := by
        simp [NothingHidden, found]
      rw [hidden_iff]
      cases first : bucket.find? (fun route =>
          MethodAllowed route.methods context.request.method) with
      | some route =>
          have allows :
              MethodAllowed route.methods context.request.method = true := by
            simpa using List.find?_some first
          exact iff_of_true (valid.answers_of_bucket_allows found first)
            (Or.inl ⟨route, List.mem_of_find?_eq_some first, allows⟩)
      | none =>
          have noneAllows : ∀ route ∈ bucket,
              MethodAllowed route.methods context.request.method = false := by
            simpa using List.find?_eq_none.mp first
          rw [valid.answers_iff_of_bucket_refuses found noneAllows]
          constructor
          · exact Or.inr
          · rintro (⟨route, member, allows⟩ | included)
            · simp [noneAllows route member] at allows
            · exact included

/-- `GET /a` is an exact route, `POST` has a wildcard route. -/
def hidingTable : HttpServletDispatch Nat :=
  (new : HttpServletDispatch Nat).applyCalls oneSegmentEngine
    [.addRoute ExpectHttpMethods.Get (ascii "/a") (some 0),
      .addRoute ExpectHttpMethods.Post (ascii "/*") (some 1)]

def hiddenRequest : HttpContext :=
  { request := { method := .kPost, path := ascii "/a" } }

/-- `POST /a` is refused although the wildcard route would serve it. -/
theorem not_answers_hidingTable :
    ¬ hidingTable.Answers oneSegmentEngine (fun _ context => context)
      hiddenRequest := by
  intro answers
  have refused : (hidingTable.handle oneSegmentEngine
      (fun _ context => context) hiddenRequest).1 = .methodNotAllowed := by
    rfl
  let wildcard : RouteEntry Nat :=
    ⟨2, .Glob, ascii "/*", ExpectHttpMethods.Post,
      some (.glob (ascii "/*")), some 1⟩
  have registered : hidingTable.dynamicRoutes = [wildcard] := by
    rfl
  have isMatching : wildcard ∈
      hidingTable.matchingRoutes oneSegmentEngine
        hiddenRequest.request.path := by
    apply List.mem_filter.mpr
    refine ⟨List.mem_append_right _ ?_, by decide⟩
    rw [registered]
    exact List.mem_cons_self
  obtain ⟨_, _, _, _, _, _, served⟩ :=
    answers.serves wildcard isMatching (by decide)
  rw [served] at refused
  cases refused

end HttpServletDispatch

end KitMuduo
