import KitMuduo.HttpRouter
import Mathlib.Data.List.AList

/-!
# The route table and its dispatcher

`HttpServletDispatch` keeps exact routes in buckets found by the path and
routes with parameters or wildcards in a list searched in order.  This file
translates the table, its mutating operations, the search for a route and the
dispatch of a request.
-/

namespace KitMuduo

abbrev MethodMask := BitVec 32

namespace ExpectHttpMethods

def None : MethodMask := 0
def Get : MethodMask := 1 <<< 0
def Post : MethodMask := 1 <<< 1
def Head : MethodMask := 1 <<< 2
def Put : MethodMask := 1 <<< 3
def Delete : MethodMask := 1 <<< 4
def All : MethodMask := Get ||| Post ||| Head ||| Put ||| Delete

end ExpectHttpMethods

def ToMethodMask : Method → MethodMask
  | .kGet => ExpectHttpMethods.Get
  | .kPost => ExpectHttpMethods.Post
  | .kHead => ExpectHttpMethods.Head
  | .kPut => ExpectHttpMethods.Put
  | .kDelete => ExpectHttpMethods.Delete
  | .kInvaild => ExpectHttpMethods.None

def MethodAllowed (expected : MethodMask) (actual : Method) : Bool :=
  ToMethodMask actual ≠ ExpectHttpMethods.None ∧
    expected &&& ToMethodMask actual ≠ 0

/-- The lambda `append` of `BuildAllowHeader`, run for a selected method. -/
def appendMethod (methods : MethodMask) (allow : Bytes)
    (selected : MethodMask) (method : Bytes) : Bytes :=
  if methods &&& selected ≠ 0 then
    (if allow ≠ [] then allow ++ ascii ", " else allow) ++ method
  else
    allow

def BuildAllowHeader (methods : MethodMask) : Bytes :=
  let allow := appendMethod methods [] ExpectHttpMethods.Get (ascii "GET")
  let allow := appendMethod methods allow ExpectHttpMethods.Post (ascii "POST")
  let allow := appendMethod methods allow ExpectHttpMethods.Head (ascii "HEAD")
  let allow := appendMethod methods allow ExpectHttpMethods.Put (ascii "PUT")
  appendMethod methods allow ExpectHttpMethods.Delete (ascii "DELETE")

inductive RouteKind
  | Exact
  | Regex
  | Glob
  deriving DecidableEq

inductive RouteStatus
  | Ok
  | InvalidArgument
  | Conflict
  deriving DecidableEq

structure RouteResult where
  status : RouteStatus := .Ok
  routeId : Nat := 0
  message : Bytes := []
  deriving DecidableEq

def IsDynamicParamStart (pattern : Bytes) (pos : Nat) : Bool :=
  pattern[pos]? = some 58 ∧ (pos = 0 ∨ pattern[pos - 1]? = some 47) ∧
    pos + 1 < pattern.length ∧ pattern[pos + 1]? ≠ some 47

def ContainsDynamicParam (pattern : Bytes) : Bool :=
  (List.range pattern.length).any (IsDynamicParamStart pattern)

/-- The segment starts with `*`, `?` or `[`. -/
def SegmentHasGlobSyntax (segment : Bytes) : Bool :=
  segment.head?.any (ascii "*?[" |>.contains ·)

/-- Some `/`-separated segment, empty ones included, has wildcard syntax. -/
def ContainsGlobSegment (pattern : Bytes) : Bool :=
  (pattern.splitOn 47).any SegmentHasGlobSyntax

def routeKind (pattern : Bytes) : RouteKind :=
  if ContainsDynamicParam pattern then .Regex
  else if ContainsGlobSegment pattern then .Glob
  else .Exact

def createMatcher (engine : MatchEngine) (kind : RouteKind)
    (pattern : Bytes) : Option RouterMatcher :=
  match kind with
  | .Regex => RouterMatcher.makeRegex engine pattern
  | .Glob => some (.glob pattern)
  | .Exact => none

/-- A registered route.  `S` is the type of servlets; a null pointer is
`none`. -/
structure RouteEntry (S : Type*) where
  id : Nat
  kind : RouteKind
  pattern : Bytes
  methods : MethodMask
  matcher : Option RouterMatcher
  servlet : Option S

/-- The fields of `class HttpServletDispatch`.  The iteration order of the
hash table is the order of the association list; the 64-bit counter of
identifiers is a natural number, which no sequence of calls exhausts. -/
structure HttpServletDispatch (S : Type*) where
  exactRoutes : AList fun _ : Bytes => List (RouteEntry S)
  dynamicRoutes : List (RouteEntry S)
  nextRouteId : Nat

namespace HttpServletDispatch

variable {S : Type*}

def new : HttpServletDispatch S where
  exactRoutes := ∅
  dynamicRoutes := []
  nextRouteId := 1

/-- The mask `hasMethodConflict` collects. -/
def conflictMethods (routes : List (RouteEntry S)) (methods : MethodMask) :
    MethodMask :=
  routes.foldl (fun conflict route => conflict ||| (route.methods &&& methods))
    ExpectHttpMethods.None

def hasMethodConflict (routes : List (RouteEntry S)) (methods : MethodMask) :
    Bool :=
  conflictMethods routes methods ≠ ExpectHttpMethods.None

/-- `exact_routes_[pattern]`, which creates an empty bucket if there is
none. -/
def bucketOf (d : HttpServletDispatch S) (pattern : Bytes) :
    List (RouteEntry S) × HttpServletDispatch S :=
  match d.exactRoutes.lookup pattern with
  | some routes => (routes, d)
  | none => ([], { d with exactRoutes := d.exactRoutes.insert pattern [] })

def invalidArgument (message : Bytes) : RouteResult where
  status := .InvalidArgument
  message := message

def conflict : RouteResult where
  status := .Conflict
  message := ascii "route method conflict"

/-- The locked part of `addRoute` for a checked request. -/
def insertRoute (d : HttpServletDispatch S) (methods : MethodMask)
    (pattern : Bytes) (kind : RouteKind) (matcher : Option RouterMatcher)
    (servlet : S) : RouteResult × HttpServletDispatch S :=
  let added : RouteResult := { routeId := d.nextRouteId }
  if kind = .Exact then
    let (routes, d) := d.bucketOf pattern
    if hasMethodConflict routes methods then
      (conflict, d)
    else
      let entry : RouteEntry S :=
        ⟨d.nextRouteId, kind, pattern, methods, none, some servlet⟩
      (added,
        { d with
          exactRoutes := d.exactRoutes.insert pattern (routes ++ [entry])
          nextRouteId := d.nextRouteId + 1 })
  else
    let samePatternRoutes :=
      d.dynamicRoutes.filter fun route => route.pattern = pattern
    if hasMethodConflict samePatternRoutes methods then
      (conflict, d)
    else
      let entry : RouteEntry S :=
        ⟨d.nextRouteId, kind, pattern, methods, matcher, some servlet⟩
      (added,
        { d with
          dynamicRoutes := d.dynamicRoutes ++ [entry]
          nextRouteId := d.nextRouteId + 1 })

def addRoute (engine : MatchEngine) (d : HttpServletDispatch S)
    (methods : MethodMask) (pattern : Bytes) (servlet : Option S) :
    RouteResult × HttpServletDispatch S :=
  if pattern = [] then
    (invalidArgument (ascii "route pattern is empty"), d)
  else
    match servlet with
    | none => (invalidArgument (ascii "route servlet is null"), d)
    | some servlet =>
        if methods &&& ExpectHttpMethods.All = ExpectHttpMethods.None ∨
            methods &&& ~~~ ExpectHttpMethods.All ≠ 0 then
          (invalidArgument (ascii "route method mask is invalid"), d)
        else
          let kind := routeKind pattern
          let matcher := createMatcher engine kind pattern
          if kind ≠ .Exact ∧ matcher = none then
            (invalidArgument (ascii "create route matcher failed"), d)
          else
            d.insertRoute methods pattern kind matcher servlet

/-- Store a shortened bucket; an empty one is erased. -/
def storeBucket (d : HttpServletDispatch S) (pattern : Bytes)
    (routes : List (RouteEntry S)) : HttpServletDispatch S :=
  { d with
    exactRoutes :=
      if routes = [] then
        d.exactRoutes.erase pattern
      else
        d.exactRoutes.insert pattern routes }

/-- `removeRoute(route_id)`: the first entry with the identifier goes, exact
routes being searched first. -/
def removeRouteById (d : HttpServletDispatch S) (routeId : Nat) :
    Bool × HttpServletDispatch S :=
  let hasId (route : RouteEntry S) : Bool := route.id = routeId
  match d.exactRoutes.entries.find? fun bucket => bucket.2.any hasId with
  | some bucket => (true, d.storeBucket bucket.1 (bucket.2.eraseP hasId))
  | none =>
      if d.dynamicRoutes.any hasId then
        (true, { d with dynamicRoutes := d.dynamicRoutes.eraseP hasId })
      else
        (false, d)

/-- The two overloads that take a pattern erase the selected routes of that
pattern from both containers and count them. -/
def removeSelected (d : HttpServletDispatch S) (pattern : Bytes)
    (selected : RouteEntry S → Bool) : Nat × HttpServletDispatch S :=
  let (removedExact, d) :=
    match d.exactRoutes.lookup pattern with
    | none => (0, d)
    | some routes =>
        (routes.countP selected,
          d.storeBucket pattern (routes.filter fun route => !selected route))
  let selectedHere (route : RouteEntry S) : Bool :=
    route.pattern = pattern ∧ selected route
  (removedExact + d.dynamicRoutes.countP selectedHere,
    { d with
      dynamicRoutes := d.dynamicRoutes.filter fun route =>
        !selectedHere route })

/-- `removeRoute(pattern, methods)`. -/
def removeRouteByMethods (d : HttpServletDispatch S) (pattern : Bytes)
    (methods : MethodMask) : Nat × HttpServletDispatch S :=
  d.removeSelected pattern fun route => route.methods = methods

/-- `removeRoute(pattern)`. -/
def removeRouteByPattern (d : HttpServletDispatch S) (pattern : Bytes) :
    Nat × HttpServletDispatch S :=
  d.removeSelected pattern fun _ => true

inductive MatchStatus
  | Found
  | PathFoundMethodNotAllowed
  | NotFound
  deriving DecidableEq

structure MatchResult (S : Type*) where
  status : MatchStatus
  servlet : Option S
  allowedMethods : MethodMask

/-- The loop of `match` over the bucket of the path. -/
def matchExact (method : Method) (allowed : MethodMask) :
    List (RouteEntry S) → MatchResult S
  | [] => ⟨.PathFoundMethodNotAllowed, none, allowed⟩
  | route :: routes =>
      if MethodAllowed route.methods method then
        ⟨.Found, route.servlet, route.methods⟩
      else
        matchExact method (allowed ||| route.methods) routes

/-- The loop of `match` over the dynamic routes.  Matching a route for good
stores its parameters in the request. -/
def matchDynamic (engine : MatchEngine) (request : HttpRequest)
    (allowed : MethodMask) :
    List (RouteEntry S) → MatchResult S × HttpRequest
  | [] =>
      if allowed ≠ ExpectHttpMethods.None then
        (⟨.PathFoundMethodNotAllowed, none, allowed⟩, request)
      else
        (⟨.NotFound, none, allowed⟩, request)
  | route :: routes =>
      match route.matcher, route.servlet with
      | some matcher, some servlet =>
          if matcher.MatchPath engine request.path then
            if MethodAllowed route.methods request.method then
              (⟨.Found, some servlet, route.methods⟩,
                (matcher.Match engine request).2)
            else
              matchDynamic engine request (allowed ||| route.methods) routes
          else
            matchDynamic engine request allowed routes
      | _, _ => matchDynamic engine request allowed routes

def matchRoute (engine : MatchEngine) (d : HttpServletDispatch S)
    (request : HttpRequest) : MatchResult S × HttpRequest :=
  match d.exactRoutes.lookup request.path with
  | some routes =>
      (matchExact request.method ExpectHttpMethods.None routes, request)
  | none =>
      matchDynamic engine request ExpectHttpMethods.None d.dynamicRoutes

/-- Which of its three branches `handle` took. -/
inductive Handled (S : Type*)
  | servlet (servlet : S)
  | methodNotAllowed
  | default

def notFoundBody : Bytes :=
  ascii ("<html>" ++
    "<head><title>404 Not Found</title></head>" ++
    "<body>" ++
    "<div style=\"text-align:center\">" ++
    "<h1>404 Not Found</h1>" ++
    "<p> kit_server </p>" ++
    "</div>" ++
    "</body>" ++
    "</html>")

/-- `NotFound404Servlet::Handle`. -/
def notFound404 (context : HttpContext) : HttpContext :=
  let response :=
    { context.response with
      version := .kHttp11
      stateCode := StateCode.k404NotFound
      connectionClosed := true }
  let response := response.addHeader (ascii "Content-Type") (ascii "text/html")
  { context with
    response :=
      { response with body := response.body.appendData notFoundBody } }

/-- The answer to a path that no route serves with the method. -/
def methodNotAllowed405 (allowed : MethodMask) (context : HttpContext) :
    HttpContext :=
  let response :=
    { context.response with
      version := .kHttp11
      stateCode := StateCode.k405MethodNotAllowed }
  let response :=
    response.addHeader (ascii "Allow") (BuildAllowHeader allowed)
  { context with
    response := response.addHeader (ascii "Content-Length") (ascii "0") }

/-- Dispatch a request; `run` is the effect of a servlet's `handle` on the
context. -/
def handle (engine : MatchEngine) (run : S → HttpContext → HttpContext)
    (d : HttpServletDispatch S) (context : HttpContext) :
    Handled S × HttpContext :=
  let (result, request) := d.matchRoute engine context.request
  let context := { context with request := request }
  match result.status, result.servlet with
  | .Found, some servlet => (.servlet servlet, run servlet context)
  | .PathFoundMethodNotAllowed, _ =>
      (.methodNotAllowed, methodNotAllowed405 result.allowedMethods context)
  | _, _ => (.default, notFound404 context)

/-- A mutating call with its arguments. -/
inductive RouteCall (S : Type*)
  | addRoute (methods : MethodMask) (pattern : Bytes) (servlet : Option S)
  | removeRouteById (routeId : Nat)
  | removeRouteByMethods (pattern : Bytes) (methods : MethodMask)
  | removeRouteByPattern (pattern : Bytes)

def applyCall (engine : MatchEngine) (d : HttpServletDispatch S) :
    RouteCall S → HttpServletDispatch S
  | .addRoute methods pattern servlet =>
      (d.addRoute engine methods pattern servlet).2
  | .removeRouteById routeId => (d.removeRouteById routeId).2
  | .removeRouteByMethods pattern methods =>
      (d.removeRouteByMethods pattern methods).2
  | .removeRouteByPattern pattern => (d.removeRouteByPattern pattern).2

/-- The table after a sequence of calls. -/
def applyCalls (engine : MatchEngine) (d : HttpServletDispatch S)
    (calls : List (RouteCall S)) : HttpServletDispatch S :=
  calls.foldl (applyCall engine) d

end HttpServletDispatch

end KitMuduo
