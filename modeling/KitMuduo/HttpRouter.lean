import KitMuduo.HttpMessage

/-!
# Route patterns and their matchers

`http_router.cpp` turns a pattern with parameters into a regular expression
and matches wildcard patterns with `fnmatch`.  Both engines are outside the
repository; they enter as a parameter.
-/

namespace KitMuduo

/-- The matching functions of the C and C++ libraries. -/
structure MatchEngine where
  /-- The constructor of `std::regex` accepts the expression. -/
  regexCompiles : Bytes → Bool
  /-- `std::regex_match` of an expression and a subject: the captured groups
  when the whole subject matches. -/
  regexMatch : Bytes → Bytes → Option (List Bytes)
  /-- `fnmatch` with the flag `FNM_PATHNAME` returns zero. -/
  fnmatch : Bytes → Bytes → Bool

/-- A piece of a parameterised pattern. -/
inductive PatternToken
  | literal (ch : UInt8)
  | param (name : Bytes)
  deriving DecidableEq

namespace RegexRouterMatcher

def slash : UInt8 := 47

def colon : UInt8 := 58

/-- The loop of `BuildTargetPattern`: a `:` in front of at least one
character other than `/` starts a name, which extends to the next `/`.
`name` holds the characters of the name being read. -/
def tokens : Option Bytes → Bytes → List PatternToken
  | none, [] => []
  | some name, [] => [.param name]
  | none, ch :: rest =>
      if ch = colon ∧ (rest.head?.any (· ≠ slash)) then
        tokens (some []) rest
      else
        .literal ch :: tokens none rest
  | some name, ch :: rest =>
      if ch = slash then
        .param name :: .literal ch :: tokens none rest
      else
        tokens (some (name ++ [ch])) rest

def IsRegexSpecialChar (ch : UInt8) : Bool :=
  ascii "\\^$.|?*+()[]\x7b\x7d" |>.contains ch

/-- A token as regular expression text. -/
def tokenPattern : PatternToken → Bytes
  | .param _ => ascii "([^/]+)"
  | .literal ch => if IsRegexSpecialChar ch then [92, ch] else [ch]

def BuildTargetPattern (pattern : Bytes) : Bytes :=
  ascii "^" ++ (tokens none pattern).flatMap tokenPattern ++ ascii "$"

def paramNames (pattern : Bytes) : List Bytes :=
  (tokens none pattern).filterMap fun
    | .param name => some name
    | .literal _ => none

end RegexRouterMatcher

/-- A matcher object; the constructors compute their fields from the
pattern. -/
inductive RouterMatcher
  | regex (pattern targetPattern : Bytes) (paramNames : List Bytes)
  | glob (pattern : Bytes)
  deriving DecidableEq

namespace RouterMatcher

/-- `none` is the exception thrown for an invalid expression. -/
def makeRegex (engine : MatchEngine) (pattern : Bytes) :
    Option RouterMatcher :=
  let target := RegexRouterMatcher.BuildTargetPattern pattern
  if engine.regexCompiles target then
    some (.regex pattern target (RegexRouterMatcher.paramNames pattern))
  else
    none

def MatchPath (engine : MatchEngine) (matcher : RouterMatcher)
    (path : Bytes) : Bool :=
  match matcher with
  | .regex _ target _ => (engine.regexMatch target path).isSome
  | .glob pattern => engine.fnmatch (cStr pattern) (cStr path)

/-- Match a request and store the captured parameters in it; missing groups
end the loop. -/
def Match (engine : MatchEngine) (matcher : RouterMatcher)
    (request : HttpRequest) : Bool × HttpRequest :=
  match matcher with
  | .regex _ target names =>
      match engine.regexMatch target request.path with
      | none => (false, request)
      | some groups =>
          (true, (names.zip groups).foldl
            (fun request param => request.addRouteParam param.1 param.2)
            request)
  | .glob pattern =>
      (engine.fnmatch (cStr pattern) (cStr request.path), request)

end RouterMatcher

end KitMuduo
