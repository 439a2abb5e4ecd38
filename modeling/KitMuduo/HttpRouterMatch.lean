import KitMuduo.HttpRouteStatics

/-!
# The parameters of a matched path

A path matches a pattern with parameters if it is the pattern with strings put
in for the parameters.  A slash or the end follows every parameter, so the path
determines the strings.
-/

namespace KitMuduo

open ListSearch

/-- `std::regex` follows ECMAScript for expressions without NUL. -/
structure MatchEngine.EcmaScript (engine : MatchEngine) : Prop where
  regexCompiles : ∀ terms : List EcmaRegex.Term,
    (∀ term ∈ terms, term.Plain) → 0 ∉ EcmaRegex.text terms →
      engine.regexCompiles (EcmaRegex.text terms) = true
  regexMatch : ∀ terms : List EcmaRegex.Term, (∀ term ∈ terms, term.Plain) →
    0 ∉ EcmaRegex.text terms →
      ∀ subject, engine.regexMatch (EcmaRegex.text terms) subject =
        EcmaRegex.capture terms true subject

theorem MatchEngine.Standard.ecmaScript {engine : MatchEngine}
    (standard : engine.Standard) : engine.EcmaScript where
  regexCompiles := fun terms plain _ => standard.regexCompiles terms plain
  regexMatch := fun terms plain _ => standard.regexMatch terms plain

namespace RegexRouterMatcher

/-- A `:` in front of a character other than `/`. -/
def StartsName (ch : UInt8) (rest : Bytes) : Prop :=
  ch = colon ∧ rest.head?.any (· ≠ slash) = true

/-- A pattern read from the left: a `:` and the characters other than `/`
behind it, at least one, are a parameter; every other character is a
literal. -/
inductive ReadsAs : Bytes → List PatternToken → Prop
  | nil : ReadsAs [] []
  | param {name rest : Bytes} {tokens : List PatternToken} :
      name ≠ [] → slash ∉ name → (∀ ch ∈ rest.head?, ch = slash) →
      ReadsAs rest tokens →
      ReadsAs (colon :: (name ++ rest)) (.param name :: tokens)
  | literal {ch : UInt8} {rest : Bytes} {tokens : List PatternToken} :
      ¬ StartsName ch rest → ReadsAs rest tokens →
      ReadsAs (ch :: rest) (.literal ch :: tokens)

/-- The names of the parameters, in order. -/
def names (tokens : List PatternToken) : List Bytes :=
  tokens.filterMap fun
    | .param name => some name
    | .literal _ => none

@[simp]
theorem names_param (name : Bytes) (tokens : List PatternToken) :
    names (.param name :: tokens) = name :: names tokens :=
  rfl

@[simp]
theorem names_literal (ch : UInt8) (tokens : List PatternToken) :
    names (.literal ch :: tokens) = names tokens :=
  rfl

/-- The tokens with a value put in for each parameter. -/
def substitute : List PatternToken → List Bytes → Bytes
  | [], _ => []
  | .literal ch :: tokens, values => ch :: substitute tokens values
  | .param _ :: tokens, value :: values => value ++ substitute tokens values
  | .param _ :: tokens, [] => substitute tokens []

/-- The path has the values, each nonempty and without `/`, in the places of
the parameters. -/
structure Substituted (tokens : List PatternToken) (values : List Bytes)
    (path : Bytes) : Prop where
  length : values.length = (names tokens).length
  allowed : ∀ value ∈ values, value ≠ [] ∧ slash ∉ value
  path_eq : path = substitute tokens values

/-! ## The reading of a pattern is unique, and `tokens` finds it -/

theorem startsName_append {name rest : Bytes} (some : name ≠ [])
    (free : slash ∉ name) : StartsName colon (name ++ rest) := by
  cases name with
  | nil => exact absurd rfl some
  | cons ch name =>
      rw [List.mem_cons, not_or] at free
      exact ⟨rfl, by simpa using Ne.symm free.1⟩

/-- The loop inside a name. -/
theorem readsAs_name {pattern : Bytes} (name : Bytes) (some : name ≠ [])
    (free : slash ∉ name)
    (later : ∀ rest, rest.length ≤ pattern.length →
      ReadsAs rest (tokens none rest)) :
    ReadsAs (colon :: (name ++ pattern)) (tokens (.some name) pattern) := by
  induction pattern generalizing name with
  | nil => exact .param some free (by simp) .nil
  | cons ch pattern ih =>
      rw [tokens]
      split
      · next ends =>
          subst ends
          have behind := later (slash :: pattern) (Nat.le_refl _)
          rw [tokens, if_neg (by simp [slash, colon])] at behind
          exact .param some free (by simp) behind
      · next more =>
          have step := ih (name ++ [ch]) (by simp)
            (by simpa [free] using Ne.symm more)
            (fun rest short => later rest (by simp; omega))
          simpa using step

theorem readsAs_tokens (pattern : Bytes) :
    ReadsAs pattern (tokens none pattern) := by
  induction size : pattern.length using Nat.strongRecOn
    generalizing pattern with
  | ind size ih =>
      cases pattern with
      | nil => exact .nil
      | cons ch pattern =>
          have later (rest : Bytes) (short : rest.length ≤ pattern.length) :
              ReadsAs rest (tokens none rest) :=
            ih rest.length (by rw [← size, List.length_cons]; omega) rest rfl
          rw [tokens]
          split
          · next starts =>
              obtain ⟨rfl, ahead⟩ := starts
              cases pattern with
              | nil => cases ahead
              | cons first pattern =>
                  have other : first ≠ slash := by simpa using ahead
                  rw [tokens, if_neg other]
                  exact readsAs_name [first] (by simp)
                    (by simpa using Ne.symm other)
                    (fun rest short => later rest (by simp; omega))
          · next plain => exact .literal plain (later pattern (Nat.le_refl _))

/-- Names and values end at a slash. -/
theorem append_inj_of_slash {first second front back : Bytes}
    (free : slash ∉ first) (otherFree : slash ∉ second)
    (ends : ∀ ch ∈ front.head?, ch = slash)
    (otherEnds : ∀ ch ∈ back.head?, ch = slash)
    (same : first ++ front = second ++ back) :
    first = second ∧ front = back :=
  append_inj_of_forall (p := (· ≠ slash))
    (fun _ member equal => free (equal ▸ member))
    (fun _ member equal => otherFree (equal ▸ member))
    (fun ch head => not_not.mpr (ends ch head))
    (fun ch head => not_not.mpr (otherEnds ch head)) same

theorem ReadsAs.unique {pattern : Bytes} {first second : List PatternToken}
    (reads : ReadsAs pattern first) (other : ReadsAs pattern second) :
    second = first := by
  induction reads generalizing second with
  | nil =>
      cases other
      rfl
  | @param name rest tokens some free ends reads ih =>
      generalize whole : colon :: (name ++ rest) = pattern at other
      cases other with
      | nil => cases whole
      | @param otherName back _ _ otherFree otherEnds otherReads =>
          obtain ⟨rfl, rfl⟩ := append_inj_of_slash free otherFree ends otherEnds
            (List.cons.inj whole).2
          rw [ih otherReads]
      | literal plain _ =>
          obtain ⟨rfl, rfl⟩ := List.cons.inj whole
          exact absurd (startsName_append some free) plain
  | @literal ch rest tokens plain reads ih =>
      generalize whole : ch :: rest = pattern at other
      cases other with
      | nil => cases whole
      | @param name back _ some free _ _ =>
          obtain ⟨rfl, rfl⟩ := List.cons.inj whole
          exact absurd (startsName_append some free) plain
      | literal _ otherReads =>
          obtain ⟨rfl, rfl⟩ := List.cons.inj whole
          rw [ih otherReads]

/-! ## The values of a path are unique -/

theorem head?_substitute {rest : Bytes} {tokens : List PatternToken}
    (reads : ReadsAs rest tokens) (ends : ∀ ch ∈ rest.head?, ch = slash)
    (values : List Bytes) :
    ∀ ch ∈ (substitute tokens values).head?, ch = slash := by
  cases reads with
  | nil => simp [substitute]
  | param _ _ _ _ => exact absurd (ends colon rfl) (by decide)
  | literal _ _ => simpa [substitute] using ends

theorem Substituted.unique {pattern path : Bytes}
    {tokens : List PatternToken} {values others : List Bytes}
    (reads : ReadsAs pattern tokens) (first : Substituted tokens values path)
    (second : Substituted tokens others path) : values = others := by
  induction reads generalizing values others path with
  | nil =>
      rw [List.eq_nil_of_length_eq_zero first.length,
        List.eq_nil_of_length_eq_zero second.length]
  | @param name rest tokens _ _ ends reads ih =>
      obtain ⟨length, allowed, rfl⟩ := first
      obtain ⟨otherLength, otherAllowed, same⟩ := second
      cases values with
      | nil => cases length
      | cons value values =>
          cases others with
          | nil => cases otherLength
          | cons other others =>
              rw [List.forall_mem_cons] at allowed otherAllowed
              obtain ⟨rfl, later⟩ := append_inj_of_slash allowed.1.2
                otherAllowed.1.2 (head?_substitute reads ends values)
                (head?_substitute reads ends others) same
              rw [ih ⟨Nat.succ.inj length, allowed.2, rfl⟩
                ⟨Nat.succ.inj otherLength, otherAllowed.2, later⟩]
  | literal _ _ ih =>
      obtain ⟨length, allowed, rfl⟩ := first
      obtain ⟨otherLength, otherAllowed, same⟩ := second
      exact ih ⟨length, allowed, rfl⟩
        ⟨otherLength, otherAllowed, (List.cons.inj same).2⟩

/-! ## What the expression captures -/

theorem substituted_of_capture {tokens : List PatternToken} {atStart : Bool}
    {path : Bytes} {values : List Bytes}
    (captured : EcmaRegex.capture (tokens.map PatternToken.term ++ [.finish])
      atStart path = some values) :
    Substituted tokens values path := by
  induction tokens generalizing atStart path values with
  | nil =>
      rw [List.map_nil, List.nil_append, EcmaRegex.capture] at captured
      split at captured
      · next none =>
          subst none
          cases captured
          exact ⟨rfl, by simp, rfl⟩
      · cases captured
  | cons token tokens ih =>
      cases token with
      | literal ch =>
          rw [List.map_cons, List.cons_append, PatternToken.term] at captured
          cases path with
          | nil => cases captured
          | cons d path =>
              rw [EcmaRegex.capture] at captured
              split at captured
              · next same =>
                  subst same
                  obtain ⟨length, allowed, rfl⟩ := ih captured
                  exact ⟨length, allowed, rfl⟩
              · cases captured
      | param name =>
          rw [List.map_cons, List.cons_append, PatternToken.term,
            EcmaRegex.capture] at captured
          obtain ⟨⟨taken, rest⟩, member, later⟩ :=
            List.exists_of_findSome?_eq_some captured
          obtain ⟨rfl, more⟩ := EcmaRegex.mem_groupSplits.mp member
          obtain ⟨behind, found, rfl⟩ := Option.map_eq_some_iff.mp later
          obtain ⟨length, allowed, rfl⟩ := ih found
          exact ⟨congrArg Nat.succ length,
            List.forall_mem_cons.mpr ⟨more, allowed⟩, rfl⟩

theorem Substituted.readTokens {tokens : List PatternToken}
    {values : List Bytes} {path : Bytes}
    (substituted : Substituted tokens values path) :
    ReadTokens tokens path := by
  obtain ⟨length, allowed, rfl⟩ := substituted
  induction tokens generalizing values with
  | nil => rfl
  | cons token tokens ih =>
      cases token with
      | literal ch =>
          exact ⟨[ch], substitute tokens values, rfl, rfl, ih length allowed⟩
      | param name =>
          cases values with
          | nil => cases length
          | cons value values =>
              rw [List.forall_mem_cons] at allowed
              exact ⟨value, substitute tokens values, rfl, allowed.1,
                ih (Nat.succ.inj length) allowed.2⟩

/-- The expression of a pattern without NUL captures the values. -/
theorem regexMatch_eq_some_iff {engine : MatchEngine}
    (ecma : engine.EcmaScript) {pattern path : Bytes} {values : List Bytes}
    (free : 0 ∉ EcmaRegex.text (terms pattern)) :
    engine.regexMatch (BuildTargetPattern pattern) path = some values ↔
      Substituted (tokens none pattern) values path := by
  rw [BuildTargetPattern_eq,
    ecma.regexMatch _ (terms_plain pattern) free, terms, EcmaRegex.capture,
    if_pos rfl]
  constructor
  · exact substituted_of_capture
  · intro substituted
    have some := (isSome_capture_iff _ true path).mpr substituted.readTokens
    obtain ⟨others, captured⟩ := Option.isSome_iff_exists.mp some
    rw [captured, substituted.unique (readsAs_tokens pattern)
      (substituted_of_capture captured)]

theorem mem_of_literal {pattern : Bytes} {name : Option Bytes} {ch : UInt8}
    (member : .literal ch ∈ tokens name pattern) : ch ∈ pattern := by
  induction pattern generalizing name with
  | nil =>
      cases name with
      | none => cases member
      | some name => simp [tokens] at member
  | cons d pattern ih =>
      cases name with
      | none =>
          rw [tokens] at member
          split at member
          · exact List.mem_cons_of_mem _ (ih member)
          · rcases List.mem_cons.mp member with same | later
            · cases same
              exact List.mem_cons_self
            · exact List.mem_cons_of_mem _ (ih later)
      | some name =>
          rw [tokens] at member
          split at member
          · rcases List.mem_cons.mp member with same | later
            · cases same
            · rcases List.mem_cons.mp later with same | later
              · cases same
                exact List.mem_cons_self
              · exact List.mem_cons_of_mem _ (ih later)
          · exact List.mem_cons_of_mem _ (ih member)

theorem nul_not_mem_text {pattern : Bytes} (free : 0 ∉ pattern) :
    0 ∉ EcmaRegex.text (terms pattern) := by
  rw [EcmaRegex.text, List.mem_flatMap]
  rintro ⟨term, member, nul⟩
  rw [terms, List.mem_cons, List.mem_append, List.mem_map,
    List.mem_singleton] at member
  rcases member with rfl | ⟨token, member, rfl⟩ | rfl
  · simp [EcmaRegex.Term.text] at nul
  · cases token with
    | literal ch =>
        have other : ch ≠ 0 := fun same => free (same ▸ mem_of_literal member)
        rw [PatternToken.term, EcmaRegex.Term.text] at nul
        split at nul
        · simp [Ne.symm other] at nul
        · simp [Ne.symm other] at nul
    | param name => simp [PatternToken.term, EcmaRegex.Term.text] at nul
  · simp [EcmaRegex.Term.text] at nul

/-! ## What `Match` stores -/

/-- The result is the request with the parameters stored in order: each name
has the value of its last occurrence, and nothing else changes. -/
structure StoresParams (params : List (Bytes × Bytes))
    (request result : HttpRequest) : Prop where
  last : ∀ front name value back, params = front ++ (name, value) :: back →
    name ∉ back.map Prod.fst → result.routeParams.lookup name = some value
  others : ∀ name ∉ params.map Prod.fst,
    result.routeParams.lookup name = request.routeParams.lookup name
  frame : result = { request with routeParams := result.routeParams }

theorem addRouteParams_eq (params : List (Bytes × Bytes))
    (request : HttpRequest) :
    params.foldl (fun request param =>
        request.addRouteParam param.1 param.2) request =
      { request with
        routeParams := params.foldl
          (fun map param => map.insert param.1 param.2)
          request.routeParams } := by
  induction params generalizing request with
  | nil => rfl
  | cons param params ih =>
      rw [List.foldl_cons, List.foldl_cons, ih]
      rfl

theorem lookup_foldl_insert_of_not_mem {params : List (Bytes × Bytes)}
    {name : Bytes} (map : StringMap) (absent : name ∉ params.map Prod.fst) :
    (params.foldl (fun map param => map.insert param.1 param.2) map).lookup
      name = map.lookup name := by
  induction params generalizing map with
  | nil => rfl
  | cons param params ih =>
      rw [List.map_cons, List.mem_cons, not_or] at absent
      rw [List.foldl_cons, ih _ absent.2,
        Finmap.lookup_insert_of_ne _ absent.1]

theorem storesParams_foldl (params : List (Bytes × Bytes))
    (request : HttpRequest) :
    StoresParams params request
      (params.foldl (fun request param =>
        request.addRouteParam param.1 param.2) request) := by
  rw [addRouteParams_eq]
  refine ⟨?_, fun name => lookup_foldl_insert_of_not_mem _, rfl⟩
  rintro front name value back rfl absent
  rw [List.foldl_append, List.foldl_cons,
    lookup_foldl_insert_of_not_mem _ absent, Finmap.lookup_insert]

/-- A matcher of a pattern without NUL, with the pattern read as tokens. -/
theorem match_iff_substituted {engine : MatchEngine} (ecma : engine.EcmaScript)
    {pattern : Bytes} (free : 0 ∉ pattern) :
    ∃ tokens matcher,
      (∀ other, ReadsAs pattern other ↔ other = tokens) ∧
      RouterMatcher.makeRegex engine pattern = some matcher ∧
      ∀ request : HttpRequest,
        (matcher.Match engine request).1 =
          matcher.MatchPath engine request.path ∧
        (matcher.MatchPath engine request.path = true ↔
          ∃ values, Substituted tokens values request.path) ∧
        (∀ values others, Substituted tokens values request.path →
          Substituted tokens others request.path → values = others) ∧
        (∀ values, Substituted tokens values request.path →
          StoresParams ((names tokens).zip values) request
            (matcher.Match engine request).2) := by
  have noNul := nul_not_mem_text free
  have compiles : engine.regexCompiles (BuildTargetPattern pattern) = true := by
    rw [BuildTargetPattern_eq]
    exact ecma.regexCompiles _ (terms_plain pattern) noNul
  have reads := readsAs_tokens pattern
  refine ⟨tokens none pattern,
    .regex pattern (BuildTargetPattern pattern) (paramNames pattern), ?_, ?_,
    fun request => ⟨?_, ?_, ?_, ?_⟩⟩
  · intro other
    constructor
    · exact reads.unique
    · rintro rfl
      exact reads
  · rw [RouterMatcher.makeRegex, if_pos compiles]
  · rw [RouterMatcher.Match, RouterMatcher.MatchPath]
    cases engine.regexMatch (BuildTargetPattern pattern) request.path with
    | none => rfl
    | some groups => rfl
  · rw [RouterMatcher.MatchPath, Option.isSome_iff_exists]
    simp only [regexMatch_eq_some_iff ecma noNul]
  · exact fun _ _ first second => first.unique reads second
  · intro values substituted
    have captured := (regexMatch_eq_some_iff ecma noNul).mpr substituted
    rw [RouterMatcher.Match, captured]
    exact storesParams_foldl _ request

theorem match_iff_substituted_users :
    (0 : UInt8) ∉ ascii "/users/:id/:id" ∧
    ∃ tokens matcher,
      (∀ other, ReadsAs (ascii "/users/:id/:id") other ↔ other = tokens) ∧
      RouterMatcher.makeRegex standardEngine (ascii "/users/:id/:id") =
        some matcher ∧
      ∀ request : HttpRequest,
        (matcher.Match standardEngine request).1 =
          matcher.MatchPath standardEngine request.path ∧
        (matcher.MatchPath standardEngine request.path = true ↔
          ∃ values, Substituted tokens values request.path) ∧
        (∀ values others, Substituted tokens values request.path →
          Substituted tokens others request.path → values = others) ∧
        (∀ values, Substituted tokens values request.path →
          StoresParams ((names tokens).zip values) request
            (matcher.Match standardEngine request).2) :=
  ⟨by decide, match_iff_substituted standardEngine_standard.ecmaScript
    (by decide)⟩

example :
    (RouterMatcher.makeRegex standardEngine (ascii "/users/:id/:id")).map
        (fun matcher => (matcher.Match standardEngine
          { path := ascii "/users/1/2" }).2.getRouteParam (ascii "id")) =
      some (ascii "2") := by
  decide

end RegexRouterMatcher

end KitMuduo
