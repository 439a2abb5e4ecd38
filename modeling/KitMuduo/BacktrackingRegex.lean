import Mathlib.Data.List.Basic

/-!
# Backtracking regular expressions

Expressions made of classes of characters and their repetitions, alternatives
and numbered groups.  The parses of a text stand in the order in which a
backtracking matcher tries them, so that the first one is the match.  A search
takes the leftmost position that has one, and a scanner searches on behind each
match.
-/

namespace BacktrackingRegex

variable {α : Type*}

inductive Regex (α : Type*)
  /-- One character of a class. -/
  | item (allowed : α → Bool)
  /-- `c*`, and `c*?` if it is lazy. -/
  | many (allowed : α → Bool) (isLazy : Bool)
  | seq (first second : Regex α)
  | alt (first second : Regex α)
  | group (number : Nat) (body : Regex α)

/-- What was matched, the text behind it, and what the groups hold. -/
structure Parse (α : Type*) where
  taken : List α
  rest : List α
  groups : List (Nat × List α) := []

namespace Parse

/-- `none` is a group that did not take part. -/
def group (found : Parse α) (number : Nat) : Option (List α) :=
  found.groups.lookup number

def append (first second : Parse α) : Parse α where
  taken := first.taken ++ second.taken
  rest := second.rest
  groups := first.groups ++ second.groups

def inGroup (number : Nat) (found : Parse α) : Parse α :=
  { found with groups := (number, found.taken) :: found.groups }

end Parse

/-- What a repetition may take and leave, the shortest first. -/
def manyParses (allowed : α → Bool) : List α → List (Parse α)
  | [] => [⟨[], [], []⟩]
  | c :: text =>
      ⟨[], c :: text, []⟩ ::
        if allowed c = true then
          (manyParses allowed text).map (Parse.append ⟨[c], text, []⟩)
        else
          []

def parses : Regex α → List α → List (Parse α)
  | .item _, [] => []
  | .item allowed, c :: text =>
      if allowed c = true then [⟨[c], text, []⟩] else []
  | .many allowed isLazy, text =>
      if isLazy = true then
        manyParses allowed text
      else
        (manyParses allowed text).reverse
  | .seq first second, text =>
      (parses first text).flatMap fun found =>
        (parses second found.rest).map found.append
  | .alt first second, text => parses first text ++ parses second text
  | .group number body, text => (parses body text).map (Parse.inGroup number)

/-- The match at the beginning of a text. -/
def firstParse (regex : Regex α) (text : List α) : Option (Parse α) :=
  (parses regex text).head?

/-- The match at the leftmost position that has one. -/
def search (regex : Regex α) : List α → Option (Parse α)
  | [] => firstParse regex []
  | c :: text =>
      match firstParse regex (c :: text) with
      | some found => some found
      | none => search regex text

/-- Whether an expression may match the empty text. -/
def Regex.nullable : Regex α → Bool
  | .item _ => false
  | .many _ _ => true
  | .seq first second => first.nullable && second.nullable
  | .alt first second => first.nullable || second.nullable
  | .group _ body => body.nullable

/-! ## The length of a match -/

theorem rest_length_le_of_manyParses {allowed : α → Bool} {text : List α}
    {found : Parse α} (member : found ∈ manyParses allowed text) :
    found.rest.length ≤ text.length := by
  induction text generalizing found with
  | nil => simp_all [manyParses]
  | cons c text ih =>
      rw [manyParses, List.mem_cons] at member
      rcases member with rfl | later
      · exact Nat.le_refl _
      · split at later
        · obtain ⟨inner, earlier, rfl⟩ := List.mem_map.mp later
          have shorter := ih earlier
          simp only [Parse.append, List.length_cons]
          omega
        · cases later

/-- A match leaves no more than there was, and less if the expression does not
match the empty text. -/
theorem rest_length_le {regex : Regex α} {text : List α} {found : Parse α}
    (member : found ∈ parses regex text) :
    found.rest.length ≤ text.length ∧
      (regex.nullable = false → found.rest.length < text.length) := by
  induction regex generalizing text found with
  | item allowed =>
      cases text with
      | nil => cases member
      | cons c text =>
          rw [parses] at member
          split at member
          · rw [List.mem_singleton.mp member]
            simp
          · cases member
  | many allowed isLazy =>
      refine ⟨?_, fun never => by cases never⟩
      rw [parses] at member
      split at member
      · exact rest_length_le_of_manyParses member
      · exact rest_length_le_of_manyParses (List.mem_reverse.mp member)
  | seq first second ihFirst ihSecond =>
      rw [parses, List.mem_flatMap] at member
      obtain ⟨one, fromFirst, later⟩ := member
      obtain ⟨two, fromSecond, rfl⟩ := List.mem_map.mp later
      have front := ihFirst fromFirst
      have back := ihSecond fromSecond
      simp only [Parse.append, Regex.nullable, Bool.and_eq_false_iff]
      refine ⟨by omega, ?_⟩
      rintro (strict | strict)
      · have := front.2 strict
        omega
      · have := back.2 strict
        omega
  | alt first second ihFirst ihSecond =>
      rw [parses, List.mem_append] at member
      simp only [Regex.nullable, Bool.or_eq_false_iff]
      rcases member with fromFirst | fromSecond
      · have front := ihFirst fromFirst
        exact ⟨front.1, fun strict => front.2 strict.1⟩
      · have back := ihSecond fromSecond
        exact ⟨back.1, fun strict => back.2 strict.2⟩
  | group number body ih =>
      rw [parses] at member
      obtain ⟨inner, fromBody, same⟩ := List.mem_map.mp member
      have shorter := ih fromBody
      rw [← same]
      exact shorter

theorem search_rest_length_lt {regex : Regex α} {text : List α}
    {found : Parse α} (strict : regex.nullable = false)
    (first : search regex text = some found) :
    found.rest.length < text.length := by
  induction text with
  | nil => exact (rest_length_le (List.mem_of_head? first)).2 strict
  | cons c text ih =>
      rw [search] at first
      split at first
      · next here =>
          cases first
          exact (rest_length_le (List.mem_of_head? here)).2 strict
      · have shorter := ih first
        rw [List.length_cons]
        omega

/-! ## Scanners -/

/-- An expression that does not match the empty text. -/
structure Scanner (α : Type*) where
  regex : Regex α
  strict : regex.nullable = false

variable {text : List α} {found : Parse α}

/-- The matches of a text one behind the other. -/
def Scanner.results (scanner : Scanner α) (text : List α) : List (Parse α) :=
  match _first : search scanner.regex text with
  | none => []
  | some found => found :: scanner.results found.rest
  termination_by text.length
  decreasing_by exact search_rest_length_lt scanner.strict _first

theorem Scanner.results_nil (scanner : Scanner α) :
    scanner.results [] = [] := by
  rw [results]
  split
  · rfl
  · next found first =>
      have shorter := search_rest_length_lt scanner.strict first
      exact absurd shorter (Nat.not_lt_zero _)

theorem Scanner.results_of_firstParse {scanner : Scanner α}
    (first : firstParse scanner.regex text = some found) :
    scanner.results text = found :: scanner.results found.rest := by
  have here : search scanner.regex text = some found := by
    cases text with
    | nil => exact first
    | cons c text => rw [search, first]
  rw [results]
  split
  · next none => simp_all
  · next other first => simp_all

/-- A character at which nothing matches is passed over. -/
theorem Scanner.results_of_none {scanner : Scanner α} {c : α}
    (none : firstParse scanner.regex (c :: text) = none) :
    scanner.results (c :: text) = scanner.results text := by
  rw [results, results.eq_def scanner text, search, none]

/-! ## First parses -/

theorem firstParse_alt (first second : Regex α) (text : List α) :
    firstParse (.alt first second) text =
      (firstParse first text).or (firstParse second text) := by
  simp only [firstParse, parses, List.head?_append]

theorem firstParse_group (number : Nat) (body : Regex α) (text : List α) :
    firstParse (.group number body) text =
      (firstParse body text).map (Parse.inGroup number) := by
  simp only [firstParse, parses, List.head?_map]

theorem firstParse_seq (first second : Regex α) (text : List α) :
    firstParse (.seq first second) text = (parses first text).findSome?
      fun found => (firstParse second found.rest).map found.append := by
  simp only [firstParse, parses, List.head?_flatMap, List.head?_map]

theorem firstParse_seq_item_nil (allowed : α → Bool) (second : Regex α) :
    firstParse (.seq (.item allowed) second) [] = none :=
  rfl

theorem firstParse_seq_item_cons (allowed : α → Bool) (second : Regex α)
    (c : α) (text : List α) :
    firstParse (.seq (.item allowed) second) (c :: text) =
      if allowed c = true then
        (firstParse second text).map (Parse.append ⟨[c], text, []⟩)
      else
        none := by
  rw [firstParse_seq, parses]
  split
  · rw [List.findSome?_singleton]
  · rfl

/-- A greedy repetition takes all it can. -/
theorem firstParse_many (allowed : α → Bool) (text : List α) :
    firstParse (.many allowed false) text =
      some ⟨text.takeWhile allowed, text.dropWhile allowed, []⟩ := by
  rw [firstParse, parses, if_neg Bool.false_ne_true, List.head?_reverse]
  induction text with
  | nil => rfl
  | cons c text ih =>
      rw [manyParses, List.getLast?_cons]
      by_cases inside : allowed c = true
      · rw [if_pos inside, List.getLast?_map, ih,
          List.takeWhile_cons_of_pos inside, List.dropWhile_cons_of_pos inside]
        rfl
      · rw [if_neg inside, List.takeWhile_cons_of_neg inside,
          List.dropWhile_cons_of_neg inside]
        rfl

/-- A lazy repetition takes no more than is needed for what follows. -/
def lazySplit (allowed stop : α → Bool) : List α → Option (List α × α × List α)
  | [] => none
  | c :: text =>
      if stop c = true then
        some ([], c, text)
      else if allowed c = true then
        (lazySplit allowed stop text).map fun (taken, last, rest) =>
          (c :: taken, last, rest)
      else
        none

theorem firstParse_item_cons (allowed : α → Bool) (c : α) (text : List α) :
    firstParse (.item allowed) (c :: text) =
      if allowed c = true then some ⟨[c], text, []⟩ else none := by
  rw [firstParse, parses]
  split <;> rfl

/-- The first of the shortest splits behind which the stop stands. -/
theorem findSome?_manyParses (allowed stop : α → Bool) (number : Nat)
    (front text : List α) :
    (manyParses allowed text).findSome? (fun found =>
      (firstParse (.item stop) found.rest).map
        (Parse.append ⟨front ++ found.taken, found.rest,
          (number, front ++ found.taken) :: found.groups⟩)) =
      (lazySplit allowed stop text).map fun (taken, last, rest) =>
        ⟨front ++ taken ++ [last], rest, [(number, front ++ taken)]⟩ := by
  induction text generalizing front with
  | nil => rfl
  | cons c text ih =>
      rw [manyParses, List.findSome?_cons, lazySplit, firstParse_item_cons]
      by_cases stops : stop c = true
      · simp [stops, Parse.append]
      · rw [if_neg stops, if_neg stops, Option.map_none]
        by_cases inside : allowed c = true
        · have later := ih (front ++ [c])
          simp only [List.append_assoc, List.singleton_append] at later
          rw [if_pos inside, if_pos inside, List.findSome?_map, Option.map_map]
          simpa [Function.comp_def, Parse.append] using later
        · rw [if_neg inside, if_neg inside]
          rfl

theorem firstParse_lazy (allowed stop : α → Bool) (number : Nat)
    (text : List α) :
    firstParse (.seq (.group number (.many allowed true)) (.item stop)) text =
      (lazySplit allowed stop text).map fun (taken, last, rest) =>
        ⟨taken ++ [last], rest, [(number, taken)]⟩ := by
  rw [firstParse_seq, parses, parses, if_pos rfl, List.findSome?_map]
  exact findSome?_manyParses allowed stop number [] text

/-- The stop is the first one, and all in front of it is allowed. -/
theorem lazySplit_eq_some {allowed stop : α → Bool} {last : α}
    {taken rest : List α}
    (split : lazySplit allowed stop text = some (taken, last, rest)) :
    text = taken ++ last :: rest ∧ stop last = true ∧
      ∀ c ∈ taken, stop c = false := by
  induction text generalizing taken with
  | nil => cases split
  | cons c text ih =>
      rw [lazySplit] at split
      split at split
      · next stops =>
          cases split
          exact ⟨rfl, stops, by simp⟩
      · next goesOn =>
          split at split
          · obtain ⟨⟨inner, other, tail⟩, later, same⟩ :=
              Option.map_eq_some_iff.mp split
            cases same
            obtain ⟨text, stops, before⟩ := ih later
            refine ⟨by rw [text, List.cons_append], stops, ?_⟩
            exact List.forall_mem_cons.mpr
              ⟨Bool.eq_false_iff.mpr goesOn, before⟩
          · cases split

theorem firstParse_many_one (allowed : α → Bool) (text : List α) :
    firstParse (.seq (.item allowed) (.many allowed false)) text =
      if text.takeWhile allowed = [] then
        none
      else
        some ⟨text.takeWhile allowed, text.dropWhile allowed, []⟩ := by
  cases text with
  | nil => rfl
  | cons c text =>
      rw [firstParse_seq_item_cons, firstParse_many]
      by_cases inside : allowed c = true
      · simp [inside, Parse.append]
      · simp [inside]

end BacktrackingRegex
