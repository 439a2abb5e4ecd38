import KitMuduo.Bytes
import KitMuduo.SeparatedPieces
import Mathlib.Data.List.TakeWhile

/-!
# Matching names with `fnmatch`

The notation of POSIX for matching path names, as `fnmatch` reads it with the
flag `FNM_PATHNAME` in the POSIX locale: a slash is matched by a slash only.  A
bracket expression may hold a slash, but does not match one.  Patterns and
strings are C strings, without their final NUL.
-/

namespace PosixGlob

open KitMuduo

def slash : UInt8 := 47

/-- The members of a named character class in the POSIX locale. -/
def classContains (name : Bytes) (c : UInt8) : Bool :=
  let upper := 65 ≤ c ∧ c ≤ 90
  let lower := 97 ≤ c ∧ c ≤ 122
  let digit := 48 ≤ c ∧ c ≤ 57
  let graph := 33 ≤ c ∧ c ≤ 126
  if name = ascii "upper" then upper
  else if name = ascii "lower" then lower
  else if name = ascii "alpha" then upper ∨ lower
  else if name = ascii "digit" then digit
  else if name = ascii "alnum" then upper ∨ lower ∨ digit
  else if name = ascii "xdigit" then
    digit ∨ (65 ≤ c ∧ c ≤ 70) ∨ (97 ≤ c ∧ c ≤ 102)
  else if name = ascii "blank" then c = 9 ∨ c = 32
  else if name = ascii "space" then (9 ≤ c ∧ c ≤ 13) ∨ c = 32
  else if name = ascii "cntrl" then c < 32 ∨ c = 127
  else if name = ascii "graph" then graph
  else if name = ascii "print" then graph ∨ c = 32
  else if name = ascii "punct" then graph ∧ ¬ (upper ∨ lower ∨ digit)
  else false

def classNames : List Bytes :=
  ["upper", "lower", "alpha", "digit", "alnum", "xdigit", "blank", "space",
    "cntrl", "graph", "print", "punct"].map ascii

/-- An element of a bracket expression; a quoted byte is no operator. -/
inductive BracketElement
  | byte (c : UInt8) (quoted : Bool)
  | named (name : Bytes)
  deriving DecidableEq

/-- What a bracket expression lists. -/
inductive BracketItem
  | range (low high : UInt8)
  | named (name : Bytes)
  deriving DecidableEq

namespace BracketItem

def contains (c : UInt8) : BracketItem → Bool
  | range low high => low ≤ c ∧ c ≤ high
  | named name => classContains name c

end BracketItem

structure Bracket where
  negated : Bool
  items : List BracketItem
  deriving DecidableEq

namespace Bracket

def contains (bracket : Bracket) (c : UInt8) : Bool :=
  bracket.items.any (·.contains c) ≠ bracket.negated

end Bracket

/-- The element of a bracket expression that starts with `c`, and how many of
the bytes behind it belong to it: `\c`, `[:name:]`, `[.c.]`, `[=c=]` or a
byte. -/
def element (c : UInt8) (rest : Bytes) : BracketElement × Nat :=
  match rest with
  | [] => (.byte c false, 0)
  | d :: more =>
      let name := more.takeWhile fun letter => 97 ≤ letter ∧ letter ≤ 122
      if c = 92 then
        (.byte d true, 1)
      else if c = 91 ∧ d = 58 ∧ name ∈ classNames ∧
          ascii ":]" <+: more.drop name.length then
        (.named name, name.length + 3)
      else if c = 91 ∧ (d = 46 ∨ d = 61) ∧
          [d, 93] <+: more.drop 1 then
        (.byte (more.headD 0) true, 4)
      else
        (.byte c false, 0)

/-- The elements up to the closing bracket, and the number of bytes up to and
with it; `skip` bytes belong to the element before. -/
def elements : Nat → Bytes → Option (List BracketElement × Nat)
  | _, [] => none
  | skip + 1, _ :: rest =>
      (elements skip rest).map fun (found, count) => (found, count + 1)
  | 0, c :: rest =>
      if c = 93 then
        some ([], 1)
      else
        (elements (element c rest).2 rest).map fun (found, count) =>
          ((element c rest).1 :: found, count + 1)

/-- A hyphen between two bytes makes a range. -/
def bracketItems : List BracketElement → List BracketItem
  | [] => []
  | .byte low _ :: .byte 45 false :: .byte high _ :: rest =>
      .range low high :: bracketItems rest
  | .byte c _ :: rest => .range c c :: bracketItems rest
  | .named name :: rest => .named name :: bracketItems rest

/-- A closing bracket at the front is an element. -/
def bracketBody : Bytes → Option (List BracketElement × Nat)
  | [] => none
  | c :: rest =>
      if c = 93 then
        (elements 0 rest).map fun (found, count) =>
          (.byte c true :: found, count + 1)
      else
        elements 0 (c :: rest)

/-- The bracket expression behind a `[` and its length.  The end of the pattern
in front of the closing bracket leaves none.  A circumflex at the front, which
POSIX leaves open, is read as `!`. -/
def bracket : Bytes → Option (Bracket × Nat)
  | [] => none
  | c :: rest =>
      if c = 33 ∨ c = 94 then
        (bracketBody rest).map fun (found, count) =>
          ({ negated := true, items := bracketItems found }, count + 1)
      else
        (bracketBody (c :: rest)).map fun (found, count) =>
          ({ negated := false, items := bracketItems found }, count)

/-- What one place of a pattern stands for.  Nothing matches a backslash at the
end of a pattern. -/
inductive GlobToken
  | char (c : UInt8)
  | any
  | star
  | bracket (bracket : Bracket)
  | never
  deriving DecidableEq

/-- The places of a pattern; `skip` bytes belong to the place before. -/
def tokens : Nat → Bytes → List GlobToken
  | _, [] => []
  | skip + 1, _ :: rest => tokens skip rest
  | 0, c :: rest =>
      if c = 42 then
        .star :: tokens 0 rest
      else if c = 63 then
        .any :: tokens 0 rest
      else if c = 92 then
        match rest with
        | [] => [.never]
        | d :: _ => .char d :: tokens 1 rest
      else if c = 91 then
        match bracket rest with
        | some (found, count) => .bracket found :: tokens count rest
        | none => .char c :: tokens 0 rest
      else
        .char c :: tokens 0 rest

/-- What a `*` can leave of a string. -/
def starRests : Bytes → List Bytes
  | [] => [[]]
  | c :: rest => (c :: rest) :: if c = slash then [] else starRests rest

def matchTokens : List GlobToken → Bytes → Bool
  | [], string => string.isEmpty
  | .never :: _, _ => false
  | .star :: tokens, string => (starRests string).any (matchTokens tokens)
  | .char _ :: _, [] | .any :: _, [] | .bracket _ :: _, [] => false
  | .char c :: tokens, d :: rest => c = d ∧ matchTokens tokens rest = true
  | .any :: tokens, d :: rest => d ≠ slash ∧ matchTokens tokens rest = true
  | .bracket found :: tokens, d :: rest =>
      d ≠ slash ∧ found.contains d = true ∧ matchTokens tokens rest = true

/-- `fnmatch` with `FNM_PATHNAME` returns zero. -/
def fnmatch (pattern string : Bytes) : Bool :=
  matchTokens (tokens 0 pattern) string

example : fnmatch (ascii "/files/*.[ch]") (ascii "/files/a.c") = true := by
  decide

example : fnmatch (ascii "/[!a-c]\\*[/?") (ascii "/x*[/y") = true := by
  decide

example : fnmatch (ascii "/[!/]x") (ascii "/ax") = true := by
  decide

/-! ## What a pattern may hold -/

/-- `[:`, `[.` or `[=` in a bracket expression. -/
def opensName (text : Bytes) : Bool :=
  ["[:", "[.", "[="].any fun word => ascii word <+: text

/-- POSIX leaves open what `[:`, `[.` and `[=` stand for without the name of a
class or a byte behind them, and a range that starts or ends with one of them
or has no end. -/
def elementSpecified (c : UInt8) (rest : Bytes) : Bool :=
  let behind := rest.drop (element c rest).2
  if opensName (c :: rest) then
    (element c rest).2 ≠ 0 ∧ behind.head? ≠ some 45
  else
    behind.head? = some 45 → behind.tail ≠ [] ∧ ¬ opensName behind.tail

def elementsSpecified : Nat → Bytes → Bool
  | _, [] => true
  | skip + 1, _ :: rest => elementsSpecified skip rest
  | 0, c :: rest =>
      c = 93 ∨ elementSpecified c rest = true ∧
        elementsSpecified (element c rest).2 rest = true

def bracketSpecified (text : Bytes) : Bool :=
  let body := if text.head? = some 33 ∨ text.head? = some 94 then text.tail
    else text
  if body.head? = some 93 then
    elementSpecified 93 body.tail ∧ elementsSpecified 0 body.tail = true
  else
    elementsSpecified 0 body

/-- The patterns POSIX gives a meaning, `skip` bytes behind the front.  A `*`
in front of a quoted slash is left out, which C libraries do not read alike. -/
def specified : Nat → Bytes → Bool
  | _, [] => true
  | skip + 1, _ :: rest => specified skip rest
  | 0, c :: rest =>
      if c = 42 then
        ¬ ascii "\\/" <+: rest.dropWhile (fun d => d = 42 ∨ d = 63) ∧
          specified 0 rest = true
      else if c = 92 then
        specified 1 rest
      else if c = 91 then
        bracketSpecified rest ∧
          specified ((bracket rest).elim 0 Prod.snd) rest = true
      else
        specified 0 rest

example : specified 0 (ascii "/[!a-c]\\*[/?[[:alpha:]-]") = false := by decide

/-! ## Matching -/

/-- The strings one place stands for. -/
def GlobToken.Reads : GlobToken → Bytes → Prop
  | .char c, taken => taken = [c]
  | .any, taken => ∃ d, d ≠ slash ∧ taken = [d]
  | .star, taken => slash ∉ taken
  | .bracket found, taken =>
      ∃ d, d ≠ slash ∧ found.contains d = true ∧ taken = [d]
  | .never, _ => False

theorem mem_starRests {string rest : Bytes} :
    rest ∈ starRests string ↔
      ∃ taken, string = taken ++ rest ∧ slash ∉ taken := by
  induction string with
  | nil =>
      simp only [starRests, List.mem_singleton]
      constructor
      · rintro rfl
        exact ⟨[], rfl, by simp⟩
      · rintro ⟨taken, split, _⟩
        exact (List.append_eq_nil_iff.mp split.symm).2
  | cons c string ih =>
      rw [starRests, List.mem_cons]
      constructor
      · rintro (rfl | later)
        · exact ⟨[], rfl, by simp⟩
        · split at later
          · cases later
          · next other =>
              obtain ⟨taken, rfl, free⟩ := ih.mp later
              exact ⟨c :: taken, rfl, by simp [free, Ne.symm other]⟩
      · rintro ⟨taken, split, free⟩
        cases taken with
        | nil => exact .inl split.symm
        | cons d taken =>
            obtain ⟨rfl, rest⟩ := List.cons.inj split
            rw [List.mem_cons, not_or] at free
            rw [if_neg (Ne.symm free.1)]
            exact .inr (ih.mpr ⟨taken, rest, free.2⟩)

variable {token : GlobToken} {places more : List GlobToken} {string : Bytes}

theorem matchTokens_nil : matchTokens [] string = true ↔ string = [] := by
  rw [matchTokens, List.isEmpty_iff]

theorem matchTokens_cons :
    matchTokens (token :: places) string = true ↔
      ∃ taken rest, string = taken ++ rest ∧ token.Reads taken ∧
        matchTokens places rest = true := by
  cases token with
  | star =>
      rw [matchTokens, List.any_eq_true]
      constructor
      · rintro ⟨rest, member, matched⟩
        obtain ⟨taken, split, free⟩ := mem_starRests.mp member
        exact ⟨taken, rest, split, free, matched⟩
      · rintro ⟨taken, rest, split, free, matched⟩
        exact ⟨rest, mem_starRests.mpr ⟨taken, split, free⟩, matched⟩
  | never => simp [matchTokens, GlobToken.Reads]
  | char c => cases string <;> simp [matchTokens, GlobToken.Reads]; grind
  | any => cases string <;> simp [matchTokens, GlobToken.Reads]
  | bracket found => cases string <;> simp [matchTokens, GlobToken.Reads]; grind

theorem matchTokens_append :
    matchTokens (places ++ more) string = true ↔
      ∃ first second, string = first ++ second ∧
        matchTokens places first = true ∧ matchTokens more second = true := by
  induction places generalizing string with
  | nil =>
      simp only [List.nil_append, matchTokens_nil]
      constructor
      · exact fun matched => ⟨[], string, rfl, rfl, matched⟩
      · rintro ⟨first, second, rfl, rfl, matched⟩
        exact matched
  | cons token places ih =>
      simp only [List.cons_append, matchTokens_cons, ih]
      constructor
      · rintro ⟨taken, _, rfl, reads, first, second, rfl, matched, later⟩
        exact ⟨taken ++ first, second, by simp,
          ⟨taken, first, rfl, reads, matched⟩, later⟩
      · rintro ⟨_, second, rfl, ⟨taken, first, rfl, reads, matched⟩, later⟩
        exact ⟨taken, first ++ second, by simp, reads, first, second, rfl,
          matched, later⟩

/-! ## The places of a pattern -/

theorem elements_le {skip : Nat} {text : Bytes} {found : List BracketElement}
    {count : Nat} (read : elements skip text = some (found, count)) :
    0 < count ∧ count ≤ text.length := by
  induction text generalizing skip found count with
  | nil => cases skip <;> cases read
  | cons c rest ih =>
      cases skip with
      | succ skip =>
          obtain ⟨⟨inner, n⟩, later, same⟩ := Option.map_eq_some_iff.mp read
          cases same
          have := ih later
          simp only [List.length_cons]
          omega
      | zero =>
          rw [elements] at read
          split at read
          · cases read
            simp
          · obtain ⟨⟨inner, n⟩, later, same⟩ := Option.map_eq_some_iff.mp read
            cases same
            have := ih later
            simp only [List.length_cons]
            omega

theorem bracketBody_le {text : Bytes} {found : List BracketElement}
    {count : Nat} (read : bracketBody text = some (found, count)) :
    0 < count ∧ count ≤ text.length := by
  cases text with
  | nil => cases read
  | cons c rest =>
      rw [bracketBody] at read
      split at read
      · obtain ⟨⟨inner, n⟩, later, same⟩ := Option.map_eq_some_iff.mp read
        cases same
        have := elements_le later
        simp only [List.length_cons]
        omega
      · exact elements_le read

/-- A bracket expression has an end. -/
theorem bracket_le {text : Bytes} {found : Bracket} {count : Nat}
    (read : bracket text = some (found, count)) :
    0 < count ∧ count ≤ text.length := by
  cases text with
  | nil => cases read
  | cons c rest =>
      rw [bracket] at read
      split at read
      · obtain ⟨⟨inner, n⟩, later, same⟩ := Option.map_eq_some_iff.mp read
        cases same
        have := bracketBody_le later
        simp only [List.length_cons]
        omega
      · obtain ⟨⟨inner, n⟩, later, same⟩ := Option.map_eq_some_iff.mp read
        cases same
        exact bracketBody_le later

theorem lt_of_elements {skip : Nat} {text : Bytes}
    {found : List BracketElement} {count : Nat}
    (read : elements skip text = some (found, count)) : skip < count := by
  induction skip generalizing text found count with
  | zero => exact (elements_le read).1
  | succ skip ih =>
      cases text with
      | nil => cases read
      | cons c rest =>
          obtain ⟨⟨inner, n⟩, later, same⟩ := Option.map_eq_some_iff.mp read
          cases same
          exact Nat.succ_lt_succ (ih later)

/-! ## Brackets in front of a slash -/

/-- With more text behind its first `length` bytes something is read as
before, unless it now ends behind them. -/
def ReadsOn {β : Type*} (length : Nat) (short long : Option (β × Nat)) :
    Prop :=
  long = short ∨ short = none ∧ ∀ read, long = some read → length < read.2

theorem ReadsOn.map {β γ : Type*} {length : Nat} {short long : Option (β × Nat)}
    (reads : ReadsOn length short long) (wrap : β → γ) (more : Nat) :
    ReadsOn (length + more)
      (short.map fun (found, count) => (wrap found, count + more))
      (long.map fun (found, count) => (wrap found, count + more)) := by
  rcases reads with same | ⟨none, further⟩
  · exact .inl (by rw [same])
  · refine .inr ⟨by rw [none]; rfl, ?_⟩
    intro read here
    obtain ⟨inner, found, rfl⟩ := Option.map_eq_some_iff.mp here
    exact Nat.add_lt_add_right (further inner found) more

/-- A word without a slash does not reach over one. -/
theorem prefix_append_slash {word segment : Bytes} (free : slash ∉ word)
    (rest : Bytes) : word <+: segment ++ slash :: rest ↔ word <+: segment := by
  induction segment generalizing word with
  | nil =>
      cases word with
      | nil => simp
      | cons c word =>
          have other : c ≠ slash := fun same => free (by simp [same])
          simp [List.cons_prefix_cons, other]
  | cons d segment ih =>
      cases word with
      | nil => simp
      | cons c word =>
          rw [List.mem_cons, not_or] at free
          simp only [List.cons_append, List.cons_prefix_cons, ih free.2]

theorem takeWhile_append_slash {holds : UInt8 → Bool}
    (stops : holds slash = false) (segment rest : Bytes) :
    (segment ++ slash :: rest).takeWhile holds = segment.takeWhile holds := by
  induction segment with
  | nil => simp [stops]
  | cons c segment ih => simp only [List.cons_append, List.takeWhile_cons, ih]

/-- An element that does not reach the slash is read as before; one that does
leaves no closing bracket in front of the slash. -/
theorem element_append_slash (c : UInt8) (segment rest : Bytes) :
    element c (segment ++ slash :: rest) = element c segment ∧
        (element c segment).2 ≤ segment.length ∨
      (c ≠ 93 → elements 0 (c :: segment) = none) ∧
        segment.length < (element c (segment ++ slash :: rest)).2 := by
  cases segment with
  | nil =>
      by_cases backslash : c = 92
      · subst backslash
        exact .inr ⟨fun _ => by decide, by simp [element]⟩
      · have plain : ¬ slash = 58 ∧ ¬ (slash = 46 ∨ slash = 61) := by decide
        exact .inl (by simp [element, backslash, plain])
  | cons d more =>
      have letters := @takeWhile_append_slash
        (fun letter => 97 ≤ letter ∧ letter ≤ 122) (by decide) more rest
      have short := (List.takeWhile_prefix (l := more)
        fun letter => decide (97 ≤ letter ∧ letter ≤ 122)).length_le
      simp only [List.cons_append, element, letters,
        List.drop_append_of_le_length short,
        prefix_append_slash (by decide : slash ∉ ascii ":]")]
      split
      · exact .inl ⟨rfl, by simp⟩
      split
      · next named =>
          have ends := named.2.2.2.length_le
          have two : (ascii ":]").length = 2 := by decide
          rw [two, List.length_drop] at ends
          refine .inl ⟨rfl, ?_⟩
          simp only [List.length_cons]
          omega
      cases more with
      | nil =>
          split
          · -- the slash stands between `[.` and `.]`
            next symbol =>
              refine .inr ⟨fun _ => ?_, by simp⟩
              obtain ⟨rfl, rfl | rfl, _⟩ := symbol <;> decide
          · exact .inl (by simp)
      | cons e more =>
          have symbol (kind : d = 46 ∨ d = 61) :
              [d, 93] <+: more ++ slash :: rest ↔ [d, 93] <+: more := by
            apply prefix_append_slash
            rcases kind with rfl | rfl <;> decide
          simp only [List.cons_append, List.drop_succ_cons, List.drop_zero,
            and_congr_right symbol, List.headD_cons, true_and]
          split
          · next symbol =>
              have ends := symbol.2.2.length_le
              refine .inl ?_
              simp only [List.length_cons, List.length_nil] at ends ⊢
              omega
          · exact .inl (Nat.zero_le _)

theorem elements_append_slash {skip : Nat} {segment : Bytes} (rest : Bytes)
    (within : skip ≤ segment.length) :
    ReadsOn segment.length (elements skip segment)
      (elements skip (segment ++ slash :: rest)) := by
  induction segment generalizing skip with
  | nil =>
      have none : skip = 0 := by simpa using within
      subst none
      exact .inr ⟨rfl, fun read here => (elements_le here).1⟩
  | cons c segment ih =>
      cases skip with
      | succ skip => exact (ih (by simpa using within)).map id 1
      | zero =>
          rcases element_append_slash c segment rest with
            ⟨same, bound⟩ | ⟨open', further⟩
          · rw [List.cons_append, elements, elements, same]
            split
            · exact .inl rfl
            · exact (ih bound).map ((element c segment).1 :: ·) 1
          · by_cases closes : c = 93
            · exact .inl (by simp [elements, closes])
            · refine .inr ⟨open' closes, ?_⟩
              intro read here
              rw [List.cons_append, elements, if_neg closes] at here
              obtain ⟨⟨found, count⟩, later, rfl⟩ :=
                Option.map_eq_some_iff.mp here
              have reached := lt_of_elements later
              simp only [List.length_cons]
              omega

theorem bracketBody_append_slash (segment rest : Bytes) :
    ReadsOn segment.length (bracketBody segment)
      (bracketBody (segment ++ slash :: rest)) := by
  cases segment with
  | nil => exact .inr ⟨rfl, fun read here => (bracketBody_le here).1⟩
  | cons c segment =>
      rw [List.cons_append, bracketBody, bracketBody]
      split
      · exact (elements_append_slash rest (Nat.zero_le _)).map
          (.byte c true :: ·) 1
      · have inside : 0 ≤ (c :: segment).length := Nat.zero_le _
        exact elements_append_slash rest inside

/-- A bracket expression in front of a slash does not depend on what stands
behind it; without a closing bracket there, one may run over the slash. -/
theorem bracket_append_slash (segment rest : Bytes) :
    ReadsOn segment.length (bracket segment)
      (bracket (segment ++ slash :: rest)) := by
  cases segment with
  | nil => exact .inr ⟨rfl, fun read here => (bracket_le here).1⟩
  | cons c segment =>
      rw [List.cons_append, bracket, bracket]
      split
      · exact (bracketBody_append_slash segment rest).map
          (fun found => Bracket.mk true (bracketItems found)) 1
      · exact (bracketBody_append_slash (c :: segment) rest).map
          (fun found => Bracket.mk false (bracketItems found)) 0

theorem count_char_cons (c : UInt8) :
    (GlobToken.char c :: places).count (.char slash) =
      places.count (.char slash) + if c = slash then 1 else 0 := by
  simp [List.count_cons]

theorem count_cons_of_ne (other : token ≠ .char slash) :
    (token :: places).count (.char slash) = places.count (.char slash) :=
  List.count_cons_of_ne other

theorem count_slash_cons (c : UInt8) (rest : Bytes) :
    (c :: rest).count slash =
      rest.count slash + if c = slash then 1 else 0 := by
  simp [List.count_cons]

/-- A slash of a pattern is a place or stands in a bracket expression. -/
theorem count_tokens_le (skip : Nat) (text : Bytes) :
    (tokens skip text).count (.char slash) ≤ (text.drop skip).count slash := by
  induction text generalizing skip with
  | nil => simp [tokens]
  | cons c rest ih =>
      cases skip with
      | succ skip => exact ih skip
      | zero =>
          have next := ih 0
          rw [List.drop_zero] at next ⊢
          rw [tokens.eq_def, count_slash_cons]
          simp only
          split
          · rw [count_cons_of_ne (by simp)]
            omega
          split
          · rw [count_cons_of_ne (by simp)]
            omega
          split
          · cases rest with
            | nil => simp
            | cons d rest =>
                have later := ih 1
                rw [List.drop_succ_cons, List.drop_zero] at later
                simp only [count_char_cons, count_slash_cons]
                omega
          split
          · cases bracket rest with
            | none =>
                simp only [count_char_cons]
                omega
            | some found =>
                have later := ih found.2
                have fewer := (List.drop_sublist found.2 rest).count_le slash
                have other : GlobToken.bracket found.1 ≠ .char slash := by simp
                rw [count_cons_of_ne other]
                omega
          · rw [count_char_cons]
            omega

/-- The places `outer` of a pattern are the places `inner` of a segment, the
slash behind it and those of the rest, where a backslash in front of the slash
is dropped, unless a bracket expression takes the slash. -/
def SplitsAtSlash (rest : Bytes) (inner outer : List GlobToken) : Prop :=
  outer = inner.filter (· ≠ .never) ++ .char slash :: tokens 0 rest ∨
    outer.count (.char slash) ≤ rest.count slash

theorem SplitsAtSlash.cons {rest : Bytes} {inner outer : List GlobToken}
    (splits : SplitsAtSlash rest inner outer) (plain : token ≠ .never)
    (other : token ≠ .char slash) :
    SplitsAtSlash rest (token :: inner) (token :: outer) := by
  rcases splits with same | fewer
  · exact .inl (by simp [same, plain])
  · exact .inr (by rwa [count_cons_of_ne other])

/-- A bracket expression over the slash leaves too few slashes. -/
theorem count_tokens_behind {segment rest : Bytes} {count : Nat}
    (behind : segment.length < count) :
    (tokens count (segment ++ slash :: rest)).count (.char slash) ≤
      rest.count slash := by
  obtain ⟨more, rfl⟩ := Nat.exists_eq_add_of_lt behind
  calc (tokens (segment.length + more + 1)
          (segment ++ slash :: rest)).count (.char slash)
      ≤ ((segment ++ slash :: rest).drop (segment.length + more + 1)).count
          slash := count_tokens_le _ _
    _ = (rest.drop more).count slash := by
        rw [Nat.add_assoc, List.drop_length_add_append, List.drop_succ_cons]
    _ ≤ rest.count slash := (List.drop_sublist more rest).count_le slash

theorem tokens_append_slash {segment : Bytes} (skip : Nat) (rest : Bytes)
    (free : slash ∉ segment) (within : skip ≤ segment.length) :
    SplitsAtSlash rest (tokens skip segment)
      (tokens skip (segment ++ slash :: rest)) := by
  induction segment generalizing skip with
  | nil =>
      have none : skip = 0 := by simpa using within
      subst none
      exact .inl rfl
  | cons c segment ih =>
      rw [List.mem_cons, not_or] at free
      cases skip with
      | succ skip => exact ih skip free.2 (by simpa using within)
      | zero =>
          have next := ih 0 free.2 (Nat.zero_le _)
          have plain : GlobToken.char c ≠ .char slash := by
            simpa using Ne.symm free.1
          simp only [List.cons_append, tokens]
          split
          · exact next.cons (by simp) (by simp)
          split
          · exact next.cons (by simp) (by simp)
          split
          · cases segment with
            | nil => exact .inl (by simp [tokens])
            | cons d segment =>
                rw [List.mem_cons, not_or] at free
                have quoted := ih 1 (by simp [free.2]) (by simp)
                exact quoted.cons (by simp) (by simpa using Ne.symm free.2.1)
          split
          · rcases bracket_append_slash segment rest with same | ⟨none, further⟩
            · rw [same]
              cases read : bracket segment with
              | none => exact next.cons (by simp) plain
              | some found =>
                  exact (ih found.2 free.2 (bracket_le read).2).cons (by simp)
                    (by simp)
            · rw [none]
              cases read : bracket (segment ++ slash :: rest) with
              | none => exact next.cons (by simp) plain
              | some found =>
                  right
                  rw [count_cons_of_ne (by simp)]
                  exact count_tokens_behind (further found read)
          · exact next.cons (by simp) plain

theorem not_mem_tokens {segment : Bytes} (skip : Nat)
    (free : slash ∉ segment) : .char slash ∉ tokens skip segment := by
  induction segment generalizing skip with
  | nil => simp [tokens]
  | cons c segment ih =>
      rw [List.mem_cons, not_or] at free
      cases skip with
      | succ skip => exact ih skip free.2
      | zero =>
          simp only [tokens]
          split
          · simp [ih 0 free.2]
          split
          · simp [ih 0 free.2]
          split
          · cases segment with
            | nil => simp
            | cons d segment =>
                have other : slash ≠ d := fun same => free.2 (by simp [same])
                simp [ih 1 free.2, other]
          split
          · cases bracket segment with
            | none => simp [ih 0 free.2, free.1]
            | some found => simp [ih found.2 free.2]
          · simp [ih 0 free.2, free.1]

/-- Every slash of a pattern is a place of its own: no bracket expression runs
over one. -/
def KeepsSlashes (pattern : Bytes) : Prop :=
  (tokens 0 pattern).count (.char slash) = pattern.count slash

instance (pattern : Bytes) : Decidable (KeepsSlashes pattern) :=
  inferInstanceAs (Decidable (_ = _))

theorem KeepsSlashes.split {segment rest : Bytes} (free : slash ∉ segment)
    (keeps : KeepsSlashes (segment ++ slash :: rest)) :
    tokens 0 (segment ++ slash :: rest) =
        (tokens 0 segment).filter (· ≠ .never) ++
          .char slash :: tokens 0 rest ∧
      KeepsSlashes rest := by
  rw [KeepsSlashes, List.count_append, List.count_eq_zero.mpr free,
    List.count_cons_self, Nat.zero_add] at keeps
  rcases tokens_append_slash 0 rest free (Nat.zero_le _) with same | fewer
  · have none : GlobToken.char slash ∉
        (tokens 0 segment).filter (· ≠ .never) :=
      fun member => not_mem_tokens 0 free (List.mem_filter.mp member).1
    rw [same, List.count_append, List.count_eq_zero.mpr none,
      List.count_cons_self, Nat.zero_add] at keeps
    exact ⟨same, Nat.add_right_cancel keeps⟩
  · omega

theorem GlobToken.Reads.count_slash {taken : Bytes}
    (reads : token.Reads taken) :
    taken.count slash = if token = .char slash then 1 else 0 := by
  cases token with
  | char c =>
      rw [reads]
      simp [List.count_singleton]
  | any =>
      obtain ⟨d, other, rfl⟩ := reads
      simp [other]
  | star => simpa using List.count_eq_zero.mpr reads
  | bracket found =>
      obtain ⟨d, other, _, rfl⟩ := reads
      simp [other]
  | never => exact reads.elim

/-- A string has the slashes of the pattern that matches it. -/
theorem count_of_matchTokens (matched : matchTokens places string = true) :
    string.count slash = places.count (.char slash) := by
  induction places generalizing string with
  | nil => simp [matchTokens_nil.mp matched]
  | cons token places ih =>
      obtain ⟨taken, rest, rfl, reads, later⟩ := matchTokens_cons.mp matched
      rw [List.count_append, reads.count_slash, ih later, List.count_cons,
        Nat.add_comm]
      simp only [beq_iff_eq]

/-- Only a slash of the pattern matches a slash. -/
theorem not_mem_of_matchTokens (free : .char slash ∉ places)
    (matched : matchTokens places string = true) : slash ∉ string := by
  rw [← List.count_eq_zero, count_of_matchTokens matched]
  exact List.count_eq_zero.mpr free

/-! ## Patterns that stand for themselves -/

/-- Some C string can be read there. -/
def GlobToken.Matchable : GlobToken → Prop
  | .char c => c ≠ 0
  | .any | .star => True
  | .bracket found => ∃ d, d ≠ 0 ∧ d ≠ slash ∧ found.contains d = true
  | .never => False

/-- A C string the places match. -/
def Accepts (places : List GlobToken) (string : Bytes) : Prop :=
  0 ∉ string ∧ matchTokens places string = true

theorem accepts_cons :
    Accepts (token :: places) string ↔
      ∃ taken rest, string = taken ++ rest ∧ (0 ∉ taken ∧ token.Reads taken) ∧
        Accepts places rest := by
  simp only [Accepts, matchTokens_cons]
  constructor
  · rintro ⟨noNul, taken, rest, rfl, reads, matched⟩
    rw [List.mem_append, not_or] at noNul
    exact ⟨taken, rest, rfl, ⟨noNul.1, reads⟩, noNul.2, matched⟩
  · rintro ⟨taken, rest, rfl, ⟨noNul, reads⟩, noNulLater, matched⟩
    exact ⟨by simp [noNul, noNulLater], taken, rest, rfl, reads, matched⟩

theorem matchable_iff :
    token.Matchable ↔
      ∃ taken, (0 ∉ taken ∧ token.Reads taken) ∧ taken.length ≤ 1 := by
  cases token with
  | char c =>
      constructor
      · exact fun some => ⟨[c], ⟨by simpa using some.symm, rfl⟩, le_rfl⟩
      · rintro ⟨_, ⟨noNul, rfl⟩, _⟩ same
        exact noNul (by simp [same])
  | any =>
      exact iff_of_true trivial
        ⟨[120], ⟨by decide, 120, by decide, rfl⟩, le_rfl⟩
  | star =>
      exact iff_of_true trivial
        ⟨[], ⟨by simp, by simp [GlobToken.Reads]⟩, by simp⟩
  | bracket found =>
      constructor
      · rintro ⟨d, some, other, listed⟩
        exact ⟨[d], ⟨by simpa using some.symm, d, other, listed, rfl⟩, le_rfl⟩
      · rintro ⟨_, ⟨noNul, d, other, listed, rfl⟩, _⟩
        exact ⟨d, by simpa [eq_comm] using noNul, other, listed⟩
  | never =>
      apply iff_of_false id
      rintro ⟨_, ⟨_, reads⟩, _⟩
      exact reads

/-- A pattern is matched by something if each of its places is. -/
theorem exists_accepts (matchable : ∀ token ∈ places, token.Matchable) :
    ∃ string, Accepts places string ∧ string.length ≤ places.length := by
  induction places with
  | nil => exact ⟨[], ⟨by simp, rfl⟩, le_rfl⟩
  | cons token places ih =>
      rw [List.forall_mem_cons] at matchable
      obtain ⟨taken, reads, short⟩ := matchable_iff.mp matchable.1
      obtain ⟨rest, accepted, shorter⟩ := ih matchable.2
      refine ⟨taken ++ rest, accepts_cons.mpr
        ⟨taken, rest, rfl, reads, accepted⟩, ?_⟩
      simp only [List.length_append, List.length_cons]
      omega

theorem matchable_of_accepts (accepted : Accepts places string) :
    ∀ token ∈ places, token.Matchable := by
  induction places generalizing string with
  | nil => simp
  | cons token places ih =>
      obtain ⟨taken, rest, rfl, reads, later⟩ := accepts_cons.mp accepted
      rw [List.forall_mem_cons]
      refine ⟨?_, ih later⟩
      cases token with
      | char c =>
          obtain ⟨noNul, rfl⟩ := reads
          intro same
          exact noNul (by simp [same])
      | any | star => trivial
      | bracket found =>
          obtain ⟨noNul, d, other, listed, rfl⟩ := reads
          exact ⟨d, by simpa [eq_comm] using noNul, other, listed⟩
      | never => exact reads.2

/-- The places of a segment in front of a slash. -/
def segmentTokens (skip : Nat) (segment : Bytes) : List GlobToken :=
  (tokens skip segment).filter (· ≠ .never)

/-- The first place of a segment: a plain byte, an unpaired backslash, or one
of the notations. -/
theorem tokens_cons_cases (c : UInt8) (segment : Bytes) :
    tokens 0 (c :: segment) = .char c :: tokens 0 segment ∨
      tokens 0 (c :: segment) = [.never] ∧ segment = [] ∨
      ∃ token skip, tokens 0 (c :: segment) = token :: tokens skip segment ∧
        token ≠ .never ∧ skip ≤ segment.length ∧
        (token = .star ∨ token = .any ∨ 0 < skip) := by
  rw [tokens.eq_def]
  simp only
  split
  · exact .inr (.inr ⟨.star, 0, rfl, by simp, Nat.zero_le _, .inl rfl⟩)
  split
  · exact .inr (.inr ⟨.any, 0, rfl, by simp, Nat.zero_le _, .inr (.inl rfl)⟩)
  split
  · cases segment with
    | nil => exact .inr (.inl ⟨rfl, rfl⟩)
    | cons d segment =>
        exact .inr (.inr ⟨.char d, 1, rfl, by simp, by simp, by simp⟩)
  split
  · cases read : bracket segment with
    | none => exact .inl rfl
    | some found =>
        obtain ⟨positive, bound⟩ := bracket_le read
        exact .inr (.inr ⟨.bracket found.1, found.2, rfl, by simp, bound,
          .inr (.inr positive)⟩)
  · exact .inl rfl

theorem segmentTokens_cons {token : GlobToken} {skip : Nat} {c : UInt8}
    {segment : Bytes} (some : token ≠ .never)
    (split : tokens 0 (c :: segment) = token :: tokens skip segment) :
    segmentTokens 0 (c :: segment) = token :: segmentTokens skip segment := by
  simp [segmentTokens, split, some]

/-- A place takes a byte of the pattern at least. -/
theorem segmentTokens_length {segment : Bytes} (skip : Nat)
    (within : skip ≤ segment.length) :
    (segmentTokens skip segment).length + skip ≤ segment.length := by
  induction segment generalizing skip with
  | nil => simpa [segmentTokens, tokens] using within
  | cons c segment ih =>
      rw [List.length_cons] at within ⊢
      cases skip with
      | succ skip =>
          have next := ih skip (by omega)
          have same : segmentTokens (skip + 1) (c :: segment) =
              segmentTokens skip segment := rfl
          rw [same]
          omega
      | zero =>
          rcases tokens_cons_cases c segment with
            plain | ⟨never, _⟩ | ⟨token, skip, split, some, bound, _⟩
          · have next := ih 0 (Nat.zero_le _)
            rw [segmentTokens_cons (by simp) plain, List.length_cons]
            omega
          · simp [segmentTokens, never]
          · have next := ih skip bound
            rw [segmentTokens_cons some split, List.length_cons]
            omega

theorem exists_short_match {segment : Bytes} (skip : Nat)
    (within : skip ≤ segment.length)
    (matchable : ∀ token ∈ segmentTokens skip segment, token.Matchable) :
    ∃ string, Accepts (segmentTokens skip segment) string ∧
      string.length + skip ≤ segment.length := by
  obtain ⟨string, accepted, short⟩ := exists_accepts matchable
  have := segmentTokens_length skip within
  exact ⟨string, accepted, by omega⟩

theorem accepts_cons_of_reads {taken rest : Bytes}
    (reads : 0 ∉ taken ∧ token.Reads taken) (accepted : Accepts places rest) :
    Accepts (token :: places) (taken ++ rest) :=
  accepts_cons.mpr ⟨taken, rest, rfl, reads, accepted⟩

/-- A segment that only matches itself has no place but plain bytes. -/
theorem tokens_eq_of_only {segment : Bytes} (skip : Nat)
    (within : skip ≤ segment.length)
    (matchable : ∀ token ∈ segmentTokens skip segment, token.Matchable)
    (only : ∀ string, Accepts (segmentTokens skip segment) string →
      string = segment.drop skip) :
    tokens skip segment = (segment.drop skip).map .char := by
  induction segment generalizing skip with
  | nil => simp [tokens]
  | cons c segment ih =>
      cases skip with
      | succ skip =>
          exact ih skip (by simpa using within) matchable only
      | zero =>
          rw [List.drop_zero] at only ⊢
          rcases tokens_cons_cases c segment with
            plain | ⟨never, rfl⟩ | ⟨token, skip, split, some, bound, kind⟩
          · rw [segmentTokens_cons (by simp) plain] at matchable only
            rw [List.forall_mem_cons] at matchable
            rw [plain, ih 0 (Nat.zero_le _) matchable.2, List.drop_zero,
              List.map_cons]
            intro string accepted
            have reads : 0 ∉ [c] ∧ (GlobToken.char c).Reads [c] :=
              ⟨by simpa using Ne.symm matchable.1, rfl⟩
            have whole := only _ (accepts_cons_of_reads reads accepted)
            exact (List.cons.inj whole).2
          · -- the backslash is dropped, and the empty string is matched
            have nothing : segmentTokens 0 [c] = [] := by
              simp [segmentTokens, never]
            rw [nothing] at only
            cases only [] ⟨by simp, rfl⟩
          · rw [segmentTokens_cons some split] at matchable only
            rw [List.forall_mem_cons] at matchable
            obtain ⟨rest, accepted, short⟩ :=
              exists_short_match skip bound matchable.2
            have tooShort (taken : Bytes) (small : taken.length ≤ skip)
                (reads : 0 ∉ taken ∧ token.Reads taken) : False := by
              have whole := only _ (accepts_cons_of_reads reads accepted)
              have lengths := congrArg List.length whole
              rw [List.length_append, List.length_cons] at lengths
              omega
            rcases kind with rfl | rfl | positive
            · exact (tooShort [] (Nat.zero_le _) ⟨by simp, by
                simp [GlobToken.Reads]⟩).elim
            · -- two bytes are read there
              have whole (d : UInt8) (some : d ≠ 0) (other : d ≠ slash) :
                  d :: rest = c :: segment := by
                have reads : 0 ∉ [d] ∧ GlobToken.any.Reads [d] :=
                  ⟨by simpa using some.symm, d, other, rfl⟩
                exact only _ (accepts_cons_of_reads reads accepted)
              have same := (whole 120 (by decide) (by decide)).trans
                (whole 121 (by decide) (by decide)).symm
              cases (List.cons.inj same).1
            · obtain ⟨taken, reads, small⟩ := matchable_iff.mp matchable.1
              exact (tooShort taken (by omega) reads).elim

/-- Plain bytes match themselves only. -/
theorem matchTokens_map_char {plain : Bytes} :
    matchTokens (plain.map .char) string = true ↔ string = plain := by
  induction plain generalizing string with
  | nil => exact matchTokens_nil
  | cons c plain ih =>
      rw [List.map_cons, matchTokens_cons]
      constructor
      · rintro ⟨_, rest, rfl, rfl, matched⟩
        rw [ih.mp matched]
        rfl
      · rintro rfl
        exact ⟨[c], plain, rfl, rfl, ih.mpr rfl⟩

theorem segmentTokens_of_plain {segment : Bytes}
    (plain : tokens 0 segment = segment.map .char) :
    segmentTokens 0 segment = segment.map .char := by
  rw [segmentTokens, plain, List.filter_eq_self]
  intro token member
  obtain ⟨c, _, rfl⟩ := List.mem_map.mp member
  simp

theorem only_itself_iff {segment : Bytes}
    (matchable : ∀ token ∈ segmentTokens 0 segment, token.Matchable) :
    (∀ string, Accepts (segmentTokens 0 segment) string → string = segment) ↔
      tokens 0 segment = segment.map .char := by
  constructor
  · exact tokens_eq_of_only 0 (Nat.zero_le _) matchable
  · intro plain string accepted
    rw [segmentTokens_of_plain plain] at accepted
    exact matchTokens_map_char.mp accepted.2

/-! ## Patterns by their segments -/

open SeparatedPieces

/-- What the segments of a pattern match.  A backslash at the end of the last
one matches nothing, at the end of another one the slash. -/
def segmentSets : List Bytes → List (Set Bytes)
  | [] => []
  | [last] => [{string | Accepts (tokens 0 last) string}]
  | segment :: next :: more =>
      {string | Accepts (segmentTokens 0 segment) string} ::
        segmentSets (next :: more)

theorem segmentSets_cons (segment : Bytes) {segments : List Bytes}
    (more : segments ≠ []) :
    segmentSets (segment :: segments) =
      {string | Accepts (segmentTokens 0 segment) string} ::
        segmentSets segments := by
  cases segments with
  | nil => exact absurd rfl more
  | cons next segments => rfl

theorem length_segmentSets (segments : List Bytes) :
    (segmentSets segments).length = segments.length := by
  induction segments with
  | nil => rfl
  | cons segment segments ih =>
      cases segments with
      | nil => rfl
      | cons next segments => simpa [segmentSets] using ih

theorem segmentSets_ne_nil {segments : List Bytes} (some : segments ≠ []) :
    segmentSets segments ≠ [] := by
  rw [← List.length_pos_iff, length_segmentSets, List.length_pos_iff]
  exact some

theorem not_mem_of_accepts {segment : Bytes} (free : slash ∉ segment)
    (accepted : Accepts (segmentTokens 0 segment) string) :
    slash ∉ string := by
  apply not_mem_of_matchTokens _ accepted.2
  exact fun member => not_mem_tokens 0 free (List.mem_filter.mp member).1

theorem not_mem_of_accepts_last {segment : Bytes} (free : slash ∉ segment)
    (accepted : Accepts (tokens 0 segment) string) : slash ∉ string :=
  not_mem_of_matchTokens (not_mem_tokens 0 free) accepted.2

theorem segmentSets_avoid {segments : List Bytes}
    (free : ∀ segment ∈ segments, slash ∉ segment) :
    ∀ set ∈ segmentSets segments, ∀ string ∈ set, slash ∉ string := by
  induction segments with
  | nil => simp [segmentSets]
  | cons segment segments ih =>
      rw [List.forall_mem_cons] at free
      cases segments with
      | nil =>
          simp only [segmentSets, List.mem_singleton, forall_eq]
          exact fun string accepted => not_mem_of_accepts_last free.1 accepted
      | cons next segments =>
          rw [segmentSets, List.forall_mem_cons]
          exact ⟨fun string accepted => not_mem_of_accepts free.1 accepted,
            ih free.2⟩

theorem accepts_append_slash :
    Accepts (places ++ .char slash :: more) string ↔
      ∃ piece, Accepts places piece ∧ ∃ rest,
        string = piece ++ slash :: rest ∧ Accepts more rest := by
  simp only [Accepts, matchTokens_append, matchTokens_cons]
  constructor
  · rintro ⟨noNul, piece, _, rfl, matched, _, rest, rfl, rfl, later⟩
    simp only [List.mem_append, not_or] at noNul
    exact ⟨piece, ⟨noNul.1, matched⟩, rest, rfl, noNul.2.2, later⟩
  · rintro ⟨piece, ⟨noNul, matched⟩, rest, rfl, noNulLater, later⟩
    refine ⟨?_, piece, slash :: rest, rfl, matched, [slash], rest, rfl, rfl,
      later⟩
    simpa [noNul, noNulLater] using (by decide : (0 : UInt8) ≠ slash)

/-- A string is matched segment by segment. -/
theorem accepts_iff_pieced {pattern : Bytes} (keeps : KeepsSlashes pattern)
    (string : Bytes) :
    Accepts (tokens 0 pattern) string ↔
      Pieced slash (segmentSets (pattern.splitOn slash)) string := by
  induction pattern using pieces_induction
    generalizing string with
  | single piece free =>
      have avoids : ∀ string ∈ {string | Accepts (tokens 0 piece) string},
          slash ∉ string :=
        fun _ accepted => not_mem_of_accepts_last free accepted
      rw [List.splitOn_eq_singleton free, segmentSets, pieced_singleton avoids]
      rfl
  | cons piece rest free ih =>
      have avoids :
          ∀ string ∈ {string | Accepts (segmentTokens 0 piece) string},
            slash ∉ string :=
        fun _ accepted => not_mem_of_accepts free accepted
      have more := List.splitOn_ne_nil slash rest
      rw [List.splitOn_append_cons_self_of_not_mem free,
        segmentSets_cons _ more,
        pieced_cons (segmentSets_ne_nil more) avoids, (keeps.split free).1]
      simp only [← ih (keeps.split free).2]
      exact accepts_append_slash

/-- Something is matched if and only if each place can be read. -/
theorem nonempty_iff_matchable :
    {string | Accepts places string}.Nonempty ↔
      ∀ token ∈ places, token.Matchable := by
  constructor
  · rintro ⟨string, accepted⟩
    exact matchable_of_accepts accepted
  · intro matchable
    obtain ⟨string, accepted, _⟩ := exists_accepts matchable
    exact ⟨string, accepted⟩

theorem segmentSets_nonempty_iff {pattern : Bytes}
    (keeps : KeepsSlashes pattern) :
    (∀ set ∈ segmentSets (pattern.splitOn slash), set.Nonempty) ↔
      ∀ token ∈ tokens 0 pattern, token.Matchable := by
  induction pattern using pieces_induction with
  | single piece free =>
      rw [List.splitOn_eq_singleton free, segmentSets,
        List.forall_mem_singleton]
      exact nonempty_iff_matchable
  | cons piece rest free ih =>
      have slashMatchable : (GlobToken.char slash).Matchable := by
        simp [GlobToken.Matchable, slash]
      rw [List.splitOn_append_cons_self_of_not_mem free,
        segmentSets_cons _ (List.splitOn_ne_nil slash rest),
        List.forall_mem_cons, ih (keeps.split free).2, nonempty_iff_matchable,
        (keeps.split free).1, List.forall_mem_append, List.forall_mem_cons]
      simp only [slashMatchable, true_and, segmentTokens]

/-- A last segment that something matches has no unpaired backslash. -/
theorem segmentTokens_of_matchable {segment : Bytes}
    (matchable : ∀ token ∈ tokens 0 segment, token.Matchable) :
    segmentTokens 0 segment = tokens 0 segment := by
  rw [segmentTokens, List.filter_eq_self]
  intro token member
  have readable := matchable token member
  cases token with
  | never => exact readable.elim
  | char | any | star | bracket => simp

end PosixGlob
