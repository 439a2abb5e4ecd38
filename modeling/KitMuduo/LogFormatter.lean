import KitMuduo.BacktrackingRegex
import KitMuduo.Bytes

/-!
# Log patterns

`LogFormatter::init` splits a pattern with one regular expression.  Beside it
stands the reading that the comment in front of `GetMap` documents: the longest
template that is known is taken, and everything else is text.
-/

namespace KitMuduo

open BacktrackingRegex

/-- The items of a formatter and what they keep of their sub-pattern. -/
inductive FormatItem
  | newLine
  | content
  | level
  | elapse
  | threadId
  | tab
  | threadName
  | dateTime (timeFormat : Bytes)
  | file
  | line
  | logName
  | moduleName
  | string (str : Bytes)
  deriving DecidableEq

namespace LogFormatter

def percent : UInt8 := 37

def openBrace : UInt8 := 123

def closeBrace : UInt8 := 125

/-- `DateTimeFormatItem` has a format of its own for an empty sub-pattern. -/
def dateTimeFormatItem (str : Bytes) : FormatItem :=
  .dateTime (if str = [] then ascii "%Y-%m-%d %H:%M:%S" else str)

def itemMap : List (Bytes × (Bytes → FormatItem)) :=
  [(ascii "n", fun _ => .newLine), (ascii "m", fun _ => .content),
    (ascii "p", fun _ => .level), (ascii "r", fun _ => .elapse),
    (ascii "t", fun _ => .threadId), (ascii "T", fun _ => .tab),
    (ascii "tn", fun _ => .threadName), (ascii "d", dateTimeFormatItem),
    (ascii "f", fun _ => .file), (ascii "l", fun _ => .line),
    (ascii "g", fun _ => .logName), (ascii "mo", fun _ => .moduleName)]

/-- `GetMap().find`. -/
def getMap (name : Bytes) : Option (Bytes → FormatItem) :=
  itemMap.lookup name

/-- `[a-zA-Z]` -/
def isPatternChar (c : UInt8) : Bool :=
  97 ≤ c ∧ c ≤ 122 ∨ 65 ≤ c ∧ c ≤ 90

/-- The dot of ECMAScript. -/
def isDot (c : UInt8) : Bool :=
  c ≠ 10 ∧ c ≠ 13

def char (c : UInt8) : Regex UInt8 :=
  .item fun d => decide (d = c)

/-- `c+` -/
def someOf (allowed : UInt8 → Bool) : Regex UInt8 :=
  .seq (.item allowed) (.many allowed false)

/-- `(%%)` -/
def escaped : Regex UInt8 :=
  .group 1 (.seq (char percent) (char percent))

/-- `(%([a-zA-Z]\{(.*?)\}))` -/
def formatted : Regex UInt8 :=
  .group 2 (.seq (char percent) (.group 3 (.seq (.item isPatternChar)
    (.seq (char openBrace)
      (.seq (.group 4 (.many isDot true)) (char closeBrace))))))

/-- `(%([a-zA-Z]+))` -/
def plain : Regex UInt8 :=
  .group 5 (.seq (char percent) (.group 6 (someOf isPatternChar)))

/-- `([^%]+)` -/
def text : Regex UInt8 :=
  .group 7 (someOf fun c => decide (c ≠ percent))

def patternReg : Scanner UInt8 where
  regex := .alt escaped (.alt formatted (.alt plain text))
  strict := rfl

/-- What the loop makes of a match. -/
def itemOf (found : Parse UInt8) : Option FormatItem :=
  if (found.group 1).isSome = true then
    some (.string [percent])
  else if (found.group 2).isSome = true then
    (getMap ((found.group 3).getD [])).map fun make =>
      make ((found.group 4).getD [])
  else if (found.group 5).isSome = true then
    (getMap ((found.group 6).getD [])).map fun make => make []
  else
    match found.group 7 with
    | some text => if text ≠ [] then some (.string text) else none
    | none => none

/-- What the loop prints of a match to the console: an item with a sub-pattern
and the sub-pattern. -/
def printOf (found : Parse UInt8) : Bytes :=
  if (found.group 1).isSome = false ∧ (found.group 2).isSome = true then
    (found.group 3).getD [] ++ 32 :: ((found.group 4).getD [] ++ [32])
  else
    []

/-- The items `init` makes of a pattern. -/
def init (pattern : Bytes) : List FormatItem :=
  if pattern = [] then
    []
  else
    (patternReg.results pattern).filterMap itemOf

/-- What `init` prints to `std::cout`. -/
def initPrints (pattern : Bytes) : Bytes :=
  if pattern = [] then
    []
  else
    (patternReg.results pattern).flatMap printOf

example : initPrints (ascii "[%d{%H}] %m") = ascii "d{%H} %H " := by
  decide +kernel

/-! ## The documented reading -/

/-- `%%`, an item, a character of ordinary text, or a piece nothing is made
of. -/
inductive Piece
  | escaped
  | item (item : FormatItem)
  | char (c : UInt8)
  | dropped

/-- The text in front of the first item, and the items. -/
def collect : List Piece → Bytes × List FormatItem
  | [] => ([], [])
  | .char c :: pieces => (c :: (collect pieces).1, (collect pieces).2)
  | .escaped :: pieces => ([], .string [percent] :: flush (collect pieces))
  | .item item :: pieces => ([], item :: flush (collect pieces))
  | .dropped :: pieces => ([], flush (collect pieces))
where
  flush (collected : Bytes × List FormatItem) : List FormatItem :=
    if collected.1 = [] then collected.2
    else .string collected.1 :: collected.2

/-- The items of some pieces, with text that is in one piece in one item. -/
def items (pieces : List Piece) : List FormatItem :=
  collect.flush (collect pieces)

/-- The longest known template that some letters begin with. -/
def longestTemplate (letters : Bytes) : Option (Bytes × (Bytes → FormatItem)) :=
  (List.range (letters.length + 1)).reverse.findSome? fun length =>
    (getMap (letters.take length)).map (letters.take length, ·)

/-- The text of a sub-pattern `{...}`, up to the first brace that closes it. -/
def subPattern : Bytes → Option Bytes
  | [] => none
  | c :: behind =>
      if c = openBrace ∧ closeBrace ∈ behind then
        some (behind.takeWhile fun d => decide (d ≠ closeBrace))
      else
        none

def documentedPieces (pattern : Bytes) : List Piece :=
  match pattern with
  | [] => []
  | c :: behind =>
      if c ≠ percent then
        .char c :: documentedPieces behind
      else if behind.head? = some percent then
        .escaped :: documentedPieces behind.tail
      else
        match longestTemplate (behind.takeWhile isPatternChar) with
        | none => .char percent :: documentedPieces behind
        | some (name, make) =>
            match subPattern (behind.drop name.length) with
            | some sub =>
                .item (make sub) ::
                  documentedPieces (behind.drop (name.length + sub.length + 2))
            | none =>
                .item (make []) :: documentedPieces (behind.drop name.length)
  termination_by pattern.length
  decreasing_by
    all_goals
      simp only [List.length_cons, List.length_tail, List.length_drop]
      omega

theorem documentedPieces_char {c : UInt8} (ordinary : c ≠ percent)
    (behind : Bytes) :
    documentedPieces (c :: behind) = .char c :: documentedPieces behind := by
  rw [documentedPieces, if_pos ordinary]

theorem documentedPieces_escaped (rest : Bytes) :
    documentedPieces (percent :: percent :: rest) =
      .escaped :: documentedPieces rest := by
  rw [documentedPieces, if_neg (not_not.mpr rfl), if_pos List.head?_cons,
    List.tail_cons]

theorem documentedPieces_percent {behind : Bytes}
    (other : behind.head? ≠ some percent)
    (unknown : longestTemplate (behind.takeWhile isPatternChar) = none) :
    documentedPieces (percent :: behind) =
      .char percent :: documentedPieces behind := by
  rw [documentedPieces, if_neg (not_not.mpr rfl), if_neg other, unknown]

theorem documentedPieces_sub {behind name sub : Bytes}
    {make : Bytes → FormatItem} (other : behind.head? ≠ some percent)
    (longest : longestTemplate (behind.takeWhile isPatternChar) =
      some (name, make))
    (follows : subPattern (behind.drop name.length) = some sub) :
    documentedPieces (percent :: behind) = .item (make sub) ::
      documentedPieces (behind.drop (name.length + sub.length + 2)) := by
  rw [documentedPieces, if_neg (not_not.mpr rfl), if_neg other, longest]
  dsimp only
  rw [follows]

theorem documentedPieces_template {behind name : Bytes}
    {make : Bytes → FormatItem} (other : behind.head? ≠ some percent)
    (longest : longestTemplate (behind.takeWhile isPatternChar) =
      some (name, make))
    (noSub : subPattern (behind.drop name.length) = none) :
    documentedPieces (percent :: behind) =
      .item (make []) :: documentedPieces (behind.drop name.length) := by
  rw [documentedPieces, if_neg (not_not.mpr rfl), if_neg other, longest]
  dsimp only
  rw [noSub]

def documented (pattern : Bytes) : List FormatItem :=
  items (documentedPieces pattern)

/-- Every `%` that is not one of a pair begins a template that no letter and no
sub-pattern follows. -/
inductive Clean : Bytes → Prop
  | nil : Clean []
  | char {c : UInt8} {rest : Bytes} :
      c ≠ percent → Clean rest → Clean (c :: rest)
  | escaped {rest : Bytes} : Clean rest → Clean (percent :: percent :: rest)
  | template {name rest : Bytes} :
      (getMap name).isSome = true →
      (∀ c ∈ rest.head?, isPatternChar c = false) →
      subPattern rest = none → Clean rest →
      Clean (percent :: (name ++ rest))

end LogFormatter

end KitMuduo
