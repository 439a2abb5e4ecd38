import KitMuduo.LogFormatterClean
import Mathlib.Algebra.GroupWithZero.Nat
import Mathlib.Data.List.Infix
import Mathlib.Data.List.TakeWhile

/-!
# What becomes of a log pattern

`init` reads a pattern as documented exactly if each `%` of it belongs to a pair
or begins a template that no letter and no sub-pattern follows.  Two sums over
the items tell the readings apart: a piece that is dropped lessens the number of
items and percent signs, and a sub-pattern that is taken for text raises the
number of opening braces.
-/

namespace KitMuduo

open BacktrackingRegex

namespace LogFormatter

variable {pieces : List Piece} {pattern behind rest : Bytes}

/-! ## Two sums over the items -/

/-- A weight for each character of text and one for each other item. -/
def weight (w : UInt8 → Nat) (v : Nat) : FormatItem → Nat
  | .string str => (str.map w).sum
  | _ => v

def pieceWeight (w : UInt8 → Nat) (v : Nat) : Piece → Nat
  | .escaped => w percent
  | .item item => weight w v item
  | .char c => w c
  | .dropped => 0

def total (w : UInt8 → Nat) (v : Nat) (items : List FormatItem) : Nat :=
  (items.map (weight w v)).sum

variable {w : UInt8 → Nat} {v : Nat}

theorem total_flush (run : Bytes) (later : List FormatItem) :
    total w v (collect.flush (run, later)) =
      (run.map w).sum + total w v later := by
  rw [collect.flush]
  split
  · next isEmpty =>
      have none : run = [] := isEmpty
      simp [none]
  · simp [total, weight]

/-- The sum over the items is that over the pieces. -/
theorem total_items (pieces : List Piece) :
    total w v (items pieces) = (pieces.map (pieceWeight w v)).sum := by
  induction pieces with
  | nil => rfl
  | cons piece pieces ih =>
      rw [items] at ih
      rw [items, List.map_cons, List.sum_cons, ← ih]
      cases piece with
      | escaped =>
          rw [collect, total_flush]
          simp [total, weight, pieceWeight]
      | item item =>
          rw [collect, total_flush]
          simp [total, pieceWeight]
      | char c =>
          rw [collect, total_flush, List.map_cons, List.sum_cons,
            Nat.add_assoc, ← total_flush]
          rfl
      | dropped =>
          rw [collect, total_flush]
          simp [pieceWeight]

/-- The opening braces in the text of some pieces. -/
def braces (pieces : List Piece) : Nat :=
  (pieces.map (pieceWeight (fun c => if c = openBrace then 1 else 0) 0)).sum

/-- The percent signs in the text of some pieces, and their other items. -/
def marks (pieces : List Piece) : Nat :=
  (pieces.map (pieceWeight (fun c => if c = percent then 1 else 0) 1)).sum

/-- A template makes no text. -/
theorem weight_of_getMap {name : Bytes} {make : Bytes → FormatItem}
    (known : getMap name = some make) (sub : Bytes) :
    weight w v (make sub) = v := by
  have each : ∀ entry ∈ itemMap, weight w v (entry.2 sub) = v := by
    simp [itemMap, weight, dateTimeFormatItem]
  obtain ⟨front, back, map, _⟩ := List.lookup_eq_some_iff.mp known
  exact each (name, make) (by simp [map])

@[simp]
theorem braces_cons_char (c : UInt8) (pieces : List Piece) :
    braces (.char c :: pieces) =
      (if c = openBrace then 1 else 0) + braces pieces :=
  List.sum_cons

@[simp]
theorem braces_cons_escaped (pieces : List Piece) :
    braces (.escaped :: pieces) = braces pieces :=
  Nat.zero_add _

@[simp]
theorem braces_cons_dropped (pieces : List Piece) :
    braces (.dropped :: pieces) = braces pieces :=
  Nat.zero_add _

theorem braces_cons_item {name : Bytes} {make : Bytes → FormatItem}
    (known : getMap name = some make) (sub : Bytes) (pieces : List Piece) :
    braces (.item (make sub) :: pieces) = braces pieces := by
  rw [braces, List.map_cons, List.sum_cons, pieceWeight,
    weight_of_getMap known, Nat.zero_add, braces]

@[simp]
theorem marks_cons_char (c : UInt8) (pieces : List Piece) :
    marks (.char c :: pieces) =
      (if c = percent then 1 else 0) + marks pieces :=
  List.sum_cons

@[simp]
theorem marks_cons_escaped (pieces : List Piece) :
    marks (.escaped :: pieces) = 1 + marks pieces :=
  List.sum_cons

@[simp]
theorem marks_cons_dropped (pieces : List Piece) :
    marks (.dropped :: pieces) = marks pieces :=
  Nat.zero_add _

theorem marks_cons_item {name : Bytes} {make : Bytes → FormatItem}
    (known : getMap name = some make) (sub : Bytes) (pieces : List Piece) :
    marks (.item (make sub) :: pieces) = 1 + marks pieces := by
  rw [marks, List.map_cons, List.sum_cons, pieceWeight,
    weight_of_getMap known, marks]

/-! ## A `%` that is kept as text -/

/-- A `%` and another character in one text. -/
def Stray (pieces : List Piece) : Prop :=
  ∃ front c back, pieces = front ++ .char percent :: .char c :: back

theorem Stray.cons {piece : Piece} (stray : Stray pieces) :
    Stray (piece :: pieces) := by
  obtain ⟨front, c, back, rfl⟩ := stray
  exact ⟨piece :: front, c, back, rfl⟩

theorem mem_flush {run : Bytes} {later : List FormatItem} {item : FormatItem} :
    item ∈ collect.flush (run, later) ↔
      run ≠ [] ∧ item = .string run ∨ item ∈ later := by
  rw [collect.flush]
  split
  · next isEmpty =>
      have none : run = [] := isEmpty
      simp [none]
  · next some =>
      have text : run ≠ [] := some
      simp [text]

/-- A text that is longer than one character and contains a `%`. -/
def LongPercent (str : Bytes) : Prop :=
  percent ∈ str ∧ 2 ≤ str.length

theorem exists_string_of_stray (stray : Stray pieces) :
    ∃ str, .string str ∈ items pieces ∧ LongPercent str := by
  obtain ⟨front, c, back, rfl⟩ := stray
  induction front with
  | nil =>
      refine ⟨percent :: c :: (collect back).1, mem_flush.mpr (.inl ⟨?_, rfl⟩),
        List.mem_cons_self, by simp⟩
      exact List.cons_ne_nil _ _
  | cons piece front ih =>
      obtain ⟨str, member, long⟩ := ih
      cases piece with
      | char d =>
          rcases mem_flush.mp member with ⟨_, same⟩ | later
          · cases same
            refine ⟨d :: _, mem_flush.mpr (.inl ⟨?_, rfl⟩),
              List.mem_cons_of_mem _ long.1, ?_⟩
            · exact List.cons_ne_nil _ _
            · exact Nat.le_succ_of_le long.2
          · exact ⟨str, mem_flush.mpr (.inr later), long⟩
      | escaped =>
          exact ⟨str, mem_flush.mpr (.inr (List.mem_cons_of_mem _ member)),
            long⟩
      | item item =>
          exact ⟨str, mem_flush.mpr (.inr (List.mem_cons_of_mem _ member)),
            long⟩
      | dropped => exact ⟨str, mem_flush.mpr (.inr member), long⟩

/-- Whatever `init` makes text of contains no `%`, but for the pairs. -/
def Ordinary : Piece → Prop
  | .char c => c ≠ percent
  | .item item => ∀ str, item ≠ .string str
  | .escaped | .dropped => True

theorem not_longPercent {str : Bytes}
    (each : ∀ piece ∈ pieces, Ordinary piece)
    (member : .string str ∈ items pieces) : ¬ LongPercent str := by
  have both : percent ∉ (collect pieces).1 ∧
      ∀ str, .string str ∈ (collect pieces).2 → ¬ LongPercent str := by
    clear member
    induction pieces with
    | nil => exact ⟨List.not_mem_nil, fun _ none => by cases none⟩
    | cons piece pieces ih =>
        rw [List.forall_mem_cons] at each
        obtain ⟨clear, later⟩ := ih each.2
        have flushed : ∀ str, .string str ∈ collect.flush (collect pieces) →
            ¬ LongPercent str := by
          intro str member long
          rcases mem_flush.mp member with ⟨_, same⟩ | inLater
          · cases same
            exact clear long.1
          · exact later str inLater long
        cases piece with
        | char c =>
            refine ⟨?_, later⟩
            rw [collect, List.mem_cons, not_or]
            exact ⟨fun same => each.1 same.symm, clear⟩
        | escaped =>
            refine ⟨List.not_mem_nil, fun str member long => ?_⟩
            rcases List.mem_cons.mp member with same | inRest
            · cases same
              exact absurd long.2 (by decide)
            · exact flushed str inRest long
        | item item =>
            refine ⟨List.not_mem_nil, fun str member long => ?_⟩
            rcases List.mem_cons.mp member with same | inRest
            · exact each.1 str same.symm
            · exact flushed str inRest long
        | dropped => exact ⟨List.not_mem_nil, flushed⟩
  intro long
  rcases mem_flush.mp member with ⟨_, same⟩ | later
  · cases same
    exact both.1 long.1
  · exact both.2 str later long

theorem ne_string_of_getMap {name : Bytes} {make : Bytes → FormatItem}
    (known : getMap name = some make) (sub str : Bytes) :
    make sub ≠ .string str := by
  have each : ∀ entry ∈ itemMap, entry.2 sub ≠ .string str := by
    simp [itemMap, dateTimeFormatItem]
  obtain ⟨front, back, map, _⟩ := List.lookup_eq_some_iff.mp known
  exact each (name, make) (by simp [map])

theorem ordinary_initPieces (pattern : Bytes) :
    ∀ piece ∈ initPieces pattern, Ordinary piece := by
  induction pattern using initPieces_induction with
  | nil =>
      rw [initPieces]
      exact fun _ none => by cases none
  | char c rest ordinary ih =>
      rw [initPieces_char ordinary]
      exact List.forall_mem_cons.mpr ⟨ordinary, ih⟩
  | escaped rest ih =>
      rw [initPieces_escaped]
      exact List.forall_mem_cons.mpr ⟨trivial, ih⟩
  | formatted behind sub other braced ih =>
      rw [initPieces_formatted other braced]
      exact List.forall_mem_cons.mpr ⟨trivial, ih⟩
  | known behind make other unbraced found ih =>
      rw [initPieces_known other unbraced found]
      exact List.forall_mem_cons.mpr ⟨ne_string_of_getMap found [], ih⟩
  | unknown behind other unbraced missing ih =>
      rw [initPieces_unknown other unbraced missing]
      exact List.forall_mem_cons.mpr ⟨trivial, ih⟩

/-- Where the readings agree the documented one keeps no single `%`. -/
theorem not_stray_of_eq (agree : init pattern = documented pattern) :
    ¬ Stray (documentedPieces pattern) := by
  intro stray
  obtain ⟨str, member, long⟩ := exists_string_of_stray stray
  rw [← documented, ← agree, init_eq_items] at member
  exact not_longPercent (ordinary_initPieces pattern) member long

/-! ## The comparison -/

theorem sub_of_percent {sub : Bytes}
    (split : percent :: behind = sub ++ closeBrace :: rest) :
    ∃ inner, sub = percent :: inner ∧
      behind = inner ++ closeBrace :: rest := by
  cases sub with
  | nil => exact absurd (List.cons.inj split).1 (by decide)
  | cons c inner =>
      obtain ⟨same, behindHere⟩ := List.cons.inj split
      exact ⟨inner, by rw [same], behindHere⟩

theorem dropWhile_sub (sub rest : Bytes) :
    (sub ++ closeBrace :: rest).dropWhile isPatternChar =
      sub.dropWhile isPatternChar ++ closeBrace :: rest := by
  induction sub with
  | nil => rfl
  | cons c sub ih =>
      by_cases letter : isPatternChar c = true
      · rw [List.cons_append, List.dropWhile_cons_of_pos letter,
          List.dropWhile_cons_of_pos letter, ih]
      · rw [List.cons_append, List.dropWhile_cons_of_neg letter,
          List.dropWhile_cons_of_neg letter, List.cons_append]

theorem dropWhile_split {inner : Bytes}
    (text : behind = inner ++ closeBrace :: rest)
    (noBrace : closeBrace ∉ inner) :
    ∃ later, behind.dropWhile isPatternChar = later ++ closeBrace :: rest ∧
      closeBrace ∉ later := by
  refine ⟨inner.dropWhile isPatternChar, ?_, fun member => ?_⟩
  · rw [text, dropWhile_sub]
  · exact noBrace ((List.dropWhile_suffix isPatternChar).subset member)

/-- No match goes beyond the first closing brace, so that at least the braces
behind it are kept. -/
theorem braces_initPieces_le {sub : Bytes}
    (split : pattern = sub ++ closeBrace :: rest) (noBrace : closeBrace ∉ sub) :
    braces (initPieces rest) ≤ braces (initPieces pattern) := by
  induction pattern using initPieces_induction generalizing sub with
  | nil => simp at split
  | char c behind ordinary ih =>
      rw [initPieces_char ordinary, braces_cons_char]
      cases sub with
      | nil =>
          rw [(List.cons.inj split).2]
          exact Nat.le_add_left _ _
      | cons d sub =>
          rw [List.mem_cons, not_or] at noBrace
          have later := ih (List.cons.inj split).2 noBrace.2
          omega
  | escaped behind ih =>
      obtain ⟨inner, rfl, text⟩ := sub_of_percent split
      obtain ⟨second, rfl, behindPair⟩ := sub_of_percent text
      rw [initPieces_escaped, braces_cons_escaped]
      simp only [List.mem_cons, not_or] at noBrace
      exact ih behindPair noBrace.2.2
  | formatted behind other notPercent braced ih =>
      obtain ⟨inner, rfl, text⟩ := sub_of_percent split
      obtain ⟨x, tail, letter, whole, noOther⟩ := bracedSub_eq_some braced
      rw [List.mem_cons, not_or] at noBrace
      have noFront : closeBrace ∉ x :: openBrace :: other := by
        simp only [List.mem_cons, not_or]
        refine ⟨?_, by decide, noOther⟩
        rintro rfl
        exact absurd letter (by decide)
      have same := append_closeBrace_inj noBrace.2 noFront
        (text.symm.trans whole)
      have after : behind.drop (other.length + 3) = rest := by
        rw [whole, same.2]
        simp
      rw [initPieces_formatted notPercent braced, braces_cons_dropped, after]
  | known behind make other unbraced found ih =>
      obtain ⟨inner, rfl, text⟩ := sub_of_percent split
      rw [List.mem_cons, not_or] at noBrace
      rw [initPieces_known other unbraced found, braces_cons_item found]
      obtain ⟨later, behindLetters, noLater⟩ :=
        dropWhile_split text noBrace.2
      exact ih behindLetters noLater
  | unknown behind other unbraced missing ih =>
      obtain ⟨inner, rfl, text⟩ := sub_of_percent split
      rw [List.mem_cons, not_or] at noBrace
      rw [initPieces_unknown other unbraced missing, braces_cons_dropped]
      obtain ⟨later, behindLetters, noLater⟩ :=
        dropWhile_split text noBrace.2
      exact ih behindLetters noLater

/-- Letters are text of no weight. -/
theorem initPieces_letters {letters : Bytes}
    (each : ∀ c ∈ letters, isPatternChar c = true) (rest : Bytes) :
    braces (initPieces (letters ++ rest)) = braces (initPieces rest) ∧
      marks (initPieces (letters ++ rest)) = marks (initPieces rest) := by
  induction letters with
  | nil => exact ⟨rfl, rfl⟩
  | cons c letters ih =>
      rw [List.forall_mem_cons] at each
      have noPercent : c ≠ percent := by
        rintro rfl
        exact absurd each.1 (by decide)
      have noBrace : c ≠ openBrace := by
        rintro rfl
        exact absurd each.1 (by decide)
      have later := ih each.2
      rw [List.cons_append, initPieces_char noPercent, braces_cons_char,
        marks_cons_char, if_neg noPercent, if_neg noBrace, Nat.zero_add,
        Nat.zero_add]
      exact later

/-- How the two readings of a pattern compare if the documented one keeps no
single `%`: some braces too many are kept, or too little, or all is clean. -/
def Compared (pattern : Bytes) : Prop :=
  braces (documentedPieces pattern) < braces (initPieces pattern) ∨
    braces (documentedPieces pattern) = braces (initPieces pattern) ∧
      (marks (initPieces pattern) < marks (documentedPieces pattern) ∨
        marks (initPieces pattern) = marks (documentedPieces pattern) ∧
          Clean pattern)

/-- A piece in front that both readings keep. -/
theorem Compared.extend (a b : Nat) (compared : Compared rest)
    (bracesHere : braces (documentedPieces pattern) =
      a + braces (documentedPieces rest))
    (bracesInit : braces (initPieces pattern) = a + braces (initPieces rest))
    (marksHere : marks (documentedPieces pattern) =
      b + marks (documentedPieces rest))
    (marksInit : marks (initPieces pattern) = b + marks (initPieces rest))
    (clean : Clean rest → Clean pattern) : Compared pattern := by
  rcases compared with more | ⟨same, fewer | ⟨equal, cleanRest⟩⟩
  · exact .inl (by omega)
  · exact .inr ⟨by omega, .inl (by omega)⟩
  · exact .inr ⟨by omega, .inr ⟨by omega, clean cleanRest⟩⟩

/-- A piece in front that `init` drops. -/
theorem Compared.drop (compared : Compared rest)
    (bracesHere : braces (documentedPieces pattern) =
      braces (documentedPieces rest))
    (bracesInit : braces (initPieces pattern) = braces (initPieces rest))
    (marksHere : marks (documentedPieces pattern) =
      1 + marks (documentedPieces rest))
    (marksInit : marks (initPieces pattern) = marks (initPieces rest)) :
    Compared pattern := by
  rcases compared with more | ⟨same, fewer | ⟨equal, _⟩⟩
  · exact .inl (by omega)
  · exact .inr ⟨by omega, .inl (by omega)⟩
  · exact .inr ⟨by omega, .inl (by omega)⟩

theorem Compared.braces_le (compared : Compared pattern) :
    braces (documentedPieces pattern) ≤ braces (initPieces pattern) := by
  rcases compared with more | ⟨same, _⟩
  · exact Nat.le_of_lt more
  · exact Nat.le_of_eq same

/-- Only a single letter is matched with its sub-pattern. -/
theorem rest_of_bracedSub {name sub other tail : Bytes}
    {make : Bytes → FormatItem} {x : UInt8} (known : getMap name = some make)
    (noBrace : closeBrace ∉ sub) (noOther : closeBrace ∉ other)
    (same : name ++ openBrace :: (sub ++ closeBrace :: rest) =
      x :: openBrace :: (other ++ closeBrace :: tail)) : rest = tail := by
  match name, known with
  | [], known => exact absurd rfl (ne_nil_of_getMap known)
  | [y], _ =>
      have behind := (List.cons.inj (List.cons.inj same).2).2
      exact (append_closeBrace_inj noBrace noOther behind).2
  | y :: z :: name, known =>
      have brace : z = openBrace := (List.cons.inj (List.cons.inj same).2).1
      have letter := isPatternChar_of_getMap known z (by simp)
      rw [brace] at letter
      exact absurd letter (by decide)

/-- A template with a sub-pattern: one letter is dropped with it, and behind two
letters it is taken for text. -/
theorem compared_of_sub {name sub : Bytes} {make : Bytes → FormatItem}
    (known : getMap name = some make) (noBrace : closeBrace ∉ sub)
    (text : behind = name ++ openBrace :: (sub ++ closeBrace :: rest))
    (compared : Compared rest) : Compared (percent :: behind) := by
  have letters := isPatternChar_of_getMap known
  have ends : ∀ c ∈ (openBrace :: (sub ++ closeBrace :: rest)).head?,
      isPatternChar c = false := by
    intro c first
    cases first
    decide
  obtain ⟨run, after⟩ := takeWhile_letters letters ends
  have other := head?_ne_percent (ne_nil_of_getMap known) letters
    (openBrace :: (sub ++ closeBrace :: rest))
  rw [← text] at run after other
  have longest : longestTemplate (behind.takeWhile isPatternChar) =
      some (name, make) := by
    rw [run]
    exact longestTemplate_of_getMap known
  have follows : subPattern (behind.drop name.length) = some sub := by
    rw [text, List.drop_left, subPattern_brace noBrace]
  have behindSub : behind.drop (name.length + sub.length + 2) = rest := by
    rw [text, Nat.add_assoc, ← List.drop_drop, List.drop_left,
      List.drop_succ_cons, ← List.drop_drop, List.drop_left]
    rfl
  have pieces := documentedPieces_sub other longest follows
  rw [behindSub] at pieces
  cases braced : bracedSub behind with
  | some inner =>
      obtain ⟨x, tail, _, whole, noInner⟩ := bracedSub_eq_some braced
      have same := rest_of_bracedSub known noBrace noInner
        (text.symm.trans whole)
      have dropped : behind.drop (inner.length + 3) = rest := by
        rw [whole, same]
        simp
      have init := initPieces_formatted other braced
      rw [dropped] at init
      refine compared.drop ?_ ?_ ?_ ?_
      · rw [pieces, braces_cons_item known]
      · rw [init, braces_cons_dropped]
      · rw [pieces, marks_cons_item known]
      · rw [init, marks_cons_dropped]
  | none =>
      have init := initPieces_known other braced (run.symm ▸ known)
      have brace : openBrace ≠ percent := by decide
      rw [after, initPieces_char brace] at init
      have fewer : braces (initPieces rest) ≤
          braces (initPieces (sub ++ closeBrace :: rest)) :=
        braces_initPieces_le rfl noBrace
      have atMost := compared.braces_le
      refine .inl ?_
      rw [pieces, init, braces_cons_item known, braces_cons_item known,
        braces_cons_char, if_pos rfl]
      omega

/-- A template without a sub-pattern: it is dropped if letters follow it. -/
theorem compared_of_template {name : Bytes} {make : Bytes → FormatItem}
    (known : getMap name = some make) (noSub : subPattern rest = none)
    (longest : longestTemplate ((name ++ rest).takeWhile isPatternChar) =
      some (name, make)) (compared : Compared rest) :
    Compared (percent :: (name ++ rest)) := by
  have letters := isPatternChar_of_getMap known
  have other := head?_ne_percent (ne_nil_of_getMap known) letters rest
  have unbraced := bracedSub_eq_none known noSub
  have noSubBehind : subPattern ((name ++ rest).drop name.length) = none := by
    rw [List.drop_left]
    exact noSub
  have pieces := documentedPieces_template other longest noSubBehind
  rw [List.drop_left] at pieces
  have run : (name ++ rest).takeWhile isPatternChar =
      name ++ rest.takeWhile isPatternChar :=
    List.takeWhile_append_of_pos letters
  have after : (name ++ rest).dropWhile isPatternChar =
      rest.dropWhile isPatternChar := List.dropWhile_append_of_pos letters
  cases found : getMap ((name ++ rest).takeWhile isPatternChar) with
  | some whole =>
      have init := initPieces_known other unbraced found
      rw [longestTemplate_of_getMap found] at longest
      obtain ⟨same, rfl⟩ := Prod.mk.inj (Option.some.inj longest)
      have noLetter : rest.takeWhile isPatternChar = [] := by
        rwa [run, List.append_right_eq_self] at same
      obtain ⟨ends, behindName⟩ := ends_of_takeWhile_nil noLetter
      rw [after, behindName] at init
      refine Compared.extend 0 1 compared ?_ ?_ ?_ ?_ (.template ?_ ends noSub)
      · rw [pieces, braces_cons_item known, Nat.zero_add]
      · rw [init, braces_cons_item known, Nat.zero_add]
      · rw [pieces, marks_cons_item known]
      · rw [init, marks_cons_item known]
      · rw [known]
        rfl
  | none =>
      have init := initPieces_unknown other unbraced found
      rw [after] at init
      have more : ∀ c ∈ rest.takeWhile isPatternChar,
          isPatternChar c = true := fun _ => List.mem_takeWhile_imp
      have noWeight := initPieces_letters more (rest.dropWhile isPatternChar)
      rw [List.takeWhile_append_dropWhile] at noWeight
      refine compared.drop ?_ ?_ ?_ ?_
      · rw [pieces, braces_cons_item known]
      · rw [init, braces_cons_dropped, noWeight.1]
      · rw [pieces, marks_cons_item known]
      · rw [init, marks_cons_dropped, noWeight.2]

theorem compared_of_not_stray (noStray : ¬ Stray (documentedPieces pattern)) :
    Compared pattern := by
  induction pattern using documentedPieces.induct with
  | case1 =>
      rw [Compared, initPieces, documentedPieces]
      exact .inr ⟨rfl, .inr ⟨rfl, .nil⟩⟩
  | case2 c behind ordinary ih =>
      rw [documentedPieces_char ordinary] at noStray
      refine Compared.extend (if c = openBrace then 1 else 0)
        (if c = percent then 1 else 0) (ih fun stray => noStray stray.cons)
        ?_ ?_ ?_ ?_ (.char ordinary)
      · rw [documentedPieces_char ordinary, braces_cons_char]
      · rw [initPieces_char ordinary, braces_cons_char]
      · rw [documentedPieces_char ordinary, marks_cons_char]
      · rw [initPieces_char ordinary, marks_cons_char]
  | case3 c behind percentHere pair ih =>
      rw [not_not] at percentHere
      subst percentHere
      obtain ⟨rest, text⟩ := List.head?_eq_some_iff.mp pair
      subst text
      rw [documentedPieces_escaped] at noStray
      refine Compared.extend 0 1 (ih fun stray => noStray stray.cons)
        ?_ ?_ ?_ ?_ .escaped
      · rw [documentedPieces_escaped, braces_cons_escaped, Nat.zero_add,
          List.tail_cons]
      · rw [initPieces_escaped, braces_cons_escaped, Nat.zero_add,
          List.tail_cons]
      · rw [documentedPieces_escaped, marks_cons_escaped, List.tail_cons]
      · rw [initPieces_escaped, marks_cons_escaped, List.tail_cons]
  | case4 c behind percentHere other unknown ih =>
      rw [not_not] at percentHere
      subst percentHere
      rw [documentedPieces_percent other unknown] at noStray
      cases behind with
      | nil =>
          -- A `%` at the end is kept by the documented reading only.
          have dropped : initPieces [percent] = .dropped :: initPieces [] :=
            initPieces_unknown other rfl rfl
          have kept := documentedPieces_percent other unknown
          refine .inr ⟨?_, .inl ?_⟩
          · rw [kept, dropped, documentedPieces, initPieces]
            rfl
          · rw [kept, dropped, documentedPieces, initPieces]
            decide
      | cons c behind =>
          have ordinary : c ≠ percent := by simpa using other
          rw [documentedPieces_char ordinary] at noStray
          exact absurd ⟨[], c, _, rfl⟩ noStray
  | case5 c behind percentHere other name make longest sub follows ih =>
      rw [not_not] at percentHere
      subst percentHere
      rw [documentedPieces_sub other longest follows] at noStray
      have compared := ih fun stray => noStray stray.cons
      obtain ⟨front, known⟩ := longestTemplate_eq_some longest
      obtain ⟨rest, behindName, noBrace⟩ := subPattern_eq_some follows
      have letters : behind.takeWhile isPatternChar <+: behind :=
        List.takeWhile_prefix isPatternChar
      have text := List.prefix_append_drop (front.trans letters)
      rw [behindName] at text
      have after : behind.drop (name.length + sub.length + 2) = rest := by
        rw [text]
        simp [Nat.add_assoc]
      rw [after] at compared
      exact compared_of_sub known noBrace text compared
  | case6 c behind percentHere other name make longest noSub ih =>
      rw [not_not] at percentHere
      subst percentHere
      rw [documentedPieces_template other longest noSub] at noStray
      have compared := ih fun stray => noStray stray.cons
      obtain ⟨front, known⟩ := longestTemplate_eq_some longest
      have letters : behind.takeWhile isPatternChar <+: behind :=
        List.takeWhile_prefix isPatternChar
      have text := List.prefix_append_drop (front.trans letters)
      rw [text] at longest ⊢
      exact compared_of_template known noSub longest compared

/-! ## The exact condition -/

theorem total_init (agree : init pattern = documented pattern) :
    ((initPieces pattern).map (pieceWeight w v)).sum =
      ((documentedPieces pattern).map (pieceWeight w v)).sum := by
  rw [← total_items, ← total_items, ← init_eq_items, agree, documented]

theorem clean_of_eq (agree : init pattern = documented pattern) :
    Clean pattern := by
  have sameBraces : braces (initPieces pattern) =
      braces (documentedPieces pattern) := total_init agree
  have sameMarks : marks (initPieces pattern) =
      marks (documentedPieces pattern) := total_init agree
  rcases compared_of_not_stray (not_stray_of_eq agree) with
    more | ⟨_, fewer | ⟨_, clean⟩⟩
  · omega
  · omega
  · exact clean

/-- A pattern is read as documented exactly if each `%` of it that does not
belong to a pair begins a template that no letter and no sub-pattern follows. -/
theorem init_eq_documented_iff (pattern : Bytes) :
    init pattern = documented pattern ↔ Clean pattern := by
  constructor
  · exact clean_of_eq
  · intro clean
    rw [init_eq_items, initPieces_of_clean clean, documented]

example : documented (ascii "12345%%tn") =
    [.string (ascii "12345"), .string (ascii "%"), .string (ascii "tn")] := by
  decide +kernel

/-- Of `%tnabc%n` only the line break is left. -/
theorem not_documented_trailingText :
    ¬ ∀ pattern : Bytes, init pattern = documented pattern := by
  intro always
  have kept : init (ascii "%tnabc%n") = [.newLine] := by
    decide +kernel
  have wanted : documented (ascii "%tnabc%n") =
      [.threadName, .string (ascii "abc"), .newLine] := by
    decide +kernel
  have agree := always (ascii "%tnabc%n")
  rw [kept, wanted] at agree
  cases agree

end LogFormatter

end KitMuduo
