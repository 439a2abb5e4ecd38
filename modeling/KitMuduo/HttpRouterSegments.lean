import KitMuduo.EcmaRegex
import KitMuduo.HttpRouter
import KitMuduo.SeparatedPieces

/-!
# Patterns with parameters by their segments

The expression `BuildTargetPattern` makes of a pattern is the anchored sequence
of its tokens.  A slash ends a name, so a path is matched segment by segment.
-/

namespace KitMuduo

open SeparatedPieces

namespace PatternToken

def term : PatternToken → EcmaRegex.Term
  | literal ch => .char ch
  | param _ => .group 47

/-- What a token of a pattern matches. -/
def Reads : PatternToken → Bytes → Prop
  | literal ch, taken => taken = [ch]
  | param _, taken => taken ≠ [] ∧ RegexRouterMatcher.slash ∉ taken

end PatternToken

namespace RegexRouterMatcher

theorem isRegexSpecialChar_eq (ch : UInt8) :
    IsRegexSpecialChar ch = EcmaRegex.SyntaxCharacter ch := by
  rw [Bool.eq_iff_iff]
  simp only [IsRegexSpecialChar, EcmaRegex.SyntaxCharacter,
    List.contains_iff_mem]
  simp [ascii]
  grind

/-- The expression is the anchored sequence of the tokens. -/
def terms (pattern : Bytes) : List EcmaRegex.Term :=
  .start :: ((tokens none pattern).map PatternToken.term ++ [.finish])

theorem BuildTargetPattern_eq (pattern : Bytes) :
    BuildTargetPattern pattern = EcmaRegex.text (terms pattern) := by
  have token (t : PatternToken) : tokenPattern t = t.term.text := by
    cases t with
    | literal ch =>
        rw [tokenPattern, isRegexSpecialChar_eq]
        rfl
    | param name => rfl
  rw [BuildTargetPattern, terms, EcmaRegex.text, List.flatMap_cons,
    List.flatMap_append, List.flatMap_map, funext token, List.append_assoc]
  rfl

theorem terms_plain (pattern : Bytes) : ∀ term ∈ terms pattern, term.Plain := by
  intro term member
  rw [terms, List.mem_cons, List.mem_append, List.mem_map] at member
  rcases member with rfl | ⟨t, _, rfl⟩ | last
  · trivial
  · cases t with
    | literal ch => trivial
    | param name => exact ⟨by decide, by decide⟩
  · rw [List.mem_singleton.mp last]
    trivial

/-- Tokens match a path piece by piece. -/
def ReadTokens : List PatternToken → Bytes → Prop
  | [], path => path = []
  | token :: tokens, path =>
      ∃ taken rest, path = taken ++ rest ∧ token.Reads taken ∧
        ReadTokens tokens rest

theorem isSome_capture_iff (tokens : List PatternToken) (atStart : Bool)
    (path : Bytes) :
    (EcmaRegex.capture (tokens.map PatternToken.term ++ [.finish]) atStart
      path).isSome = true ↔ ReadTokens tokens path := by
  induction tokens generalizing atStart path with
  | nil =>
      by_cases none : path = []
      · simp [EcmaRegex.capture, ReadTokens, none]
      · simp [EcmaRegex.capture, ReadTokens, none]
  | cons token tokens ih =>
      cases token with
      | literal ch =>
          simp only [List.map_cons, List.cons_append, PatternToken.term,
            ReadTokens, PatternToken.Reads]
          cases path with
          | nil => simp [EcmaRegex.capture]
          | cons d path =>
              simp only [EcmaRegex.capture]
              split
              · next same =>
                  rw [ih]
                  constructor
                  · exact fun later => ⟨[ch], path, by rw [same]; rfl, rfl, later⟩
                  · rintro ⟨_, rest, split, rfl, later⟩
                    rw [(List.cons.inj split).2]
                    exact later
              · next other =>
                  simp only [Option.isSome_none, Bool.false_eq_true, false_iff]
                  rintro ⟨_, rest, split, rfl, _⟩
                  exact other (List.cons.inj split).1.symm
      | param name =>
          simp only [List.map_cons, List.cons_append, PatternToken.term,
            ReadTokens, PatternToken.Reads, EcmaRegex.isSome_capture_group, ih]
          rfl

theorem readTokens_append {first second : List PatternToken} {path : Bytes} :
    ReadTokens (first ++ second) path ↔
      ∃ front back, path = front ++ back ∧ ReadTokens first front ∧
        ReadTokens second back := by
  induction first generalizing path with
  | nil =>
      constructor
      · exact fun read => ⟨[], path, rfl, rfl, read⟩
      · rintro ⟨front, back, rfl, rfl, read⟩
        exact read
  | cons token first ih =>
      simp only [List.cons_append, ReadTokens, ih]
      constructor
      · rintro ⟨taken, _, rfl, reads, front, back, rfl, read, later⟩
        exact ⟨taken ++ front, back, by simp, ⟨taken, front, rfl, reads, read⟩,
          later⟩
      · rintro ⟨_, back, rfl, ⟨taken, front, rfl, reads, read⟩, later⟩
        exact ⟨taken, front ++ back, by simp, reads, front, back, rfl, read,
          later⟩

/-- A slash ends a name, so the tokens of a pattern are those of its
segments. -/
theorem tokens_append_slash {segment : Bytes} (name : Option Bytes)
    (rest : Bytes) (free : slash ∉ segment) :
    tokens name (segment ++ slash :: rest) =
      tokens name segment ++ .literal slash :: tokens none rest := by
  induction segment generalizing name with
  | nil =>
      cases name with
      | none => rfl
      | some name => rfl
  | cons ch segment ih =>
      rw [List.mem_cons, not_or] at free
      cases name with
      | none =>
          have ahead : (segment ++ slash :: rest).head?.any (· ≠ slash) =
              segment.head?.any (· ≠ slash) := by
            cases segment with
            | nil => rfl
            | cons d segment => rfl
          rw [List.cons_append, tokens, tokens, ahead]
          split
          · exact ih (some []) free.2
          · rw [ih none free.2]
            rfl
      | some name =>
          rw [List.cons_append, tokens, tokens, if_neg (Ne.symm free.1),
            if_neg (Ne.symm free.1)]
          exact ih _ free.2

theorem tokens_name {segment : Bytes} (name : Bytes) (free : slash ∉ segment) :
    tokens (some name) segment = [.param (name ++ segment)] := by
  induction segment generalizing name with
  | nil => simp [tokens]
  | cons ch segment ih =>
      rw [List.mem_cons, not_or] at free
      rw [tokens, if_neg (Ne.symm free.1), ih _ free.2]
      simp

/-- A segment is plain, or a colon in front of another character makes the
rest of it a name. -/
theorem tokens_segment {segment : Bytes} (free : slash ∉ segment) :
    (colon ∉ segment.dropLast ∧
        tokens none segment = segment.map .literal) ∨
      ∃ plain name, segment = plain ++ colon :: name ∧ name ≠ [] ∧
        tokens none segment = plain.map .literal ++ [.param name] := by
  induction segment with
  | nil => exact .inl ⟨by simp, rfl⟩
  | cons ch segment ih =>
      rw [List.mem_cons, not_or] at free
      rw [tokens]
      split
      · next names =>
          obtain ⟨rfl, ahead⟩ := names
          refine .inr ⟨[], segment, rfl, ?_, tokens_name [] free.2⟩
          rintro rfl
          cases ahead
      · next literal =>
          rcases ih free.2 with ⟨plain, split⟩ | ⟨plain, name, rfl, some, split⟩
          · refine .inl ⟨?_, by rw [split]; rfl⟩
            cases segment with
            | nil => simp
            | cons d segment =>
                rw [List.dropLast_cons_of_ne_nil (by simp), List.mem_cons,
                  not_or]
                refine ⟨?_, plain⟩
                rintro rfl
                apply literal
                have other : d ≠ slash := fun same => free.2 (by simp [same])
                simp [other]
          · exact .inr ⟨ch :: plain, name, rfl, some, by rw [split]; rfl⟩

theorem not_mem_of_readTokens {tokens : List PatternToken} {path : Bytes}
    (free : .literal slash ∉ tokens) (read : ReadTokens tokens path) :
    slash ∉ path := by
  induction tokens generalizing path with
  | nil => simp [show path = [] from read]
  | cons token tokens ih =>
      obtain ⟨taken, rest, rfl, reads, later⟩ := read
      rw [List.mem_cons, not_or] at free
      rw [List.mem_append, not_or]
      refine ⟨?_, ih free.2 later⟩
      cases token with
      | literal ch =>
          rw [show taken = [ch] from reads, List.mem_singleton]
          rintro rfl
          exact free.1 rfl
      | param name => exact reads.2

theorem not_mem_tokens_segment {segment : Bytes} (free : slash ∉ segment) :
    .literal slash ∉ tokens none segment := by
  rcases tokens_segment free with ⟨_, split⟩ | ⟨plain, name, rfl, _, split⟩
  · rw [split]
    simpa using free
  · rw [split]
    rw [List.mem_append, not_or] at free
    simpa using free.1

theorem readTokens_literal {plain path : Bytes} :
    ReadTokens (plain.map .literal) path ↔ path = plain := by
  induction plain generalizing path with
  | nil => rfl
  | cons ch plain ih =>
      rw [List.map_cons, ReadTokens]
      constructor
      · rintro ⟨_, rest, rfl, rfl, later⟩
        rw [ih.mp later]
        rfl
      · rintro rfl
        exact ⟨[ch], plain, rfl, rfl, ih.mpr rfl⟩

/-- What the tokens of a segment match. -/
def segmentSet (segment : Bytes) : Set Bytes :=
  {path | ReadTokens (tokens none segment) path}

theorem segmentSet_avoids {segment : Bytes} (free : slash ∉ segment) :
    ∀ path ∈ segmentSet segment, slash ∉ path :=
  fun _ read => not_mem_of_readTokens (not_mem_tokens_segment free) read

theorem segmentSet_nonempty {segment : Bytes} (free : slash ∉ segment) :
    (segmentSet segment).Nonempty := by
  rcases tokens_segment free with ⟨_, split⟩ | ⟨plain, name, _, _, split⟩
  · refine ⟨segment, ?_⟩
    rw [segmentSet, split]
    exact readTokens_literal.mpr rfl
  · refine ⟨plain ++ [120], ?_⟩
    rw [segmentSet, split]
    exact readTokens_append.mpr ⟨plain, [120], rfl, readTokens_literal.mpr rfl,
      [120], [], rfl, ⟨by simp, by decide⟩, rfl⟩

/-- A path is matched segment by segment. -/
theorem readTokens_iff_pieced (pattern path : Bytes) :
    ReadTokens (tokens none pattern) path ↔
      Pieced slash ((pattern.splitOn slash).map segmentSet) path := by
  induction pattern using pieces_induction generalizing path with
  | single piece free =>
      rw [List.splitOn_eq_singleton free, List.map_singleton,
        pieced_singleton (segmentSet_avoids free)]
      rfl
  | cons piece rest free ih =>
      have more : (rest.splitOn slash).map segmentSet ≠ [] := by simp
      rw [List.splitOn_append_cons_self_of_not_mem free, List.map_cons,
        pieced_cons more (segmentSet_avoids free),
        tokens_append_slash none rest free, readTokens_append]
      simp only [← ih]
      constructor
      · rintro ⟨front, _, rfl, read, _, back, rfl, rfl, later⟩
        exact ⟨front, read, back, rfl, later⟩
      · rintro ⟨front, read, back, rfl, later⟩
        exact ⟨front, slash :: back, rfl, read, [slash], back, rfl, rfl, later⟩

/-- A segment matches itself only if no colon in it starts a name. -/
theorem only_itself_iff {segment : Bytes} (free : slash ∉ segment) :
    (∀ path ∈ segmentSet segment, path = segment) ↔
      colon ∉ segment.dropLast := by
  rcases tokens_segment free with
    ⟨plain, split⟩ | ⟨plain, name, rfl, some, split⟩
  · refine iff_of_true ?_ plain
    intro path read
    rw [segmentSet, split] at read
    exact readTokens_literal.mp read
  · apply iff_of_false
    · intro only
      have other : plain ++ [120] ∈ segmentSet (plain ++ colon :: name) := by
        rw [segmentSet, split]
        exact readTokens_append.mpr ⟨plain, [120], rfl,
          readTokens_literal.mpr rfl, [120], [], rfl, ⟨by simp, by decide⟩, rfl⟩
      have same := List.append_cancel_left (only _ other)
      cases (List.cons.inj same).1
    · rw [List.dropLast_append_cons, List.dropLast_cons_of_ne_nil some]
      simp

end RegexRouterMatcher

end KitMuduo
