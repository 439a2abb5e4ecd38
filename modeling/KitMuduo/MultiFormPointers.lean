import KitMuduo.CheckedLoop
import KitMuduo.ListSegment
import KitMuduo.MultiFormLoop

/-!
# The multipart parser and its pointers

`MultiFormParser::parse` and what it calls, with a pointer as its distance to
the first byte.  Every read and every range is checked, and each loop runs for a
given number of turns at most.  The parts come with the ranges their data were
copied from.
-/

namespace KitMuduo

open CheckedLoop ListSearch ListSegment

namespace MultiFormPointers

open MultiFormParser (cr lf isLwsp k2CRLF k2LF isValidBoundarySuffixChar
  getlines parseHeader storePart extractBoundary)

/-- The bytes between two pointers; `none` is no range of the given bytes. -/
def copy (bytes : Bytes) (first last : Nat) : Option Bytes :=
  if first ≤ last ∧ last ≤ bytes.length then
    some (segment bytes first (last - first))
  else
    none

/-- `std::search`, which returns `last` if there is no occurrence. -/
def searchRange (bytes : Bytes) (first last : Nat) (pattern : Bytes) :
    Option Nat :=
  (copy bytes first last).map fun text =>
    match search pattern text with
    | some distance => first + distance
    | none => last

def lwspTurn (bytes : Bytes) (p : Nat) : Option (Turn Nat Nat) :=
  if p < bytes.length then
    bytes[p]?.map fun c => if isLwsp c = true then .again (p + 1) else .done p
  else
    some (.done p)

def skipLwsp (turns : Nat) (bytes : Bytes) (p : Nat) : Option Nat :=
  run (lwspTurn bytes) turns p

/-- Step over one byte, if it is there. -/
def skipByte (bytes : Bytes) (expected : UInt8) (p : Nat) : Option Nat :=
  if p < bytes.length then
    bytes[p]?.map fun c => if c = expected then p + 1 else p
  else
    some p

def skipCrlf (bytes : Bytes) (p : Nat) : Option Nat :=
  (skipByte bytes cr p).bind (skipByte bytes lf)

/-- `p + 1 < end && p[0] == '-' && p[1] == '-'`. -/
def atDashes (bytes : Bytes) (p : Nat) : Option Bool :=
  if p + 1 < bytes.length then
    bytes[p]?.bind fun first =>
      if first = 45 then
        bytes[p + 1]?.map fun second => decide (second = 45)
      else
        some false
  else
    some false

/-- The position behind a boundary line, and whether it is the last one. -/
def skipBoundarySuffix (turns : Nat) (bytes : Bytes) (p : Nat) :
    Option (Nat × Bool) := do
  let p ← skipLwsp turns bytes p
  let isFinal ← atDashes bytes p
  let p ← if isFinal = true then skipLwsp turns bytes (p + 2) else some p
  let p ← skipCrlf bytes p
  return (p, isFinal)

/-- A turn of the inner loop, which looks for the next boundary. -/
def scanTurn (bytes marker : Bytes) (scan : Nat) :
    Option (Turn Nat (Option Nat)) := do
  let scan ← searchRange bytes scan bytes.length marker
  if scan = bytes.length then
    return .done none
  else
    let after := scan + marker.length
    if bytes.length ≤ after then
      return .done (some scan)
    else
      let c ← bytes[after]?
      if isValidBoundarySuffixChar c = true then
        return .done (some scan)
      else
        return .again (scan + 1)

def nextBoundary (turns : Nat) (bytes marker : Bytes) (scan : Nat) :
    Option (Option Nat) :=
  run (scanTurn bytes marker) turns scan

/-- The end of the header section of a part, and where its data begin. -/
def findBody (bytes : Bytes) (first last : Nat) : Option (Nat × Nat) := do
  let sep ← searchRange bytes first last k2CRLF
  if sep ≠ last then
    return (sep, sep + 4)
  else
    let sep ← searchRange bytes first last k2LF
    if sep ≠ last then
      return (sep, sep + 2)
    else
      return (sep, last)

/-- A part, and where in the input its data begin and end. -/
structure PlacedPart where
  part : FormPart
  first : Nat
  last : Nat
  deriving DecidableEq

def parsePart (bytes : Bytes) (first last : Nat) : Option PlacedPart := do
  let (sep, bodyStart) ← findBody bytes first last
  let headersSection ← copy bytes first sep
  let part := (getlines headersSection).foldl parseHeader {}
  let body ← copy bytes bodyStart last
  return ⟨{ part with data := body }, bodyStart, last⟩

/-- The end of the bytes in front of a boundary, without the `\r` of its line
end. -/
def bodyEnd (bytes : Bytes) (bodyStart next : Nat) : Option Nat :=
  if 0 < next - bodyStart then
    bytes[next - 1]?.map fun c => if c = cr then next - 1 else next
  else
    some next

/-- The pointer, the parts of the map and all parts that were read. -/
structure PartLoop where
  p : Nat
  parts : PartMap := ∅
  placed : List PlacedPart := []

def PartLoop.store (s : PartLoop) (placed : PlacedPart) : PartLoop where
  p := s.p
  parts := storePart s.parts placed.part
  placed := s.placed ++ [placed]

/-- A turn of the outer loop. -/
def partTurn (turns : Nat) (bytes bstr : Bytes) (s : PartLoop) :
    Option (Turn PartLoop PartLoop) :=
  if s.p < bytes.length then do
    match ← nextBoundary turns bytes (lf :: bstr) s.p with
    | none => return .done s
    | some next =>
        let stop ← bodyEnd bytes s.p next
        let part ← parsePart bytes s.p stop
        let (p, isFinal) ←
          skipBoundarySuffix turns bytes (next + (bstr.length + 1))
        let s := { s.store part with p := p }
        if isFinal = true then return .done s else return .again s
  else
    some (.done s)

def parse (turns : Nat) (bytes contentType : Bytes) : Option PartLoop :=
  let boundary := extractBoundary contentType
  if boundary = [] then
    some { p := 0 }
  else
    let bstr := ascii "--" ++ boundary
    do
      let first ← searchRange bytes 0 bytes.length bstr
      if first = bytes.length then
        return { p := 0 }
      else
        let (p, isFinal) ←
          skipBoundarySuffix turns bytes (first + bstr.length)
        if isFinal = true then
          return { p := p }
        else
          run (partTurn turns bytes bstr) turns { p := p }

/-! ## Single steps -/

/-- The pointer moves from `p` to `q`, in front of `behind`. -/
structure MovesTo (bytes : Bytes) (p q : Nat) (behind : Bytes) : Prop where
  forward : p ≤ q
  within : q ≤ bytes.length
  behind : bytes.drop q = behind

variable {bytes : Bytes} {p first last turns : Nat}

theorem MovesTo.refl (within : p ≤ bytes.length) :
    MovesTo bytes p p (bytes.drop p) :=
  ⟨le_refl p, within, rfl⟩

theorem MovesTo.trans {q r : Nat} {behind after : Bytes}
    (before : MovesTo bytes p q behind) (later : MovesTo bytes q r after) :
    MovesTo bytes p r after :=
  ⟨before.forward.trans later.forward, later.within, later.behind⟩

theorem copy_eq_some (ordered : first ≤ last) (within : last ≤ bytes.length) :
    copy bytes first last = some (segment bytes first (last - first)) :=
  if_pos ⟨ordered, within⟩

theorem skipLwsp_moves (enough : bytes.length < turns)
    (within : p ≤ bytes.length) :
    ∃ q, skipLwsp turns bytes p = some q ∧
      MovesTo bytes p q ((bytes.drop p).dropWhile isLwsp) := by
  have well : ∀ p ≤ bytes.length, TurnsWell (lwspTurn bytes)
      (· ≤ bytes.length) (bytes.length - ·) (fun p q =>
        MovesTo bytes p q ((bytes.drop p).dropWhile isLwsp)) p := by
    intro p within
    by_cases inside : p < bytes.length
    · have text := List.drop_eq_getElem_cons inside
      by_cases blank : isLwsp bytes[p] = true
      · have again : lwspTurn bytes p = some (.again (p + 1)) := by
          simp [lwspTurn, inside, blank]
        have less : bytes.length - (p + 1) < bytes.length - p := by omega
        refine .inl ⟨p + 1, again, inside, less, ?_⟩
        intro q moves
        have forward := moves.forward
        refine ⟨by omega, moves.within, ?_⟩
        rw [text, List.dropWhile_cons_of_pos blank]
        exact moves.behind
      · have done : lwspTurn bytes p = some (.done p) := by
          simp [lwspTurn, inside, blank]
        have behind : (bytes.drop p).dropWhile isLwsp = bytes.drop p := by
          rw [text, List.dropWhile_cons_of_neg blank]
        exact .inr ⟨p, done, le_refl p, within, behind.symm⟩
    · have atEnd : bytes.drop p = [] := List.drop_eq_nil_of_le (by omega)
      have behind : (bytes.drop p).dropWhile isLwsp = bytes.drop p := by
        rw [atEnd, List.dropWhile_nil]
      exact .inr ⟨p, if_neg inside, le_refl p, within, behind.symm⟩
  exact exists_run well within (by omega)

theorem skipByte_moves (expected : UInt8) (within : p ≤ bytes.length) :
    ∃ q, skipByte bytes expected p = some q ∧
      MovesTo bytes p q (MultiFormParser.skipByte expected (bytes.drop p)) := by
  by_cases inside : p < bytes.length
  · have text := List.drop_eq_getElem_cons inside
    rw [text, MultiFormParser.skipByte]
    by_cases same : bytes[p] = expected
    · refine ⟨p + 1, ?_, by omega, by omega, ?_⟩
      · simp [skipByte, inside, same]
      · rw [if_pos same]
    · refine ⟨p, ?_, le_refl p, within, ?_⟩
      · simp [skipByte, inside, same]
      · rw [if_neg same, text]
  · refine ⟨p, if_neg inside, ?_⟩
    have atEnd : bytes.drop p = [] := List.drop_eq_nil_of_le (by omega)
    rw [atEnd]
    exact ⟨le_refl p, within, atEnd⟩

theorem skipCrlf_moves (within : p ≤ bytes.length) :
    ∃ q, skipCrlf bytes p = some q ∧
      MovesTo bytes p q (MultiFormParser.skipCrlf (bytes.drop p)) := by
  obtain ⟨middle, overCr, toMiddle⟩ := skipByte_moves cr within
  obtain ⟨q, overLf, toEnd⟩ := skipByte_moves lf toMiddle.within
  refine ⟨q, ?_, ?_⟩
  · rw [skipCrlf, overCr, Option.bind_some, overLf]
  · rw [toMiddle.behind] at toEnd
    exact toMiddle.trans toEnd

/-- Whether two dashes come next. -/
theorem atDashes_eq (bytes : Bytes) (p : Nat) :
    (∃ rest, bytes.drop p = 45 :: 45 :: rest ∧ p + 2 ≤ bytes.length ∧
      bytes.drop (p + 2) = rest ∧ atDashes bytes p = some true) ∨
    (∀ rest, bytes.drop p ≠ 45 :: 45 :: rest) ∧
      atDashes bytes p = some false := by
  by_cases inside : p + 1 < bytes.length
  · have text := List.drop_eq_getElem_cons (Nat.lt_of_succ_lt inside)
    rw [List.drop_eq_getElem_cons inside] at text
    by_cases dashes : bytes[p] = 45 ∧ bytes[p + 1] = 45
    · refine .inl ⟨bytes.drop (p + 2), ?_, inside, rfl, ?_⟩
      · rw [text, dashes.1, dashes.2]
      · simp [atDashes, inside, Nat.lt_of_succ_lt inside, dashes]
    · refine .inr ⟨?_, ?_⟩
      · intro rest same
        rw [text] at same
        obtain ⟨one, others⟩ := List.cons.inj same
        exact dashes ⟨one, (List.cons.inj others).1⟩
      · by_cases one : bytes[p] = 45
        · have two : bytes[p + 1] ≠ 45 := fun two => dashes ⟨one, two⟩
          simp [atDashes, inside, Nat.lt_of_succ_lt inside, one, two]
        · simp [atDashes, inside, Nat.lt_of_succ_lt inside, one]
  · refine .inr ⟨?_, if_neg inside⟩
    intro rest same
    have lengths := congrArg List.length same
    simp only [List.length_drop, List.length_cons] at lengths
    omega

theorem skipBoundarySuffix_moves (enough : bytes.length < turns)
    (within : p ≤ bytes.length) :
    ∃ q, skipBoundarySuffix turns bytes p = some
        (q, (MultiFormParser.skipBoundarySuffix (bytes.drop p)).2) ∧
      MovesTo bytes p q
        (MultiFormParser.skipBoundarySuffix (bytes.drop p)).1 := by
  obtain ⟨blank, overBlanks, toBlank⟩ := skipLwsp_moves enough within
  rcases atDashes_eq bytes blank with
    ⟨rest, dashes, inside, behind, isFinal⟩ | ⟨noDashes, notFinal⟩
  · obtain ⟨more, overMore, toMore⟩ := skipLwsp_moves enough inside
    obtain ⟨q, overEnd, toEnd⟩ := skipCrlf_moves toMore.within
    rw [toBlank.behind] at dashes
    rw [toMore.behind, behind] at toEnd
    rw [MultiFormParser.skipBoundarySuffix, dashes]
    refine ⟨q, ?_, ?_⟩
    · simp [skipBoundarySuffix, overBlanks, isFinal, overMore, overEnd]
    · have forward := toMore.forward
      have onward := toEnd.forward
      have fromBlank : MovesTo bytes blank q _ :=
        ⟨by omega, toEnd.within, toEnd.behind⟩
      exact toBlank.trans fromBlank
  · obtain ⟨q, overEnd, toEnd⟩ := skipCrlf_moves toBlank.within
    rw [toBlank.behind] at toEnd noDashes
    have list : MultiFormParser.skipBoundarySuffix (bytes.drop p) =
        (MultiFormParser.skipCrlf ((bytes.drop p).dropWhile isLwsp),
          false) := by
      unfold MultiFormParser.skipBoundarySuffix
      split
      · next rest dashes => exact absurd dashes (noDashes rest)
      · rfl
    rw [list]
    refine ⟨q, ?_, toBlank.trans toEnd⟩
    simp [skipBoundarySuffix, overBlanks, notFinal, overEnd]

/-! ## Searches -/

theorem searchRange_of_some {pattern : Bytes} {distance : Nat}
    (ordered : first ≤ last) (within : last ≤ bytes.length)
    (found : search pattern (segment bytes first (last - first)) =
      some distance) :
    searchRange bytes first last pattern = some (first + distance) := by
  rw [searchRange, copy_eq_some ordered within, Option.map_some, found]

theorem searchRange_of_none {pattern : Bytes} (ordered : first ≤ last)
    (within : last ≤ bytes.length)
    (absent : search pattern (segment bytes first (last - first)) = none) :
    searchRange bytes first last pattern = some last := by
  rw [searchRange, copy_eq_some ordered within, Option.map_some, absent]

theorem segment_to_end (bytes : Bytes) (p : Nat) :
    segment bytes p (bytes.length - p) = bytes.drop p := by
  rw [ListSegment.segment, ← List.length_drop, List.take_length]

/-- What the inner loop returns if it starts at `scan`. -/
def boundaryFrom (bytes marker : Bytes) (scan : Nat) : Option Nat :=
  (MultiFormParser.nextBoundary marker (bytes.drop scan)).map (scan + ·)

theorem boundaryFrom_of_none {marker : Bytes} {scan : Nat}
    (absent : search marker (bytes.drop scan) = none) :
    boundaryFrom bytes marker scan = none := by
  rw [boundaryFrom, MultiFormParser.nextBoundary, absent]
  rfl

/-- The inner loop at an occurrence of the marker. -/
theorem boundaryFrom_of_some {marker : Bytes} {scan distance : Nat}
    (found : search marker (bytes.drop scan) = some distance) :
    boundaryFrom bytes marker scan =
      if MultiFormParser.mayFollowBoundary
          (bytes.drop (scan + distance + marker.length)) = true then
        some (scan + distance)
      else
        boundaryFrom bytes marker (scan + distance + 1) := by
  have behind : (bytes.drop scan).drop (distance + marker.length) =
      bytes.drop (scan + distance + marker.length) := by
    rw [List.drop_drop, Nat.add_assoc]
  rw [boundaryFrom, MultiFormParser.nextBoundary.eq_def, found]
  dsimp only
  rw [behind]
  split
  · rfl
  · rw [boundaryFrom, List.drop_drop, Option.map_map, Nat.add_assoc]
    congr 1
    funext later
    simp only [Function.comp_apply]
    omega

theorem scanTurn_well {marker : Bytes} (nonempty : marker ≠ []) {scan : Nat}
    (within : scan ≤ bytes.length) :
    TurnsWell (scanTurn bytes marker) (· ≤ bytes.length) (bytes.length - ·)
      (fun scan result => result = boundaryFrom bytes marker scan) scan := by
  have ranged := segment_to_end bytes scan
  cases found : search marker (bytes.drop scan) with
  | none =>
      have missed := searchRange_of_none within (le_refl _)
        (ranged.symm ▸ found)
      refine .inr ⟨none, ?_, (boundaryFrom_of_none found).symm⟩
      simp [scanTurn, missed]
  | some distance =>
      have fits := search_length_le found
      rw [List.length_drop] at fits
      have positive := List.length_pos_of_ne_nil nonempty
      have hit := searchRange_of_some within (le_refl _) (ranged.symm ▸ found)
      have before : scan + distance ≠ bytes.length := by omega
      have result := boundaryFrom_of_some found
      by_cases atEnd : bytes.length ≤ scan + distance + marker.length
      · rw [List.drop_eq_nil_of_le atEnd, MultiFormParser.mayFollowBoundary,
          if_pos rfl] at result
        refine .inr ⟨some (scan + distance), ?_, result.symm⟩
        simp [scanTurn, hit, before, atEnd]
      · have inside : scan + distance + marker.length < bytes.length := by
          omega
        rw [List.drop_eq_getElem_cons inside,
          MultiFormParser.mayFollowBoundary] at result
        by_cases valid : isValidBoundarySuffixChar
            bytes[scan + distance + marker.length] = true
        · rw [if_pos valid] at result
          refine .inr ⟨some (scan + distance), ?_, result.symm⟩
          simp [scanTurn, hit, before, inside, valid]
        · rw [if_neg valid] at result
          have less : bytes.length - (scan + distance + 1) <
              bytes.length - scan := by omega
          refine .inl ⟨scan + distance + 1, ?_, by omega, less, ?_⟩
          · simp [scanTurn, hit, before, inside, valid]
          · intro final wanted
            exact wanted.trans result.symm

/-- The inner loop ends with the first boundary. -/
theorem nextBoundary_eq {marker : Bytes} (nonempty : marker ≠ [])
    (enough : bytes.length < turns) (within : p ≤ bytes.length) :
    nextBoundary turns bytes marker p =
      some (boundaryFrom bytes marker p) := by
  have fewer : bytes.length - p < turns := by omega
  obtain ⟨result, returned, wanted⟩ :=
    exists_run (fun _ => scanTurn_well nonempty) within fewer
  rw [nextBoundary, returned, wanted]

/-! ## Parts -/

theorem findBody_eq (ordered : first ≤ last) (within : last ≤ bytes.length) :
    ∃ sep bodyStart, findBody bytes first last = some (sep, bodyStart) ∧
      first ≤ sep ∧ sep ≤ last ∧ first ≤ bodyStart ∧ bodyStart ≤ last ∧
      MultiFormParser.splitPart (segment bytes first (last - first)) =
        (segment bytes first (sep - first),
          segment bytes bodyStart (last - bodyStart)) := by
  have size : (segment bytes first (last - first)).length = last - first :=
    segment_length (by omega)
  -- What a separator of a given length divides.
  have divides : ∀ {distance skipped : Nat},
      distance + skipped ≤ last - first →
      ((segment bytes first (last - first)).take distance,
        (segment bytes first (last - first)).drop (distance + skipped)) =
      (segment bytes first (first + distance - first),
        segment bytes (first + distance + skipped)
          (last - (first + distance + skipped))) := by
    intro distance skipped fits
    rw [take_segment _ _ (by omega), drop_segment]
    congr 2 <;> omega
  cases crlf : search k2CRLF (segment bytes first (last - first)) with
  | some distance =>
      have fits := search_length_le crlf
      rw [size] at fits
      have long : k2CRLF.length = 4 := rfl
      have hit := searchRange_of_some ordered within crlf
      have before : first + distance ≠ last := by omega
      refine ⟨first + distance, first + distance + 4, ?_, by omega, by omega,
        by omega, by omega, ?_⟩
      · simp [findBody, hit, before]
      · rw [MultiFormParser.splitPart, crlf]
        exact divides (by omega)
  | none =>
      have missed := searchRange_of_none ordered within crlf
      cases lflf : search k2LF (segment bytes first (last - first)) with
      | some distance =>
          have fits := search_length_le lflf
          rw [size] at fits
          have long : k2LF.length = 2 := rfl
          have hit := searchRange_of_some ordered within lflf
          have before : first + distance ≠ last := by omega
          refine ⟨first + distance, first + distance + 2, ?_, by omega,
            by omega, by omega, by omega, ?_⟩
          · simp [findBody, missed, hit, before]
          · rw [MultiFormParser.splitPart, crlf, lflf]
            exact divides (by omega)
      | none =>
          have missedToo := searchRange_of_none ordered within lflf
          refine ⟨last, last, ?_, ordered, le_refl _, ordered, le_refl _, ?_⟩
          · simp [findBody, missed, missedToo]
          · rw [MultiFormParser.splitPart, crlf, lflf]
            simp

theorem parsePart_eq (ordered : first ≤ last) (within : last ≤ bytes.length) :
    ∃ bodyStart, parsePart bytes first last = some
        ⟨MultiFormParser.parsePart (segment bytes first (last - first)),
          bodyStart, last⟩ ∧
      first ≤ bodyStart ∧ bodyStart ≤ last ∧
      (MultiFormParser.parsePart (segment bytes first (last - first))).data =
        segment bytes bodyStart (last - bodyStart) := by
  obtain ⟨sep, bodyStart, found, afterFirst, upToLast, behind, bodyWithin,
    split⟩ := findBody_eq ordered within
  have headers := copy_eq_some afterFirst (upToLast.trans within)
  have body := copy_eq_some bodyWithin within
  refine ⟨bodyStart, ?_, behind, bodyWithin, ?_⟩
  · simp [parsePart, found, headers, body, MultiFormParser.parsePart, split]
  · simp [MultiFormParser.parsePart, split]

/-- The `\r` of the line end is no part of the body. -/
theorem bodyEnd_eq {next : Nat} (ordered : p ≤ next)
    (within : next ≤ bytes.length) :
    ∃ stop, bodyEnd bytes p next = some stop ∧ p ≤ stop ∧ stop ≤ next ∧
      MultiFormParser.dropCr (segment bytes p (next - p)) =
        segment bytes p (stop - p) := by
  by_cases isEmpty : 0 < next - p
  · have inside : next - 1 < bytes.length := by omega
    have size : (segment bytes p (next - p)).length = next - p :=
      segment_length (by omega)
    have lastByte : (segment bytes p (next - p)).getLast? =
        some bytes[next - 1] := by
      rw [List.getLast?_eq_getElem?, size, ListSegment.segment,
        List.getElem?_take_of_lt (by omega), List.getElem?_drop,
        List.getElem?_eq_getElem (by omega)]
      congr 2
      omega
    by_cases isCr : bytes[next - 1] = cr
    · refine ⟨next - 1, ?_, by omega, by omega, ?_⟩
      · simp [bodyEnd, isEmpty, inside, isCr]
      · rw [MultiFormParser.dropCr, lastByte, isCr, if_pos rfl,
          List.dropLast_eq_take, size, take_segment _ _ (by omega)]
        congr 1
        omega
    · refine ⟨next, ?_, ordered, le_refl _, ?_⟩
      · simp [bodyEnd, isEmpty, inside, isCr]
      · rw [MultiFormParser.dropCr, lastByte, if_neg (by simpa using isCr)]
  · have same : next - p = 0 := by omega
    refine ⟨next, if_neg isEmpty, ordered, le_refl _, ?_⟩
    rw [same, segment_zero_length]
    rfl

end MultiFormPointers

end KitMuduo
