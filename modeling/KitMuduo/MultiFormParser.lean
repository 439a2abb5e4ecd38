import KitMuduo.Bytes
import KitMuduo.HttpMessage
import KitMuduo.ListSearch
import Mathlib.Data.List.DropRight

/-!
# The multipart parser

`MultiFormParser` of `content_parser.cpp`.  A pointer into the body, of which
the parser knows the end, is the list of the bytes from there to the end.
-/

namespace KitMuduo

open ListSearch

structure FormPart where
  name : Bytes := []
  filename : Bytes := []
  contentType : Bytes := []
  data : Bytes := []
  headers : StringMap := ∅
  deriving DecidableEq

abbrev PartMap := Finmap fun _ : Bytes => FormPart

namespace MultiFormParser

def cr : UInt8 := 13

def lf : UInt8 := 10

def k2CRLF : Bytes := [cr, lf, cr, lf]

def k2LF : Bytes := [lf, lf]

/-- The characters that `trim` takes away. -/
def isBlank (c : UInt8) : Bool :=
  c = 32 ∨ c = 9 ∨ c = cr ∨ c = lf

def trim (s : Bytes) : Bytes :=
  (s.dropWhile isBlank).rdropWhile isBlank

/-- Step over one byte, if it is there. -/
def skipByte (c : UInt8) : Bytes → Bytes
  | [] => []
  | first :: rest => if first = c then rest else first :: rest

def skipCrlf (p : Bytes) : Bytes :=
  skipByte lf (skipByte cr p)

/-- Spaces and tabs. -/
def isLwsp (c : UInt8) : Bool :=
  c = 32 ∨ c = 9

/-- The position behind a boundary line, and whether it is the last one. -/
def skipBoundarySuffix (p : Bytes) : Bytes × Bool :=
  match p.dropWhile isLwsp with
  | 45 :: 45 :: rest => (skipCrlf (rest.dropWhile isLwsp), true)
  | p => (skipCrlf p, false)

def extractBoundary (contentType : Bytes) : Bytes :=
  match search (ascii "boundary=") contentType with
  | none => []
  | some pos =>
      match contentType.drop (pos + 9) with
      | [] => []
      | 34 :: quoted =>
          match search [34] quoted with
          | none => []
          | some length => quoted.take length
      | plain =>
          match search [59] plain with
          | none => trim plain
          | some length => trim (plain.take length)

/-- `extract_quoted` of `parse_content_disposition`. -/
def extractQuoted (line attr : Bytes) : Bytes :=
  match search attr line with
  | none => []
  | some pos =>
      let value := line.drop (pos + attr.length)
      match search [34] value with
      | none => []
      | some length => value.take length

def parseContentDisposition (line : Bytes) (part : FormPart) : FormPart :=
  { part with
    name := extractQuoted line (ascii "name=\"")
    filename := extractQuoted line (ascii "filename=\"") }

def parseCustomHeader (line : Bytes) (part : FormPart) : FormPart :=
  match search [58] line with
  | none => part
  | some colon =>
      if colon = 0 then
        part
      else
        let key := trim (line.take colon)
        let value := trim (line.drop (colon + 1))
        if key ≠ [] then
          { part with headers := part.headers.insert key value }
        else
          part

/-- The lines `std::getline` reads; there is none behind the last line end. -/
def getlines (text : Bytes) : List Bytes :=
  let lines := text.splitOn lf
  if lines.getLast? = some [] then lines.dropLast else lines

/-- The body of the loop over the header lines. -/
def parseHeader (part : FormPart) (line : Bytes) : FormPart :=
  if line = [] then
    part
  else
    let line := if line.getLast? = some cr then line.dropLast else line
    if search (ascii "Content-Disposition:") line = some 0 then
      parseContentDisposition line part
    else if search (ascii "Content-Type:") line = some 0 then
      { part with contentType := trim (line.drop 13) }
    else
      parseCustomHeader line part

/-- The header section of a part, and its data. -/
def splitPart (data : Bytes) : Bytes × Bytes :=
  match search k2CRLF data with
  | some sep => (data.take sep, data.drop (sep + 4))
  | none =>
      match search k2LF data with
      | some sep => (data.take sep, data.drop (sep + 2))
      | none => (data, [])

def parsePart (data : Bytes) : FormPart :=
  let (headersSection, body) := splitPart data
  let part := (getlines headersSection).foldl parseHeader {}
  { part with data := body }

def isValidBoundarySuffixChar (c : UInt8) : Bool :=
  c = cr ∨ c = lf ∨ c = 45 ∨ c = 32 ∨ c = 9

/-- Whether a boundary may end here. -/
def mayFollowBoundary (after : Bytes) : Bool :=
  match after with
  | [] => true
  | c :: _ => isValidBoundarySuffixChar c

/-- The inner loop: the distance to the next boundary. -/
def nextBoundary (marker scan : Bytes) : Option Nat :=
  match search marker scan with
  | none => none
  | some next =>
      if mayFollowBoundary (scan.drop (next + marker.length)) = true then
        some next
      else
        (nextBoundary marker (scan.drop (next + 1))).map (· + (next + 1))
  termination_by scan.length
  decreasing_by
    next rejected =>
      cases scan with
      | nil => simp [mayFollowBoundary] at rejected
      | cons c scan =>
          rw [List.length_drop, List.length_cons]
          omega

/-- A boundary that the inner loop accepts begins here. -/
def IsBoundary (marker rest : Bytes) : Prop :=
  marker <+: rest ∧ mayFollowBoundary (rest.drop marker.length) = true

/-- The inner loop finds the first boundary. -/
theorem nextBoundary_eq_some_iff {marker scan : Bytes} {next : Nat} :
    nextBoundary marker scan = some next ↔
      IsFirst (IsBoundary marker) scan next := by
  induction scan using nextBoundary.induct marker generalizing next with
  | case1 scan absent =>
      rw [nextBoundary, absent]
      refine iff_of_false nofun fun first => ?_
      have occurs : marker <:+: scan :=
        first.2.1.1.isInfix.trans (List.drop_suffix next scan).isInfix
      exact search_eq_none_iff.mp absent occurs
  | case2 scan position found accepted =>
      obtain ⟨bound, occurs, least⟩ := search_eq_some_iff.mp found
      rw [← List.drop_drop] at accepted
      have first : IsFirst (IsBoundary marker) scan position :=
        ⟨bound, ⟨occurs, accepted⟩, fun earlier before isBoundary =>
          least earlier before isBoundary.1⟩
      rw [List.drop_drop] at accepted
      rw [nextBoundary, found]
      dsimp only
      rw [if_pos accepted, Option.some.injEq]
      exact ⟨fun same => same ▸ first, fun other => first.unique other⟩
  | case3 scan position found rejected ih =>
      obtain ⟨bound, occurs, least⟩ := search_eq_some_iff.mp found
      rw [nextBoundary, found]
      dsimp only
      rw [if_neg rejected, Option.map_eq_some_iff]
      simp only [ih]
      have notYet : ∀ earlier < position + 1,
          ¬ IsBoundary marker (scan.drop earlier) := by
        intro earlier before isBoundary
        rcases Nat.lt_succ_iff_lt_or_eq.mp before with less | rfl
        · exact least earlier less isBoundary.1
        · rw [← List.drop_drop] at rejected
          exact rejected isBoundary.2
      constructor
      · rintro ⟨later, first, rfl⟩
        refine IsFirst.of_drop notYet ?_ first
        have follows : ¬ scan.length ≤ position + marker.length := by
          intro short
          rw [List.drop_eq_nil_of_le short] at rejected
          exact rejected rfl
        omega
      · intro first
        have after : position + 1 ≤ next := by
          by_contra before
          exact notYet next (by omega) first.2.1
        refine ⟨next - (position + 1), ?_, by omega⟩
        apply IsFirst.drop
        rw [Nat.sub_add_cancel after]
        exact first

def storePart (parts : PartMap) (part : FormPart) : PartMap :=
  if part.name ≠ [] then parts.insert part.name part else parts

/-- The bytes in front of a boundary without the `\r` of its line end. -/
def dropCr (body : Bytes) : Bytes :=
  if body.getLast? = some cr then body.dropLast else body

theorem skipByte_suffix (c : UInt8) (p : Bytes) : skipByte c p <:+ p := by
  cases p with
  | nil => exact List.suffix_refl _
  | cons first rest =>
      by_cases same : first = c
      · rw [skipByte, if_pos same]
        exact List.suffix_cons first rest
      · simp [skipByte, same]

theorem skipCrlf_suffix (p : Bytes) : skipCrlf p <:+ p :=
  (skipByte_suffix lf _).trans (skipByte_suffix cr p)

/-- The pointer only moves forward. -/
theorem skipBoundarySuffix_suffix (p : Bytes) :
    (skipBoundarySuffix p).1 <:+ p := by
  have blanks := List.dropWhile_suffix (l := p) isLwsp
  unfold skipBoundarySuffix
  split
  next rest dashes =>
    have behind : rest <:+ p.dropWhile isLwsp :=
      dashes ▸ (List.suffix_cons 45 _).trans (List.suffix_cons 45 _)
    exact (skipCrlf_suffix _).trans
      ((List.dropWhile_suffix isLwsp).trans (behind.trans blanks))
  next => exact (skipCrlf_suffix _).trans blanks

/-- The outer loop. -/
def parseParts (bstr p : Bytes) (parts : PartMap) : PartMap :=
  if p = [] then
    parts
  else
    match nextBoundary (lf :: bstr) p with
    | none => parts
    | some next =>
        let parts := storePart parts (parsePart (dropCr (p.take next)))
        let line := skipBoundarySuffix (p.drop (next + bstr.length + 1))
        if line.2 = true then parts else parseParts bstr line.1 parts
  termination_by p.length
  decreasing_by
    next nonempty _ =>
      have behind := (skipBoundarySuffix_suffix
        (p.drop (next + bstr.length + 1))).length_le
      rw [List.length_drop] at behind
      have positive := List.length_pos_of_ne_nil nonempty
      omega

def parse (data contentType : Bytes) : PartMap :=
  let boundary := extractBoundary contentType
  if boundary = [] then
    ∅
  else
    let bstr := ascii "--" ++ boundary
    match search bstr data with
    | none => ∅
    | some first =>
        let line := skipBoundarySuffix (data.drop (first + bstr.length))
        if line.2 = true then ∅ else parseParts bstr line.1 ∅

end MultiFormParser

end KitMuduo
