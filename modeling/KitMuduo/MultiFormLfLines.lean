import KitMuduo.MultiFormParserInverse
import Mathlib.Data.Finset.Max

/-!
# Uploads with bare line feeds

The same encoding with LF line ends.  The parser looks for a blank line that
ends in CRLF first, in the whole part, and so finds one in the data if the data
has one.
-/

namespace KitMuduo

open ListSearch

namespace MultiFormParser

def encodeLfPart (boundary : Bytes) (part : UploadPart) : Bytes :=
  delimiter boundary ++ [lf] ++ part.lines.flatMap (· ++ [lf]) ++ [lf] ++
    part.data ++ [lf]

def encodeLf (boundary preamble epilogue : Bytes) (parts : List UploadPart) :
    Bytes :=
  preamble ++ parts.flatMap (encodeLfPart boundary) ++ delimiter boundary ++
    ascii "--" ++ epilogue

/-- A part whose header lines are lines of their own and no delimiter lines, and
whose data is told apart from the line end in front of the boundary. -/
structure LfPart (boundary : Bytes) (part : UploadPart) : Prop where
  name_ne : part.name ≠ []
  name_noQuote : 34 ∉ part.name
  name_noLf : lf ∉ part.name
  filename_noLf : ∀ filename, part.filename = some filename → lf ∉ filename
  line_noLf : ∀ line ∈ part.furtherLines, lf ∉ line
  line_noCr : ∀ line ∈ part.furtherLines, line.getLast? ≠ some cr
  not_disposition : ∀ line ∈ part.furtherLines,
    ¬ ascii "Content-Disposition:" <+: line
  not_delimiter : ∀ line ∈ part.furtherLines, ¬ delimiter boundary <+: line
  data_noCr : part.data.getLast? ≠ some cr
  data_clear : ¬ lf :: delimiter boundary <:+: lf :: part.data

/-- The name and the data of every part are in the map. -/
def Decoded (map : PartMap) (parts : List UploadPart) : Prop :=
  ∀ part ∈ parts, ∃ formPart, map.lookup part.name = some formPart ∧
    formPart.name = part.name ∧ formPart.data = part.data

variable {boundary : Bytes} {part : UploadPart}

/-- What stands between two boundaries without the line ends around it. -/
def UploadPart.lfContent (part : UploadPart) : Bytes :=
  [lf].intercalate part.lines ++ (k2LF ++ part.data)

/-- What stands behind a boundary. -/
def behindLfBoundary (boundary epilogue : Bytes) : List UploadPart → Bytes
  | [] => 45 :: 45 :: epilogue
  | part :: rest =>
      lf :: (part.lfContent ++
        (lf :: delimiter boundary ++ behindLfBoundary boundary epilogue rest))

theorem flatMap_lf {lines : List Bytes} (nonempty : lines ≠ []) :
    lines.flatMap (· ++ [lf]) = [lf].intercalate lines ++ [lf] := by
  induction lines with
  | nil => exact absurd rfl nonempty
  | cons line rest ih =>
      cases rest with
      | nil => simp [List.intercalate_singleton]
      | cons next rest =>
          rw [List.flatMap_cons, ih (List.cons_ne_nil _ _),
            List.intercalate_cons_cons, List.append_assoc _ _ [lf]]

theorem encodeLf_eq (boundary preamble epilogue : Bytes)
    (parts : List UploadPart) :
    encodeLf boundary preamble epilogue parts = preamble ++
      (delimiter boundary ++ behindLfBoundary boundary epilogue parts) := by
  have dashes : ascii "--" = [45, 45] := by
    decide
  have body : parts.flatMap (encodeLfPart boundary) ++
      (delimiter boundary ++ (45 :: 45 :: epilogue)) =
        delimiter boundary ++ behindLfBoundary boundary epilogue parts := by
    induction parts with
    | nil => rfl
    | cons part rest ih =>
        have lines : part.lines.flatMap (· ++ [lf]) =
            [lf].intercalate part.lines ++ [lf] :=
          flatMap_lf (List.cons_ne_nil _ _)
        rw [List.flatMap_cons, List.append_assoc, ih, encodeLfPart, lines,
          behindLfBoundary, UploadPart.lfContent]
        simp only [k2LF, List.append_assoc, List.cons_append, List.nil_append]
  rw [encodeLf, dashes, ← body]
  simp only [List.append_assoc, List.cons_append, List.nil_append]

/-! ## The lines -/

theorem furtherLines_ne_nil (part : UploadPart) :
    ∀ line ∈ part.furtherLines, line ≠ [] := by
  intro line member
  rw [UploadPart.furtherLines, List.mem_append] at member
  rcases member with type | field
  · obtain ⟨contentType, _, rfl⟩ := List.mem_map.mp type
    exact List.append_ne_nil_of_left_ne_nil (by decide) _
  · obtain ⟨header, _, rfl⟩ := List.mem_map.mp field
    rw [headerLine_eq]
    simp

theorem LfPart.line (allowed : LfPart boundary part) :
    ∀ line ∈ part.lines, line ≠ [] ∧ lf ∉ line ∧ line.getLast? ≠ some cr := by
  intro line member
  rw [UploadPart.lines, List.mem_cons] at member
  rcases member with rfl | further
  · refine ⟨dispositionLine_ne_nil part,
      lf_not_mem_dispositionLine allowed.name_noLf allowed.filename_noLf, ?_⟩
    rw [getLast?_dispositionLine]
    decide
  · exact ⟨furtherLines_ne_nil part line further,
      allowed.line_noLf line further, allowed.line_noCr line further⟩

/-! ## No boundary inside a part -/

theorem not_isBoundary_lfLine {line : Bytes} (noLf : lf ∉ delimiter boundary)
    (notDelimiter : ¬ delimiter boundary <+: line) (back : Bytes) :
    ¬ IsBoundary (lf :: delimiter boundary) (lf :: (line ++ lf :: back)) := by
  intro isBoundary
  have occurs := (List.cons_prefix_cons.mp isBoundary.1).2
  exact notDelimiter (prefix_of_not_mem noLf occurs)

/-- Every line is followed by a line end. -/
theorem intercalate_append (line : Bytes) (rest : List Bytes) (data : Bytes) :
    ∃ back, [lf].intercalate (line :: rest) ++ (k2LF ++ data) =
      line ++ lf :: back := by
  cases rest with
  | nil => exact ⟨_, by rw [List.intercalate_singleton]; rfl⟩
  | cons next rest =>
      exact ⟨_, by
        rw [List.intercalate_cons_cons, List.append_assoc, List.append_assoc]
        rfl⟩

theorem clear_boundary_intercalate (noLf : lf ∉ delimiter boundary)
    (first : Bytes) (further : List Bytes) (firstNoLf : lf ∉ first)
    (each : ∀ line ∈ further, lf ∉ line ∧ ¬ delimiter boundary <+: line)
    (data : Bytes) :
    Clear (IsBoundary (lf :: delimiter boundary))
      ([lf].intercalate (first :: further)) (k2LF ++ data) := by
  induction further generalizing first with
  | nil =>
      rw [List.intercalate_singleton]
      exact clear_boundary_line firstNoLf _ _
  | cons next rest ih =>
      obtain ⟨nextNoLf, notDelimiter⟩ := each next List.mem_cons_self
      have later := ih next nextNoLf fun line member =>
        each line (List.mem_cons_of_mem _ member)
      rw [List.intercalate_cons_cons, List.append_assoc, clear_append]
      refine ⟨clear_boundary_line firstNoLf _ _, ?_, later⟩
      obtain ⟨back, follows⟩ := intercalate_append next rest data
      have line := not_isBoundary_lfLine noLf notDelimiter back
      rw [← follows] at line
      exact line

theorem clear_boundary_lfPart (noLf : lf ∉ delimiter boundary)
    (allowed : LfPart boundary part) (behind : Bytes) :
    Clear (IsBoundary (lf :: delimiter boundary)) part.lfContent
      (lf :: delimiter boundary ++ behind) := by
  have header := clear_boundary_intercalate noLf part.dispositionLine
    part.furtherLines (allowed.line _ List.mem_cons_self).2.1
    (fun line member => ⟨allowed.line_noLf line member,
      allowed.not_delimiter line member⟩)
    (part.data ++ (lf :: delimiter boundary ++ behind))
  have blank : ¬ IsBoundary (lf :: delimiter boundary)
      (lf :: (lf :: part.data ++ (lf :: delimiter boundary ++ behind))) := by
    intro isBoundary
    have dash := (List.cons_prefix_cons.mp isBoundary.1).2
    rw [delimiter_eq, List.cons_append, List.cons_prefix_cons] at dash
    exact absurd dash.1 (by decide)
  have data : Clear (IsBoundary (lf :: delimiter boundary)) (lf :: part.data)
      (lf :: (delimiter boundary ++ behind)) :=
    (clear_of_not_infix_cons noLf allowed.data_clear).mono
      fun _ isBoundary => isBoundary.1
  rw [UploadPart.lfContent, clear_append]
  exact ⟨by rwa [List.append_assoc], blank, data⟩

/-! ## The loop -/

theorem getLast?_lfContent (allowed : LfPart boundary part) :
    part.lfContent.getLast? ≠ some cr := by
  have data := allowed.data_noCr
  rw [UploadPart.lfContent, k2LF, List.getLast?_append, List.getLast?_append]
  cases last : part.data.getLast? with
  | none => exact (by decide : (some lf : Option UInt8) ≠ some cr)
  | some c =>
      rw [last] at data
      simpa using data

theorem parseParts_lfPart (noLf : lf ∉ delimiter boundary)
    (allowed : LfPart boundary part) {behind : Bytes}
    (follows : mayFollowBoundary behind = true) (map : PartMap) :
    parseParts (delimiter boundary) (part.lfContent ++
      (lf :: delimiter boundary ++ behind)) map =
        if (skipBoundarySuffix behind).2 = true then
          storePart map (parsePart part.lfContent)
        else
          parseParts (delimiter boundary) (skipBoundarySuffix behind).1
            (storePart map (parsePart part.lfContent)) := by
  rw [parseParts_of_clear (clear_boundary_lfPart noLf allowed behind) follows,
    dropCr_of_getLast? (getLast?_lfContent allowed)]

/-- From behind a boundary on, by induction on the parts. -/
theorem parseParts_behindLf (noLf : lf ∉ delimiter boundary) (epilogue : Bytes)
    {parts : List UploadPart}
    (allowed : ∀ part ∈ parts, LfPart boundary part) (map : PartMap) :
    (if (skipBoundarySuffix
        (behindLfBoundary boundary epilogue parts)).2 = true then map
      else parseParts (delimiter boundary) (skipBoundarySuffix
        (behindLfBoundary boundary epilogue parts)).1 map) =
      (parts.map fun part => parsePart part.lfContent).foldl storePart map := by
  induction parts generalizing map with
  | nil => rfl
  | cons part rest ih =>
      have first := allowed part List.mem_cons_self
      have line (p : Bytes) : skipBoundarySuffix (lf :: p) = (p, false) := rfl
      have follows : mayFollowBoundary
          (behindLfBoundary boundary epilogue rest) = true := by
        cases rest <;> rfl
      rw [behindLfBoundary, line, if_neg Bool.false_ne_true,
        parseParts_lfPart noLf first follows, ih fun other member =>
          allowed other (List.mem_cons_of_mem _ member)]
      rfl

theorem parse_encodeLf {contentType preamble epilogue : Bytes}
    {parts : List UploadPart} (type : extractBoundary contentType = boundary)
    (nonempty : boundary ≠ []) (noLf : lf ∉ boundary)
    (ends : preamble = [] ∨ [lf] <:+ preamble)
    (clear : ¬ delimiter boundary <:+: preamble)
    (allowed : ∀ part ∈ parts, LfPart boundary part) :
    parse (encodeLf boundary preamble epilogue parts) contentType =
      (parts.map fun part => parsePart part.lfContent).foldl storePart ∅ := by
  have delimiterNoLf : lf ∉ delimiter boundary := by
    have notDash : lf ≠ 45 := by decide
    simp [delimiter_eq, notDash, noLf]
  have found : search (delimiter boundary) (preamble ++
      (delimiter boundary ++ behindLfBoundary boundary epilogue parts)) =
        some preamble.length :=
    search_of_clear (clear_preamble delimiterNoLf ends clear _)
  have after : (preamble ++ (delimiter boundary ++
      behindLfBoundary boundary epilogue parts)).drop
        (preamble.length + (delimiter boundary).length) =
          behindLfBoundary boundary epilogue parts := by
    rw [← List.drop_drop, List.drop_left, List.drop_left]
  rw [parse, type]
  dsimp only
  rw [if_neg nonempty, encodeLf_eq, ← delimiter, found]
  dsimp only
  rw [after]
  exact parseParts_behindLf delimiterNoLf epilogue allowed ∅

/-! ## The blank line -/

/-- A line without a carriage return at its end does not begin a CRLF. -/
theorem clear_crlf_line {line : Bytes} (noLf : lf ∉ line)
    (noCr : line.getLast? ≠ some cr) (back : Bytes) :
    Clear (k2CRLF <+: ·) line back := by
  induction line with
  | nil => exact trivial
  | cons c line ih =>
      rw [List.mem_cons, not_or] at noLf
      cases line with
      | nil =>
          refine ⟨fun occurs => ?_, trivial⟩
          exact noCr (by rw [← (List.cons_prefix_cons.mp occurs).1]; rfl)
      | cons d line =>
          refine ⟨fun occurs => ?_, ih noLf.2 (by simpa using noCr)⟩
          have second :=
            (List.cons_prefix_cons.mp (List.cons_prefix_cons.mp occurs).2).1
          exact noLf.2 (second ▸ List.mem_cons_self)

theorem clear_crlf_intercalate {lines : List Bytes}
    (each : ∀ line ∈ lines, lf ∉ line ∧ line.getLast? ≠ some cr)
    (back : Bytes) : Clear (k2CRLF <+: ·) ([lf].intercalate lines) back := by
  induction lines with
  | nil => exact trivial
  | cons line rest ih =>
      have first := each line List.mem_cons_self
      cases rest with
      | nil =>
          rw [List.intercalate_singleton]
          exact clear_crlf_line first.1 first.2 back
      | cons next rest =>
          have notCr : ¬ cr = lf := by decide
          rw [List.intercalate_cons_cons, List.append_assoc, clear_append]
          refine ⟨clear_crlf_line first.1 first.2 _, ?_, ih fun other member =>
            each other (List.mem_cons_of_mem _ member)⟩
          exact fun occurs => notCr (List.cons_prefix_cons.mp occurs).1

/-- The lines and the blank line have no CRLF. -/
theorem clear_crlf_lfContent (allowed : LfPart boundary part) :
    Clear (k2CRLF <+: ·) ([lf].intercalate part.lines ++ k2LF) part.data := by
  have notCr : ¬ cr = lf := by decide
  rw [clear_append]
  refine ⟨clear_crlf_intercalate (fun line member =>
    ⟨(allowed.line line member).2.1, (allowed.line line member).2.2⟩) _, ?_⟩
  exact ⟨fun occurs => notCr (List.cons_prefix_cons.mp occurs).1,
    fun occurs => notCr (List.cons_prefix_cons.mp occurs).1, trivial⟩

/-- Two line feeds are not found before the blank line. -/
theorem clear_k2LF_intercalate {lines : List Bytes}
    (each : ∀ line ∈ lines, line ≠ [] ∧ lf ∉ line) (data : Bytes) :
    Clear (k2LF <+: ·) ([lf].intercalate lines) (k2LF ++ data) := by
  have clearLine {line : Bytes} (noLf : lf ∉ line) (back : Bytes) :
      Clear (k2LF <+: ·) line back := by
    refine clear_of_forall fun c member rest occurs => noLf ?_
    rw [(List.cons_prefix_cons.mp occurs).1]
    exact member
  induction lines with
  | nil => exact trivial
  | cons line rest ih =>
      have first := each line List.mem_cons_self
      cases rest with
      | nil =>
          rw [List.intercalate_singleton]
          exact clearLine first.2 _
      | cons next rest =>
          have second := each next (List.mem_cons_of_mem _ List.mem_cons_self)
          rw [List.intercalate_cons_cons, List.append_assoc, clear_append]
          refine ⟨clearLine first.2 _, ?_, ih fun other member =>
            each other (List.mem_cons_of_mem _ member)⟩
          intro occurs
          -- Behind this line end stands the next line, not another one.
          obtain ⟨back, follows⟩ := intercalate_append next rest data
          have both : [lf] <+: [lf].intercalate (next :: rest) ++
              (k2LF ++ data) := (List.cons_prefix_cons.mp occurs).2
          rw [follows] at both
          cases next with
          | nil => exact second.1 rfl
          | cons c next =>
              have same := (List.cons_prefix_cons.mp both).1
              exact second.2 (same ▸ List.mem_cons_self)

/-! ## What is read back -/

/-- Without a blank CRLF line in its data a part is read back. -/
theorem parsePart_lfContent (allowed : LfPart boundary part)
    (noSeparator : ¬ k2CRLF <:+: part.data) :
    (parsePart part.lfContent).name = part.name ∧
      (parsePart part.lfContent).data = part.data := by
  have noCrlf : search k2CRLF part.lfContent = none := by
    rw [search_eq_none_iff, UploadPart.lfContent, ← List.append_assoc]
    exact not_infix_append_of_clear (clear_crlf_lfContent allowed) noSeparator
  have found : search k2LF part.lfContent =
      some ([lf].intercalate part.lines).length :=
    search_of_clear (clear_k2LF_intercalate (fun line member =>
      ⟨(allowed.line line member).1, (allowed.line line member).2.1⟩) part.data)
  have behind : part.lfContent.drop
      (([lf].intercalate part.lines).length + 2) = part.data := by
    rw [UploadPart.lfContent, ← List.drop_drop, List.drop_left]
    rfl
  have front : part.lfContent.take ([lf].intercalate part.lines).length =
      [lf].intercalate part.lines := List.take_left
  have named : (parseHeader {} part.dispositionLine).name = part.name := by
    rw [parseHeader_dispositionLine]
    exact UploadPart.extractQuoted_name allowed.name_noQuote
  simp only [parsePart, splitPart, noCrlf, found, behind, front, and_true]
  rw [foldl_getlines_eq_splitOn, List.splitOn_intercalate lf
    (fun line member => (allowed.line line member).2.1) (List.cons_ne_nil _ _),
    UploadPart.lines, List.foldl_cons,
    (foldl_parseHeader_keeps _ allowed.not_disposition).1, named]

/-- With one the data that is read back is shorter. -/
theorem parsePart_lfContent_shorter (allowed : LfPart boundary part)
    (separator : k2CRLF <:+: part.data) :
    (parsePart part.lfContent).data.length < part.data.length := by
  have occurs : k2CRLF <:+: part.lfContent := by
    rw [UploadPart.lfContent, ← List.append_assoc]
    exact separator.trans (List.suffix_append _ _).isInfix
  obtain ⟨sep, found⟩ :=
    Option.isSome_iff_exists.mp (search_isSome_iff.mpr occurs)
  have within := search_length_le found
  have late : ([lf].intercalate part.lines ++ k2LF).length ≤ sep := by
    by_contra early
    have clear := clear_crlf_lfContent allowed
    have first := (search_eq_some_iff.mp found).2.1
    rw [UploadPart.lfContent, ← List.append_assoc] at first
    exact clear_iff.mp clear sep (by omega) first
  simp only [parsePart, splitPart, found]
  rw [UploadPart.lfContent, ← List.append_assoc] at within ⊢
  rw [List.length_drop]
  simp only [List.length_append, k2CRLF, k2LF, List.length_cons,
    List.length_nil] at within late ⊢
  omega

/-- The parts are all read back exactly if no data has a blank line that ends in
CRLF. -/
theorem decoded_encodeLf_iff {contentType preamble epilogue : Bytes}
    {parts : List UploadPart} (type : extractBoundary contentType = boundary)
    (nonempty : boundary ≠ []) (noLf : lf ∉ boundary)
    (ends : preamble = [] ∨ [lf] <:+ preamble)
    (clear : ¬ delimiter boundary <:+: preamble)
    (allowed : ∀ part ∈ parts, LfPart boundary part)
    (distinct : (parts.map UploadPart.name).Nodup) :
    Decoded (parse (encodeLf boundary preamble epilogue parts) contentType)
        parts ↔
      ∀ part ∈ parts, ¬ k2CRLF <:+: part.data := by
  rw [parse_encodeLf type nonempty noLf ends clear allowed]
  constructor
  · intro decoded
    by_contra separated
    push Not at separated
    classical
    -- Of the parts with a blank CRLF line take one with the longest data.
    let bad := parts.toFinset.filter fun part => k2CRLF <:+: part.data
    have someBad : bad.Nonempty := by
      obtain ⟨part, member, separator⟩ := separated
      exact ⟨part, by simp [bad, member, separator]⟩
    obtain ⟨part, inBad, longest⟩ :=
      bad.exists_max_image (fun part => part.data.length) someBad
    obtain ⟨member, separator⟩ : part ∈ parts ∧ k2CRLF <:+: part.data := by
      simpa [bad] using inBad
    obtain ⟨formPart, found, name, data⟩ := decoded part member
    rcases exists_of_lookup_foldl_storePart found with nowhere | ⟨formed, _⟩
    · simp at nowhere
    obtain ⟨other, otherMember, rfl⟩ := List.mem_map.mp formed
    by_cases otherBad : k2CRLF <:+: other.data
    · have shorter := parsePart_lfContent_shorter (allowed other otherMember)
        otherBad
      have bound := longest other (by simp [bad, otherMember, otherBad])
      rw [data] at shorter
      omega
    · have otherName :=
        (parsePart_lfContent (allowed other otherMember) otherBad).1
      have same := List.inj_on_of_nodup_map distinct otherMember member
        (otherName.symm.trans name)
      exact otherBad (same ▸ separator)
  · intro plain part member
    have read : ∀ other ∈ parts,
        (parsePart other.lfContent).name = other.name ∧
          (parsePart other.lfContent).data = other.data :=
      fun other inParts =>
        parsePart_lfContent (allowed other inParts) (plain other inParts)
    obtain ⟨front, back, split⟩ := List.mem_iff_append.mp member
    have last : part.name ∉ back.map UploadPart.name := by
      rw [split, List.map_append, List.map_cons, List.nodup_append,
        List.nodup_cons] at distinct
      exact distinct.2.1.1
    exact ⟨parsePart part.lfContent,
      lookup_stored (fun other inParts => (read other inParts).1) split
        (allowed part member).name_ne last, read part member⟩

/-- A part that has nothing but a name and data. -/
def barePart (name data : Bytes) : UploadPart where
  name := name
  filename := none
  contentType := none
  headers := []
  data := data

theorem lfPart_barePart {name data : Bytes} (named : name ≠ [])
    (noQuote : 34 ∉ name) (noLf : lf ∉ name) (noCr : data.getLast? ≠ some cr)
    (clear : ¬ lf :: delimiter boundary <:+: lf :: data) :
    LfPart boundary (barePart name data) where
  name_ne := named
  name_noQuote := noQuote
  name_noLf := noLf
  filename_noLf := by rintro _ ⟨⟩
  line_noLf := by rintro _ ⟨⟩
  line_noCr := by rintro _ ⟨⟩
  not_disposition := by rintro _ ⟨⟩
  not_delimiter := by rintro _ ⟨⟩
  data_noCr := noCr
  data_clear := clear

def bareParts : List UploadPart :=
  [barePart (ascii "a") (ascii "one"), barePart (ascii "b") [lf, lf, 0]]

theorem lfPart_bareParts : ∀ part ∈ bareParts, LfPart (ascii "B") part := by
  intro part member
  simp only [bareParts, List.mem_cons, List.not_mem_nil, or_false] at member
  rcases member with rfl | rfl
  · exact lfPart_barePart (by decide) (by decide) (by decide) (by decide)
      (search_eq_none_iff.mp (by decide))
  · exact lfPart_barePart (by decide) (by decide) (by decide) (by decide)
      (search_eq_none_iff.mp (by decide))

/-- Two line feeds in the data do no harm. -/
theorem decoded_encodeLf_bareParts :
    Decoded (parse (encodeLf (ascii "B") [] [lf] bareParts)
      (multipartType (ascii "B"))) bareParts := by
  refine (decoded_encodeLf_iff (extractBoundary_multipartType boundaryAllowed_B)
    (by decide) (by decide) (.inl rfl) (search_eq_none_iff.mp (by decide))
    lfPart_bareParts (by decide)).mpr ?_
  intro part member
  simp only [bareParts, List.mem_cons, List.not_mem_nil, or_false] at member
  rcases member with rfl | rfl
  · exact search_eq_none_iff.mp (by decide)
  · exact search_eq_none_iff.mp (by decide)

/-- Of this value only the last byte comes back. -/
theorem not_decoded_encodeLf :
    ¬ ∀ (boundary contentType preamble epilogue : Bytes)
      (parts : List UploadPart),
      extractBoundary contentType = boundary → boundary ≠ [] →
      lf ∉ boundary → preamble = [] ∨ [lf] <:+ preamble →
      ¬ delimiter boundary <:+: preamble →
      (∀ part ∈ parts, LfPart boundary part) →
      (parts.map UploadPart.name).Nodup →
      Decoded (parse (encodeLf boundary preamble epilogue parts) contentType)
        parts := by
  intro always
  let part := barePart (ascii "n") [97, cr, lf, cr, lf, 98]
  have decoded := always (ascii "B") (multipartType (ascii "B")) [] [lf] [part]
    (extractBoundary_multipartType boundaryAllowed_B) (by decide) (by decide)
    (.inl rfl) (search_eq_none_iff.mp (by decide)) (by
      intro other member
      rw [List.mem_singleton.mp member]
      exact lfPart_barePart (by decide) (by decide) (by decide) (by decide)
        (search_eq_none_iff.mp (by decide)))
    (List.nodup_singleton _)
  obtain ⟨formPart, stored, _, data⟩ := decoded part List.mem_cons_self
  have short : ((parse (encodeLf (ascii "B") [] [lf] [part])
      (multipartType (ascii "B"))).lookup part.name).map FormPart.data =
        some [98] := by
    decide +kernel
  rw [stored, Option.map_some, Option.some.injEq, data] at short
  exact absurd short (by decide)

end MultiFormParser

end KitMuduo
