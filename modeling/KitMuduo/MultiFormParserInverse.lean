import KitMuduo.MultiFormLoop

/-!
# The multipart parser inverts the encoding

The loop finds the boundaries the client wrote and no others, and takes up each
part as it was written.
-/

namespace KitMuduo

open ListSearch

namespace MultiFormParser

variable {boundary : Bytes}

/-- What stands between two boundaries without the line ends around it. -/
def UploadPart.content (part : UploadPart) : Bytes :=
  joinLines part.lines ++ (k2CRLF ++ part.data)

/-- What stands behind a boundary, a further part or the end. -/
def behindBoundary (boundary epilogue : Bytes) : List UploadPart → Bytes
  | [] => 45 :: 45 :: epilogue
  | part :: rest =>
      crlf ++ (part.content ++ [cr] ++
        (lf :: delimiter boundary ++ behindBoundary boundary epilogue rest))

theorem encodePart_append (boundary behind : Bytes) (part : UploadPart) :
    encodePart boundary part ++ (delimiter boundary ++ behind) =
      delimiter boundary ++ (crlf ++ (part.content ++ [cr] ++
        (lf :: delimiter boundary ++ behind))) := by
  have lines : part.lines.flatMap (· ++ crlf) = joinLines part.lines ++ crlf :=
    flatMap_crlf (List.cons_ne_nil _ _)
  rw [encodePart, lines, UploadPart.content]
  simp only [k2CRLF, crlf, List.append_assoc, List.cons_append,
    List.nil_append]

theorem encode_eq (boundary preamble epilogue : Bytes)
    (parts : List UploadPart) :
    encode boundary preamble epilogue parts = preamble ++
      (delimiter boundary ++ behindBoundary boundary epilogue parts) := by
  have dashes : ascii "--" = [45, 45] := by
    decide
  have body : parts.flatMap (encodePart boundary) ++
      (delimiter boundary ++ (45 :: 45 :: epilogue)) =
        delimiter boundary ++ behindBoundary boundary epilogue parts := by
    induction parts with
    | nil => rfl
    | cons part rest ih =>
        rw [List.flatMap_cons, List.append_assoc, ih, encodePart_append]
        rfl
  rw [encode, dashes, ← body]
  simp only [List.append_assoc, List.cons_append, List.nil_append]

/-! ## The bytes of a boundary -/

theorem delimiter_eq (boundary : Bytes) :
    delimiter boundary = 45 :: 45 :: boundary := by
  have dashes : ascii "--" = [45, 45] := by
    decide
  rw [delimiter, dashes]
  rfl

theorem BoundaryAllowed.cr_not_mem (allowed : BoundaryAllowed boundary) :
    cr ∉ delimiter boundary := by
  have different : cr ≠ 45 := by decide
  simp [delimiter_eq, different, allowed.noCr]

theorem BoundaryAllowed.lf_not_mem (allowed : BoundaryAllowed boundary) :
    lf ∉ delimiter boundary := by
  have different : lf ≠ 45 := by decide
  simp [delimiter_eq, different, allowed.noLf]

/-- A boundary begins with a line feed. -/
theorem not_isBoundary_cons {c : UInt8} {pattern rest : Bytes} (other : c ≠ lf) :
    ¬ IsBoundary (lf :: pattern) (c :: rest) := by
  intro isBoundary
  exact other (List.cons_prefix_cons.mp isBoundary.1).1.symm

/-! ## No boundary inside a part -/

/-- The line can not be taken for a boundary line. -/
def NotDelimiterLine (boundary line : Bytes) : Prop :=
  ∀ c, isValidBoundarySuffixChar c = true →
    ¬ delimiter boundary ++ [c] <+: line ++ [cr]

theorem not_isBoundary_line (allowed : BoundaryAllowed boundary)
    {line : Bytes} (notDelimiter : NotDelimiterLine boundary line)
    (back : Bytes) :
    ¬ IsBoundary (lf :: delimiter boundary) (lf :: (line ++ cr :: back)) := by
  rintro ⟨occurs, follows⟩
  have inLine : delimiter boundary <+: line :=
    prefix_of_not_mem allowed.cr_not_mem (List.cons_prefix_cons.mp occurs).2
  obtain ⟨rest, rfl⟩ := inLine
  rw [List.length_cons, List.drop_succ_cons, List.append_assoc,
    List.drop_left] at follows
  cases rest with
  | nil =>
      apply notDelimiter cr follows
      rw [List.append_nil]
  | cons c rest =>
      apply notDelimiter c follows
      rw [List.append_assoc]
      exact (List.prefix_append_right_inj _).mpr
        (List.cons_prefix_cons.mpr ⟨rfl, List.nil_prefix⟩)

theorem clear_boundary_line {line : Bytes} (noLf : lf ∉ line)
    (pattern back : Bytes) :
    Clear (IsBoundary (lf :: pattern)) line back := by
  refine clear_of_forall fun c member rest => not_isBoundary_cons ?_
  rintro rfl
  exact noLf member

/-- Nowhere in the header section begins a boundary. -/
theorem clear_boundary_joinLines (allowed : BoundaryAllowed boundary)
    (first : Bytes) (further : List Bytes) (noLf : lf ∉ first)
    (each : ∀ line ∈ further, lf ∉ line ∧ NotDelimiterLine boundary line)
    (data : Bytes) :
    Clear (IsBoundary (lf :: delimiter boundary))
      (joinLines (first :: further)) (k2CRLF ++ data) := by
  induction further generalizing first with
  | nil => exact clear_boundary_line noLf _ _
  | cons next rest ih =>
      obtain ⟨nextNoLf, notDelimiter⟩ := each next List.mem_cons_self
      have later := ih next nextNoLf fun line member =>
        each line (List.mem_cons_of_mem _ member)
      rw [joinLines_cons_cons, List.append_assoc, clear_append]
      refine ⟨clear_boundary_line noLf _ _, ?_, ?_, later⟩
      · exact not_isBoundary_cons (by decide)
      · obtain ⟨back, follows⟩ := joinLines_append next rest data
        have line := not_isBoundary_line allowed notDelimiter back
        rw [← follows] at line
        exact line

/-- Nowhere in the data begins a boundary, nor at the line end in front of
it. -/
theorem clear_boundary_data {data : Bytes} (allowed : DataAllowed boundary data)
    (behind : Bytes) :
    Clear (IsBoundary (lf :: delimiter boundary)) (lf :: data ++ [cr])
      (lf :: delimiter boundary ++ behind) := by
  rw [clear_iff]
  intro position before isBoundary
  let text := lf :: data ++ crlf ++ delimiter boundary
  have whole : lf :: data ++ [cr] ++ (lf :: delimiter boundary ++ behind) =
      text ++ behind := by
    simp [text, crlf]
  have length : text.length =
      data.length + 2 + (lf :: delimiter boundary).length := by
    simp [text, crlf]
    omega
  have early : position < data.length + 2 := by
    rwa [List.length_append, List.length_cons, List.length_singleton] at before
  rw [whole, List.drop_append_of_le_length (by omega)] at isBoundary
  obtain ⟨occurs, follows⟩ := isBoundary
  have within : (lf :: delimiter boundary) <+: text.drop position := by
    apply List.prefix_of_prefix_length_le occurs (List.prefix_append _ _)
    rw [List.length_drop]
    omega
  obtain ⟨c, rest, next, notCr, notLf, notDash, notSpace, notTab⟩ :=
    allowed position early within
  have reaches : (lf :: delimiter boundary).length ≤
      (text.drop position).length := by
    rw [List.length_drop]
    omega
  have byte : (text.drop position).drop (lf :: delimiter boundary).length =
      c :: rest := by
    rw [List.drop_drop]
    exact next
  rw [List.drop_append_of_le_length reaches, byte] at follows
  simp [mayFollowBoundary, isValidBoundarySuffixChar, notCr, notLf, notDash,
    notSpace, notTab] at follows

theorem notDelimiterLine_furtherLines {part : UploadPart}
    (allowed : PartAllowed boundary part) (lines : LinesAllowed boundary part) :
    ∀ line ∈ part.furtherLines,
      lf ∉ line ∧ NotDelimiterLine boundary line := by
  intro line member
  have isLine := headerLine_of_mem_lines allowed lines line
    (List.mem_cons_of_mem _ member)
  refine ⟨isLine.noLf, fun c valid occurs => ?_⟩
  rw [UploadPart.furtherLines, List.mem_append] at member
  rcases member with type | field
  · obtain ⟨contentType, _, rfl⟩ := List.mem_map.mp type
    have letter : ascii "Content-Type: " = 67 :: ascii "ontent-Type: " := by
      decide
    rw [delimiter_eq, UploadPart.contentTypeLine, letter, List.cons_append,
      List.cons_append, List.cons_append, List.cons_append,
      List.cons_prefix_cons] at occurs
    exact absurd occurs.1 (by decide)
  · obtain ⟨header, known, rfl⟩ := List.mem_map.mp field
    simp only [isValidBoundarySuffixChar, decide_eq_true_eq] at valid
    refine (lines.header header known).not_delimiter c ?_ occurs
    rcases valid with isCr | rfl | others
    · exact Or.inl isCr
    · have inLine : lf ∈ UploadPart.headerLine header ++ [cr] :=
        occurs.subset (List.mem_append_right _ List.mem_cons_self)
      rcases List.mem_append.mp inLine with inside | atEnd
      · exact absurd inside isLine.noLf
      · exact absurd (List.mem_singleton.mp atEnd) (by decide)
    · exact Or.inr others

theorem clear_boundary_part (bounds : BoundaryAllowed boundary)
    {part : UploadPart} (allowed : PartAllowed boundary part)
    (lines : LinesAllowed boundary part) (behind : Bytes) :
    Clear (IsBoundary (lf :: delimiter boundary)) (part.content ++ [cr])
      (lf :: delimiter boundary ++ behind) := by
  have header := clear_boundary_joinLines bounds part.dispositionLine
    part.furtherLines
    (headerLine_disposition allowed.name allowed.filename).noLf
    (notDelimiterLine_furtherLines allowed lines)
    (part.data ++ [cr] ++ (lf :: delimiter boundary ++ behind))
  have blank : Clear (IsBoundary (lf :: delimiter boundary)) [cr, lf, cr]
      (lf :: part.data ++ [cr] ++ (lf :: delimiter boundary ++ behind)) := by
    refine ⟨not_isBoundary_cons (by decide), ?_,
      not_isBoundary_cons (by decide), trivial⟩
    intro isBoundary
    have dash := (List.cons_prefix_cons.mp isBoundary.1).2
    rw [delimiter_eq, List.cons_append, List.cons_prefix_cons] at dash
    exact absurd dash.1 (by decide)
  have parts : part.content ++ [cr] = joinLines part.lines ++
      ([cr, lf, cr] ++ (lf :: part.data ++ [cr])) := by
    simp [UploadPart.content, k2CRLF]
  rw [parts, clear_append, clear_append]
  refine ⟨?_, blank, clear_boundary_data allowed.data behind⟩
  have same : [cr, lf, cr] ++ (lf :: part.data ++ [cr]) ++
      (lf :: delimiter boundary ++ behind) = k2CRLF ++
        (part.data ++ [cr] ++ (lf :: delimiter boundary ++ behind)) := by
    simp [k2CRLF]
  rw [same]
  exact header

/-! ## The loop -/

theorem skipBoundarySuffix_crlf (rest : Bytes) :
    skipBoundarySuffix (crlf ++ rest) = (rest, false) := rfl

theorem skipBoundarySuffix_dashes (rest : Bytes) :
    (skipBoundarySuffix (45 :: 45 :: rest)).2 = true := rfl

/-- One turn of the loop takes up one part. -/
theorem parseParts_part (bounds : BoundaryAllowed boundary) {part : UploadPart}
    (allowed : PartAllowed boundary part) (lines : LinesAllowed boundary part)
    {behind : Bytes} (follows : mayFollowBoundary behind = true)
    (map : PartMap) :
    parseParts (delimiter boundary) (part.content ++ [cr] ++
      (lf :: delimiter boundary ++ behind)) map =
        if (skipBoundarySuffix behind).2 = true then
          storePart map part.formPart
        else
          parseParts (delimiter boundary) (skipBoundarySuffix behind).1
            (storePart map part.formPart) := by
  have content : parsePart part.content = part.formPart :=
    parsePart_lines allowed lines
  rw [parseParts_of_clear (clear_boundary_part bounds allowed lines behind)
    follows, dropCr_concat, content]

/-- The loop takes up one part after another; by induction on the parts behind
the first. -/
theorem parseParts_behind (bounds : BoundaryAllowed boundary)
    (epilogue : Bytes) {part : UploadPart} {rest : List UploadPart}
    (allowed : ∀ other ∈ part :: rest, PartAllowed boundary other)
    (lines : ∀ other ∈ part :: rest, LinesAllowed boundary other)
    (map : PartMap) :
    parseParts (delimiter boundary) (part.content ++ [cr] ++
      (lf :: delimiter boundary ++ behindBoundary boundary epilogue rest)) map =
        ((part :: rest).map UploadPart.formPart).foldl storePart map := by
  have first := allowed part List.mem_cons_self
  have firstLines := lines part List.mem_cons_self
  induction rest generalizing part map with
  | nil =>
      rw [parseParts_part bounds first firstLines (by rfl), behindBoundary,
        if_pos (skipBoundarySuffix_dashes epilogue)]
      rfl
  | cons next rest ih =>
      rw [parseParts_part bounds first firstLines (by rfl), behindBoundary,
        skipBoundarySuffix_crlf, if_neg Bool.false_ne_true]
      dsimp only
      have allowedRest : ∀ other ∈ next :: rest, PartAllowed boundary other :=
        fun other member => allowed other (List.mem_cons_of_mem _ member)
      have linesRest : ∀ other ∈ next :: rest, LinesAllowed boundary other :=
        fun other member => lines other (List.mem_cons_of_mem _ member)
      rw [ih allowedRest linesRest _ (allowedRest next List.mem_cons_self)
        (linesRest next List.mem_cons_self)]
      rfl

/-! ## The boundary of the content type, and the first boundary -/

theorem extractBoundary_multipartType (bounds : BoundaryAllowed boundary) :
    extractBoundary (multipartType boundary) = boundary := by
  have split : ascii "multipart/form-data; boundary=" =
      ascii "multipart/form-data; " ++ ascii "boundary=" := by
    decide
  have key : ascii "boundary=" = ascii "boundary" ++ 61 :: [] := by
    decide
  have found : search (ascii "boundary=") (ascii "multipart/form-data; " ++
      (ascii "boundary=" ++ boundary)) =
        some (ascii "multipart/form-data; ").length := by
    refine search_of_clear ?_
    rw [key, List.append_assoc]
    exact clear_of_key (by decide) (by decide)
  have length : (ascii "boundary=").length = 9 := by
    decide
  have behind : (ascii "multipart/form-data; " ++
      (ascii "boundary=" ++ boundary)).drop
        ((ascii "multipart/form-data; ").length + 9) = boundary := by
    rw [← List.drop_drop, List.drop_left, ← length, List.drop_left]
  have noEnd : search [59] boundary = none :=
    search_eq_none_of_not_mem bounds.noSemicolon
  rw [multipartType, split, List.append_assoc, extractBoundary, found]
  dsimp only
  rw [behind]
  split
  next empty => exact absurd rfl bounds.nonempty
  next quoted => exact absurd List.mem_cons_self bounds.noQuote
  next => rw [noEnd]; exact trim_of_trimmed bounds.trimmed

/-- In front of the first delimiter line none begins. -/
theorem clear_preamble (noLf : lf ∉ delimiter boundary) {preamble : Bytes}
    (ends : preamble = [] ∨ [lf] <:+ preamble)
    (clear : ¬ delimiter boundary <:+: preamble) (back : Bytes) :
    Clear (delimiter boundary <+: ·) preamble back := by
  rcases ends with rfl | ⟨front, rfl⟩
  · exact trivial
  · refine clear_of_not_infix noLf fun occurs => clear ?_
    exact occurs.trans (List.prefix_append front [lf]).isInfix

theorem PreambleAllowed.ends_lf {preamble : Bytes}
    (allowed : PreambleAllowed boundary preamble) :
    preamble = [] ∨ [lf] <:+ preamble :=
  allowed.ends.imp_right (List.suffix_append [cr] [lf]).trans

/-- Parsing the encoding stores the parts in their order. -/
theorem parse_encode_eq (bounds : BoundaryAllowed boundary)
    {preamble : Bytes} (before : PreambleAllowed boundary preamble)
    (epilogue : Bytes) {parts : List UploadPart}
    (allowed : ∀ part ∈ parts, PartAllowed boundary part)
    (lines : ∀ part ∈ parts, LinesAllowed boundary part) :
    parse (encode boundary preamble epilogue parts) (multipartType boundary) =
      (parts.map UploadPart.formPart).foldl storePart ∅ := by
  have found : search (delimiter boundary) (preamble ++
      (delimiter boundary ++ behindBoundary boundary epilogue parts)) =
        some preamble.length :=
    search_of_clear
      (clear_preamble bounds.lf_not_mem before.ends_lf before.clear _)
  have after : (preamble ++ (delimiter boundary ++
      behindBoundary boundary epilogue parts)).drop
        (preamble.length + (delimiter boundary).length) =
          behindBoundary boundary epilogue parts := by
    rw [← List.drop_drop, List.drop_left, List.drop_left]
  rw [parse, extractBoundary_multipartType bounds]
  dsimp only
  rw [if_neg bounds.nonempty, encode_eq, ← delimiter, found]
  dsimp only
  rw [after]
  cases parts with
  | nil =>
      rw [behindBoundary, if_pos (skipBoundarySuffix_dashes epilogue)]
      rfl
  | cons part rest =>
      rw [behindBoundary, skipBoundarySuffix_crlf, if_neg Bool.false_ne_true]
      exact parseParts_behind bounds epilogue allowed lines ∅

/-! ## The map -/

/-- The parser inverts the encoding of parts whose header lines are lines of
their own and no boundary lines. -/
theorem parse_encode {boundary preamble epilogue : Bytes}
    {parts : List UploadPart} (bounds : BoundaryAllowed boundary)
    (before : PreambleAllowed boundary preamble)
    (allowed : ∀ part ∈ parts, PartAllowed boundary part)
    (lines : ∀ part ∈ parts, LinesAllowed boundary part) :
    HoldsParts (parse (encode boundary preamble epilogue parts)
      (multipartType boundary)) parts := by
  have named : ∀ part ∈ parts, part.name ≠ [] :=
    fun part member => (allowed part member).name_ne
  rw [parse_encode_eq bounds before epilogue allowed lines]
  constructor
  · intro name
    rw [mem_stored_iff fun _ _ => rfl]
    constructor
    · exact And.right
    · intro member
      obtain ⟨part, inParts, rfl⟩ := List.mem_map.mp member
      exact ⟨named part inParts, member⟩
  · intro front part back split notLater
    have member : part ∈ parts := by
      rw [split]
      exact List.mem_append_right _ List.mem_cons_self
    exact ⟨part.formPart,
      lookup_stored (fun _ _ => rfl) split (named part member) notLater,
      holdsPart_formPart (allowed part member).distinct⟩

/-- A part with a file name, a content type and one header field. -/
def samplePart (fieldName data : Bytes) : UploadPart where
  name := ascii "n"
  filename := some (ascii "f.txt")
  contentType := some (ascii "text/plain")
  headers := [(fieldName, ascii "v")]
  data := data

theorem trimmed_of_ends {s : Bytes}
    (first : s.head?.any isBlank = false)
    (last : s.getLast?.any isBlank = false) : Trimmed s := by
  rintro c (isFirst | isLast)
  · simpa only [Option.mem_def.mp isFirst, Option.any_some] using first
  · simpa only [Option.mem_def.mp isLast, Option.any_some] using last

theorem boundaryAllowed_B : BoundaryAllowed (ascii "B") where
  nonempty := by decide
  noQuote := by decide
  noSemicolon := by decide
  noCr := by decide
  noLf := by decide
  trimmed := trimmed_of_ends (by decide) (by decide)

theorem preambleAllowed_nil (boundary : Bytes) :
    PreambleAllowed boundary [] where
  ends := Or.inl rfl
  clear := by
    rw [delimiter_eq, List.infix_nil]
    exact List.cons_ne_nil _ _

theorem partAllowed_samplePart {fieldName data : Bytes}
    (noColon : 58 ∉ fieldName)
    (noBoundary : ∀ position < data.length + 2,
      ¬ lf :: delimiter (ascii "B") <+:
        (lf :: data ++ crlf ++ delimiter (ascii "B")).drop position) :
    PartAllowed (ascii "B") (samplePart fieldName data) where
  name_ne := (by decide : ascii "n" ≠ [])
  name := (⟨by decide, by decide, by decide,
    by decide⟩ : Quotable (ascii "n"))
  filename := by
    rintro filename ⟨⟩
    exact ⟨by decide, by decide, by decide,
      by decide⟩
  contentType := by
    rintro contentType ⟨⟩
    exact trimmed_of_ends (by decide) (by decide)
  distinct := List.nodup_singleton _
  header := by
    intro header member
    rw [List.mem_singleton.mp member]
    exact ⟨noColon, (trimmed_of_ends (by decide) (by decide) :
      Trimmed (ascii "v"))⟩
  data := fun position before occurs => absurd occurs (noBoundary position before)

theorem linesAllowed_samplePart (data : Bytes) :
    LinesAllowed (ascii "B") (samplePart (ascii "X-Field") data) where
  contentType_noLf := by
    rintro contentType ⟨⟩
    decide
  header := by
    intro header member
    rw [List.mem_singleton.mp member]
    refine ⟨by decide, trimmed_of_ends (by decide)
      (by decide), by decide, by decide,
      by decide, by decide, ?_⟩
    rintro c _ occurs
    have short : delimiter (ascii "B") <+:
        UploadPart.headerLine (ascii "X-Field", ascii "v") ++ [cr] :=
      (List.prefix_append _ _).trans occurs
    exact absurd short (by decide)

/-- Two parts of one name; the second is the one that counts. -/
theorem parse_encode_samplePart :
    HoldsParts (parse (encode (ascii "B") [] (ascii "end")
      [samplePart (ascii "X-Field") (ascii "one"),
        samplePart (ascii "X-Field") [0, 13, 10, 13, 10]])
      (multipartType (ascii "B")))
      [samplePart (ascii "X-Field") (ascii "one"),
        samplePart (ascii "X-Field") [0, 13, 10, 13, 10]] := by
  refine parse_encode boundaryAllowed_B (preambleAllowed_nil _) ?_ ?_
  · intro part member
    rw [List.mem_cons, List.mem_singleton] at member
    rcases member with rfl | rfl
    · exact partAllowed_samplePart (by decide) (by decide)
    · exact partAllowed_samplePart (by decide) (by decide)
  · intro part member
    rw [List.mem_cons, List.mem_singleton] at member
    rcases member with rfl | rfl
    · exact linesAllowed_samplePart _
    · exact linesAllowed_samplePart _

/-- A header field that is called `--B-x` ends the part it stands in. -/
theorem not_parse_encode_boundaryField :
    ¬ ∀ (boundary preamble epilogue : Bytes) (parts : List UploadPart),
      BoundaryAllowed boundary → PreambleAllowed boundary preamble →
      (∀ part ∈ parts, PartAllowed boundary part) →
        HoldsParts (parse (encode boundary preamble epilogue parts)
          (multipartType boundary)) parts := by
  intro always
  let part := samplePart (ascii "--B-x") (ascii "one")
  have holds := always (ascii "B") [] [] [part] boundaryAllowed_B
    (preambleAllowed_nil _) (by
      intro other member
      rw [List.mem_singleton.mp member]
      exact partAllowed_samplePart (by decide) (by decide))
  obtain ⟨formPart, stored, held⟩ :=
    holds.last [] part [] rfl List.not_mem_nil
  have noData : ((parse (encode (ascii "B") [] [] [part])
      (multipartType (ascii "B"))).lookup part.name).map FormPart.data =
        some [] := by
    decide +kernel
  rw [stored, Option.map_some, Option.some.injEq, held.data] at noData
  exact absurd noData (by decide)

end MultiFormParser

end KitMuduo
