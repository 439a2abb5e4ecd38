import KitMuduo.MultiFormEncoding

/-!
# Reading back one part

`parsePart` on the header lines and the data of an uploaded part: where the
header section ends, what the lines are, and what each of them says.
-/

namespace KitMuduo

open ListSearch

namespace MultiFormParser

theorem trim_of_trimmed {s : Bytes} (trimmed : Trimmed s) : trim s = s := by
  have front : s.dropWhile isBlank = s := by
    cases s with
    | nil => rfl
    | cons c s =>
        rw [List.dropWhile_cons_of_neg]
        rw [trimmed c (Or.inl rfl)]
        exact Bool.false_ne_true
  rw [trim, front, List.rdropWhile_eq_self_iff]
  intro nonempty
  rw [trimmed _ (Or.inr (List.getLast?_eq_some_getLast nonempty))]
  exact Bool.false_ne_true

theorem trim_space_cons (s : Bytes) : trim (32 :: s) = trim s := by
  rw [trim, trim, List.dropWhile_cons_of_pos (by decide)]

/-! ## The disposition -/

theorem extractQuoted_of_clear {attr front value back : Bytes}
    (clear : Clear (attr <+: ·) front (attr ++ (value ++ 34 :: back)))
    (noQuote : 34 ∉ value) :
    extractQuoted (front ++ (attr ++ (value ++ 34 :: back))) attr = value := by
  have quote : search [34] (value ++ 34 :: back) = some value.length :=
    search_append_of_not_mem back noQuote
  rw [extractQuoted, search_of_clear clear]
  simp only [← List.drop_drop, List.drop_left, quote, List.take_left]

theorem extractQuoted_eq_nil {attr line : Bytes} (nonempty : attr ≠ [])
    (clear : Clear (attr <+: ·) line []) : extractQuoted line attr = [] := by
  rw [extractQuoted, search_eq_none_of_clear nonempty clear]

/-- The disposition up to its first equals sign. -/
def dispositionKey : Bytes :=
  ascii "Content-Disposition: form-data; name"

theorem noEquals_dispositionKey : 61 ∉ dispositionKey := by
  decide

namespace UploadPart

variable {part : UploadPart}

theorem extractQuoted_name (noQuote : 34 ∉ part.name) :
    extractQuoted part.dispositionLine (ascii "name=\"") = part.name := by
  have attr : ascii "name=\"" = ascii "name" ++ 61 :: [34] := by
    decide
  simp only [dispositionLine, quoted, List.append_assoc, List.singleton_append]
  refine extractQuoted_of_clear ?_ noQuote
  rw [attr, List.append_assoc, List.cons_append]
  exact clear_of_key (by decide) (by decide)

/-- Up to the value of `name` nothing looks like a file name. -/
theorem clear_filename (rest : Bytes) :
    Clear (ascii "filename=\"" <+: ·) (dispositionKey ++ [61]) rest := by
  have attr : ascii "filename=\"" = ascii "filename" ++ 61 :: [34] := by
    decide
  rw [attr]
  exact clear_of_not_suffix (by decide) noEquals_dispositionKey
    (by decide)

theorem extractQuoted_filename (name : Quotable part.name)
    (filename : ∀ filename, part.filename = some filename →
      Quotable filename) :
    extractQuoted part.dispositionLine (ascii "filename=\"") =
      part.filename.getD [] := by
  have split : ascii "Content-Disposition: form-data; " ++ ascii "name=\"" =
      dispositionKey ++ [61] ++ [34] := by
    decide
  have attr : ascii "filename=\"" = ascii "filename" ++ 61 :: [34] := by
    decide
  have line : part.dispositionLine = dispositionKey ++ [61] ++
      (34 :: part.name ++ [34]) ++ filenameAttr part.filename := by
    rw [dispositionLine, quoted, ← List.append_assoc, ← List.append_assoc,
      split]
    simp only [List.append_assoc, List.cons_append, List.nil_append]
  have noEquals : 61 ∉ 34 :: part.name ++ [34] := by
    have different : (61 : UInt8) ≠ 34 := by decide
    simp [different, name.noEquals]
  rw [line]
  cases given : part.filename with
  | none =>
      apply extractQuoted_eq_nil (by decide)
      rw [filenameAttr, List.append_nil, clear_append]
      exact ⟨clear_filename _,
        clear_of_not_mem (attr ▸ List.mem_append_right _ List.mem_cons_self)
          noEquals⟩
  | some value =>
      have front : dispositionKey ++ [61] ++ (34 :: part.name ++ [34]) ++
          (ascii "; " ++ quoted (ascii "filename=\"") value) =
        dispositionKey ++ [61] ++ (34 :: part.name ++ [34] ++ ascii "; ") ++
          (ascii "filename=\"" ++ (value ++ 34 :: [])) := by
        simp only [quoted, List.append_assoc]
      have noEqualsFront : 61 ∉ 34 :: part.name ++ [34] ++ ascii "; " := by
        rw [List.mem_append, not_or]
        exact ⟨noEquals, by decide⟩
      rw [filenameAttr, front]
      refine extractQuoted_of_clear ?_ (filename value given).noQuote
      rw [clear_append]
      refine ⟨clear_filename _, ?_⟩
      have back : ascii "filename=\"" ++ (value ++ [34]) =
          ascii "filename" ++ 61 :: 34 :: (value ++ [34]) := by
        rw [attr, List.append_assoc]
        rfl
      rw [back, attr]
      exact clear_of_key (by decide) noEqualsFront

end UploadPart

/-! ## The header lines -/

/-- A line of a header section. -/
structure HeaderLine (line : Bytes) : Prop where
  nonempty : line ≠ []
  noLf : lf ∉ line
  noCr : line.getLast? ≠ some cr

theorem parseHeader_eq {part : FormPart} {line : Bytes}
    (isLine : HeaderLine line) :
    parseHeader part line =
      if search (ascii "Content-Disposition:") line = some 0 then
        parseContentDisposition line part
      else if search (ascii "Content-Type:") line = some 0 then
        { part with contentType := trim (line.drop 13) }
      else
        parseCustomHeader line part := by
  rw [parseHeader, if_neg isLine.nonempty, if_neg isLine.noCr]

/-- The line end in front of which the line was written does not matter. -/
theorem parseHeader_concat_cr {part : FormPart} {line : Bytes}
    (isLine : HeaderLine line) :
    parseHeader part (line ++ [cr]) = parseHeader part line := by
  have ends : (line ++ [cr]).getLast? = some cr := List.getLast?_concat
  rw [parseHeader_eq isLine, parseHeader, if_neg (by simp), if_pos ends,
    List.dropLast_concat]

/-- Lines that are written one under the other. -/
def joinLines : List Bytes → Bytes
  | [] => []
  | [line] => line
  | line :: rest => line ++ crlf ++ joinLines rest

/-- What `getlines` makes of them: all but the last keep their `\r`. -/
def endedLines : List Bytes → List Bytes
  | [] => []
  | [line] => [line]
  | line :: rest => (line ++ [cr]) :: endedLines rest

theorem joinLines_cons_cons (line next : Bytes) (rest : List Bytes) :
    joinLines (line :: next :: rest) =
      line ++ crlf ++ joinLines (next :: rest) :=
  rfl

theorem endedLines_cons_cons (line next : Bytes) (rest : List Bytes) :
    endedLines (line :: next :: rest) =
      (line ++ [cr]) :: endedLines (next :: rest) :=
  rfl

theorem flatMap_crlf {lines : List Bytes} (nonempty : lines ≠ []) :
    lines.flatMap (· ++ crlf) = joinLines lines ++ crlf := by
  induction lines with
  | nil => exact absurd rfl nonempty
  | cons line rest ih =>
      cases rest with
      | nil => simp [joinLines]
      | cons next rest =>
          rw [List.flatMap_cons, ih (List.cons_ne_nil _ _),
            joinLines_cons_cons, List.append_assoc _ _ crlf]

theorem splitOn_joinLines {lines : List Bytes} (nonempty : lines ≠ [])
    (each : ∀ line ∈ lines, lf ∉ line) :
    (joinLines lines).splitOn lf = endedLines lines := by
  induction lines with
  | nil => exact absurd rfl nonempty
  | cons line rest ih =>
      have first := each line List.mem_cons_self
      cases rest with
      | nil => exact List.splitOn_eq_singleton first
      | cons next rest =>
          have noLf : lf ∉ line ++ [cr] := by
            rw [List.mem_append, not_or]
            exact ⟨first, by decide⟩
          have split : joinLines (line :: next :: rest) =
              (line ++ [cr]) ++ lf :: joinLines (next :: rest) := by
            rw [joinLines_cons_cons, crlf, List.append_assoc, List.append_assoc]
            rfl
          rw [split, List.splitOn_append_cons_self_of_not_mem noLf,
            ih (List.cons_ne_nil _ _) fun other member =>
              each other (List.mem_cons_of_mem _ member)]
          rfl

theorem getLast?_endedLines {lines : List Bytes}
    (each : ∀ line ∈ lines, HeaderLine line) :
    (endedLines lines).getLast? ≠ some [] := by
  induction lines with
  | nil => exact nofun
  | cons line rest ih =>
      cases rest with
      | nil =>
          intro empty
          exact (each line List.mem_cons_self).nonempty (Option.some.inj empty)
      | cons next rest =>
          have later := ih fun other member =>
            each other (List.mem_cons_of_mem _ member)
          rw [endedLines_cons_cons, List.getLast?_cons]
          cases last : (endedLines (next :: rest)).getLast? with
          | none => simp
          | some other =>
              rw [last] at later
              simpa using later

theorem foldl_endedLines {lines : List Bytes} (part : FormPart)
    (each : ∀ line ∈ lines, HeaderLine line) :
    (endedLines lines).foldl parseHeader part =
      lines.foldl parseHeader part := by
  induction lines generalizing part with
  | nil => rfl
  | cons line rest ih =>
      cases rest with
      | nil => rfl
      | cons next rest =>
          have first := each line List.mem_cons_self
          rw [endedLines_cons_cons, List.foldl_cons, List.foldl_cons,
            parseHeader_concat_cr first,
            ih _ fun other member => each other (List.mem_cons_of_mem _ member)]

/-- The lines are read one by one. -/
theorem foldl_getlines {lines : List Bytes} (part : FormPart)
    (nonempty : lines ≠ []) (each : ∀ line ∈ lines, HeaderLine line) :
    (getlines (joinLines lines)).foldl parseHeader part =
      lines.foldl parseHeader part := by
  have noLf : ∀ line ∈ lines, lf ∉ line :=
    fun line member => (each line member).noLf
  rw [getlines, splitOn_joinLines nonempty noLf,
    if_neg (getLast?_endedLines each), foldl_endedLines part each]

/-! ## The end of the header section -/

/-- A line is not blank: it does not begin with a line end. -/
theorem not_crlf_prefix {line : Bytes} (nonempty : line ≠ [])
    (noLf : lf ∉ line) (back : Bytes) : ¬ crlf <+: line ++ cr :: back := by
  intro occurs
  cases line with
  | nil => exact nonempty rfl
  | cons c line =>
      rw [crlf, List.cons_append, List.cons_prefix_cons] at occurs
      cases line with
      | nil =>
          rw [List.nil_append, List.cons_prefix_cons] at occurs
          exact absurd occurs.2.1 (by decide)
      | cons d line =>
          rw [List.cons_append, List.cons_prefix_cons] at occurs
          rw [← occurs.2.1] at noLf
          simp at noLf

/-- No line end begins inside a line. -/
theorem clear_line {line : Bytes} (noLf : lf ∉ line) (back : Bytes) :
    Clear (k2CRLF <+: ·) line (cr :: back) := by
  induction line with
  | nil => exact trivial
  | cons c line ih =>
      refine ⟨fun occurs => ?_, ih fun member =>
        noLf (List.mem_cons_of_mem _ member)⟩
      apply not_crlf_prefix (List.cons_ne_nil c line) noLf back
      exact (List.prefix_append crlf crlf).trans occurs

/-- The first line is followed by a line end. -/
theorem joinLines_append (line : Bytes) (rest : List Bytes) (data : Bytes) :
    ∃ back, joinLines (line :: rest) ++ (k2CRLF ++ data) =
      line ++ cr :: back := by
  cases rest with
  | nil => exact ⟨_, rfl⟩
  | cons next rest =>
      refine ⟨lf :: (joinLines (next :: rest) ++ (k2CRLF ++ data)), ?_⟩
      rw [joinLines_cons_cons, List.append_assoc, List.append_assoc]
      rfl

theorem clear_joinLines {lines : List Bytes} (nonempty : lines ≠ [])
    (each : ∀ line ∈ lines, line ≠ [] ∧ lf ∉ line) (data : Bytes) :
    Clear (k2CRLF <+: ·) (joinLines lines) (k2CRLF ++ data) := by
  induction lines with
  | nil => exact absurd rfl nonempty
  | cons line rest ih =>
      have first := each line List.mem_cons_self
      cases rest with
      | nil => exact clear_line first.2 _
      | cons next rest =>
          have second := each next (List.mem_cons_of_mem _ List.mem_cons_self)
          have later := ih (List.cons_ne_nil _ _) fun other member =>
            each other (List.mem_cons_of_mem _ member)
          rw [joinLines_cons_cons, List.append_assoc, clear_append]
          refine ⟨clear_line first.2 _, ?_, ?_, later⟩
          · intro occurs
            -- Behind this line end stands the next line, not another one.
            obtain ⟨back, follows⟩ := joinLines_append next rest data
            have both : cr :: lf :: crlf <+: cr :: lf ::
                (joinLines (next :: rest) ++ (k2CRLF ++ data)) := occurs
            rw [List.cons_prefix_cons, List.cons_prefix_cons, follows] at both
            exact not_crlf_prefix second.1 second.2 back both.2.2
          · intro occurs
            rw [k2CRLF, List.cons_prefix_cons] at occurs
            exact absurd occurs.1 (by decide)

theorem splitPart_joinLines {lines : List Bytes} (nonempty : lines ≠ [])
    (each : ∀ line ∈ lines, line ≠ [] ∧ lf ∉ line) (data : Bytes) :
    splitPart (joinLines lines ++ (k2CRLF ++ data)) =
      (joinLines lines, data) := by
  have found := search_of_clear (clear_joinLines nonempty each data)
  have behind : (joinLines lines ++ (k2CRLF ++ data)).drop
      ((joinLines lines).length + 4) = data := by
    rw [← List.drop_drop, List.drop_left]
    rfl
  simp only [splitPart, found, List.take_left, behind]

/-! ## The lines of an uploaded part -/

theorem getLast?_append_trimmed {front s : Bytes} (trimmed : Trimmed s)
    (noCr : front.getLast? ≠ some cr) : (front ++ s).getLast? ≠ some cr := by
  rw [List.getLast?_append]
  cases last : s.getLast? with
  | none => simpa using noCr
  | some c =>
      have notBlank := trimmed c (Or.inr last)
      simp only [Option.some_or]
      rintro ⟨⟩
      exact absurd notBlank (by decide)

theorem headerLine_contentType {contentType : Bytes}
    (trimmed : Trimmed contentType) (noLf : lf ∉ contentType) :
    HeaderLine (UploadPart.contentTypeLine contentType) where
  nonempty := List.append_ne_nil_of_left_ne_nil (by decide) _
  noLf := by
    rw [UploadPart.contentTypeLine, List.mem_append, not_or]
    exact ⟨by decide, noLf⟩
  noCr := getLast?_append_trimmed trimmed (by decide)

theorem headerLine_eq (header : Bytes × Bytes) :
    UploadPart.headerLine header = header.1 ++ 58 :: 32 :: header.2 := by
  have separator : ascii ": " = [58, 32] := by
    decide
  rw [UploadPart.headerLine, separator, List.append_assoc]
  rfl

theorem headerLine_header {boundary : Bytes} {header : Bytes × Bytes}
    (trimmed : Trimmed header.2)
    (allowed : HeaderLineAllowed boundary header) :
    HeaderLine (UploadPart.headerLine header) where
  nonempty := by
    rw [headerLine_eq]
    exact List.append_ne_nil_of_left_ne_nil allowed.name_ne _
  noLf := by
    have colon : lf ≠ 58 := by decide
    have space : lf ≠ 32 := by decide
    simp [headerLine_eq, allowed.name_noLf, allowed.value_noLf, colon, space]
  noCr := by
    refine getLast?_append_trimmed trimmed ?_
    have separator : (ascii ": ").getLast? = some 32 := by
      decide
    rw [List.getLast?_append, separator, Option.some_or]
    decide

theorem getLast?_dispositionLine (part : UploadPart) :
    part.dispositionLine.getLast? = some 34 := by
  cases given : part.filename with
  | none | some value =>
      simp only [UploadPart.dispositionLine, UploadPart.filenameAttr, quoted,
        given, ← List.append_assoc, List.append_nil, List.getLast?_concat]

theorem dispositionLine_ne_nil (part : UploadPart) :
    part.dispositionLine ≠ [] := by
  rw [UploadPart.dispositionLine, List.append_assoc]
  exact List.append_ne_nil_of_left_ne_nil (by decide) _

theorem lf_not_mem_dispositionLine {part : UploadPart} (name : lf ∉ part.name)
    (filename : ∀ filename, part.filename = some filename → lf ∉ filename) :
    lf ∉ part.dispositionLine := by
  have start : lf ∉ ascii "Content-Disposition: form-data; " := by
    decide
  have nameAttr : lf ∉ ascii "name=\"" := by decide
  have semicolon : lf ∉ ascii "; " := by decide
  have filenameAttr : lf ∉ ascii "filename=\"" := by decide
  have quote : lf ≠ 34 := by decide
  cases given : part.filename with
  | none =>
      simp [UploadPart.dispositionLine, UploadPart.filenameAttr, quoted, given,
        start, nameAttr, name, quote]
  | some value =>
      simp [UploadPart.dispositionLine, UploadPart.filenameAttr, quoted, given,
        start, nameAttr, name, quote, semicolon, filenameAttr,
        filename value given]

theorem headerLine_disposition {part : UploadPart} (name : Quotable part.name)
    (filename : ∀ filename, part.filename = some filename →
      Quotable filename) : HeaderLine part.dispositionLine where
  nonempty := dispositionLine_ne_nil part
  noLf := lf_not_mem_dispositionLine name.noLf fun value given =>
    (filename value given).noLf
  noCr := by
    rw [getLast?_dispositionLine]
    decide

theorem parseHeader_contentType (part : FormPart) {contentType : Bytes}
    (trimmed : Trimmed contentType) (noLf : lf ∉ contentType) :
    parseHeader part (UploadPart.contentTypeLine contentType) =
      { part with contentType := contentType } := by
  have split : ascii "Content-Type: " = ascii "Content-Type:" ++ [32] := by
    decide
  have line : UploadPart.contentTypeLine contentType =
      ascii "Content-Type:" ++ 32 :: contentType := by
    rw [UploadPart.contentTypeLine, split, List.append_assoc]
    rfl
  have otherField : ¬ ascii "Content-Disposition:" <+:
      ascii "Content-Type:" ++ 32 :: contentType := by
    have disposition : ascii "Content-Disposition:" =
        ascii "Content-" ++ 68 :: ascii "isposition:" := by
      decide
    have type : ascii "Content-Type:" = ascii "Content-" ++ 84 :: ascii "ype:" := by
      decide
    rw [disposition, type, List.append_assoc, List.prefix_append_right_inj,
      List.cons_append, List.cons_prefix_cons]
    exact fun same => absurd same.1 (by decide)
  have isLine := headerLine_contentType trimmed noLf
  have length : (ascii "Content-Type:").length = 13 := by
    decide
  have value : (ascii "Content-Type:" ++ 32 :: contentType).drop 13 =
      32 :: contentType := by
    rw [← length, List.drop_left]
  rw [parseHeader_eq isLine, line, if_neg, if_pos, value,
    trim_space_cons, trim_of_trimmed trimmed]
  · exact search_eq_zero_iff.mpr (List.prefix_append _ _)
  · exact fun found => otherField (search_eq_zero_iff.mp found)

theorem parseHeader_headerLine (part : FormPart) {boundary : Bytes}
    {header : Bytes × Bytes} (noColon : 58 ∉ header.1)
    (trimmed : Trimmed header.2)
    (allowed : HeaderLineAllowed boundary header) :
    parseHeader part (UploadPart.headerLine header) =
      { part with headers := part.headers.insert header.1 header.2 } := by
  have isLine := headerLine_header trimmed allowed
  have colon : search [58] (header.1 ++ 58 :: 32 :: header.2) =
      some header.1.length :=
    search_append_of_not_mem _ noColon
  have disposition : ascii "Content-Disposition:" =
      ascii "Content-Disposition" ++ 58 :: [] := by
    decide
  have contentType : ascii "Content-Type:" =
      ascii "Content-Type" ++ 58 :: [] := by
    decide
  have value : (header.1 ++ 58 :: 32 :: header.2).drop (header.1.length + 1) =
      32 :: header.2 := by
    rw [← List.drop_drop, List.drop_left]
    rfl
  rw [parseHeader_eq isLine, headerLine_eq, if_neg, if_neg,
    parseCustomHeader, colon]
  · have nonzero : header.1.length ≠ 0 :=
      fun zero => allowed.name_ne (List.length_eq_zero_iff.mp zero)
    simp only [if_neg nonzero, List.take_left, value, trim_space_cons,
      trim_of_trimmed trimmed, trim_of_trimmed allowed.name_trimmed,
      if_pos allowed.name_ne]
  · intro found
    rw [search_eq_zero_iff, contentType,
      append_cons_prefix_iff (by decide) noColon] at found
    exact allowed.not_contentType found.1.symm
  · intro found
    rw [search_eq_zero_iff, disposition,
      append_cons_prefix_iff (by decide) noColon] at found
    exact allowed.not_disposition found.1.symm

/-- The first line of a part is read as a disposition. -/
theorem parseHeader_dispositionLine (formPart : FormPart) (part : UploadPart) :
    parseHeader formPart part.dispositionLine =
      parseContentDisposition part.dispositionLine formPart := by
  have noCr : part.dispositionLine.getLast? ≠ some cr := by
    rw [getLast?_dispositionLine]
    decide
  have isField : search (ascii "Content-Disposition:") part.dispositionLine =
      some 0 := by
    have split : ascii "Content-Disposition: form-data; " =
        ascii "Content-Disposition:" ++ ascii " form-data; " := by
      decide
    rw [search_eq_zero_iff, UploadPart.dispositionLine, split]
    simp only [List.append_assoc]
    exact List.prefix_append _ _
  rw [parseHeader, if_neg (dispositionLine_ne_nil part), if_neg noCr]
  dsimp only
  rw [if_pos isField]

theorem parseHeader_disposition {part : UploadPart}
    (name : Quotable part.name)
    (filename : ∀ filename, part.filename = some filename →
      Quotable filename) :
    parseHeader {} part.dispositionLine =
      { name := part.name, filename := part.filename.getD [] } := by
  rw [parseHeader_dispositionLine, parseContentDisposition,
    UploadPart.extractQuoted_name name.noQuote,
    UploadPart.extractQuoted_filename name filename]

theorem foldl_headerLines (part : FormPart) {boundary : Bytes}
    {headers : List (Bytes × Bytes)}
    (header : ∀ header ∈ headers, 58 ∉ header.1 ∧ Trimmed header.2)
    (allowed : ∀ header ∈ headers, HeaderLineAllowed boundary header) :
    (headers.map UploadPart.headerLine).foldl parseHeader part =
      { part with
        headers := headers.foldl (fun map header =>
          map.insert header.1 header.2) part.headers } := by
  induction headers generalizing part with
  | nil => rfl
  | cons first rest ih =>
      obtain ⟨noColon, trimmed⟩ := header first List.mem_cons_self
      rw [List.map_cons, List.foldl_cons, parseHeader_headerLine part noColon
        trimmed (allowed first List.mem_cons_self),
        ih _ (fun other member => header other (List.mem_cons_of_mem _ member))
          (fun other member => allowed other (List.mem_cons_of_mem _ member))]
      rfl

/-- What the parser makes of the part. -/
def UploadPart.formPart (part : UploadPart) : FormPart where
  name := part.name
  filename := part.filename.getD []
  contentType := part.contentType.getD []
  data := part.data
  headers := part.headers.foldl (fun map header =>
    map.insert header.1 header.2) ∅

variable {boundary : Bytes} {part : UploadPart}

theorem headerLine_of_mem_lines (allowed : PartAllowed boundary part)
    (lines : LinesAllowed boundary part) :
    ∀ line ∈ part.lines, HeaderLine line := by
  intro line member
  rw [UploadPart.lines, UploadPart.furtherLines, List.mem_cons,
    List.mem_append] at member
  rcases member with rfl | type | field
  · exact headerLine_disposition allowed.name allowed.filename
  · obtain ⟨contentType, given, rfl⟩ := List.mem_map.mp type
    rw [Option.mem_toList] at given
    exact headerLine_contentType (allowed.contentType _ given)
      (lines.contentType_noLf _ given)
  · obtain ⟨header, known, rfl⟩ := List.mem_map.mp field
    exact headerLine_header (allowed.header header known).2
      (lines.header header known)

/-- A part is read back. -/
theorem parsePart_lines (allowed : PartAllowed boundary part)
    (lines : LinesAllowed boundary part) :
    parsePart (joinLines part.lines ++ (k2CRLF ++ part.data)) =
      part.formPart := by
  have each := headerLine_of_mem_lines allowed lines
  have nonempty : part.lines ≠ [] := List.cons_ne_nil _ _
  have contentType : ∀ start : FormPart, start.contentType = [] →
      (part.contentType.toList.map UploadPart.contentTypeLine).foldl
        parseHeader start =
          { start with contentType := part.contentType.getD [] } := by
    intro start empty
    cases given : part.contentType with
    | none =>
        rw [Option.getD_none, ← empty]
        rfl
    | some contentType =>
        exact parseHeader_contentType start (allowed.contentType _ given)
          (lines.contentType_noLf _ given)
  have plain : ∀ line ∈ part.lines, line ≠ [] ∧ lf ∉ line :=
    fun line member => ⟨(each line member).nonempty, (each line member).noLf⟩
  rw [parsePart, splitPart_joinLines nonempty plain]
  dsimp only
  rw [foldl_getlines {} nonempty each, UploadPart.lines, List.foldl_cons,
    parseHeader_disposition allowed.name allowed.filename,
    UploadPart.furtherLines, List.foldl_append, contentType _ rfl,
    foldl_headerLines _ allowed.header lines.header]
  rfl

/-! ## What the parsed part holds -/

theorem lookup_foldl_insert {headers : List (Bytes × Bytes)}
    (distinct : (headers.map Prod.fst).Nodup) (map : StringMap)
    (name value : Bytes) :
    (headers.foldl (fun map header => map.insert header.1 header.2)
      map).lookup name = some value ↔
        (name, value) ∈ headers ∨
          name ∉ headers.map Prod.fst ∧ map.lookup name = some value := by
  induction headers generalizing map with
  | nil => simp
  | cons first rest ih =>
      rw [List.map_cons, List.nodup_cons] at distinct
      obtain ⟨key, stored⟩ := first
      rw [List.foldl_cons, ih distinct.2, List.mem_cons, List.map_cons,
        List.mem_cons, Prod.mk.injEq]
      by_cases same : name = key
      · subst name
        have notLater : (key, value) ∉ rest := fun member =>
          distinct.1 (List.mem_map.mpr ⟨_, member, rfl⟩)
        simp [Finmap.lookup_insert, distinct.1, notLater, eq_comm]
      · simp [Finmap.lookup_insert_of_ne _ same, same]

theorem holdsPart_formPart (distinct : (part.headers.map Prod.fst).Nodup) :
    HoldsPart part.formPart part where
  name := rfl
  filename := rfl
  contentType := rfl
  headers := by
    intro name value
    rw [UploadPart.formPart, lookup_foldl_insert distinct]
    simp
  data := rfl

end MultiFormParser

end KitMuduo
