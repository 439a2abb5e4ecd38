import KitMuduo.MultiFormLoop
import KitMuduo.MultiFormParserInverse

/-!
# Truncated uploads

The body may be cut off anywhere.  The loop takes up a part when it meets the
boundary behind it, so that exactly those parts are returned whose closing
boundary has come in, and they are whole.
-/

namespace KitMuduo

open ListSearch

namespace MultiFormParser

/-- A part of an encoding in which LF and `--B` stand only in the delimiter
lines. -/
structure SeparatePart (boundary : Bytes) (part : UploadPart) : Prop where
  name_ne : part.name ≠ []
  name : Quotable part.name
  filename : ∀ filename, part.filename = some filename → Quotable filename
  contentType_noLf : ∀ contentType, part.contentType = some contentType →
    lf ∉ contentType
  header_noLf : ∀ header ∈ part.headers, lf ∉ header.1 ∧ lf ∉ header.2
  not_disposition : ∀ header ∈ part.headers,
    ¬ ascii "Content-Disposition:" <+: UploadPart.headerLine header
  clear : ¬ lf :: delimiter boundary <:+: part.content

/-- The parsed part has the names and the data of the uploaded one. -/
structure HasData (formPart : FormPart) (part : UploadPart) : Prop where
  name : formPart.name = part.name
  filename : formPart.filename = part.filename.getD []
  data : formPart.data = part.data

/-- The CRLF and `--B` behind the last of these parts have come in. -/
def Received (boundary preamble received : Bytes) (parts : List UploadPart) :
    Prop :=
  preamble ++ parts.flatMap (encodePart boundary) ++ delimiter boundary <+:
    received

/-- The map has the parts that have come in, and no others. -/
structure HoldsReceived (map : PartMap) (boundary preamble received : Bytes)
    (parts : List UploadPart) : Prop where
  names : ∀ name ∈ map, name ∈ parts.map UploadPart.name
  complete : ∀ front part back, parts = front ++ part :: back →
    Received boundary preamble received (front ++ [part]) →
      ∃ formPart, map.lookup part.name = some formPart ∧ HasData formPart part
  incomplete : ∀ front part back, parts = front ++ part :: back →
    ¬ Received boundary preamble received (front ++ [part]) → part.name ∉ map

variable {boundary preamble epilogue : Bytes} {part : UploadPart}

theorem plainLine_of_mem_lines (separate : SeparatePart boundary part) :
    ∀ line ∈ part.lines, line ≠ [] ∧ lf ∉ line := by
  intro line member
  rw [UploadPart.lines, UploadPart.furtherLines, List.mem_cons,
    List.mem_append] at member
  rcases member with rfl | type | field
  · have isLine := headerLine_disposition separate.name separate.filename
    exact ⟨isLine.nonempty, isLine.noLf⟩
  · obtain ⟨contentType, given, rfl⟩ := List.mem_map.mp type
    rw [Option.mem_toList] at given
    have start : lf ∉ ascii "Content-Type: " := by decide
    refine ⟨List.append_ne_nil_of_left_ne_nil (by decide) _, ?_⟩
    rw [UploadPart.contentTypeLine, List.mem_append, not_or]
    exact ⟨start, separate.contentType_noLf _ given⟩
  · obtain ⟨header, known, rfl⟩ := List.mem_map.mp field
    obtain ⟨nameNoLf, valueNoLf⟩ := separate.header_noLf header known
    have colon : lf ≠ 58 := by decide
    have space : lf ≠ 32 := by decide
    rw [headerLine_eq]
    refine ⟨by simp, ?_⟩
    simp [nameNoLf, valueNoLf, colon, space]

theorem not_disposition_furtherLines (separate : SeparatePart boundary part) :
    ∀ line ∈ part.furtherLines, ¬ ascii "Content-Disposition:" <+: line := by
  intro line member
  rw [UploadPart.furtherLines, List.mem_append] at member
  rcases member with type | field
  · obtain ⟨contentType, _, rfl⟩ := List.mem_map.mp type
    have disposition : ascii "Content-Disposition:" =
        ascii "Content-" ++ 68 :: ascii "isposition:" := by
      decide
    have type : ascii "Content-Type: " =
        ascii "Content-" ++ 84 :: ascii "ype: " := by
      decide
    rw [disposition, UploadPart.contentTypeLine, type, List.append_assoc,
      List.prefix_append_right_inj, List.cons_append, List.cons_prefix_cons]
    exact fun same => absurd same.1 (by decide)
  · obtain ⟨header, known, rfl⟩ := List.mem_map.mp field
    exact separate.not_disposition header known

theorem hasData_parsePart (separate : SeparatePart boundary part) :
    HasData (parsePart part.content) part := by
  have plain := plainLine_of_mem_lines separate
  have read := parsePart_names
    (headerLine_disposition separate.name separate.filename)
    (fun line member => plain line (List.mem_cons_of_mem _ member))
    (not_disposition_furtherLines separate) part.data
  rw [parseHeader_disposition separate.name separate.filename] at read
  exact ⟨read.1, read.2.1, read.2.2⟩

/-! ## The loop on a cut body -/

theorem length_encodePart (boundary : Bytes) (part : UploadPart) :
    (encodePart boundary part).length =
      part.content.length + (delimiter boundary).length + 4 := by
  have lines : part.lines.flatMap (· ++ crlf) = joinLines part.lines ++ crlf :=
    flatMap_crlf (List.cons_ne_nil _ _)
  rw [encodePart, lines, UploadPart.content]
  simp only [List.length_append, crlf, k2CRLF, List.length_cons,
    List.length_nil]
  omega

theorem clear_content (noCr : cr ∉ boundary)
    (separate : SeparatePart boundary part) (behind : Bytes) :
    Clear (lf :: delimiter boundary <+: ·) (part.content ++ [cr]) behind := by
  have absent : cr ∉ lf :: delimiter boundary := by
    have notLf : cr ≠ lf := by decide
    have notDash : cr ≠ 45 := by decide
    simp [delimiter_eq, notLf, notDash, noCr]
  exact clear_of_not_infix absent separate.clear

theorem mayFollowBoundary_cut {received : Bytes} {parts : List UploadPart}
    (cut : received <+: behindBoundary boundary epilogue parts) :
    mayFollowBoundary received = true := by
  cases received with
  | nil => rfl
  | cons c received =>
      cases parts with
      | nil =>
          obtain ⟨rfl, _⟩ := List.cons_prefix_cons.mp cut
          rfl
      | cons part rest =>
          obtain ⟨rfl, _⟩ := List.cons_prefix_cons.mp cut
          rfl

/-- Behind a line that breaks off nothing is read. -/
theorem parseParts_short {p : Bytes} (short : p.length ≤ 1) (map : PartMap) :
    parseParts (delimiter boundary) p map = map := by
  apply parseParts_of_not_infix
  intro occurs
  have length := occurs.length_le
  rw [delimiter_eq] at length
  simp only [List.length_cons] at length
  omega

theorem none_complete_iff {rest : List UploadPart} {received : Bytes}
    (short : received.length < (encodePart boundary part).length) (i : Nat) :
    i ≤ 0 ↔ (((part :: rest).take i).flatMap (encodePart boundary)).length ≤
      received.length := by
  cases i with
  | zero => simp
  | succ i =>
      rw [List.take_succ_cons, List.flatMap_cons, List.length_append]
      omega

/-- From behind a boundary on, the parts are taken up whose boundaries have come
in; by induction on the parts. -/
theorem parseParts_received (noCr : cr ∉ boundary) {parts : List UploadPart}
    (separate : ∀ part ∈ parts, SeparatePart boundary part) {received : Bytes}
    (cut : received <+: behindBoundary boundary epilogue parts)
    (map : PartMap) :
    ∃ n, (if (skipBoundarySuffix received).2 = true then map
        else parseParts (delimiter boundary) (skipBoundarySuffix received).1
          map) =
        ((parts.take n).map fun part => parsePart part.content).foldl storePart
          map ∧
      ∀ i ≤ parts.length, (i ≤ n ↔
        ((parts.take i).flatMap (encodePart boundary)).length ≤
          received.length) := by
  induction parts generalizing received map with
  | nil =>
      refine ⟨0, ?_, ?_⟩
      · rw [behindBoundary] at cut
        rcases received with _ | ⟨c, _ | ⟨d, rest⟩⟩
        · exact parseParts_short (Nat.zero_le _) map
        · obtain ⟨rfl, _⟩ := List.cons_prefix_cons.mp cut
          exact parseParts_short (Nat.le_refl _) map
        · obtain ⟨rfl, later⟩ := List.cons_prefix_cons.mp cut
          obtain ⟨rfl, _⟩ := List.cons_prefix_cons.mp later
          rfl
      · intro i within
        simp [Nat.le_zero.mp within]
  | cons part rest ih =>
      have first := separate part List.mem_cons_self
      have size := length_encodePart boundary part
      rcases received with _ | ⟨c, _ | ⟨d, p⟩⟩
      · exact ⟨0, parseParts_short (Nat.zero_le _) map, fun i _ =>
          none_complete_iff (by simp [size]) i⟩
      · obtain ⟨rfl, _⟩ := List.cons_prefix_cons.mp cut
        exact ⟨0, parseParts_short (Nat.zero_le _) map, fun i _ =>
          none_complete_iff (by simp [size]) i⟩
      · obtain ⟨rfl, later⟩ := List.cons_prefix_cons.mp cut
        obtain ⟨rfl, cutBehind⟩ := List.cons_prefix_cons.mp later
        have clear := clear_content noCr first
          (lf :: delimiter boundary ++ behindBoundary boundary epilogue rest)
        have line : skipBoundarySuffix (cr :: lf :: p) = (p, false) := rfl
        rw [line, if_neg Bool.false_ne_true]
        have cutWhole : p <+:
            (part.content ++ [cr] ++ lf :: delimiter boundary) ++
              behindBoundary boundary epilogue rest := by
          rw [List.append_assoc _ (lf :: delimiter boundary)]
          exact cutBehind
        rcases prefix_append_cases cutWhole with
          short | ⟨behind, rfl, cutRest⟩
        · have none : ¬ lf :: delimiter boundary <:+: p := by
            apply clear.not_infix cutBehind
            rwa [List.length_append] at short
          refine ⟨0, parseParts_of_not_infix none, fun i _ =>
            none_complete_iff ?_ i⟩
          simp only [List.length_append, List.length_cons,
            List.length_nil] at short ⊢
          omega
        · obtain ⟨n, stored, complete⟩ := ih (fun other member =>
            separate other (List.mem_cons_of_mem _ member)) cutRest
            (storePart map (parsePart part.content))
          refine ⟨n + 1, ?_, ?_⟩
          · have clearHere := (clear_content noCr first
              (lf :: delimiter boundary ++ behind)).mono
                fun _ (isBoundary : IsBoundary _ _) => isBoundary.1
            rw [List.append_assoc, parseParts_of_clear clearHere
              (mayFollowBoundary_cut cutRest), dropCr_concat, stored]
            rfl
          · intro i within
            cases i with
            | zero => simp
            | succ i =>
                rw [Nat.add_le_add_iff_right,
                  complete i (Nat.le_of_succ_le_succ within),
                  List.take_succ_cons, List.flatMap_cons, List.length_append,
                  size]
                simp only [List.length_append, List.length_cons,
                  List.length_nil]
                omega

/-! ## The cut -/

/-- Behind every part of the encoding stands a boundary. -/
theorem boundary_prefix_encode (boundary preamble epilogue : Bytes)
    (front back : List UploadPart) :
    preamble ++ front.flatMap (encodePart boundary) ++ delimiter boundary <+:
      encode boundary preamble epilogue (front ++ back) := by
  rw [encode, List.flatMap_append]
  simp only [List.append_assoc, List.prefix_append_right_inj]
  cases back with
  | nil => exact List.prefix_append _ _
  | cons part back =>
      rw [List.flatMap_cons, encodePart]
      simp only [List.append_assoc]
      exact List.prefix_append _ _

/-- What has come in is a matter of lengths. -/
theorem received_iff {received : Bytes} {front back : List UploadPart}
    (cut : received <+: encode boundary preamble epilogue (front ++ back)) :
    Received boundary preamble received front ↔
      preamble.length + (front.flatMap (encodePart boundary)).length +
        (delimiter boundary).length ≤ received.length := by
  rw [← List.length_append, ← List.length_append]
  exact ⟨List.IsPrefix.length_le, List.prefix_of_prefix_length_le
    (boundary_prefix_encode boundary preamble epilogue front back) cut⟩

/-- The parts that have come in are taken up. -/
theorem parse_received {contentType received : Bytes} {parts : List UploadPart}
    (type : extractBoundary contentType = boundary) (nonempty : boundary ≠ [])
    (noCr : cr ∉ boundary) (noLf : lf ∉ boundary)
    (before : PreambleAllowed boundary preamble)
    (separate : ∀ part ∈ parts, SeparatePart boundary part)
    (cut : received <+: encode boundary preamble epilogue parts) :
    ∃ n, parse received contentType =
        ((parts.take n).map fun part => parsePart part.content).foldl storePart
          ∅ ∧
      ∀ i ≤ parts.length, 1 ≤ i →
        (i ≤ n ↔ Received boundary preamble received (parts.take i)) := by
  have lengths (i : Nat) : Received boundary preamble received (parts.take i) ↔
      preamble.length +
          ((parts.take i).flatMap (encodePart boundary)).length +
        (delimiter boundary).length ≤ received.length := by
    rw [← List.take_append_drop i parts] at cut
    exact received_iff cut
  have delimiterNoLf : lf ∉ delimiter boundary := by
    have notDash : lf ≠ 45 := by decide
    simp [delimiter_eq, notDash, noLf]
  have clear := clear_preamble delimiterNoLf before.ends_lf before.clear
    (delimiter boundary ++ behindBoundary boundary epilogue parts)
  have cutWhole : received <+: (preamble ++ delimiter boundary) ++
      behindBoundary boundary epilogue parts := by
    rw [encode_eq, ← List.append_assoc] at cut
    exact cut
  rw [parse, type]
  dsimp only
  rw [if_neg nonempty, ← delimiter]
  rcases prefix_append_cases cutWhole with short | ⟨behind, rfl, cutBehind⟩
  · rw [List.append_assoc] at cutWhole
    rw [List.length_append] at short
    rw [search_eq_none_iff.mpr (clear.not_infix cutWhole short)]
    refine ⟨0, rfl, fun i _ some => ?_⟩
    rw [lengths i]
    omega
  · have found : search (delimiter boundary) (preamble ++
        (delimiter boundary ++ behind)) = some preamble.length :=
      search_of_clear
        (clear_preamble delimiterNoLf before.ends_lf before.clear _)
    have after : (preamble ++ (delimiter boundary ++ behind)).drop
        (preamble.length + (delimiter boundary).length) = behind := by
      rw [← List.drop_drop, List.drop_left, List.drop_left]
    obtain ⟨n, stored, complete⟩ :=
      parseParts_received noCr separate cutBehind ∅
    rw [List.append_assoc, found]
    dsimp only
    rw [after]
    refine ⟨n, stored, fun i within _ => ?_⟩
    rw [complete i within, ← List.append_assoc, lengths i, List.length_append,
      List.length_append]
    omega

theorem take_succ {parts front back : List UploadPart} {part : UploadPart}
    (split : parts = front ++ part :: back) :
    parts.take (front.length + 1) = front ++ [part] := by
  rw [split, List.take_append]
  simp

/-- A part that is taken with others. -/
theorem take_of_complete {parts front back : List UploadPart}
    {part : UploadPart} {n : Nat} (split : parts = front ++ part :: back)
    (taken : front.length + 1 ≤ n) :
    ∃ more, parts.take n = front ++ part :: back.take more := by
  obtain ⟨more, rfl⟩ := Nat.exists_eq_add_of_le taken
  refine ⟨more, ?_⟩
  rw [List.take_add, take_succ split, split]
  simp

/-- A body that is cut off yields the parts whose boundaries have come in, with
all their data. -/
theorem parse_truncated {contentType received : Bytes}
    {parts : List UploadPart} (type : extractBoundary contentType = boundary)
    (nonempty : boundary ≠ []) (noCr : cr ∉ boundary) (noLf : lf ∉ boundary)
    (before : PreambleAllowed boundary preamble)
    (separate : ∀ part ∈ parts, SeparatePart boundary part)
    (distinct : (parts.map UploadPart.name).Nodup)
    (cut : received <+: encode boundary preamble epilogue parts) :
    HoldsReceived (parse received contentType) boundary preamble received
      parts := by
  obtain ⟨n, stored, complete⟩ :=
    parse_received type nonempty noCr noLf before separate cut
  have data : ∀ part ∈ parts, HasData (parsePart part.content) part :=
    fun part member => hasData_parsePart (separate part member)
  have names : ∀ part ∈ parts.take n,
      (parsePart part.content).name = part.name :=
    fun part taken => (data part (List.mem_of_mem_take taken)).name
  constructor
  · intro name member
    rw [stored, mem_stored_iff names] at member
    exact ((List.take_sublist n parts).map _).subset member.2
  · intro front part back split whole
    have known : part ∈ parts := by simp [split]
    obtain ⟨more, takenParts⟩ := take_of_complete split
      ((complete _ (by simp [split]) (Nat.le_add_left _ _)).mpr
        (take_succ split ▸ whole))
    have last : part.name ∉ (back.take more).map UploadPart.name := by
      intro again
      rw [split, List.map_append, List.map_cons, List.nodup_append,
        List.nodup_cons] at distinct
      exact distinct.2.1.1 (((List.take_sublist more back).map _).subset again)
    refine ⟨parsePart part.content, ?_, data part known⟩
    rw [stored]
    exact lookup_stored names takenParts (separate part known).name_ne last
  · intro front part back split unfinished member
    have missing : ¬ front.length + 1 ≤ n := by
      intro taken
      rw [complete _ (by simp [split]) (Nat.le_add_left _ _),
        take_succ split] at taken
      exact unfinished taken
    have early : parts.take n = front.take n := by
      rw [split, List.take_append_of_le_length (by omega)]
    rw [stored, mem_stored_iff names, early] at member
    rw [split, List.map_append, List.map_cons, List.nodup_append] at distinct
    exact distinct.2.2 _ (((List.take_sublist n front).map _).subset member.2) _
      List.mem_cons_self rfl

/-- Two short parts of different names. -/
def shortParts : List UploadPart :=
  [{ name := ascii "a", filename := none, contentType := none, headers := [],
      data := ascii "one" },
    { name := ascii "b", filename := none, contentType := none, headers := [],
      data := ascii "two" }]

theorem separate_shortParts :
    ∀ part ∈ shortParts, SeparatePart (ascii "B") part := by
  have quotable : ∀ part ∈ shortParts, Quotable part.name := by
    intro part member
    simp only [shortParts, List.mem_cons, List.not_mem_nil, or_false] at member
    rcases member with rfl | rfl
    · exact ⟨by decide, by decide, by decide, by decide⟩
    · exact ⟨by decide, by decide, by decide, by decide⟩
  intro part member
  have name := quotable part member
  simp only [shortParts, List.mem_cons, List.not_mem_nil, or_false] at member
  rcases member with rfl | rfl
  · exact ⟨by decide, name, by rintro _ ⟨⟩, by rintro _ ⟨⟩, by simp, by simp,
      search_eq_none_iff.mp (by decide)⟩
  · exact ⟨by decide, name, by rintro _ ⟨⟩, by rintro _ ⟨⟩, by simp, by simp,
      search_eq_none_iff.mp (by decide)⟩

/-- Cut off inside the header section of the second part. -/
theorem parse_truncated_shortParts :
    let received := (encode (ascii "B") [] [] shortParts).take 70
    HoldsReceived (parse received (multipartType (ascii "B"))) (ascii "B") []
      received shortParts :=
  parse_truncated (extractBoundary_multipartType boundaryAllowed_B) (by decide)
    (by decide) (by decide) (preambleAllowed_nil _) separate_shortParts
    (by decide) (List.take_prefix 70 _)

end MultiFormParser

end KitMuduo
