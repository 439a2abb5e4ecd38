import KitMuduo.CustomHttpParser

/-!
# What one turn of the parser's loop does

One equation for each thing the unread bytes can begin with: a line, the blank
line, or no complete line.  The line a turn takes is determined by the bytes,
since a line contains no line end.
-/

namespace KitMuduo

open DecimalText ListSearch WhileLoop

namespace CustomHttpParser

variable {turn : Turn} {line rest : Bytes}

/-- The bytes in front of the first line end. -/
def IsLine (line : Bytes) : Prop :=
  ¬ kCRLF <:+: line

theorem isLine_nil : IsLine [] := by
  rw [IsLine, List.infix_nil]
  decide

/-- A string without CR is a line. -/
theorem isLine_of_not_mem (absent : 13 ∉ line) : IsLine line := by
  intro occurs
  exact absent (occurs.subset (by decide))

theorem findCRLF_eq {buf : Buffer} (isLine : IsLine line)
    (read : buf.readable = line ++ (kCRLF ++ rest)) :
    findCRLF buf = some line.length := by
  rw [findCRLF, read]
  exact search_pair rest (by decide) isLine

/-- The unread bytes are a line, its end and the rest, or have no line end. -/
theorem findCRLF_cases (buf : Buffer) :
    findCRLF buf = none ∨
      ∃ line rest, IsLine line ∧ buf.readable = line ++ (kCRLF ++ rest) := by
  cases found : findCRLF buf with
  | none => exact .inl rfl
  | some crlfPos =>
      exact .inr ⟨buf.readable.take crlfPos,
        buf.readable.drop (crlfPos + 2),
        not_infix_take_of_search (by decide) found, search_split found⟩

theorem readable_of_findCRLF_eq_none {buf : Buffer}
    (none : findCRLF buf = none) : buf.readable ≠ line ++ (kCRLF ++ rest) := by
  intro read
  rw [findCRLF, search_eq_none_iff, read] at none
  exact none ⟨line, rest, by rw [List.append_assoc]⟩

/-- A text is split at its first line end in one way only. -/
theorem line_unique {other otherRest : Bytes} (isLine : IsLine line)
    (isLineOther : IsLine other)
    (same : line ++ (kCRLF ++ rest) = other ++ (kCRLF ++ otherRest)) :
    line = other ∧ rest = otherRest := by
  have first : search kCRLF (line ++ (kCRLF ++ rest)) = some line.length :=
    search_pair rest (by decide) isLine
  have second : search kCRLF (other ++ (kCRLF ++ otherRest)) =
      some other.length := search_pair otherRest (by decide) isLineOther
  rw [same, second, Option.some.injEq] at first
  obtain ⟨sameLine, sameRest⟩ := List.append_inj same first.symm
  exact ⟨sameLine, List.append_cancel_left sameRest⟩

/-- Take a line and its end off the buffer. -/
def skipLine (buf : Buffer) (line : Bytes) : Buffer :=
  buf.reset (line.length + 2)

theorem skipLine_readable {buf : Buffer} (valid : buf.Valid)
    (read : buf.readable = line ++ (kCRLF ++ rest)) :
    (skipLine buf line).readable = rest := by
  have split : buf.readable = (line ++ kCRLF) ++ rest := by
    rw [read, List.append_assoc]
  have length : (line ++ kCRLF).length = line.length + 2 :=
    List.length_append
  rw [skipLine, ← length]
  exact Buffer.reset_of_readable valid split

theorem skipLine_valid {buf : Buffer} (valid : buf.Valid) (line : Bytes) :
    (skipLine buf line).Valid :=
  Buffer.reset_valid valid _

theorem expectRequestLine_of_line (valid : turn.buf.Valid)
    (isLine : IsLine line)
    (read : turn.buf.readable = line ++ (kCRLF ++ rest))
    (accepted : (turn.parser.processRequestLine line).1 = true) :
    expectRequestLine turn =
      { turn with
        parser := (turn.parser.processRequestLine line).2.setState
          .kExpectHeaders
        ok := true
        buf := skipLine turn.buf line } := by
  rw [expectRequestLine, findCRLF_eq isLine read]
  simp only [Buffer.peek_of_readable valid read]
  split
  · next rejected =>
      rw [rejected] at accepted
      cases accepted
  · next parser result => rw [result, skipLine]

theorem expectRequestLine_of_bad_line (valid : turn.buf.Valid)
    (isLine : IsLine line)
    (read : turn.buf.readable = line ++ (kCRLF ++ rest))
    (rejected : (turn.parser.processRequestLine line).1 = false) :
    expectRequestLine turn =
      { turn with
        parser := (turn.parser.processRequestLine line).2
        ok := false
        hasMore := false } := by
  rw [expectRequestLine, findCRLF_eq isLine read]
  simp only [Buffer.peek_of_readable valid read]
  split
  · next parser result => rw [result]
  · next accepted =>
      rw [accepted] at rejected
      cases rejected

theorem expectHeaders_of_line {head val : Bytes} (valid : turn.buf.Valid)
    (noColon : 58 ∉ head) (isLine : IsLine (head ++ 58 :: val))
    (read : turn.buf.readable = (head ++ 58 :: val) ++ (kCRLF ++ rest)) :
    expectHeaders turn =
      { turn with
        parser := turn.parser.addHeader head val
        buf := skipLine turn.buf (head ++ 58 :: val) } := by
  have behind := drop_append_cons head 58 val
  rw [expectHeaders, findCRLF_eq isLine read]
  simp only [Buffer.peek_of_readable valid read,
    idxOf?_append_cons val noColon, List.take_left, behind]
  rfl

theorem expectHeaders_of_blank (valid : turn.buf.Valid)
    (read : turn.buf.readable = kCRLF ++ rest) :
    expectHeaders turn = headersDone turn := by
  have blank : turn.buf.peek 2 = kCRLF :=
    Buffer.peek_of_readable valid read
  have nothing : turn.buf.peek 0 = [] :=
    Buffer.peek_of_readable valid (List.nil_append _).symm
  have found : findCRLF turn.buf = some 0 := findCRLF_eq isLine_nil read
  simp [expectHeaders, found, nothing, blank]

theorem expectHeaders_of_bad_line (valid : turn.buf.Valid)
    (isLine : IsLine line)
    (read : turn.buf.readable = line ++ (kCRLF ++ rest))
    (nonempty : line ≠ []) (noColon : 58 ∉ line) :
    expectHeaders turn = { turn with ok := false, hasMore := false } := by
  have notBlank : turn.buf.peek 2 ≠ kCRLF := by
    intro blank
    have front : kCRLF <+: turn.buf.readable := by
      have within : 2 ≤ turn.buf.readableBytes := by
        rw [← Buffer.readable_length valid, read]
        simp [kCRLF, ascii]
        omega
      rw [← blank, ← Nat.min_eq_left within, Buffer.peek_min valid]
      exact List.take_prefix _ _
    have atStart := search_eq_zero_iff.mpr front
    have atEnd : findCRLF turn.buf = some line.length :=
      findCRLF_eq isLine read
    rw [findCRLF, atStart, Option.some.injEq] at atEnd
    exact nonempty (List.eq_nil_of_length_eq_zero atEnd.symm)
  have missing : line.idxOf? 58 = none := List.idxOf?_eq_none_iff.mpr noColon
  rw [expectHeaders, findCRLF_eq isLine read]
  simp only [Buffer.peek_of_readable valid read, missing, if_neg notBlank]

/-- The two sides stand on one line and are divided at its first colon. -/
def IsField (field : Bytes × Bytes) : Prop :=
  58 ∉ field.1 ∧ IsLine (field.1 ++ 58 :: field.2)

/-- What a turn in the state `kExpectRequestLine` can do. -/
theorem expectRequestLine_cases (valid : turn.buf.Valid) :
    (findCRLF turn.buf = none ∧
      expectRequestLine turn = { turn with hasMore := false }) ∨
    (∃ line rest, IsLine line ∧
      turn.buf.readable = line ++ (kCRLF ++ rest) ∧
      (turn.parser.processRequestLine line).1 = false ∧
      expectRequestLine turn =
        { turn with
          parser := (turn.parser.processRequestLine line).2
          ok := false
          hasMore := false }) ∨
    ∃ line rest, IsLine line ∧
      turn.buf.readable = line ++ (kCRLF ++ rest) ∧
      (turn.parser.processRequestLine line).1 = true ∧
      expectRequestLine turn =
        { turn with
          parser := (turn.parser.processRequestLine line).2.setState
            .kExpectHeaders
          ok := true
          buf := skipLine turn.buf line } := by
  rcases findCRLF_cases turn.buf with none | ⟨line, rest, isLine, read⟩
  · left
    exact ⟨none, by rw [expectRequestLine, none]⟩
  · right
    cases accepted : (turn.parser.processRequestLine line).1 with
    | false =>
        left
        exact ⟨line, rest, isLine, read, accepted,
          expectRequestLine_of_bad_line valid isLine read accepted⟩
    | true =>
        right
        exact ⟨line, rest, isLine, read, accepted,
          expectRequestLine_of_line valid isLine read accepted⟩

/-- What a turn in the state `kExpectHeaders` can do. -/
theorem expectHeaders_cases (valid : turn.buf.Valid) :
    (findCRLF turn.buf = none ∧
      expectHeaders turn = { turn with hasMore := false }) ∨
    (∃ head val rest, IsField (head, val) ∧
      turn.buf.readable = (head ++ 58 :: val) ++ (kCRLF ++ rest) ∧
      expectHeaders turn =
        { turn with
          parser := turn.parser.addHeader head val
          buf := skipLine turn.buf (head ++ 58 :: val) }) ∨
    (∃ rest, turn.buf.readable = kCRLF ++ rest ∧
      expectHeaders turn = headersDone turn) ∨
    ∃ line rest, IsLine line ∧ line ≠ [] ∧ 58 ∉ line ∧
      turn.buf.readable = line ++ (kCRLF ++ rest) ∧
      expectHeaders turn = { turn with ok := false, hasMore := false } := by
  rcases findCRLF_cases turn.buf with none | ⟨line, rest, isLine, read⟩
  · left
    exact ⟨none, by rw [expectHeaders, none]⟩
  · right
    by_cases colon : 58 ∈ line
    · left
      obtain ⟨head, val, rfl, noColon⟩ := List.eq_append_cons_of_mem colon
      exact ⟨head, val, rest, ⟨noColon, isLine⟩, read,
        expectHeaders_of_line valid noColon isLine read⟩
    · right
      by_cases blank : line = []
      · left
        subst blank
        exact ⟨rest, read, expectHeaders_of_blank valid read⟩
      · right
        exact ⟨line, rest, isLine, blank, colon, read,
          expectHeaders_of_bad_line valid isLine read blank colon⟩

/-- The parser behind a blank line, with the lengths of the body set. -/
def withLength (parser : CustomHttpParser) : CustomHttpParser :=
  { parser with
    expectedBodyLen := parser.contentLength
    readLen := parser.contentLength }

/-- The parser in front of a body. -/
def startBody (parser : CustomHttpParser) : CustomHttpParser :=
  (parser.withLength.changeBody
    (·.setContentType (ContentType.FromString
      (parser.getHeader (ascii "Content-Type"))))).setState .kExpectBody

theorem headersDone_of_no_body (noBody : turn.parser.contentLength = 0) :
    headersDone turn =
      { turn with
        parser := turn.parser.withLength.setState .kGotAll
        buf := turn.buf.reset 2
        hasMore := false } :=
  if_pos (.inl noBody)

theorem headersDone_of_body (body : turn.parser.contentLength ≠ 0) :
    headersDone turn =
      { turn with
        parser := turn.parser.startBody
        buf := turn.buf.reset 2 } := by
  apply if_neg
  rintro (noBody | noHeader)
  · exact body noBody
  · have noLength : turn.parser.getHeader (ascii "Content-Length") = [] :=
      noHeader
    apply body
    rw [contentLength, noLength, atoi_nil]
    rfl

/-- The parser after it appended some bytes to the body. -/
def takeBody (parser : CustomHttpParser) (data : Bytes) : CustomHttpParser :=
  { parser with readLen := parser.readLen - data.length }.changeBody
    (·.appendData data)

theorem changeBody_readLen (parser : CustomHttpParser)
    (change : Body → Body) :
    (parser.changeBody change).readLen = parser.readLen := by
  cases hType : parser.type <;>
    simp [changeBody, hType, setRequest, setResponse]

@[simp]
theorem takeBody_readLen (parser : CustomHttpParser) (data : Bytes) :
    (parser.takeBody data).readLen = parser.readLen - data.length :=
  changeBody_readLen _ _

theorem expectBody_of_complete (turn : Turn) {data : Bytes}
    (valid : turn.buf.Valid)
    (read : turn.buf.readable = data ++ rest)
    (all : turn.parser.readLen = data.length) :
    expectBody turn =
      { turn with
        parser :=
          { turn.parser.takeBody data with
            expectedBodyLen := 0, readLen := 0 }.setState .kGotAll
        buf := turn.buf.reset data.length
        hasMore := false } := by
  have within : min turn.parser.readLen turn.buf.readableBytes =
      data.length := by
    rw [← Buffer.readable_length valid, read, List.length_append, all]
    exact Nat.min_eq_left (Nat.le_add_right _ _)
  simp only [expectBody, within, Buffer.peek_of_readable valid read]
  rw [if_pos]
  · rfl
  · rw [changeBody_readLen]
    exact Nat.sub_eq_zero_of_le (Nat.le_of_eq all)

theorem expectBody_of_short (valid : turn.buf.Valid)
    (short : turn.buf.readable.length < turn.parser.readLen) :
    expectBody turn =
      { turn with
        parser := turn.parser.takeBody turn.buf.readable
        buf := turn.buf.reset turn.buf.readable.length } := by
  have within : min turn.parser.readLen turn.buf.readableBytes =
      turn.buf.readable.length := by
    rw [← Buffer.readable_length valid]
    exact Nat.min_eq_right (Nat.le_of_lt short)
  have everything : turn.buf.peek turn.buf.readable.length =
      turn.buf.readable :=
    Buffer.peek_of_readable valid (List.append_nil _).symm
  simp only [expectBody, within, everything]
  rw [if_neg]
  · rfl
  · rw [changeBody_readLen]
    simp only
    omega

/-- What a turn in the state `kExpectBody` can do. -/
theorem expectBody_cases (valid : turn.buf.Valid) :
    (∃ data rest, turn.buf.readable = data ++ rest ∧
      turn.parser.readLen = data.length ∧
      expectBody turn =
        { turn with
          parser :=
            { turn.parser.takeBody data with
              expectedBodyLen := 0, readLen := 0 }.setState .kGotAll
          buf := turn.buf.reset data.length
          hasMore := false }) ∨
    turn.buf.readable.length < turn.parser.readLen ∧
      expectBody turn =
        { turn with
          parser := turn.parser.takeBody turn.buf.readable
          buf := turn.buf.reset turn.buf.readable.length } := by
  by_cases short : turn.buf.readable.length < turn.parser.readLen
  · exact .inr ⟨short, expectBody_of_short valid short⟩
  · have split := (List.take_append_drop turn.parser.readLen
      turn.buf.readable).symm
    have all : turn.parser.readLen =
        (turn.buf.readable.take turn.parser.readLen).length := by
      rw [List.length_take]
      omega
    exact .inl
      ⟨_, _, split, all, expectBody_of_complete turn valid split all⟩

end CustomHttpParser

end KitMuduo
