import KitMuduo.CustomHttpParserTurns

/-!
# When the parser's loop ends

The loop sets its exit flag when a line is missing, a line is malformed or the
message is complete, but not when the bytes end inside the body, and not at all
in the state `kGotAll`.  In all other cases each turn takes a line off the
buffer.
-/

namespace KitMuduo

open DecimalText ListSearch WhileLoop

namespace CustomHttpParser

variable {turn : Turn} {parser : CustomHttpParser} {bytes rest : Bytes}

@[simp]
theorem setState_state (parser : CustomHttpParser) (state : HttpParseState) :
    (parser.setState state).context.state = state :=
  rfl

@[simp]
theorem setState_readLen (parser : CustomHttpParser)
    (state : HttpParseState) :
    (parser.setState state).readLen = parser.readLen :=
  rfl

@[simp]
theorem setType_state (parser : CustomHttpParser) (type : HttpParserType) :
    (parser.setType type).context.state = parser.context.state :=
  rfl

@[simp]
theorem changeBody_state (parser : CustomHttpParser) (change : Body → Body) :
    (parser.changeBody change).context.state = parser.context.state := by
  cases hType : parser.type <;>
    simp [changeBody, hType, setRequest, setResponse]

@[simp]
theorem takeBody_state (parser : CustomHttpParser) (data : Bytes) :
    (parser.takeBody data).context.state = parser.context.state :=
  changeBody_state _ _

@[simp]
theorem addHeader_state (parser : CustomHttpParser) (head val : Bytes) :
    (parser.addHeader head val).context.state = parser.context.state := by
  cases hType : parser.type <;>
    simp [addHeader, hType, setRequest, setResponse]

@[simp]
theorem processRequestLine_state (parser : CustomHttpParser) (line : Bytes) :
    (parser.processRequestLine line).2.context.state =
      parser.context.state := by
  unfold processRequestLine
  cases line.idxOf? 32 with
  | none => rfl
  | some spacePos =>
      cases parser.type with
      | UnkownType => rfl
      | ReqType =>
          dsimp only
          split
          · rfl
          · split <;> rfl
      | RespType =>
          dsimp only
          split <;> rfl

/-- Header lines, given as the two sides of their first colons. -/
def headerLines (fields : List (Bytes × Bytes)) : Bytes :=
  fields.flatMap fun field => (field.1 ++ 58 :: field.2) ++ kCRLF

theorem headerLines_cons (field : Bytes × Bytes)
    (fields : List (Bytes × Bytes)) (behind : Bytes) :
    headerLines (field :: fields) ++ behind =
      (field.1 ++ 58 :: field.2) ++
        (kCRLF ++ (headerLines fields ++ behind)) := by
  simp [headerLines]

/-- The parser after it stored the headers of some lines. -/
def addHeaders (parser : CustomHttpParser) (fields : List (Bytes × Bytes)) :
    CustomHttpParser :=
  fields.foldl (fun parser field => parser.addHeader field.1 field.2) parser

/-- The bytes hold all header lines and the blank line, and behind it less than
the body these headers announce. -/
def HeadersStarve (parser : CustomHttpParser) (bytes : Bytes) : Prop :=
  ∃ fields rest, bytes = headerLines fields ++ (kCRLF ++ rest) ∧
    (∀ field ∈ fields, IsField field) ∧
    rest.length < (parser.addHeaders fields).contentLength

/-- What is missing of the head of a message is complete, but not the body. -/
def Starves (parser : CustomHttpParser) (bytes : Bytes) : Prop :=
  match parser.context.state with
  | .kExpectRequestLine =>
      ∃ line rest, bytes = line ++ (kCRLF ++ rest) ∧ IsLine line ∧
        (parser.processRequestLine line).1 = true ∧
        HeadersStarve ((parser.processRequestLine line).2.setState
          .kExpectHeaders) rest
  | .kExpectHeaders => HeadersStarve parser bytes
  | _ => False

theorem headersStarve_blank :
    HeadersStarve parser (kCRLF ++ rest) ↔
      rest.length < parser.contentLength := by
  constructor
  · rintro ⟨fields, other, same, isField, short⟩
    cases fields with
    | nil =>
        rw [headerLines, List.flatMap_nil, List.nil_append] at same
        rw [List.append_cancel_left same]
        exact short
    | cons field fields =>
        have first := (isField field List.mem_cons_self).2
        rw [headerLines_cons] at same
        have noLine := (line_unique isLine_nil first same).1
        cases field with
        | mk head val => cases head <;> cases noLine
  · intro short
    exact ⟨[], rest, rfl, by simp, short⟩

theorem headersStarve_line {head val : Bytes}
    (isField : IsField (head, val)) :
    HeadersStarve parser ((head ++ 58 :: val) ++ (kCRLF ++ rest)) ↔
      HeadersStarve (parser.addHeader head val) rest := by
  constructor
  · rintro ⟨fields, other, same, areFields, short⟩
    cases fields with
    | nil =>
        have noLine := (line_unique isField.2 isLine_nil same).1
        cases head <;> cases noLine
    | cons field fields =>
        have first := areFields field List.mem_cons_self
        rw [headerLines_cons] at same
        obtain ⟨sameLine, sameRest⟩ := line_unique isField.2 first.2 same
        obtain ⟨sameHead, sameVal⟩ :=
          append_cons_unique isField.1 first.1 sameLine
        refine ⟨fields, other, sameRest, fun field member =>
          areFields field (List.mem_cons_of_mem _ member), ?_⟩
        rw [addHeaders, List.foldl_cons, ← sameHead, ← sameVal] at short
        exact short
  · rintro ⟨fields, other, same, areFields, short⟩
    refine ⟨(head, val) :: fields, other, ?_, ?_, short⟩
    · rw [headerLines_cons, same]
    · intro field member
      rcases List.mem_cons.mp member with rfl | member
      · exact isField
      · exact areFields field member

theorem not_headersStarve_of_bad_line {line : Bytes} (isLine : IsLine line)
    (nonempty : line ≠ []) (noColon : 58 ∉ line) :
    ¬ HeadersStarve parser (line ++ (kCRLF ++ rest)) := by
  rintro ⟨fields, other, same, areFields, _⟩
  cases fields with
  | nil => exact nonempty (line_unique isLine isLine_nil same).1
  | cons field fields =>
      have first := areFields field List.mem_cons_self
      rw [headerLines_cons] at same
      have sameLine := (line_unique isLine first.2 same).1
      exact noColon (by simp [sameLine])

/-- Without a complete line nothing is announced. -/
theorem not_headersStarve_of_no_line
    (noLine : ∀ line rest, bytes ≠ line ++ (kCRLF ++ rest)) :
    ¬ HeadersStarve parser bytes := by
  rintro ⟨fields, rest, same, _, _⟩
  exact noLine (headerLines fields) rest same

/-- A loop that waits for bytes of the body without taking any. -/
structure Stuck (turn : Turn) : Prop where
  goesOn : turn.hasMore = true
  state : turn.parser.context.state = .kExpectBody
  valid : turn.buf.Valid
  short : turn.buf.readable.length < turn.parser.readLen

theorem Stuck.next (stuck : Stuck turn) : Stuck (next turn) := by
  have behind : (turn.buf.reset turn.buf.readable.length).readable = [] :=
    Buffer.reset_of_readable stuck.valid (List.append_nil _).symm
  have short := stuck.short
  rw [CustomHttpParser.next, stuck.state,
    expectBody_of_short stuck.valid stuck.short]
  refine ⟨stuck.goesOn, ?_, Buffer.reset_valid stuck.valid _, ?_⟩
  · rw [takeBody_state]
    exact stuck.state
  · rw [behind, takeBody_readLen, List.length_nil]
    omega

/-- In the body the loop ends exactly if all of it is there. -/
theorem halts_body (turn : Turn)
    (state : turn.parser.context.state = .kExpectBody)
    (valid : turn.buf.Valid) (goesOn : turn.hasMore = true) :
    Halts Turn.hasMore next turn ↔
      turn.parser.readLen ≤ turn.buf.readable.length := by
  have step : next turn = expectBody turn := by
    rw [CustomHttpParser.next, state]
  obtain ⟨data, rest, read, all, turned⟩ | ⟨short, _⟩ :=
    expectBody_cases valid
  · rw [← halts_body_iff goesOn, step, turned, all, read, List.length_append]
    exact iff_of_true (halts_of_not_more rfl) (Nat.le_add_right _ _)
  · have stuck : Stuck turn := ⟨goesOn, state, valid, short⟩
    refine iff_of_false ?_ (Nat.not_le.mpr short)
    exact not_halts_of_invariant stuck (fun _ stuck => stuck.goesOn)
      fun _ stuck => stuck.next

/-- Behind the blank line the loop ends exactly if the body is there. -/
theorem halts_headersDone (valid : turn.buf.Valid)
    (goesOn : turn.hasMore = true)
    (read : turn.buf.readable = kCRLF ++ rest) :
    Halts Turn.hasMore next (headersDone turn) ↔
      turn.parser.contentLength ≤ rest.length := by
  have behind : (turn.buf.reset 2).readable = rest :=
    Buffer.reset_of_readable valid read
  by_cases noBody : turn.parser.contentLength = 0
  · rw [headersDone_of_no_body noBody]
    apply iff_of_true (halts_of_not_more rfl)
    rw [noBody]
    exact Nat.zero_le _
  · have body := halts_body
      { turn with
        parser := turn.parser.startBody
        buf := turn.buf.reset 2 }
      (setState_state _ _) (Buffer.reset_valid valid 2) goesOn
    rw [behind, startBody, setState_readLen, changeBody_readLen] at body
    rw [headersDone_of_body noBody]
    exact body

theorem halts_headers (turn : Turn)
    (state : turn.parser.context.state = .kExpectHeaders)
    (valid : turn.buf.Valid) (goesOn : turn.hasMore = true) :
    Halts Turn.hasMore next turn ↔
      ¬ HeadersStarve turn.parser turn.buf.readable := by
  -- Every turn that goes on in this state takes a line off the buffer.
  induction size : turn.buf.readable.length using Nat.strongRecOn
    generalizing turn with
  | ind size ih =>
      have step : next turn = expectHeaders turn := by rw [next, state]
      rw [← halts_body_iff goesOn, step]
      obtain ⟨none, turned⟩ | ⟨head, val, rest, isField, read, turned⟩ |
        ⟨rest, read, turned⟩ | ⟨line, rest, isLine, blank, colon, read, turned⟩ :=
          expectHeaders_cases valid
      · rw [turned]
        exact iff_of_true (halts_of_not_more rfl)
          (not_headersStarve_of_no_line fun _ _ =>
            readable_of_findCRLF_eq_none none)
      · have behind := skipLine_readable valid read
        have later := ih rest.length
          (by rw [← size, read]; simp; omega)
          { turn with
            parser := turn.parser.addHeader head val
            buf := skipLine turn.buf (head ++ 58 :: val) }
          (by rw [addHeader_state]; exact state)
          (skipLine_valid valid _) goesOn (by rw [behind])
        rw [behind] at later
        rw [turned, read, headersStarve_line isField]
        exact later
      · rw [turned, halts_headersDone valid goesOn read, read,
          headersStarve_blank, not_lt]
      · rw [turned, read]
        exact iff_of_true (halts_of_not_more rfl)
          (not_headersStarve_of_bad_line isLine blank colon)

theorem halts_requestLine (turn : Turn)
    (state : turn.parser.context.state = .kExpectRequestLine)
    (valid : turn.buf.Valid) (goesOn : turn.hasMore = true) :
    Halts Turn.hasMore next turn ↔
      ¬ Starves turn.parser turn.buf.readable := by
  have step : next turn = expectRequestLine turn := by rw [next, state]
  rw [← halts_body_iff goesOn, step, Starves, state]
  obtain ⟨none, turned⟩ | ⟨line, rest, isLine, read, rejected, turned⟩ |
    ⟨line, rest, isLine, read, accepted, turned⟩ :=
      expectRequestLine_cases valid
  · rw [turned]
    apply iff_of_true (halts_of_not_more rfl)
    rintro ⟨line, rest, read, _⟩
    exact readable_of_findCRLF_eq_none none read
  · rw [turned]
    apply iff_of_true (halts_of_not_more rfl)
    rintro ⟨other, otherRest, same, isLineOther, accepted, _⟩
    obtain ⟨rfl, rfl⟩ := line_unique isLine isLineOther (read.symm.trans same)
    rw [rejected] at accepted
    cases accepted
  · have later := halts_headers
      { turn with
        parser := (turn.parser.processRequestLine line).2.setState
          .kExpectHeaders
        ok := true
        buf := skipLine turn.buf line }
      (setState_state _ _) (skipLine_valid valid line) goesOn
    rw [skipLine_readable valid read] at later
    rw [turned, later, not_iff_not]
    constructor
    · intro starves
      exact ⟨line, rest, read, isLine, accepted, starves⟩
    · rintro ⟨other, otherRest, same, isLineOther, _, starves⟩
      obtain ⟨rfl, rfl⟩ := line_unique isLine isLineOther (read.symm.trans same)
      exact starves

def Terminates (parser : CustomHttpParser) (buf : Buffer) : Prop :=
  ∃ turns, (parse turns parser buf).isSome = true

/-- The parsers that calls of `parse` leave, each on a buffer of its own and for
a message type of its own. -/
inductive Reachable : CustomHttpParser → Prop
  | fresh : Reachable {}
  | call {parser next : CustomHttpParser} {type : HttpParserType}
      {buf rest : Buffer} {turns : Nat} {ok : Bool}
      (earlier : Reachable parser) (valid : buf.Valid)
      (returned : parse turns (parser.setType type) buf =
        some (ok, next, rest)) :
      Reachable next

theorem terminates_of_empty {buf : Buffer} (valid : buf.Valid)
    (empty : buf.readable = []) : Terminates parser buf := by
  have none : buf.readableBytes = 0 := by
    rw [← Buffer.readable_length valid, empty]
    rfl
  exact ⟨0, by rw [parse, if_pos none]; rfl⟩

theorem terminates_iff_halts {buf : Buffer} (valid : buf.Valid)
    (nonempty : buf.readable ≠ []) :
    Terminates parser buf ↔
      Halts Turn.hasMore next { parser := parser, buf := buf } := by
  have some : buf.readableBytes ≠ 0 := by
    rw [← Buffer.readable_length valid]
    exact fun zero => nonempty (List.eq_nil_of_length_eq_zero zero)
  simp only [Terminates, parse, if_neg some, Option.isSome_map,
    Option.isSome_iff_exists, Halts, Returns]
  exact exists_comm

/-- A turn that stops the loop does not stop it inside the body. -/
theorem next_state_ne_body (valid : turn.buf.Valid)
    (goesOn : turn.hasMore = true) (stops : (next turn).hasMore = false) :
    (next turn).parser.context.state ≠ .kExpectBody := by
  unfold next at stops ⊢
  cases state : turn.parser.context.state with
  | kExpectRequestLine =>
      obtain ⟨_, turned⟩ | ⟨line, _, _, _, _, turned⟩ |
        ⟨_, _, _, _, _, turned⟩ := expectRequestLine_cases valid
      · simp [turned, state]
      · simp [turned, state]
      · simp [turned]
  | kExpectHeaders =>
      simp only [state] at stops
      obtain ⟨_, turned⟩ | ⟨_, _, _, _, _, turned⟩ | ⟨_, _, turned⟩ |
        ⟨_, _, _, _, _, _, turned⟩ := expectHeaders_cases valid
      · simp [turned, state]
      · simp [turned, state]
      · rw [turned] at stops ⊢
        by_cases noBody : turn.parser.contentLength = 0
        · simp [headersDone_of_no_body noBody]
        · rw [headersDone_of_body noBody, goesOn] at stops
          cases stops
      · simp [turned, state]
  | kExpectBody =>
      simp only [state] at stops
      obtain ⟨_, _, _, _, turned⟩ | ⟨_, turned⟩ := expectBody_cases valid
      · simp [turned]
      · rw [turned, goesOn] at stops
        cases stops
  | kGotAll => simp [state]

theorem next_valid (valid : turn.buf.Valid) : (next turn).buf.Valid := by
  unfold next
  split
  · obtain ⟨_, turned⟩ | ⟨_, _, _, _, _, turned⟩ | ⟨line, _, _, _, _, turned⟩ :=
      expectRequestLine_cases valid
    · exact turned ▸ valid
    · exact turned ▸ valid
    · exact turned ▸ skipLine_valid valid line
  · obtain ⟨_, turned⟩ | ⟨_, _, _, _, _, turned⟩ | ⟨_, _, turned⟩ |
      ⟨_, _, _, _, _, _, turned⟩ := expectHeaders_cases valid
    · exact turned ▸ valid
    · exact turned ▸ skipLine_valid valid _
    · rw [turned]
      by_cases noBody : turn.parser.contentLength = 0
      · rw [headersDone_of_no_body noBody]
        exact Buffer.reset_valid valid 2
      · rw [headersDone_of_body noBody]
        exact Buffer.reset_valid valid 2
    · exact turned ▸ valid
  · obtain ⟨_, _, _, _, turned⟩ | ⟨_, turned⟩ := expectBody_cases valid
    · exact turned ▸ Buffer.reset_valid valid _
    · exact turned ▸ Buffer.reset_valid valid _
  · exact valid

/-- A call that returns does not return inside the body. -/
theorem Reachable.state_ne_body (reachable : Reachable parser) :
    parser.context.state ≠ .kExpectBody := by
  induction reachable with
  | fresh => decide
  | @call parser next type buf rest turns ok _ valid returned ih =>
      rw [parse] at returned
      split at returned
      · simp only [Option.some.injEq, Prod.mk.injEq] at returned
        rw [← returned.2.1]
        exact ih
      · obtain ⟨turn, result, same⟩ := Option.map_eq_some_iff.mp returned
        let Inside : Turn → Prop := fun turn =>
          turn.buf.Valid ∧
            (turn.hasMore = false → turn.parser.context.state ≠ .kExpectBody)
        have inside : Inside { parser := parser.setType type, buf := buf } :=
          ⟨valid, fun stops => by cases stops⟩
        have kept : ∀ turn, Inside turn → turn.hasMore = true →
            Inside (CustomHttpParser.next turn) := fun turn inside goesOn =>
          ⟨next_valid inside.1, next_state_ne_body inside.1 goesOn⟩
        have final := Returns.invariant inside kept ⟨turns, result⟩
        simp only [Prod.mk.injEq] at same
        rw [← same.2.1]
        exact final.1.2 final.2

/-- A call of `parse` ends exactly if there is nothing to read, or if the last
message is not complete yet and the head of the message, if all of it is there,
announces no more bytes than are there. -/
theorem terminates_iff (reachable : Reachable parser) {buf : Buffer}
    (valid : buf.Valid) (type : HttpParserType) :
    Terminates (parser.setType type) buf ↔
      buf.readable = [] ∨
        parser.context.state ≠ .kGotAll ∧
          ¬ Starves (parser.setType type) buf.readable := by
  by_cases empty : buf.readable = []
  · exact iff_of_true (terminates_of_empty valid empty) (.inl empty)
  · rw [terminates_iff_halts valid empty, or_iff_right empty]
    cases state : parser.context.state with
    | kExpectRequestLine =>
        rw [halts_requestLine _ state valid rfl]
        simp
    | kExpectHeaders =>
        rw [halts_headers _ state valid rfl]
        simp [Starves, state]
    | kExpectBody => exact absurd state reachable.state_ne_body
    | kGotAll =>
        have stuck : ¬ Halts Turn.hasMore next
            { parser := parser.setType type, buf := buf } :=
          not_halts_of_fixed rfl (by rw [next, setType_state, state])
        simp [stuck]

/-- A request whose body is still on its way. -/
def halfRequest : Bytes :=
  ascii "POST / HTTP/1.1\r\nContent-Length: 5\r\n\r\nab"

def halfBuffer : Buffer :=
  (Buffer.new Buffer.kInitSize).append halfRequest

theorem halfBuffer_valid : halfBuffer.Valid :=
  Buffer.append_valid (Buffer.new_valid _) _

theorem halfBuffer_readable : halfBuffer.readable = halfRequest :=
  Buffer.append_readable (Buffer.new_valid _) _

theorem terminates_iff_halfRequest :
    Terminates (setType {} .ReqType) halfBuffer ↔
      halfBuffer.readable = [] ∨
        HttpParseState.kExpectRequestLine ≠ .kGotAll ∧
          ¬ Starves (setType {} .ReqType) halfBuffer.readable :=
  terminates_iff .fresh halfBuffer_valid .ReqType

theorem starves_halfRequest : Starves (setType {} .ReqType) halfRequest := by
  refine ⟨ascii "POST / HTTP/1.1", ascii "Content-Length: 5\r\n\r\nab",
    by decide, by unfold IsLine; decide, by decide, ?_⟩
  refine ⟨[(ascii "Content-Length", ascii " 5")], ascii "ab", by decide,
    ?_, by decide⟩
  intro field member
  rw [List.mem_singleton] at member
  subst member
  exact ⟨by decide, by unfold IsLine; decide⟩

theorem not_terminates_halfRequest :
    ¬ ∀ (parser : CustomHttpParser) (type : HttpParserType) (buf : Buffer),
      Reachable parser → buf.Valid → Terminates (parser.setType type) buf := by
  intro terminates
  have halts := terminates {} .ReqType halfBuffer .fresh halfBuffer_valid
  have nonempty : halfBuffer.readable ≠ [] := by
    rw [halfBuffer_readable]
    decide
  have loop := halts_requestLine
    { parser := setType {} .ReqType, buf := halfBuffer } rfl
    halfBuffer_valid rfl
  rw [← terminates_iff_halts halfBuffer_valid nonempty] at loop
  apply loop.mp halts
  rw [halfBuffer_readable]
  exact starves_halfRequest

end CustomHttpParser

end KitMuduo
