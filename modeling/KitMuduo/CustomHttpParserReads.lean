import KitMuduo.CustomHttpParserTermination

/-!
# What the parser makes of a head and the bytes behind it

The loop reads header lines one by one.  Behind the blank line it returns if all
bytes that the headers announce are there, and takes exactly these for the body.
-/

namespace KitMuduo

open DecimalText ListSearch WhileLoop

namespace CustomHttpParser

variable {turn final : Turn} {parser : CustomHttpParser} {rest behind : Bytes}

/-- Behind some header lines the loop returns what it returns from there. -/
theorem returns_headerLines (fields : List (Bytes × Bytes)) (turn : Turn)
    (areFields : ∀ field ∈ fields, IsField field)
    (state : turn.parser.context.state = .kExpectHeaders)
    (valid : turn.buf.Valid) (goesOn : turn.hasMore = true)
    (read : turn.buf.readable = headerLines fields ++ behind) :
    ∃ buf : Buffer, buf.Valid ∧ buf.readable = behind ∧
      ∀ final, Returns Turn.hasMore next turn final ↔
        Returns Turn.hasMore next
          { turn with parser := turn.parser.addHeaders fields, buf := buf }
          final := by
  induction fields generalizing turn with
  | nil => exact ⟨turn.buf, valid, read, fun _ => Iff.rfl⟩
  | cons field fields ih =>
      obtain ⟨noColon, isLine⟩ := areFields field List.mem_cons_self
      rw [headerLines_cons] at read
      have turned : next turn =
          { turn with
            parser := turn.parser.addHeader field.1 field.2
            buf := skipLine turn.buf (field.1 ++ 58 :: field.2) } := by
        rw [next, state]
        simp only
        rw [expectHeaders_of_line valid noColon isLine read]
      obtain ⟨buf, bufValid, bufRead, later⟩ := ih
        { turn with
          parser := turn.parser.addHeader field.1 field.2
          buf := skipLine turn.buf (field.1 ++ 58 :: field.2) }
        (fun other member => areFields other (List.mem_cons_of_mem _ member))
        ((addHeader_state _ _ _).trans state) (skipLine_valid valid _) goesOn
        (skipLine_readable valid read)
      refine ⟨buf, bufValid, bufRead, fun final => ?_⟩
      rw [← returns_body_iff goesOn, turned]
      exact later final

/-- The message is complete: the head is kept, and the announced bytes behind
it are the body. -/
structure Framed (turn : Turn) (rest : Bytes) (final : Turn) : Prop where
  ok : final.ok = turn.ok
  gotAll : final.parser.context.state = .kGotAll
  kept : final.parser.context.request =
    { turn.parser.context.request with
      body := final.parser.context.request.body }
  body : ∃ data, rest = data ++ final.buf.readable ∧
    data.length = turn.parser.contentLength ∧
    final.parser.context.request.body.data =
      turn.parser.context.request.body.data ++ data

/-- The blank line and what is behind it. -/
theorem endsIn_blank (type : turn.parser.type = .ReqType)
    (state : turn.parser.context.state = .kExpectHeaders)
    (valid : turn.buf.Valid) (goesOn : turn.hasMore = true)
    (read : turn.buf.readable = kCRLF ++ rest)
    (enough : turn.parser.contentLength ≤ rest.length) :
    EndsIn Turn.hasMore next (Framed turn rest) turn := by
  have blank : next turn = headersDone turn := by
    rw [next, state]
    exact expectHeaders_of_blank valid read
  have behind : (turn.buf.reset 2).readable = rest :=
    Buffer.reset_of_readable valid read
  apply EndsIn.of_body goesOn
  rw [blank]
  by_cases none : turn.parser.contentLength = 0
  · rw [headersDone_of_no_body none]
    exact EndsIn.of_not_more rfl
      ⟨rfl, rfl, rfl, [], behind.symm, none.symm, (List.append_nil _).symm⟩
  · rw [headersDone_of_body none]
    obtain ⟨data, unread, rfl, length⟩ : ∃ data unread, rest = data ++ unread ∧
        turn.parser.contentLength = data.length :=
      ⟨_, _, (List.take_append_drop turn.parser.contentLength rest).symm, by
        rw [List.length_take]
        omega⟩
    have all : turn.parser.startBody.readLen = data.length := by
      rw [startBody, setState_readLen, changeBody_readLen]
      exact length
    let reading : Turn :=
      { turn with parser := turn.parser.startBody, buf := turn.buf.reset 2 }
    have expecting : reading.parser.context.state = .kExpectBody :=
      setState_state _ _
    have complete := expectBody_of_complete reading
      (Buffer.reset_valid valid 2) behind all
    apply EndsIn.of_body (show reading.hasMore = true from goesOn)
    rw [next, expecting]
    simp only
    rw [complete]
    refine EndsIn.of_not_more rfl ⟨rfl, rfl, ?_, data, ?_, length.symm, ?_⟩
    · simp [reading, startBody, takeBody, changeBody, withLength, type,
        setRequest, setState]
    · rw [Buffer.reset_of_readable (Buffer.reset_valid valid 2) behind]
    · simp [reading, startBody, takeBody, changeBody, withLength, type,
        setRequest, setState, Body.appendData, Body.setContentType]

/-- Every state the loop returns behind the blank line is of that kind. -/
theorem returns_blank (type : turn.parser.type = .ReqType)
    (state : turn.parser.context.state = .kExpectHeaders)
    (valid : turn.buf.Valid) (goesOn : turn.hasMore = true)
    (read : turn.buf.readable = kCRLF ++ rest)
    (returned : Returns Turn.hasMore next turn final) :
    Framed turn rest final := by
  have enough : turn.parser.contentLength ≤ rest.length := by
    have halts : Halts Turn.hasMore next turn := ⟨final, returned⟩
    rw [halts_headers turn state valid goesOn, read, headersStarve_blank,
      not_lt] at halts
    exact halts
  obtain ⟨other, otherReturned, framed⟩ :=
    endsIn_blank type state valid goesOn read enough
  rw [returned.unique otherReturned]
  exact framed

end CustomHttpParser

end KitMuduo
