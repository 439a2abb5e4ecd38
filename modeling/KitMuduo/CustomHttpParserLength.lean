import KitMuduo.HttpParserAgreement

/-!
# The length a request announces

The text behind `Content-Length` goes through `atoi` into an `int` and from
there into a `size_t`.  Any text is taken for a length, so that no request is
refused for it; a decimal number is taken for itself only if an `int` holds it.
-/

namespace KitMuduo

open DecimalText ListSearch WhileLoop

/-- The parts of a request with a header for the length of its body.  Of several
such headers the last one counts, which stands between `front` and `back`. -/
structure AnnouncedRequest where
  line : Bytes
  front : List (Bytes × Bytes)
  field : Bytes × Bytes
  back : List (Bytes × Bytes)
  rest : Bytes
  isLine : CustomHttpParser.IsLine line
  accepted : (CustomHttpParser.processRequestLine {} line).1 = true
  areFields : ∀ other ∈ front ++ field :: back,
    CustomHttpParser.IsField other
  named : DelSpaceHelper field.1 = ascii "Content-Length"
  last : ∀ other ∈ back, DelSpaceHelper other.1 ≠ ascii "Content-Length"

namespace AnnouncedRequest

def fields (request : AnnouncedRequest) : List (Bytes × Bytes) :=
  request.front ++ request.field :: request.back

def text (request : AnnouncedRequest) : Bytes :=
  request.line ++ (kCRLF ++
    (CustomHttpParser.headerLines request.fields ++ (kCRLF ++ request.rest)))

/-- The value of the header. -/
def length (request : AnnouncedRequest) : Bytes :=
  DelSpaceHelper request.field.2

end AnnouncedRequest

namespace CustomHttpParser

variable {parser : CustomHttpParser} {request : AnnouncedRequest}
  {buf : Buffer} {head val key : Bytes}

/-! ## What the head leaves alone -/

theorem processRequestLine_type (parser : CustomHttpParser) (line : Bytes) :
    (parser.processRequestLine line).2.type = parser.type := by
  unfold processRequestLine
  cases line.idxOf? 32 with
  | none => rfl
  | some spacePos =>
      cases parserType : parser.type with
      | UnkownType => exact parserType
      | ReqType =>
          dsimp only
          split
          · exact parserType
          · split <;> exact parserType
      | RespType =>
          dsimp only
          split <;> exact parserType

theorem processRequestLine_body (parser : CustomHttpParser) (line : Bytes) :
    (parser.processRequestLine line).2.context.request.body =
      parser.context.request.body := by
  unfold processRequestLine
  cases line.idxOf? 32 with
  | none => rfl
  | some spacePos =>
      cases parser.type with
      | UnkownType => rfl
      | ReqType =>
          dsimp only
          split
          · rfl
          · split <;> rfl
      | RespType =>
          dsimp only
          split <;> rfl

/-- A header line changes nothing but the headers of the request. -/
theorem addHeader_eq (type : parser.type = .ReqType) (head val : Bytes) :
    parser.addHeader head val =
      parser.setRequest { parser.context.request with
        headers := match trimmedHeader head val with
          | none => parser.context.request.headers
          | some (head, val) =>
              parser.context.request.headers.insert head val } := by
  rw [addHeader, type]
  simp only [HttpRequest.addHeaderLine]
  cases trimmedHeader head val <;> rfl

theorem getHeader_addHeader_of_ne (type : parser.type = .ReqType)
    (other : DelSpaceHelper head ≠ key) :
    (parser.addHeader head val).getHeader key = parser.getHeader key := by
  rw [addHeader_eq type]
  simp only [getHeader, setRequest, type, HttpRequest.getHeader]
  unfold trimmedHeader
  split_ifs
  · rfl
  · rfl
  · simp only
    rw [Finmap.lookup_insert_of_ne _ (Ne.symm other)]

theorem getHeader_addHeader (type : parser.type = .ReqType)
    (named : DelSpaceHelper head = key) (keyed : key ≠ [])
    (valued : DelSpaceHelper val ≠ []) :
    (parser.addHeader head val).getHeader key = DelSpaceHelper val := by
  rw [addHeader_eq type]
  simp only [getHeader, setRequest, type, HttpRequest.getHeader]
  unfold trimmedHeader
  rw [if_neg (named ▸ keyed), if_neg valued]
  simp only
  rw [named, Finmap.lookup_insert, Option.getD_some]

/-- What header lines do not change. -/
structure SameMessage (parser other : CustomHttpParser) : Prop where
  type : other.type = parser.type
  state : other.context.state = parser.context.state
  body : other.context.request.body = parser.context.request.body

theorem addHeaders_sameMessage (type : parser.type = .ReqType)
    (fields : List (Bytes × Bytes)) :
    SameMessage parser (parser.addHeaders fields) := by
  induction fields generalizing parser with
  | nil => exact ⟨rfl, rfl, rfl⟩
  | cons field fields ih =>
      have added := addHeader_eq type field.1 field.2
      have addedType : (parser.addHeader field.1 field.2).type = .ReqType := by
        rw [added]
        exact type
      have later := ih addedType
      rw [addHeaders, List.foldl_cons, ← addHeaders]
      exact ⟨by rw [later.type, added]; rfl, by rw [later.state, added]; rfl,
        by rw [later.body, added]; rfl⟩

theorem getHeader_addHeaders_of_ne (type : parser.type = .ReqType)
    {fields : List (Bytes × Bytes)}
    (others : ∀ field ∈ fields, DelSpaceHelper field.1 ≠ key) :
    (parser.addHeaders fields).getHeader key = parser.getHeader key := by
  induction fields generalizing parser with
  | nil => rfl
  | cons field fields ih =>
      rw [List.forall_mem_cons] at others
      have added := addHeader_eq type field.1 field.2
      rw [addHeaders, List.foldl_cons, ← addHeaders, ih _ others.2,
        getHeader_addHeader_of_ne type others.1]
      rw [added]
      exact type

/-- The last header with the name gives the length, if it has a value. -/
theorem contentLength_addHeaders (type : parser.type = .ReqType)
    (valued : request.length ≠ []) :
    (parser.addHeaders request.fields).contentLength =
      toSize (atoi request.length) := by
  have split : parser.addHeaders request.fields =
      ((parser.addHeaders request.front).addHeader request.field.1
        request.field.2).addHeaders request.back := by
    simp [addHeaders, AnnouncedRequest.fields]
  have frontType : (parser.addHeaders request.front).type = .ReqType :=
    (addHeaders_sameMessage type request.front).type.trans type
  have fieldType : ((parser.addHeaders request.front).addHeader
      request.field.1 request.field.2).type = .ReqType := by
    rw [addHeader_eq frontType]
    exact frontType
  rw [contentLength, split, getHeader_addHeaders_of_ne fieldType request.last,
    getHeader_addHeader frontType request.named (by decide) valued]
  rfl

/-! ## What the parser returns -/

/-- The parser behind the headers of a request. -/
structure BehindFields (request : AnnouncedRequest) (turn : Turn) : Prop where
  type : turn.parser.type = .ReqType
  state : turn.parser.context.state = .kExpectHeaders
  valid : turn.buf.Valid
  goesOn : turn.hasMore = true
  ok : turn.ok = true
  read : turn.buf.readable = kCRLF ++ request.rest
  body : turn.parser.context.request.body.data = []
  contentLength : request.length ≠ [] →
    turn.parser.contentLength = toSize (atoi request.length)

theorem returns_fields (valid : buf.Valid)
    (received : buf.readable = request.text) :
    ∃ turn, BehindFields request turn ∧
      ∀ final, Returns Turn.hasMore next { parser := {}, buf := buf } final ↔
        Returns Turn.hasMore next turn final := by
  let lineParser : CustomHttpParser :=
    (processRequestLine {} request.line).2.setState .kExpectHeaders
  let turn : Turn :=
    { parser := lineParser, buf := skipLine buf request.line }
  have lineType : lineParser.type = .ReqType :=
    processRequestLine_type {} request.line
  have lineBody : lineParser.context.request.body = {} :=
    processRequestLine_body {} request.line
  have turned : next { parser := {}, buf := buf } = turn :=
    expectRequestLine_of_line valid request.isLine received request.accepted
  obtain ⟨left, leftValid, read, later⟩ := returns_headerLines request.fields
    turn request.areFields rfl (skipLine_valid valid request.line) rfl
    (skipLine_readable valid received)
  have same := addHeaders_sameMessage lineType request.fields
  refine ⟨{ turn with
    parser := lineParser.addHeaders request.fields, buf := left }, ?_, ?_⟩
  · exact
      { type := same.type.trans lineType
        state := same.state
        valid := leftValid
        goesOn := rfl
        ok := rfl
        read := read
        body := by rw [same.body, lineBody]
        contentLength := contentLength_addHeaders lineType }
  · intro final
    rw [← later final, ← turned]
    exact (returns_body_iff rfl).symm

/-- Nothing is refused: what a call returns is a complete message whose body has
the length in which the parser stored the header. -/
theorem framed_of_parse (valid : buf.Valid)
    (received : buf.readable = request.text) {turns : Nat} {ok : Bool}
    {left : Buffer} (returned : parse turns {} buf = some (ok, parser, left)) :
    ok = true ∧ parser.context.state = .kGotAll ∧
      request.rest = parser.context.request.body.data ++ left.readable ∧
      (request.length ≠ [] → parser.context.request.body.data.length =
        toSize (atoi request.length)) := by
  obtain ⟨turn, behind, runs⟩ := returns_fields valid received
  have nonempty : buf.readableBytes ≠ 0 := by
    rw [← Buffer.readable_length valid, received]
    simp [AnnouncedRequest.text, kCRLF, ascii]
  rw [parse, if_neg nonempty, Option.map_eq_some_iff] at returned
  obtain ⟨final, result, equal⟩ := returned
  cases equal
  obtain ⟨ok, gotAll, _, data, split, length, body⟩ :=
    returns_blank behind.type behind.state behind.valid behind.goesOn
      behind.read ((runs final).mp ⟨turns, result⟩)
  rw [behind.body, List.nil_append] at body
  refine ⟨ok.trans behind.ok, gotAll, ?_, ?_⟩
  · rw [body]
    exact split
  · intro valued
    rw [body, length, behind.contentLength valued]

/-- A call returns if the bytes are there that it waits for. -/
theorem exists_parse (valid : buf.Valid)
    (received : buf.readable = request.text) (valued : request.length ≠ [])
    (enough : toSize (atoi request.length) ≤ request.rest.length) :
    ∃ turns ok parser left,
      parse turns {} buf = some (ok, parser, left) := by
  obtain ⟨turn, behind, runs⟩ := returns_fields valid received
  rw [← behind.contentLength valued] at enough
  obtain ⟨final, returned, _⟩ := endsIn_blank behind.type behind.state
    behind.valid behind.goesOn behind.read enough
  obtain ⟨turns, result⟩ := (runs final).mpr returned
  have nonempty : buf.readableBytes ≠ 0 := by
    rw [← Buffer.readable_length valid, received]
    simp [AnnouncedRequest.text, kCRLF, ascii]
  refine ⟨turns, final.ok, final.parser, final.buf, ?_⟩
  rw [parse, if_neg nonempty, result]
  rfl

/-- A decimal number below 2^64 frames the body: it is taken if all of it is
there, and waited for otherwise.  Any other text is refused. -/
def TakesAnnounced (request : AnnouncedRequest) (buf : Buffer) : Prop :=
  ∃ turns ok parser left, parse turns {} buf = some (ok, parser, left) ∧
    match decimalValue request.length with
    | some length =>
        if length < 2 ^ 64 then
          ok = true ∧
            if length ≤ request.rest.length then
              parser.context.state = .kGotAll ∧
                parser.context.request.body.data = request.rest.take length ∧
                left.readable = request.rest.drop length
            else
              parser.context.state ≠ .kGotAll
        else
          ok = false
    | none => ok = false

open WrittenRequest (LengthFits) in
/-- That is so exactly if the text is a number an `int` holds and the body is
there already. -/
theorem takesAnnounced_iff (valid : buf.Valid)
    (received : buf.readable = request.text) :
    TakesAnnounced request buf ↔
      ∃ length, decimalValue request.length = some length ∧
        LengthFits length ∧ length ≤ request.rest.length := by
  have stored {length : Nat} (decimal : decimalValue request.length =
      some length) : request.length ≠ [] ∧
        (toSize (atoi request.length) = length ↔ LengthFits length) := by
    constructor
    · intro empty
      rw [empty] at decimal
      cases decimal
    · have read := WrittenRequest.toSize_atoi_iff decimal
        (show ∀ c ∈ ([] : Bytes).head?, isDigit c = false by simp)
      rwa [List.append_nil] at read
  constructor
  · rintro ⟨turns, ok, parser, left, returned, wanted⟩
    obtain ⟨accepted, gotAll, split, taken⟩ :=
      framed_of_parse valid received returned
    cases decimal : decimalValue request.length with
    | none =>
        rw [decimal] at wanted
        exact absurd (accepted.symm.trans wanted) (by decide)
    | some length =>
        rw [decimal] at wanted
        obtain ⟨valued, fits⟩ := stored decimal
        simp only at wanted
        split_ifs at wanted with small there
        · refine ⟨length, rfl, fits.mp ?_, there⟩
          rw [← taken valued, wanted.2.2.1, List.length_take]
          exact Nat.min_eq_left there
        · exact absurd gotAll wanted.2
        · exact absurd (accepted.symm.trans wanted) (by decide)
  · rintro ⟨length, decimal, fits, there⟩
    obtain ⟨valued, same⟩ := stored decimal
    have announced := same.mpr fits
    obtain ⟨turns, ok, parser, left, returned⟩ :=
      exists_parse valid received valued (by rwa [announced])
    obtain ⟨accepted, gotAll, split, taken⟩ :=
      framed_of_parse valid received returned
    have bodyLength := (taken valued).trans announced
    have small : length < 2 ^ 64 := by
      rcases fits with int | all <;> omega
    refine ⟨turns, ok, parser, left, returned, ?_⟩
    rw [decimal]
    simp only [if_pos small, if_pos there]
    refine ⟨accepted, gotAll, ?_, ?_⟩
    · rw [split, List.take_left' bodyLength]
    · rw [split, List.drop_left' bodyLength]

/-- A request with five bytes behind the head. -/
def fiveBytes (val : Bytes)
    (isLine : IsLine (ascii "Content-Length" ++ 58 :: val)) :
    AnnouncedRequest where
  line := ascii "POST / HTTP/1.1"
  front := []
  field := (ascii "Content-Length", val)
  back := []
  rest := ascii "hello"
  isLine := isLine_of_not_mem (by simp [ascii])
  accepted := by decide
  areFields other member := by
    rw [List.nil_append, List.mem_singleton] at member
    subst member
    exact ⟨by simp [ascii], isLine⟩
  named := show DelSpaceHelper (ascii "Content-Length") = _ by decide
  last other member := by cases member

def announced : AnnouncedRequest :=
  fiveBytes (ascii " 5") (isLine_of_not_mem (by simp [ascii]))

/-- The length is followed by a letter. -/
def misspelled : AnnouncedRequest :=
  fiveBytes (ascii " 5x") (isLine_of_not_mem (by simp [ascii]))

def received (request : AnnouncedRequest) : Buffer :=
  (Buffer.new Buffer.kInitSize).append request.text

theorem received_valid (request : AnnouncedRequest) :
    (received request).Valid :=
  Buffer.append_valid (Buffer.new_valid _) _

theorem received_readable (request : AnnouncedRequest) :
    (received request).readable = request.text :=
  Buffer.append_readable (Buffer.new_valid _) _

theorem takesAnnounced_announced :
    TakesAnnounced announced (received announced) :=
  (takesAnnounced_iff (received_valid announced)
    (received_readable announced)).mpr
      ⟨5, by decide, .inl (by decide), by decide⟩

theorem not_takesAnnounced_misspelled :
    ¬ ∀ (request : AnnouncedRequest) (buf : Buffer), buf.Valid →
      buf.readable = request.text → TakesAnnounced request buf := by
  intro always
  have valid := received_valid misspelled
  have readable := received_readable misspelled
  obtain ⟨turns, ok, parser, left, returned, wanted⟩ :=
    always misspelled (received misspelled) valid readable
  have noNumber : decimalValue misspelled.length = none := by decide
  rw [noNumber] at wanted
  have accepted := (framed_of_parse valid readable returned).1
  exact absurd (accepted.symm.trans wanted) (by decide)

end CustomHttpParser

end KitMuduo
