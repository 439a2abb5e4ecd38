import KitMuduo.CustomHttpParserReads

/-!
# Reading a printed request back

The text `HttpRequest::toString` prints, with any bytes behind it, makes the
parser fill in the same request and stop at the first byte of what is behind.
The request line, each header line, the blank line and the body are one turn of
the parser's loop each.
-/

namespace KitMuduo

open DecimalText ListSearch WhileLoop

/-- A string without spaces at its ends. -/
def Trimmed (str : Bytes) : Prop :=
  str.head? ≠ some 32 ∧ str.getLast? ≠ some 32

instance (str : Bytes) : Decidable (Trimmed str) :=
  inferInstanceAs (Decidable (_ ∧ _))

theorem find_first_not_of_replicate {first c : UInt8} {str : Bytes}
    (count : Nat) (different : first ≠ c) :
    find_first_not_of (List.replicate count c ++ first :: str) c =
      some count := by
  rw [find_first_not_of]
  induction count with
  | zero => simp [List.findIdx?_cons, different]
  | succ count ih =>
      rw [List.replicate_succ, List.cons_append, List.findIdx?_cons, ih]
      simp

theorem find_last_not_of_replicate {last c : UInt8} {str : Bytes}
    (count : Nat) (different : last ≠ c) :
    find_last_not_of (str ++ last :: List.replicate count c) c =
      some str.length := by
  have reversed : (str ++ last :: List.replicate count c).reverse =
      List.replicate count c ++ last :: str.reverse := by
    simp
  rw [find_last_not_of, reversed, find_first_not_of_replicate count different,
    Option.map_some, List.length_append, List.length_cons,
    List.length_replicate]
  congr 1
  omega

/-- Stripping keeps what stands between two bytes that are no spaces. -/
theorem DelSpaceHelper_spaces {str : Bytes} (before after : Nat)
    (nonempty : str ≠ []) (trimmed : Trimmed str) :
    DelSpaceHelper (List.replicate before 32 ++
      (str ++ List.replicate after 32)) = str := by
  obtain ⟨front, last, whole⟩ :=
    (List.eq_nil_or_concat str).resolve_left nonempty
  have lastNotSpace : last ≠ 32 := by
    rintro rfl
    exact trimmed.2 (by simp [whole])
  have lastFound : find_last_not_of (List.replicate before 32 ++
      (str ++ List.replicate after 32)) 32 = some (before + front.length) := by
    have found : find_last_not_of ((List.replicate before 32 ++ front) ++
        last :: List.replicate after 32) 32 =
          some (List.replicate before 32 ++ front).length :=
      find_last_not_of_replicate after lastNotSpace
    simpa [whole] using found
  have firstFound : find_first_not_of (List.replicate before 32 ++
      (str ++ List.replicate after 32)) 32 = some before := by
    cases str with
    | nil => exact absurd rfl nonempty
    | cons first str =>
        apply find_first_not_of_replicate
        rintro rfl
        exact trimmed.1 rfl
  have length : str.length = front.length + 1 := by
    rw [whole, List.length_concat]
  rw [DelSpaceHelper, if_neg (by simp [nonempty])]
  simp only [firstFound, lastFound, Option.getD_some]
  rw [List.drop_append_of_le_length (by simp), List.drop_replicate,
    Nat.sub_self, List.replicate_zero, List.nil_append, Nat.add_sub_cancel_left,
    ← length, List.take_left]

theorem DelSpaceHelper_of_trimmed {str : Bytes} (trimmed : Trimmed str) :
    DelSpaceHelper str = str := by
  by_cases empty : str = []
  · subst empty
    rfl
  · simpa using DelSpaceHelper_spaces 0 0 empty trimmed

theorem DelSpaceHelper_cons_space {str : Bytes} (nonempty : str ≠ [])
    (trimmed : Trimmed str) : DelSpaceHelper (32 :: str) = str := by
  simpa using DelSpaceHelper_spaces 1 0 nonempty trimmed

theorem trimmed_of_not_mem {str : Bytes} (absent : 32 ∉ str) :
    Trimmed str :=
  ⟨fun first => absent (List.mem_of_head? first),
    fun last => absent (List.mem_of_getLast? last)⟩

namespace Method

theorem FromString_toString {method : Method} (known : method ≠ .kInvaild) :
    FromString method.toString = method := by
  cases method with
  | kInvaild => exact absurd rfl known
  | kGet => decide
  | kPost => decide
  | kHead => decide
  | kPut => decide
  | kDelete => decide

theorem not_mem_toString (method : Method) :
    32 ∉ method.toString ∧ 13 ∉ method.toString := by
  cases method <;> decide

end Method

namespace Version

theorem FromString_toString (version : Version) :
    FromString version.toString = version := by
  cases version <;> decide

theorem not_mem_toString (version : Version) :
    32 ∉ version.toString ∧ 13 ∉ version.toString := by
  cases version <;> decide

end Version

namespace CustomHttpParser

def requestLine (request : HttpRequest) : Bytes :=
  request.method.toString ++ kSpace ++ request.path ++ kSpace ++
    request.version.toString

theorem isLine_requestLine {request : HttpRequest}
    (noCR : 13 ∉ request.path) : IsLine (requestLine request) := by
  apply isLine_of_not_mem
  have space : (13 : UInt8) ∉ kSpace := by decide
  simp [requestLine, space, noCR, (Method.not_mem_toString _).2,
    (Version.not_mem_toString _).2]

theorem processRequestLine_requestLine {parser : CustomHttpParser}
    {request : HttpRequest} (type : parser.type = .ReqType)
    (known : request.method ≠ .kInvaild) (noSpace : 32 ∉ request.path) :
    parser.processRequestLine (requestLine request) =
      (true, parser.setRequest { parser.context.request with
        method := request.method
        path := request.path
        version := request.version }) := by
  have line : requestLine request =
      request.method.toString ++
        32 :: (request.path ++ 32 :: request.version.toString) := by
    simp [requestLine, kSpace, ascii]
  have trimMethod := DelSpaceHelper_of_trimmed
    (trimmed_of_not_mem (Method.not_mem_toString request.method).1)
  have trimPath := DelSpaceHelper_of_trimmed (trimmed_of_not_mem noSpace)
  have trimVersion := DelSpaceHelper_of_trimmed
    (trimmed_of_not_mem (Version.not_mem_toString request.version).1)
  have behindMethod := drop_append_cons request.method.toString 32
    (request.path ++ 32 :: request.version.toString)
  have behindPath := drop_append_cons request.path 32
    request.version.toString
  rw [processRequestLine, line,
    idxOf?_append_cons _ (Method.not_mem_toString _).1]
  simp only [type, List.take_left, behindMethod,
    idxOf?_append_cons _ noSpace, behindPath, trimMethod, trimPath,
    trimVersion, Method.FromString_toString known,
    Version.FromString_toString, if_neg known]

/-- Headers that a line can carry. -/
structure PrintableHeader (header : Bytes × Bytes) : Prop where
  name_ne_nil : header.1 ≠ []
  val_ne_nil : header.2 ≠ []
  name_trimmed : Trimmed header.1
  val_trimmed : Trimmed header.2
  name_noColon : 58 ∉ header.1
  name_noCR : 13 ∉ header.1
  val_noCR : 13 ∉ header.2

theorem PrintableHeader.trimmedHeader {header : Bytes × Bytes}
    (printable : PrintableHeader header) :
    trimmedHeader header.1 (32 :: header.2) = some header := by
  have trimName := DelSpaceHelper_of_trimmed printable.name_trimmed
  have trimVal := DelSpaceHelper_cons_space printable.val_ne_nil
    printable.val_trimmed
  rw [KitMuduo.trimmedHeader, trimName, trimVal,
    if_neg printable.name_ne_nil, if_neg printable.val_ne_nil]

theorem PrintableHeader.isLine {header : Bytes × Bytes}
    (printable : PrintableHeader header) :
    IsLine (header.1 ++ 58 :: 32 :: header.2) := by
  apply isLine_of_not_mem
  simp [printable.name_noCR, printable.val_noCR]

/-- The printed headers as the two sides of their colons. -/
theorem flatMap_headerLine (elements : List (Bytes × Bytes)) :
    elements.flatMap headerLine =
      headerLines (elements.map fun header => (header.1, 32 :: header.2)) := by
  rw [headerLines, List.flatMap_map]
  congr 1
  funext header
  simp [headerLine, kColon, kSpace, ascii]

theorem PrintableHeader.isField {header : Bytes × Bytes}
    (printable : PrintableHeader header) :
    IsField (header.1, 32 :: header.2) :=
  ⟨printable.name_noColon, printable.isLine⟩

/-- The parser with some headers stored in its request. -/
def storeHeaders (parser : CustomHttpParser)
    (elements : List (Bytes × Bytes)) : CustomHttpParser :=
  parser.setRequest { parser.context.request with
    headers := insertAll parser.context.request.headers elements }

/-- Lines with both parts of a header are stored one after another. -/
theorem addHeaders_eq_storeHeaders {parser : CustomHttpParser}
    {lines elements : List (Bytes × Bytes)} (type : parser.type = .ReqType)
    (stored : List.Forall₂ (fun line header =>
      KitMuduo.trimmedHeader line.1 line.2 = some header) lines elements) :
    parser.addHeaders lines = parser.storeHeaders elements := by
  induction stored generalizing parser with
  | nil => rfl
  | @cons line header lines elements first _ ih =>
      have added : parser.addHeader line.1 line.2 =
          parser.storeHeaders [header] := by
        rw [addHeader, type]
        simp only [HttpRequest.addHeaderLine, first]
        rfl
      rw [addHeaders, List.foldl_cons, added]
      exact ih type

theorem printableHeader_length (length : Nat) :
    PrintableHeader (ascii "Content-Length", digits length) := by
  have absent : ∀ byte, isDigit byte = false → byte ∉ digits length := by
    intro byte noDigit member
    rw [isDigit_of_mem_digits member] at noDigit
    cases noDigit
  have name : ascii "Content-Length" ≠ [] ∧
      Trimmed (ascii "Content-Length") ∧ 58 ∉ ascii "Content-Length" ∧
        13 ∉ ascii "Content-Length" := by decide
  exact ⟨name.1, digits_ne_nil length, name.2.1,
    trimmed_of_not_mem (absent 32 (by decide)), name.2.2.1, name.2.2.2,
    absent 13 (by decide)⟩

theorem printableHeader_type (contentType : ContentType) :
    PrintableHeader (ascii "Content-Type", contentType.toString) := by
  cases contentType <;>
    exact ⟨by decide, by decide, by decide, by decide, by decide, by decide,
      by decide⟩

theorem lookup_setOwnHeaders_of_ne {request : HttpRequest} {name : Bytes}
    (notLength : name ≠ ascii "Content-Length")
    (notType : name ≠ ascii "Content-Type") :
    request.setOwnHeaders.headers.lookup name =
      request.headers.lookup name := by
  simp only [HttpRequest.setOwnHeaders]
  split_ifs <;> simp [Finmap.lookup_insert_of_ne, notLength, notType]

theorem lookup_setOwnHeaders_contentLength (request : HttpRequest) :
    request.setOwnHeaders.headers.lookup (ascii "Content-Length") =
      if request.body.data.length ≠ 0 then
        some (digits request.body.data.length)
      else
        request.headers.lookup (ascii "Content-Length") := by
  have notType : ascii "Content-Length" ≠ ascii "Content-Type" := by decide
  simp only [HttpRequest.setOwnHeaders]
  split_ifs <;> simp [Finmap.lookup_insert_of_ne, notType]

theorem lookup_setOwnHeaders_contentType (request : HttpRequest) :
    request.setOwnHeaders.headers.lookup (ascii "Content-Type") =
      if request.body.contentType ≠ .kUnknowType then
        some request.body.contentType.toString
      else
        request.headers.lookup (ascii "Content-Type") := by
  have notLength : ascii "Content-Type" ≠ ascii "Content-Length" := by
    decide
  simp only [HttpRequest.setOwnHeaders]
  split_ifs <;> simp [Finmap.lookup_insert_of_ne, notLength]

/-- The headers `toString` prints are its own two and those of the request. -/
theorem lookup_setOwnHeaders_cases {request : HttpRequest}
    {name val : Bytes}
    (stored : request.setOwnHeaders.headers.lookup name = some val) :
    (name, val) = (ascii "Content-Length",
        digits request.body.data.length) ∨
      (name, val) = (ascii "Content-Type",
        request.body.contentType.toString) ∨
      request.headers.lookup name = some val := by
  by_cases isLength : name = ascii "Content-Length"
  · subst isLength
    rw [lookup_setOwnHeaders_contentLength] at stored
    split at stored
    · exact .inl (by rw [Option.some.inj stored])
    · exact .inr (.inr stored)
  · by_cases isType : name = ascii "Content-Type"
    · subst isType
      rw [lookup_setOwnHeaders_contentType] at stored
      split at stored
      · exact .inr (.inl (by rw [Option.some.inj stored]))
      · exact .inr (.inr stored)
    · rw [lookup_setOwnHeaders_of_ne isLength isType] at stored
      exact .inr (.inr stored)

theorem toSize_atoi_digits {length : Nat} (bound : length < 2 ^ 31) :
    toSize (atoi (digits length)) = length := by
  rw [atoi_digits bound, toSize]
  omega

/-- The requests that can be read back. -/
structure Sendable (request : HttpRequest) : Prop where
  method : request.method ≠ .kInvaild
  path_noSpace : 32 ∉ request.path
  path_noCR : 13 ∉ request.path
  noLength : request.headers.lookup (ascii "Content-Length") = none
  printable : ∀ name val, request.headers.lookup name = some val →
    PrintableHeader (name, val)
  body : request.body.data.length < 2 ^ 31

theorem Sendable.printable_elements {request : HttpRequest}
    (sendable : Sendable request)
    (walk : Traversal request.setOwnHeaders.headers) :
    ∀ header ∈ walk.elements, PrintableHeader header := by
  rintro ⟨name, val⟩ member
  have stored := (walk.mem_iff name val).mp member
  rcases lookup_setOwnHeaders_cases stored with length | type | own
  · rw [length]
    exact printableHeader_length _
  · rw [type]
    exact printableHeader_type _
  · exact sendable.printable name val own

/-- The same request came out, and the bytes behind it are still there. -/
structure ReadBack (request : HttpRequest) (rest : Bytes) (turn : Turn) :
    Prop where
  ok : turn.ok = true
  gotAll : turn.parser.context.state = .kGotAll
  method : turn.parser.context.request.method = request.method
  path : turn.parser.context.request.path = request.path
  version : turn.parser.context.request.version = request.version
  headers : ∀ name, name ≠ ascii "Content-Length" →
    name ≠ ascii "Content-Type" →
      turn.parser.context.request.headers.lookup name =
        request.headers.lookup name
  body : turn.parser.context.request.body.data = request.body.data
  readable : turn.buf.readable = rest

/-- The parser behind the request line and the headers of a request. -/
def headRead (request : HttpRequest) : CustomHttpParser where
  context :=
    { state := .kExpectHeaders
      request :=
        { method := request.method
          path := request.path
          version := request.version
          headers := request.setOwnHeaders.headers } }

theorem contentLength_headRead {request : HttpRequest}
    (sendable : Sendable request) :
    (headRead request).contentLength = request.body.data.length := by
  have header : (headRead request).getHeader (ascii "Content-Length") =
      (request.setOwnHeaders.headers.lookup
        (ascii "Content-Length")).getD [] := rfl
  rw [contentLength, header, lookup_setOwnHeaders_contentLength]
  split
  · exact toSize_atoi_digits sendable.body
  · next empty =>
      rw [sendable.noLength]
      exact (not_not.mp empty).symm

/-- The parser behind the request line of a request. -/
def lineRead (request : HttpRequest) : CustomHttpParser where
  context :=
    { state := .kExpectHeaders
      request :=
        { method := request.method
          path := request.path
          version := request.version } }

theorem addHeaders_lineRead {request : HttpRequest}
    (sendable : Sendable request)
    (walk : Traversal request.setOwnHeaders.headers) :
    (lineRead request).addHeaders
        (walk.elements.map fun header => (header.1, 32 :: header.2)) =
      headRead request := by
  have headers : insertAll (lineRead request).context.request.headers
      walk.elements = request.setOwnHeaders.headers :=
    walk.insertAll_elements
  have printable := sendable.printable_elements walk
  rw [addHeaders_eq_storeHeaders rfl (List.forall₂_map_left_iff.mpr
      (List.forall₂_same.mpr fun header member =>
        (printable header member).trimmedHeader)), storeHeaders, headers]
  rfl

theorem Framed.readBack {request : HttpRequest} (sendable : Sendable request)
    {buf : Buffer} {rest : Bytes} {final : Turn}
    (framed : Framed { parser := headRead request, buf := buf }
      (request.body.data ++ rest) final) : ReadBack request rest final := by
  obtain ⟨ok, gotAll, kept, data, split, length, body⟩ := framed
  have sameLength : request.body.data.length = data.length :=
    ((contentLength_headRead sendable).symm.trans length.symm)
  obtain ⟨rfl, readable⟩ := List.append_inj split sameLength
  exact
    { ok := ok
      gotAll := gotAll
      method := by rw [kept]; rfl
      path := by rw [kept]; rfl
      version := by rw [kept]; rfl
      headers := by
        intro name notLength notType
        rw [kept]
        exact lookup_setOwnHeaders_of_ne notLength notType
      body := body
      readable := readable.symm }

/-- The loop reads a printed request back. -/
theorem endsIn_request {request : HttpRequest} (sendable : Sendable request)
    (walk : Traversal request.setOwnHeaders.headers) {buf : Buffer}
    {rest : Bytes} (valid : buf.Valid)
    (read : buf.readable = (request.toString walk).1 ++ rest) :
    EndsIn Turn.hasMore next (ReadBack request rest)
      { parser := {}, buf := buf } := by
  have line : buf.readable = requestLine request ++ (kCRLF ++
      (headerLines (walk.elements.map fun header =>
          (header.1, 32 :: header.2)) ++
        (kCRLF ++ (request.body.data ++ rest)))) := by
    rw [read, ← flatMap_headerLine]
    simp [HttpRequest.toString, requestLine]
  have isLine := isLine_requestLine sendable.path_noCR
  have processed : processRequestLine {} (requestLine request) = _ :=
    processRequestLine_requestLine rfl sendable.method sendable.path_noSpace
  have turned : next { parser := {}, buf := buf } =
      { parser := lineRead request
        buf := skipLine buf (requestLine request) } :=
    (expectRequestLine_of_line valid isLine line
      (by rw [processed])).trans (by rw [processed]; rfl)
  have areFields : ∀ field ∈ walk.elements.map fun header =>
      (header.1, 32 :: header.2), IsField field :=
    List.forall_mem_map.mpr fun header member =>
      (sendable.printable_elements walk header member).isField
  obtain ⟨left, leftValid, leftRead, runs⟩ := returns_headerLines _
    { parser := lineRead request, buf := skipLine buf (requestLine request) }
    areFields rfl (skipLine_valid valid _) rfl (skipLine_readable valid line)
  rw [addHeaders_lineRead sendable walk] at runs
  have enough : (headRead request).contentLength ≤
      (request.body.data ++ rest).length := by
    rw [contentLength_headRead sendable, List.length_append]
    exact Nat.le_add_right _ _
  have blank : EndsIn Turn.hasMore next
      (Framed { parser := headRead request, buf := left }
        (request.body.data ++ rest))
      { parser := headRead request, buf := left } :=
    endsIn_blank rfl rfl leftValid rfl leftRead enough
  obtain ⟨final, returned, framed⟩ := blank
  apply EndsIn.of_body rfl
  rw [turned]
  exact ⟨final, (runs final).mpr returned, framed.readBack sendable⟩

/-- The parser reads a printed request back and leaves what is behind it. -/
theorem parse_toString {request : HttpRequest} (sendable : Sendable request)
    (walk : Traversal request.setOwnHeaders.headers) {buf : Buffer}
    {rest : Bytes} (valid : buf.Valid)
    (read : buf.readable = (request.toString walk).1 ++ rest) :
    ∃ turns ok parser left,
      parse turns {} buf = some (ok, parser, left) ∧
        ReadBack request rest { parser := parser, buf := left, ok := ok } := by
  obtain ⟨final, ⟨turns, result⟩, readBack⟩ :=
    endsIn_request sendable walk valid read
  have some : buf.readableBytes ≠ 0 := by
    rw [← Buffer.readable_length valid, read]
    simp [HttpRequest.toString, kCRLF, ascii]
  refine ⟨turns, final.ok, final.parser, final.buf, ?_, ?_⟩
  · rw [parse, if_neg some, result]
    rfl
  · exact { readBack with }

def sampleRequest : HttpRequest where
  method := .kPost
  path := ascii "/a"
  version := .kHttp11
  headers := Finmap.insert (ascii "Host") (ascii "x") ∅
  body := { data := ascii "ab" }

def sampleWalk : Traversal sampleRequest.setOwnHeaders.headers :=
  ((Traversal.empty.insert (ascii "Host") (ascii "x")).insert
    (ascii "Content-Length") (ascii "2")).insert
      (ascii "Content-Type") (ascii "text/plain")

theorem sendable_sampleRequest : Sendable sampleRequest where
  method := by decide
  path_noSpace := by decide
  path_noCR := by decide
  noLength := by decide
  printable := by
    intro name val stored
    by_cases host : name = ascii "Host"
    · subst host
      have sameVal : ascii "x" = val := by
        simpa [sampleRequest] using stored
      subst sameVal
      constructor <;> decide
    · simp [sampleRequest, Finmap.lookup_insert_of_ne, host] at stored
  body := by decide

theorem parse_toString_sampleRequest :
    ∃ turns ok parser left,
      parse turns {} ((Buffer.new Buffer.kInitSize).append
          ((sampleRequest.toString sampleWalk).1 ++ ascii "GET /")) =
        some (ok, parser, left) ∧
      ReadBack sampleRequest (ascii "GET /")
        { parser := parser, buf := left, ok := ok } :=
  parse_toString sendable_sampleRequest sampleWalk
    (Buffer.append_valid (Buffer.new_valid _) _)
    (Buffer.append_readable (Buffer.new_valid _) _)

end CustomHttpParser

end KitMuduo
