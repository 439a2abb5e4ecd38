import KitMuduo.CustomHttpParserInverse
import KitMuduo.CustomHttpParserReads
import KitMuduo.LLhttpHeaders

/-!
# The two request parsers side by side

A request is written down with the blanks around its header values.  Both
parsers get it in one buffer, with any bytes behind it.  They put the same
request together unless the target has a query, a tab stands beside a header
value, or the hand-written parser does not see how long the body is.
-/

namespace KitMuduo

open DecimalText ListSearch WhileLoop RequestElements

/-- A space or a tab. -/
def IsBlank (c : UInt8) : Prop :=
  c = 32 ∨ c = 9

/-- A header line with the blanks between its colon and its value, and behind
the value. -/
structure WrittenField where
  name : Bytes
  before : Bytes
  value : Bytes
  after : Bytes
  deriving DecidableEq

namespace WrittenField

/-- What stands behind the colon. -/
def right (field : WrittenField) : Bytes :=
  field.before ++ (field.value ++ field.after)

structure WellFormed (field : WrittenField) : Prop where
  name_ne_nil : field.name ≠ []
  name_plain : 58 ∉ field.name ∧ 32 ∉ field.name ∧ 13 ∉ field.name
  before : ∀ c ∈ field.before, IsBlank c
  value_ne_nil : field.value ≠ []
  value_head : ∀ c ∈ field.value.head?, ¬ IsBlank c
  value_last : ∀ c ∈ field.value.getLast?, ¬ IsBlank c
  value_noCR : 13 ∉ field.value
  after : ∀ c ∈ field.after, IsBlank c

/-- The value that llhttp hands on, with the blanks behind it or without. -/
def handed (withBlanks : Bool) (field : WrittenField) : Bytes :=
  if withBlanks then field.value ++ field.after else field.value

@[simp]
theorem handed_true (field : WrittenField) :
    field.handed true = field.value ++ field.after :=
  rfl

@[simp]
theorem handed_false (field : WrittenField) :
    field.handed false = field.value :=
  rfl

/-- Stripping spaces leaves what llhttp hands on. -/
def OnlySpaces (withBlanks : Bool) (field : WrittenField) : Prop :=
  9 ∉ field.before ∧
    if withBlanks then field.after.getLast? ≠ some 32 else 9 ∉ field.after

end WrittenField

/-- A request as it is sent. -/
structure WrittenRequest where
  method : Method
  target : Bytes
  version : Version
  fields : List WrittenField
  body : Bytes
  deriving DecidableEq

namespace WrittenRequest

def lines (request : WrittenRequest) : List (Bytes × Bytes) :=
  request.fields.map fun field => (field.name, field.right)

def text (request : WrittenRequest) : Bytes :=
  request.method.toString ++ kSpace ++ request.target ++ kSpace ++
    request.version.toString ++ kCRLF ++
    (CustomHttpParser.headerLines request.lines ++ (kCRLF ++ request.body))

def IsLengthField (field : WrittenField) : Prop :=
  SameName field.name (ascii "Content-Length")

/-- One of the five methods, HTTP/1.0 or 1.1, fields with different names, and
a body as long as the length field says, or none. -/
structure WellFormed (request : WrittenRequest) : Prop where
  method : request.method ≠ .kInvaild
  target : 32 ∉ request.target ∧ 13 ∉ request.target
  version : request.version = .kHttp10 ∨ request.version = .kHttp11
  fields : ∀ field ∈ request.fields, field.WellFormed
  names : (request.fields.map WrittenField.name).Nodup
  length : ∀ field ∈ request.fields, IsLengthField field →
    decimalValue field.value = some request.body.length
  noLength : (∀ field ∈ request.fields, ¬ IsLengthField field) →
    request.body = []

/-- The elements of the request. -/
def elements (withBlanks : Bool) (request : WrittenRequest) :
    RequestElements where
  method := request.method.toString
  url := request.target
  version := request.version.toString.drop 5
  headers := request.fields.map fun field =>
    (field.name, field.handed withBlanks)
  body := if request.body = [] then [] else [request.body]
  trailers := []

/-- An `int` holds the length.  (The second number is -1 as a `size_t`; no
buffer holds that many bytes.) -/
def LengthFits (length : Nat) : Prop :=
  length < 2 ^ 31 ∨ length = 2 ^ 64 - 1

/-- What both parsers read alike. -/
structure ReadAlike (withBlanks : Bool) (request : WrittenRequest) : Prop where
  noQuery : 63 ∉ request.target
  onlySpaces : ∀ field ∈ request.fields, field.OnlySpaces withBlanks
  framed : request.body = [] ∨
    (∃ field ∈ request.fields, field.name = ascii "Content-Length") ∧
      LengthFits request.body.length

end WrittenRequest

/-! ## The value between the blanks -/

theorem eq_replicate_of_blank {str : Bytes} (blank : ∀ c ∈ str, IsBlank c)
    (noTab : 9 ∉ str) : str = List.replicate str.length 32 := by
  rw [List.eq_replicate_iff]
  refine ⟨rfl, fun c member => ?_⟩
  rcases blank c member with space | tab
  · exact space
  · exact absurd (tab ▸ member) noTab

theorem isBlank_replicate (count : Nat) :
    ∀ c ∈ List.replicate count (32 : UInt8), IsBlank c :=
  fun _ member => .inl (List.eq_of_mem_replicate member)

theorem exists_leading_spaces {str : Bytes} (some : ∃ c ∈ str, c ≠ 32) :
    ∃ count core, str = List.replicate count 32 ++ core ∧ core ≠ [] ∧
      core.head? ≠ .some 32 := by
  induction str with
  | nil =>
      obtain ⟨c, member, _⟩ := some
      cases member
  | cons c str ih =>
      by_cases space : c = 32
      · subst space
        obtain ⟨d, member, other⟩ := some
        have inside := (List.mem_cons.mp member).resolve_left other
        obtain ⟨count, core, rfl, nonempty, head⟩ := ih ⟨d, inside, other⟩
        exact ⟨count + 1, core, rfl, nonempty, head⟩
      · exact ⟨0, c :: str, rfl, by simp, by simpa using space⟩

/-- A string that is not all spaces is some spaces, what stripping leaves, and
some spaces. -/
theorem exists_stripped {str : Bytes} (some : ∃ c ∈ str, c ≠ 32) :
    ∃ before after, str = List.replicate before 32 ++
        (DelSpaceHelper str ++ List.replicate after 32) ∧
      DelSpaceHelper str ≠ [] ∧ Trimmed (DelSpaceHelper str) := by
  obtain ⟨before, back, whole, nonempty, head⟩ := exists_leading_spaces some
  obtain ⟨c, back', rfl⟩ := List.exists_cons_of_ne_nil nonempty
  have other : c ≠ 32 := by simpa using head
  have inReverse : ∃ d ∈ (c :: back').reverse, d ≠ 32 := ⟨c, by simp, other⟩
  obtain ⟨after, core, reversed, coreNonempty, last⟩ :=
    exists_leading_spaces inReverse
  have split : c :: back' = core.reverse ++ List.replicate after 32 := by
    rw [← List.reverse_reverse (c :: back'), reversed]
    simp
  have trimmed : Trimmed core.reverse := by
    constructor
    · rw [split, List.head?_append_of_ne_nil _ (by simpa using coreNonempty)]
        at head
      exact head
    · rwa [List.getLast?_reverse]
  have nonempty : core.reverse ≠ [] := by simpa using coreNonempty
  have stripped : DelSpaceHelper str = core.reverse := by
    rw [whole, split, DelSpaceHelper_spaces before after nonempty trimmed]
  rw [stripped]
  exact ⟨before, after, by rw [whole, split], nonempty, trimmed⟩

namespace WrittenField

variable {field : WrittenField} {withBlanks : Bool}

theorem WellFormed.trimmed (wellFormed : field.WellFormed) :
    Trimmed field.value :=
  ⟨fun space => wellFormed.value_head _ space (.inl rfl),
    fun space => wellFormed.value_last _ space (.inl rfl)⟩

theorem WellFormed.head_append (wellFormed : field.WellFormed) (rest : Bytes) :
    ∀ c ∈ (field.value ++ rest).head?, ¬ IsBlank c := by
  rw [List.head?_append_of_ne_nil _ wellFormed.value_ne_nil]
  exact wellFormed.value_head

theorem WellFormed.handed_eq (wellFormed : field.WellFormed)
    (withBlanks : Bool) :
    ∃ rest, (∀ c ∈ rest, IsBlank c) ∧
      field.handed withBlanks = field.value ++ rest := by
  cases withBlanks with
  | false => exact ⟨[], by simp, (List.append_nil _).symm⟩
  | true => exact ⟨field.after, wellFormed.after, rfl⟩

theorem WellFormed.exists_ne_space (wellFormed : field.WellFormed) :
    ∃ c ∈ field.right, c ≠ 32 := by
  obtain ⟨c, rest, value⟩ :=
    List.exists_cons_of_ne_nil wellFormed.value_ne_nil
  refine ⟨c, by simp [right, value], fun space => ?_⟩
  exact wellFormed.value_head c (by rw [value]; rfl) (.inl space)

theorem WellFormed.trimmedHeader_right (wellFormed : field.WellFormed) :
    trimmedHeader field.name field.right =
      some (field.name, DelSpaceHelper field.right) := by
  have name := DelSpaceHelper_of_trimmed
    (trimmed_of_not_mem wellFormed.name_plain.2.1)
  obtain ⟨_, _, _, value, _⟩ := exists_stripped wellFormed.exists_ne_space
  rw [trimmedHeader, name, if_neg wellFormed.name_ne_nil, if_neg value]

/-- The hand-written parser strips spaces, not tabs. -/
theorem WellFormed.stripped_iff (wellFormed : field.WellFormed) :
    DelSpaceHelper field.right = field.handed withBlanks ↔
      field.OnlySpaces withBlanks := by
  constructor
  · intro same
    obtain ⟨before, after, whole, _, trimmed⟩ :=
      exists_stripped wellFormed.exists_ne_space
    rw [same] at whole trimmed
    obtain ⟨rest, _, handed⟩ := wellFormed.handed_eq withBlanks
    have heads : ∀ c ∈ (field.handed withBlanks ++
        List.replicate after 32).head?, ¬ IsBlank c := by
      rw [handed, List.append_assoc]
      exact wellFormed.head_append _
    obtain ⟨front, back⟩ := append_inj_of_forall wellFormed.before
      (isBlank_replicate before) (wellFormed.head_append _) heads whole
    refine ⟨by simp [front], ?_⟩
    cases withBlanks with
    | false =>
        have spaces := List.append_cancel_left
          (show field.value ++ field.after =
            field.value ++ List.replicate after 32 from back)
        simp [spaces]
    | true =>
        intro last
        apply trimmed.2
        rw [handed_true, List.getLast?_append, last]
        rfl
  · rintro ⟨noTab, rest⟩
    have before := eq_replicate_of_blank wellFormed.before noTab
    cases withBlanks with
    | false =>
        have after := eq_replicate_of_blank wellFormed.after rest
        rw [right, before, after]
        exact DelSpaceHelper_spaces _ _ wellFormed.value_ne_nil
          wellFormed.trimmed
    | true =>
        have trimmed : Trimmed (field.value ++ field.after) := by
          refine ⟨fun space => wellFormed.head_append _ _ space (.inl rfl), ?_⟩
          cases last : field.after.getLast? with
          | none =>
              rw [List.getLast?_eq_none_iff.mp last, List.append_nil]
              exact wellFormed.trimmed.2
          | some c =>
              have other : field.after.getLast? ≠ some 32 := rest
              rw [last] at other
              rw [List.getLast?_append, last]
              exact other
        have stripped := DelSpaceHelper_spaces field.before.length 0
          (by simp [wellFormed.value_ne_nil]) trimmed
        rw [right, before]
        simpa using stripped

end WrittenField

/-! ## What the hand-written parser reads -/

theorem insertAll_map_eq_iff {ι : Type*} {fields : List ι} {name : ι → Bytes}
    {value other : ι → Bytes} (nodup : (fields.map name).Nodup) :
    insertAll ∅ (fields.map fun field => (name field, value field)) =
        insertAll ∅ (fields.map fun field => (name field, other field)) ↔
      ∀ field ∈ fields, value field = other field := by
  have names (value : ι → Bytes) : ((fields.map fun field =>
      (name field, value field)).map Prod.fst).Nodup := by
    rw [List.map_map]
    exact nodup
  constructor
  · intro same field member
    have stored (value : ι → Bytes) : (insertAll ∅ (fields.map fun field =>
        (name field, value field))).lookup (name field) =
          some (value field) :=
      lookup_insertAll_of_mem (names value) (List.mem_map_of_mem member)
    have first := stored value
    rw [same, stored other, Option.some.injEq] at first
    exact first.symm
  · intro same
    congr 1
    exact List.map_congr_left fun field member => by rw [same field member]

namespace WrittenRequest

variable {request : WrittenRequest} {withBlanks : Bool}

/-- The request line as the parsers fill it in. -/
def head (request : WrittenRequest) : HttpRequest where
  method := request.method
  path := request.target
  version := request.version

/-- The headers the hand-written parser stores. -/
def strippedHeaders (request : WrittenRequest) : StringMap :=
  insertAll ∅ (request.fields.map fun field =>
    (field.name, DelSpaceHelper field.right))

theorem text_eq (request : WrittenRequest) (rest : Bytes) :
    request.text ++ rest =
      CustomHttpParser.requestLine request.head ++ (kCRLF ++
        (CustomHttpParser.headerLines request.lines ++
          (kCRLF ++ (request.body ++ rest)))) := by
  simp [text, CustomHttpParser.requestLine, head]

theorem WellFormed.isField (wellFormed : request.WellFormed) :
    ∀ field ∈ request.lines, CustomHttpParser.IsField field := by
  intro line member
  obtain ⟨field, inside, rfl⟩ := List.mem_map.mp member
  have here := wellFormed.fields field inside
  refine ⟨here.name_plain.1, CustomHttpParser.isLine_of_not_mem ?_⟩
  have noCR {blanks : Bytes} (blank : ∀ c ∈ blanks, IsBlank c) :
      13 ∉ blanks := by
    intro inBlanks
    rcases blank 13 inBlanks with same | same <;> cases same
  simp [WrittenField.right, here.name_plain.2.2, here.value_noCR,
    noCR here.before, noCR here.after]

theorem WellFormed.addHeaders_lines (wellFormed : request.WellFormed)
    {parser : CustomHttpParser} (type : parser.type = .ReqType) :
    parser.addHeaders request.lines =
      parser.storeHeaders (request.fields.map fun field =>
        (field.name, DelSpaceHelper field.right)) := by
  apply CustomHttpParser.addHeaders_eq_storeHeaders type
  rw [lines, List.forall₂_map_left_iff, List.forall₂_map_right_iff,
    List.forall₂_same]
  exact fun field member =>
    (wellFormed.fields field member).trimmedHeader_right

/-- The hand-written parser behind the headers of a request. -/
structure BehindHeaders (request : WrittenRequest) (rest : Bytes)
    (turn : CustomHttpParser.Turn) : Prop where
  type : turn.parser.type = .ReqType
  state : turn.parser.context.state = .kExpectHeaders
  valid : turn.buf.Valid
  goesOn : turn.hasMore = true
  read : turn.buf.readable = kCRLF ++ (request.body ++ rest)
  head : turn.parser.context.request =
    { request.head with headers := request.strippedHeaders }

open CustomHttpParser in
theorem returns_text (wellFormed : request.WellFormed) {buf : Buffer}
    {rest : Bytes} (valid : buf.Valid)
    (received : buf.readable = request.text ++ rest) :
    ∃ turn, BehindHeaders request rest turn ∧
      ∀ final, Returns Turn.hasMore next { parser := {}, buf := buf } final ↔
        Returns Turn.hasMore next turn final := by
  rw [text_eq] at received
  have isLine : IsLine (requestLine request.head) :=
    isLine_requestLine wellFormed.target.2
  have processed : processRequestLine {} (requestLine request.head) = _ :=
    processRequestLine_requestLine rfl wellFormed.method wellFormed.target.1
  let line := requestLine request.head
  let turn : Turn :=
    { parser := lineRead request.head, buf := skipLine buf line }
  have turned : next { parser := {}, buf := buf } = turn :=
    (expectRequestLine_of_line valid isLine received
      (by rw [processed])).trans (by rw [processed]; rfl)
  obtain ⟨left, leftValid, read, later⟩ := returns_headerLines request.lines
    turn wellFormed.isField rfl (skipLine_valid valid line) rfl
    (skipLine_readable valid received)
  let stored := turn.parser.storeHeaders (request.fields.map fun field =>
    (field.name, DelSpaceHelper field.right))
  have headers : turn.parser.addHeaders request.lines = stored :=
    wellFormed.addHeaders_lines rfl
  rw [headers] at later
  refine ⟨{ turn with parser := stored, buf := left }, ?_, fun final => ?_⟩
  · exact
      { type := rfl
        state := rfl
        valid := leftValid
        goesOn := rfl
        read := read
        head := rfl }
  · rw [← later final, ← turned]
    exact (returns_body_iff rfl).symm

/-! ## What the parser on top of llhttp reads -/

/-- The headers that llhttp hands on. -/
def handedHeaders (withBlanks : Bool) (request : WrittenRequest) : StringMap :=
  insertAll ∅ (request.fields.map fun field =>
    (field.name, field.handed withBlanks))

open GatheredValues in
/-- With different names nothing is appended to what a name has. -/
theorem gather_eq_insertAll {headers : List (Bytes × Bytes)} {map : StringMap}
    (named : ∀ header ∈ headers, header.1 ≠ [])
    (nodup : (headers.map Prod.fst).Nodup)
    (fresh : ∀ header ∈ headers, map.lookup header.1 = none) :
    gather [] Prod.fst Prod.snd headers map = insertAll map headers := by
  induction headers generalizing map with
  | nil => rfl
  | cons header headers ih =>
      rw [List.forall_mem_cons] at named fresh
      rw [List.map_cons, List.nodup_cons] at nodup
      have added : addValue [] header.1 header.2 map =
          map.insert header.1 header.2 := by
        rw [addValue, if_neg named.1, fresh.1]
        rfl
      have stillFresh : ∀ other ∈ headers,
          (map.insert header.1 header.2).lookup other.1 = none := by
        intro other member
        have apart : other.1 ≠ header.1 := fun same =>
          nodup.1 (same ▸ List.mem_map_of_mem member)
        rw [Finmap.lookup_insert_of_ne _ apart]
        exact fresh.2 other member
      have later := ih named.2 nodup.2 stillFresh
      rw [insertAll, List.foldl_cons, ← insertAll, ← later]
      simp only [gather, List.foldl_cons, added]

theorem WellFormed.headerMap_eq (wellFormed : request.WellFormed)
    (withBlanks : Bool) :
    RequestFragments.headerMap
        (request.elements withBlanks).fragments.headers =
      request.handedHeaders withBlanks := by
  rw [headerMap_fragments]
  apply gather_eq_insertAll
  · rintro header member
    obtain ⟨field, inside, rfl⟩ := List.mem_map.mp member
    exact (wellFormed.fields field inside).name_ne_nil
  · rw [elements, List.map_map]
    exact wellFormed.names
  · intro header _
    exact Finmap.lookup_empty _

theorem version_read {version : Version}
    (known : version = .kHttp10 ∨ version = .kHttp11) :
    Version.FromString (ascii "HTTP/" ++ version.toString.drop 5) =
      version := by
  rcases known with rfl | rfl <;> decide

theorem bodyOf_data (headers : StringMap) (elements : List Bytes) :
    (RequestFragments.bodyOf headers elements).data = elements.flatten := by
  have general (body : Body) :
      (elements.foldl (fun body data => LLhttpParser.addBody body
        ((headers.lookup (ascii "Content-Type")).getD []) data) body).data =
        body.data ++ elements.flatten := by
    induction elements generalizing body with
    | nil => simp
    | cons element elements ih =>
        rw [List.foldl_cons, ih]
        simp [LLhttpParser.addBody, Body.appendData, Body.setContentType]
  exact general {}

theorem elements_body (withBlanks : Bool) (request : WrittenRequest) :
    (request.elements withBlanks).body.flatten = request.body := by
  rw [elements]
  split
  · next empty => exact empty.symm
  · simp

theorem parseUrl_iff (target : Bytes) :
    (target = (LLhttpParser.parseUrl target {}).path ∧
        ∅ = (LLhttpParser.parseUrl target {}).queryParams) ↔
      63 ∉ target := by
  by_cases query : 63 ∈ target
  · obtain ⟨path, params, rfl, noQuery⟩ := List.eq_append_cons_of_mem query
    refine iff_of_false ?_ (not_not.mpr query)
    rw [LLhttpParser.parseUrl, idxOf?_append_cons params noQuery]
    simp only
    rw [LLhttpParser.parseQueryParams_eq, List.take_left]
    rintro ⟨same, _⟩
    have lengths := congrArg List.length same
    simp at lengths
  · refine iff_of_true ?_ query
    rw [LLhttpParser.parseUrl, List.idxOf?_eq_none_iff.mpr query]
    exact ⟨rfl, rfl⟩

/-! ## When they agree -/

/-- The same in all that a parser fills in; of a body its bytes. -/
structure SameRequest (request other : HttpRequest) : Prop where
  method : request.method = other.method
  path : request.path = other.path
  queryParams : request.queryParams = other.queryParams
  version : request.version = other.version
  headers : request.headers = other.headers
  body : request.body.data = other.body.data

/-- Fresh parsers, each given the buffer, return and leave the same request and
the same unread bytes. -/
def ParsersAgree {σ : Type*} (llhttp : LLhttp σ) (buf : Buffer) : Prop :=
  ∃ turns ok parser left,
    CustomHttpParser.parse turns {} buf = some (ok, parser, left) ∧
      SameRequest parser.context.request
        (LLhttpParser.requestOf llhttp buf) ∧
      left.readable =
        ((LLhttpParser.new llhttp).parseRequest llhttp buf).2.2.readable

theorem WellFormed.sameRequest_iff (wellFormed : request.WellFormed)
    (withBlanks : Bool) (headers : StringMap) (body : Body) :
    SameRequest { request.head with headers := headers, body := body }
        (request.elements withBlanks).fragments.assembled ↔
      63 ∉ request.target ∧ headers = request.handedHeaders withBlanks ∧
        body.data = request.body := by
  have method : (request.elements withBlanks).fragments.assembled.method =
      request.method := Method.FromString_toString wellFormed.method
  have version : (request.elements withBlanks).fragments.assembled.version =
      request.version := version_read wellFormed.version
  have handed : (request.elements withBlanks).fragments.assembled.headers =
      request.handedHeaders withBlanks := wellFormed.headerMap_eq withBlanks
  have bytes :
      (request.elements withBlanks).fragments.assembled.body.data =
        request.body := by
    rw [RequestFragments.assembled, bodyOf_data, ← elements_body withBlanks]
    simp [fragments, Function.comp_def]
  have target : (request.elements withBlanks).fragments.url.flatten =
      request.target := by
    simp [elements, fragments]
  rw [← parseUrl_iff request.target]
  constructor
  · rintro ⟨_, path, queryParams, _, sameHeaders, sameBody⟩
    rw [RequestFragments.assembled, target] at path queryParams
    exact ⟨⟨path, queryParams⟩, sameHeaders.trans handed, sameBody.trans bytes⟩
  · rintro ⟨⟨path, queryParams⟩, sameHeaders, sameBody⟩
    refine ⟨method.symm, ?_, ?_, version.symm, sameHeaders.trans handed.symm,
      sameBody.trans bytes.symm⟩
    · rw [RequestFragments.assembled, target]
      exact path
    · rw [RequestFragments.assembled, target]
      exact queryParams

/-- The length the hand-written parser reads in its headers. -/
def strippedLength (request : WrittenRequest) : Nat :=
  CustomHttpParser.toSize (atoi
    ((request.strippedHeaders.lookup (ascii "Content-Length")).getD []))

theorem BehindHeaders.contentLength_eq {rest : Bytes}
    {turn : CustomHttpParser.Turn} (behind : BehindHeaders request rest turn) :
    turn.parser.contentLength = request.strippedLength := by
  rw [CustomHttpParser.contentLength, CustomHttpParser.getHeader, behind.type]
  simp only [behind.head, HttpRequest.getHeader]
  rfl

open CustomHttpParser in
theorem parsersAgree_iff_parts {σ : Type*} {llhttp : LLhttp σ}
    (wellFormed : request.WellFormed) {buf : Buffer} {rest : Bytes}
    (valid : buf.Valid) (received : buf.readable = request.text ++ rest)
    (delivers : llhttp.DeliversAtOnce request.text rest
      (request.elements withBlanks)) :
    ParsersAgree llhttp buf ↔
      63 ∉ request.target ∧
        request.strippedHeaders = request.handedHeaders withBlanks ∧
        request.strippedLength = request.body.length := by
  obtain ⟨turn, behind, runs⟩ := returns_text wellFormed valid received
  obtain ⟨p, parsed, _, _⟩ :=
    LLhttpParser.parseRequest_of_deliversAtOnce delivers received
  have unread : ((LLhttpParser.new llhttp).parseRequest llhttp buf
      ).2.2.readable = rest := by
    rw [parsed]
    exact Buffer.reset_of_readable valid received
  have nonempty : buf.readableBytes ≠ 0 := by
    rw [← Buffer.readable_length valid, received, text_eq]
    simp [kCRLF, ascii]
  have length := behind.contentLength_eq
  have head := behind.head
  rw [ParsersAgree, LLhttpParser.requestOf_eq delivers received, unread]
  constructor
  · rintro ⟨turns, ok, parser, left, result, same, left_eq⟩
    rw [parse, if_neg nonempty, Option.map_eq_some_iff] at result
    obtain ⟨final, returned, equal⟩ := result
    cases equal
    obtain ⟨_, _, kept, data, split, dataLength, body⟩ :=
      returns_blank behind.type behind.state behind.valid behind.goesOn
        behind.read ((runs final).mp ⟨turns, returned⟩)
    rw [behind.head] at kept body
    rw [kept, wellFormed.sameRequest_iff] at same
    obtain ⟨noQuery, headers, bytes⟩ := same
    refine ⟨noQuery, headers, ?_⟩
    rw [← length, ← dataLength, ← bytes, body]
    rfl
  · rintro ⟨noQuery, headers, announced⟩
    rw [← length] at announced
    obtain ⟨final, returned, _, _, kept, data, split, dataLength, body⟩ :=
      endsIn_blank behind.type behind.state behind.valid behind.goesOn
        behind.read (by rw [announced, List.length_append]; omega)
    obtain ⟨turns, result⟩ := (runs final).mpr returned
    rw [behind.head] at kept body
    obtain ⟨same, left⟩ := List.append_inj split
      (announced.symm.trans dataLength.symm)
    refine ⟨turns, final.ok, final.parser, final.buf, ?_, ?_, left.symm⟩
    · rw [parse, if_neg nonempty, result]
      rfl
    · rw [kept, wellFormed.sameRequest_iff]
      exact ⟨noQuery, headers, body.trans same.symm⟩

theorem strippedHeaders_eq_iff (wellFormed : request.WellFormed) :
    request.strippedHeaders = request.handedHeaders withBlanks ↔
      ∀ field ∈ request.fields, field.OnlySpaces withBlanks := by
  rw [strippedHeaders, handedHeaders, insertAll_map_eq_iff wellFormed.names]
  exact forall₂_congr fun field member =>
    (wellFormed.fields field member).stripped_iff

theorem toSize_atoi_iff {bytes tail : Bytes} {number : Nat}
    (decimal : decimalValue bytes = some number)
    (ends : ∀ c ∈ tail.head?, isDigit c = false) :
    CustomHttpParser.toSize (atoi (bytes ++ tail)) = number ↔
      LengthFits number := by
  rw [CustomHttpParser.toSize, atoi, strtol_of_decimalValue decimal ends,
    LengthFits, Int.bmod_def]
  split <;> omega

/-- The length is read if its name is spelled as the parser looks for it and an
`int` holds it. -/
theorem strippedLength_iff (wellFormed : request.WellFormed)
    (headers : request.strippedHeaders = request.handedHeaders withBlanks) :
    request.strippedLength = request.body.length ↔
      request.body = [] ∨
        (∃ field ∈ request.fields, field.name = ascii "Content-Length") ∧
          LengthFits request.body.length := by
  rw [strippedLength, headers]
  by_cases spelled : ∃ field ∈ request.fields,
      field.name = ascii "Content-Length"
  · obtain ⟨field, member, name⟩ := spelled
    have here := wellFormed.fields field member
    have decimal := wellFormed.length field member (congrArg _ name)
    obtain ⟨rest, blank, handed⟩ := here.handed_eq withBlanks
    have stored : (request.handedHeaders withBlanks).lookup
        (ascii "Content-Length") = some (field.value ++ rest) := by
      rw [← name, ← handed]
      apply lookup_insertAll_of_mem
      · rw [List.map_map]
        exact wellFormed.names
      · exact List.mem_map_of_mem member
    have ends : ∀ c ∈ rest.head?, isDigit c = false := by
      intro c first
      rcases blank c (List.mem_of_head? first) with rfl | rfl <;> rfl
    rw [stored, Option.getD_some, toSize_atoi_iff decimal ends]
    constructor
    · exact fun fits => .inr ⟨⟨field, member, name⟩, fits⟩
    · rintro (empty | ⟨_, fits⟩)
      · rw [empty]
        exact .inl (by decide)
      · exact fits
  · have absent : (request.handedHeaders withBlanks).lookup
        (ascii "Content-Length") = none := by
      rw [handedHeaders, lookup_insertAll_of_not_mem]
      · exact Finmap.lookup_empty _
      · rw [List.map_map]
        rintro member
        obtain ⟨field, inside, name⟩ := List.mem_map.mp member
        exact spelled ⟨field, inside, name⟩
    rw [absent, Option.getD_none, atoi_nil]
    constructor
    · intro none
      exact .inl (List.eq_nil_of_length_eq_zero none.symm)
    · rintro (empty | ⟨some, _⟩)
      · rw [empty]
        rfl
      · exact absurd some spelled

/-- The parsers agree exactly on the requests that both read alike. -/
theorem parsersAgree_iff {σ : Type*} {llhttp : LLhttp σ}
    (wellFormed : request.WellFormed) {buf : Buffer} {rest : Bytes}
    (valid : buf.Valid) (received : buf.readable = request.text ++ rest)
    (delivers : llhttp.DeliversAtOnce request.text rest
      (request.elements withBlanks)) :
    ParsersAgree llhttp buf ↔ request.ReadAlike withBlanks := by
  rw [parsersAgree_iff_parts wellFormed valid received delivers]
  constructor
  · rintro ⟨noQuery, headers, length⟩
    exact ⟨noQuery, (strippedHeaders_eq_iff wellFormed).mp headers,
      (strippedLength_iff wellFormed headers).mp length⟩
  · rintro ⟨noQuery, onlySpaces, framed⟩
    have headers := (strippedHeaders_eq_iff wellFormed).mpr onlySpaces
    exact ⟨noQuery, headers,
      (strippedLength_iff wellFormed headers).mpr framed⟩

/-- A request without a body. -/
def getRequest (target : Bytes) : WrittenRequest where
  method := .kGet
  target := target
  version := .kHttp11
  fields := [⟨ascii "Host", ascii " ", ascii "kit", []⟩]
  body := []

theorem getRequest_wellFormed {target : Bytes}
    (plain : 32 ∉ target ∧ 13 ∉ target) : (getRequest target).WellFormed where
  method := by rintro ⟨⟩
  target := plain
  version := .inr rfl
  fields := by
    intro field member
    rw [List.mem_singleton.mp member]
    constructor <;> simp [ascii, IsBlank]
  names := by simp [getRequest]
  length := by
    intro field member isLength
    rw [List.mem_singleton.mp member] at isLength
    exact absurd isLength (by simp [IsLengthField, SameName, ascii])
  noLength := fun _ => rfl

theorem received_valid (bytes : Bytes) :
    (LLhttpParser.received bytes).Valid :=
  Buffer.append_valid (Buffer.new_valid _) _

theorem parsersAgree_index :
    ParsersAgree RequestScanner.llhttp
      (LLhttpParser.received
        ((getRequest (ascii "/index")).text ++ ascii "GET")) :=
  (parsersAgree_iff (getRequest_wellFormed (by decide)) (received_valid _)
    (Buffer.append_readable (Buffer.new_valid _) _)
    (show RequestScanner.llhttp.DeliversAtOnce _ _
      ((getRequest (ascii "/index")).elements false) from ⟨_, rfl⟩)).mpr
    ⟨by decide, by simp [getRequest, WrittenField.OnlySpaces, ascii],
      .inl rfl⟩

/-- A query stays in the path of the hand-written parser. -/
theorem not_parsersAgree_query :
    ¬ ∀ (request : WrittenRequest) (rest : Bytes) (buf : Buffer),
      request.WellFormed → buf.Valid → buf.readable = request.text ++ rest →
      RequestScanner.llhttp.DeliversAtOnce request.text rest
        (request.elements false) →
      ParsersAgree RequestScanner.llhttp buf := by
  intro always
  have wellFormed : (getRequest (ascii "/index?a=1")).WellFormed :=
    getRequest_wellFormed (by decide)
  have received := Buffer.append_readable (Buffer.new_valid Buffer.kInitSize)
    ((getRequest (ascii "/index?a=1")).text ++ ascii "GET")
  have delivers : RequestScanner.llhttp.DeliversAtOnce
      (getRequest (ascii "/index?a=1")).text (ascii "GET")
      ((getRequest (ascii "/index?a=1")).elements false) := ⟨_, rfl⟩
  have agree := always _ _ _ wellFormed (received_valid _) received delivers
  have parts := (parsersAgree_iff_parts wellFormed (received_valid _) received
    delivers).mp agree
  exact parts.1 (by decide)

end WrittenRequest

end KitMuduo
