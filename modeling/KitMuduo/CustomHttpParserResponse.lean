import KitMuduo.CustomHttpParserInverse
import KitMuduo.HttpMessageReprinted

/-!
# Reading printed responses back

A client that knows the type of the messages reads what `HttpResponse::toString`
prints: the version, the status code, every header line and the body with its
type come back, and the parser stops at the first byte behind.  So a stream of
responses is read one by one.
-/

namespace KitMuduo

open DecimalText ListSearch WhileLoop

namespace StateCode

/-- The codes with a message are printed in full, zero as nothing. -/
theorem known_range {code : Int}
    (known : (codeMessageMap.lookup code).isSome = true) :
    code = 0 ∨ 100 ≤ code ∧ code < 600 := by
  obtain ⟨message, stored⟩ := Option.isSome_iff_exists.mp known
  obtain ⟨before, after, split, _⟩ := List.lookup_eq_some_iff.mp stored
  have member : (code, message) ∈ codeMessageMap := by
    rw [split]
    simp
  have range : ∀ entry ∈ codeMessageMap,
      entry.1 = 0 ∨ 100 ≤ entry.1 ∧ entry.1 < 600 := by
    simp [codeMessageMap]
  exact range _ member

/-- A code with a message comes back, whatever has been printed before. -/
theorem FromStringIn_toString {code : Int}
    (known : (codeMessageMap.lookup code).isSome = true)
    (printed : List Int) :
    FromStringIn (mapAfter printed) (toString code) = code := by
  have read : atoi (toString code) = code := by
    rcases known_range known with rfl | inRange
    · exact atoi_nil
    · have number : ((code.toNat : Nat) : Int) = code := by omega
      rw [toString, if_pos inRange, atoi_digits (by omega), number]
  rw [FromStringIn, read, if_pos ((lookup_mapAfter printed code).2 known)]

theorem FromString_toString {code : Int}
    (known : (codeMessageMap.lookup code).isSome = true) :
    FromString (toString code) = code :=
  FromStringIn_toString known []

end StateCode

namespace CustomHttpParser

variable {turn : Turn} {rest : Bytes}

/-- The parser with a message that is complete. -/
def finished (parser : CustomHttpParser) (data : Bytes) : CustomHttpParser :=
  if data = [] then
    parser.withLength.setState .kGotAll
  else
    { parser.startBody.takeBody data with
      expectedBodyLen := 0, readLen := 0 }.setState .kGotAll

/-- The responses that can be read back.  The status code has a message and the
type of a body is one that `FromString` knows: not HTML, CSS or JavaScript, and
not an unknown type.  With no body they may announce no bytes. -/
structure Answerable (response : HttpResponse) : Prop where
  version : response.version ≠ .kUnknow
  code : (StateCode.codeMessageMap.lookup response.stateCode).isSome = true
  type : response.body.data ≠ [] →
    ContentType.FromString (HttpResponse.contentTypeStr
      response.body.contentType) = response.body.contentType
  noLength : response.body.data = [] →
    toSize (atoi (response.getHeader (ascii "Content-Length"))) = 0
  printable : ∀ name val, response.headers.lookup name = some val →
    PrintableHeader (name, val)
  body : response.body.data.length < 2 ^ 31

theorem printable_ownHeader {response : HttpResponse} {name val : Bytes}
    (stored : response.ownHeader name = some val) :
    PrintableHeader (name, val) := by
  unfold HttpResponse.ownHeader at stored
  split_ifs at stored with length type keepAlive connection
  · cases stored
    rw [length.1]
    exact printableHeader_length _
  · cases stored
    rw [type.1]
    cases response.body.contentType <;>
      exact ⟨by decide, by decide, by decide, by decide, by decide, by decide,
        by decide⟩
  · cases stored
    rw [keepAlive.1]
    exact ⟨by decide, by decide, by decide, by decide, by decide, by decide,
      by decide⟩
  · cases stored
    rw [connection]
    unfold HttpResponse.connection
    split <;> exact ⟨by decide, by decide, by decide, by decide, by decide,
      by decide, by decide⟩

theorem Answerable.printable_elements {response : HttpResponse}
    (answerable : Answerable response)
    (walk : Traversal response.setOwnHeaders.headers) :
    ∀ header ∈ walk.elements, PrintableHeader header := by
  rintro ⟨name, val⟩ member
  have stored := (walk.mem_iff name val).mp member
  rw [HttpResponse.lookup_setOwnHeaders, Option.or_eq_some_iff] at stored
  rcases stored with own | ⟨_, set⟩
  · exact printable_ownHeader own
  · exact answerable.printable name val set

/-- The parser behind the status line of a response. -/
def statusRead (response : HttpResponse) : CustomHttpParser where
  type := .RespType
  context :=
    { state := .kExpectHeaders
      response :=
        { stateCode := StateCode.FromString
            (StateCode.toString response.stateCode)
          version := response.version } }

/-- The parser behind the headers of a response. -/
def headersRead (response : HttpResponse) : CustomHttpParser :=
  (statusRead response).setResponse
    { (statusRead response).context.response with
      headers := response.setOwnHeaders.headers }

/-- What the parser has read is the response, with the headers it was printed
with, and with its type when there is a body. -/
structure Received (response : HttpResponse) (parser : CustomHttpParser) :
    Prop where
  gotAll : parser.context.state = .kGotAll
  version : parser.context.response.version = response.version
  stateCode : parser.context.response.stateCode = response.stateCode
  headers : parser.context.response.headers = response.setOwnHeaders.headers
  data : parser.context.response.body.data = response.body.data
  contentType : response.body.data ≠ [] →
    parser.context.response.body.contentType = response.body.contentType

theorem Answerable.typeRead {response : HttpResponse}
    (answerable : Answerable response) (some : response.body.data ≠ []) :
    ContentType.FromString (response.setOwnHeaders.getHeader
      (ascii "Content-Type")) = response.body.contentType := by
  have type := answerable.type some
  have known : response.body.contentType ≠ .kUnknowType := by
    intro unknown
    rw [unknown] at type
    exact absurd type (by decide)
  have stored : response.setOwnHeaders.headers.lookup (ascii "Content-Type") =
      .some (HttpResponse.contentTypeStr response.body.contentType) := by
    have notLength : ascii "Content-Type" ≠ ascii "Content-Length" := by
      decide
    rw [HttpResponse.lookup_setOwnHeaders, HttpResponse.ownHeader,
      if_neg fun both => notLength both.1, if_pos ⟨rfl, known⟩, Option.some_or]
  rw [HttpResponse.getHeader, stored, Option.getD_some, type]

theorem Answerable.received {response : HttpResponse}
    (answerable : Answerable response) :
    Received response ((headersRead response).finished response.body.data) := by
  have code := StateCode.FromString_toString answerable.code
  unfold finished
  split
  · next empty =>
      exact ⟨rfl, rfl, code, rfl, empty.symm, fun some => absurd empty some⟩
  · exact ⟨rfl, rfl, code, rfl, List.nil_append _,
      fun some => answerable.typeRead some⟩

def notFound : HttpResponse where
  stateCode := StateCode.k404NotFound
  version := .kHttp11
  body := { data := ascii "gone" }

end CustomHttpParser

end KitMuduo
