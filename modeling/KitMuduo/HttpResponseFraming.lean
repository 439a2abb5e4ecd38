import KitMuduo.HttpMessageText

/-!
# Where a response ends

A client that keeps the connection open finds the end of a response by its
`Content-Length`.  `toString` stores that header only if there is a body, so
that a response without one is self-delimiting only if a handler, or an earlier
call of `toString`, left a length of zero in the header map.
-/

namespace KitMuduo

open DecimalText

namespace HttpResponse

/-- The calls a handler may make on a response. -/
inductive Call
  | setStateCode (code : Int)
  | setVersion (version : Int)
  | addHeader (head val : Bytes)
  | addHeaderLine (head val : Bytes)
  | setHeaders (headers : StringMap)
  | setConnectionClosed (on : Bool)
  | setContentType (contentType : Int)
  | appendData (data : Bytes)
  | resetBody
  | setBody (body : Body)
  | toString

def apply (response : HttpResponse) : Call → HttpResponse
  | .setStateCode code => { response with stateCode := code }
  | .setVersion version => { response with version := Version.ofInt version }
  | .addHeader head val => response.addHeader head val
  | .addHeaderLine head val => (response.addHeaderLine head val).2
  | .setHeaders headers => { response with headers := headers }
  | .setConnectionClosed on => { response with connectionClosed := on }
  | .setContentType contentType =>
      { response with
        body := response.body.setContentType (ContentType.ofInt contentType) }
  | .appendData data => { response with body := response.body.appendData data }
  | .resetBody => { response with body := response.body.reset }
  | .setBody body => { response with body := body }
  | .toString => response.setOwnHeaders

/-- The response a handler has built from a fresh one. -/
def built (calls : List Call) : HttpResponse :=
  calls.foldl apply {}

/-- Responses to interim, `204` and `304` status codes have no body. -/
def PermitsBody (code : Int) : Prop :=
  ¬ (100 ≤ code ∧ code < 200) ∧ code ≠ 204 ∧ code ≠ 304

instance (code : Int) : Decidable (PermitsBody code) :=
  inferInstanceAs (Decidable (_ ∧ _ ∧ _))

/-- Header names are compared without regard to case. -/
def SameName (first second : Bytes) : Prop :=
  first.map ContentType.tolower = second.map ContentType.tolower

instance (first second : Bytes) : Decidable (SameName first second) :=
  inferInstanceAs (Decidable (_ = _))

/-- Some header of the map announces a body of this length. -/
def Announces (headers : StringMap) (length : Nat) : Prop :=
  ∃ name val, headers.lookup name = some val ∧
    SameName name (ascii "Content-Length") ∧ decimalValue val = some length

/-- Among the headers a walk prints, one announces this length. -/
def EmitsLength {headers : StringMap} (walk : Traversal headers)
    (length : Nat) : Prop :=
  ∃ name val, (name, val) ∈ walk.elements ∧
    SameName name (ascii "Content-Length") ∧ decimalValue val = some length

/-- A text that keeps the connection open says how long its body is. -/
def SelfDelimiting (response : HttpResponse)
    (walk : Traversal response.setOwnHeaders.headers) : Prop :=
  PermitsBody response.stateCode →
    (ascii "Connection", ascii "keep-alive") ∈ walk.elements →
      EmitsLength walk response.body.data.length

theorem emitsLength_iff {headers : StringMap} (walk : Traversal headers)
    (length : Nat) : EmitsLength walk length ↔ Announces headers length := by
  simp only [EmitsLength, Announces, walk.mem_iff]

/-- The value `toString` gives the `Connection` header. -/
def connection (response : HttpResponse) : Bytes :=
  if response.version = .kHttp11 ∧ response.connectionClosed = false then
    ascii "keep-alive"
  else
    ascii "close"

@[simp]
theorem lookup_setOwnHeaders_connection (response : HttpResponse) :
    response.setOwnHeaders.headers.lookup (ascii "Connection") =
      some response.connection := by
  have notType : ascii "Connection" ≠ ascii "Content-Type" := by decide
  have notLength : ascii "Connection" ≠ ascii "Content-Length" := by decide
  have notKeepAlive : ascii "Connection" ≠ ascii "Keep-Alive" := by decide
  simp only [setOwnHeaders, connection]
  split_ifs <;>
    simp [Finmap.lookup_insert_of_ne, notType, notLength, notKeepAlive]

theorem lookup_setOwnHeaders_length {response : HttpResponse}
    (body : response.body.data ≠ []) :
    response.setOwnHeaders.headers.lookup (ascii "Content-Length") =
      some (digits response.body.data.length) := by
  have nonempty : response.body.data.length ≠ 0 := by simpa using body
  rw [setOwnHeaders, if_pos nonempty, Finmap.lookup_insert]

/-- Without a body only the other headers are written over. -/
theorem lookup_setOwnHeaders_of_empty {response : HttpResponse}
    (body : response.body.data = []) {name : Bytes}
    (notConnection : name ≠ ascii "Connection")
    (notKeepAlive : name ≠ ascii "Keep-Alive")
    (notType : name ≠ ascii "Content-Type") :
    response.setOwnHeaders.headers.lookup name =
      response.headers.lookup name := by
  have isEmpty : ¬ response.body.data.length ≠ 0 := by simp [body]
  rw [setOwnHeaders, if_neg isEmpty]
  split_ifs <;>
    simp [Finmap.lookup_insert_of_ne, notConnection, notKeepAlive, notType]

theorem keepsAlive_iff {response : HttpResponse}
    (walk : Traversal response.setOwnHeaders.headers) :
    (ascii "Connection", ascii "keep-alive") ∈ walk.elements ↔
      response.version = .kHttp11 ∧ response.connectionClosed = false := by
  have different : ascii "close" ≠ ascii "keep-alive" := by decide
  rw [walk.mem_iff, lookup_setOwnHeaders_connection, Option.some.injEq,
    connection]
  split
  · next stays => simp [stays]
  · next closes => simp [closes, different]

/-- No header of the other names announces a length. -/
theorem announces_setOwnHeaders_of_empty {response : HttpResponse}
    (body : response.body.data = []) (length : Nat) :
    Announces response.setOwnHeaders.headers length ↔
      Announces response.headers length := by
  have unchanged : ∀ name, SameName name (ascii "Content-Length") →
      response.setOwnHeaders.headers.lookup name =
        response.headers.lookup name := by
    intro name same
    apply lookup_setOwnHeaders_of_empty body
    · rintro rfl
      exact absurd same (by decide)
    · rintro rfl
      exact absurd same (by decide)
    · rintro rfl
      exact absurd same (by decide)
  constructor
  · rintro ⟨name, val, found, same, announced⟩
    exact ⟨name, val, unchanged name same ▸ found, same, announced⟩
  · rintro ⟨name, val, found, same, announced⟩
    exact ⟨name, val, (unchanged name same).trans found, same, announced⟩

theorem announces_setOwnHeaders_of_ne_nil {response : HttpResponse}
    (body : response.body.data ≠ []) :
    Announces response.setOwnHeaders.headers response.body.data.length :=
  ⟨ascii "Content-Length", digits response.body.data.length,
    lookup_setOwnHeaders_length body, rfl, decimalValue_digits _⟩

/-- Whatever calls built it, a response is self-delimiting exactly if it closes
the connection, has a body, or carries a length of zero in its header map. -/
theorem selfDelimiting_iff (calls : List Call)
    (walk : Traversal (built calls).setOwnHeaders.headers) :
    SelfDelimiting (built calls) walk ↔
      (PermitsBody (built calls).stateCode →
        (built calls).version = .kHttp11 →
          (built calls).connectionClosed = false →
            (built calls).body.data ≠ [] ∨
              Announces (built calls).headers 0) := by
  generalize built calls = response at walk
  rw [SelfDelimiting, keepsAlive_iff, emitsLength_iff]
  by_cases body : response.body.data = []
  · rw [announces_setOwnHeaders_of_empty body]
    simp [body]
  · have announced := announces_setOwnHeaders_of_ne_nil body
    simp [body, announced]

/-- The calls of `StaticFileServlet::handle` on a page it cannot open. -/
def missingPageCalls : List Call :=
  [.setVersion 2, .setStateCode 200, .setContentType 7, .setStateCode 500]

/-- The headers of the answer to a missing page. -/
def missingPageWalk :
    Traversal (built missingPageCalls).setOwnHeaders.headers :=
  ((Traversal.empty.insert (ascii "Connection") (ascii "keep-alive")).insert
    (ascii "Keep-Alive") (ascii "timeout=5, max=100")).insert
      (ascii "Content-Type") (ascii "text/html; charset=utf-8")

theorem not_selfDelimiting_missingPage :
    ¬ ∀ (calls : List Call)
      (walk : Traversal (built calls).setOwnHeaders.headers),
        SelfDelimiting (built calls) walk := by
  intro selfDelimiting
  have emits := selfDelimiting missingPageCalls missingPageWalk
    (by decide) (by decide)
  obtain ⟨name, val, member, same, _⟩ := emits
  have others : ∀ header ∈ missingPageWalk.elements,
      ¬ SameName header.1 (ascii "Content-Length") := by decide
  exact others (name, val) member same

end HttpResponse

end KitMuduo
